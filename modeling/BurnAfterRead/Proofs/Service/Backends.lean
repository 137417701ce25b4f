import BurnAfterRead.Proofs.Service.Ledger
import BurnAfterRead.Proofs.Store.Document
import BurnAfterRead.Proofs.Store.KeyValue
import BurnAfterRead.Proofs.Store.TextTable

/-!
# The store makes no difference

The service answers from a store as from a ledger, if the store keeps a list of records: the secrets of
the ledger that have not expired are all in the list, and every record of the list is one of the ledger's
secrets. That relation is kept by every call, whatever expired records the store has lost. So clients
who name secrets by the order of their creation are answered alike over all stores.
-/

namespace BurnAfterRead

/-- A record seals a secret. -/
structure Deposit.SealedBy (d : Deposit) (nonce : Crypto.Nonce) (r : Record) : Prop where
  expiry : r.expiresAt = d.expiresAt
  token : Crypto.encrypt nonce (Crypto.utf8 d.plaintext) d.key = .ok r.value

/-- What a list of records has to do with a ledger whose secrets go by the given identifiers. -/
structure Ledger.Tracks (name : Nat → String) (nonce : Nat → Crypto.Nonce) (now : Instant) (l : Ledger)
    (rs : List Record) : Prop where
  injective : ∀ i j, i < l.length → j < l.length → name i = name j → i = j
  kept : ∀ (i : Nat) (d : Deposit), l[i]? = some (some d) → d.expiresAt.notAfter now = false →
    ∃ r ∈ rs, r.id = name i
  known : ∀ r ∈ rs, ∃ (i : Nat) (d : Deposit), r.id = name i ∧ l[i]? = some (some d) ∧
    d.SealedBy (nonce i) r

namespace Ledger.Tracks

variable {name : Nat → String} {nonce : Nat → Crypto.Nonce} {now : Instant} {l : Ledger}
  {rs rs' : List Record}

theorem nil : Tracks name nonce now [] [] :=
  ⟨fun i _ hi => absurd hi (Nat.not_lt_zero i), fun _ _ hd => (nomatch hd), fun _ hr => (nomatch hr)⟩

theorem later (h : Tracks name nonce now l rs) {now' : Instant} (hle : now.notAfter now' = true) :
    Tracks name nonce now' l rs := by
  refine ⟨h.injective, fun i d hd hlive => h.kept i d hd ?_, h.known⟩
  cases hexpired : d.expiresAt.notAfter now with
  | false => rfl
  | true =>
    rw [Instant.notAfter_trans hexpired hle] at hlive
    cases hlive

/-- The record that goes by the name of a secret is that secret's. -/
theorem sealed_of_id (h : Tracks name nonce now l rs) {r : Record} (hr : r ∈ rs) {i : Nat}
    (hi : i < l.length) (hid : r.id = name i) :
    ∃ d : Deposit, l[i]? = some (some d) ∧ d.SealedBy (nonce i) r := by
  obtain ⟨j, d, hj, hd, hsealed⟩ := h.known r hr
  obtain ⟨hlt, -⟩ := List.getElem?_eq_some_iff.1 hd
  obtain rfl := h.injective i j hi hlt (hid.symm.trans hj)
  exact ⟨d, hd, hsealed⟩

theorem lapse (h : Tracks name nonce now l rs) (hlapse : Lapse now rs rs') :
    Tracks name nonce now l rs' := by
  refine ⟨h.injective, fun i d hd hlive => ?_, fun r hr => h.known r (hlapse.sublist.subset hr)⟩
  obtain ⟨r, hr, hid⟩ := h.kept i d hd hlive
  obtain ⟨hi, -⟩ := List.getElem?_eq_some_iff.1 hd
  obtain ⟨d', hd', hsealed⟩ := h.sealed_of_id hr hi hid
  rw [hd] at hd'
  obtain rfl := Option.some.inj (Option.some.inj hd')
  refine ⟨r, hlapse.kept r hr ?_, hid⟩
  rw [Record.isExpired, hsealed.expiry]
  exact hlive

/-- What a lookup of a secret's identifier comes to. -/
theorem find? (h : Tracks name nonce now l rs) {i : Nat} (hi : i < l.length) :
    (rs.find? (·.id == name i) = none ∧
      ∀ d : Deposit, l[i]? = some (some d) → d.expiresAt.notAfter now = true) ∨
    ∃ r d, rs.find? (·.id == name i) = some r ∧ r ∈ rs ∧ r.id = name i ∧ l[i]? = some (some d) ∧
      d.SealedBy (nonce i) r := by
  cases hfind : rs.find? (·.id == name i) with
  | none =>
    refine Or.inl ⟨rfl, fun d hd => ?_⟩
    cases hexpired : d.expiresAt.notAfter now with
    | true => rfl
    | false =>
      obtain ⟨r, hr, hid⟩ := h.kept i d hd hexpired
      exact absurd (beq_iff_eq.2 hid) (List.find?_eq_none.1 hfind r hr)
  | some r =>
    have hr := List.mem_of_find?_eq_some hfind
    have hid := List.find?_some hfind
    obtain ⟨d, hd, hsealed⟩ := h.sealed_of_id hr hi (beq_iff_eq.1 hid)
    exact Or.inr ⟨r, d, rfl, hr, beq_iff_eq.1 hid, hd, hsealed⟩

/-- Taking a secret out of the ledger and its record out of the list. -/
theorem erase (h : Tracks name nonce now l rs) {i : Nat} (hi : i < l.length) :
    Tracks name nonce now (l.set i none) (rs.filter (·.id != name i)) := by
  refine ⟨fun j k hj hk => ?_, fun j d hd hlive => ?_, fun r hr => ?_⟩
  · rw [List.length_set] at hj hk
    exact h.injective j k hj hk
  · rw [List.getElem?_set] at hd
    split at hd
    · cases hd
    · rename_i hne
      obtain ⟨r, hr, hid⟩ := h.kept j d hd hlive
      obtain ⟨hj, -⟩ := List.getElem?_eq_some_iff.1 hd
      refine ⟨r, List.mem_filter.2 ⟨hr, bne_iff_ne.2 fun heq => hne ?_⟩, hid⟩
      exact h.injective i j hi hj (heq.symm.trans hid)
  · obtain ⟨hr, hid⟩ := List.mem_filter.1 hr
    obtain ⟨j, d, hj, hd, hsealed⟩ := h.known r hr
    refine ⟨j, d, hj, ?_, hsealed⟩
    rw [List.getElem?_set, if_neg]
    · exact hd
    · rintro rfl
      exact bne_iff_ne.1 hid hj

/-- Taking the record of an expired secret out of the list. -/
theorem drop (h : Tracks name nonce now l rs) {i : Nat} (hi : i < l.length)
    (hexpired : ∀ d : Deposit, l[i]? = some (some d) → d.expiresAt.notAfter now = true) :
    Tracks name nonce now l (rs.filter (·.id != name i)) := by
  refine ⟨h.injective, fun j d hd hlive => ?_, fun r hr => h.known r (List.mem_filter.1 hr).1⟩
  obtain ⟨r, hr, hid⟩ := h.kept j d hd hlive
  obtain ⟨hj, -⟩ := List.getElem?_eq_some_iff.1 hd
  refine ⟨r, List.mem_filter.2 ⟨hr, bne_iff_ne.2 fun heq => ?_⟩, hid⟩
  obtain rfl := h.injective i j hi hj (heq.symm.trans hid)
  rw [hexpired d hd] at hlive
  cases hlive

theorem push (h : Tracks name nonce now l rs) {d : Deposit} {r : Record}
    (hsealed : d.SealedBy (nonce l.length) r) (hid : r.id = name l.length)
    (hfresh : ∀ i < l.length, name i ≠ name l.length) :
    Tracks name nonce now (l ++ [some d]) (rs ++ [r]) := by
  refine ⟨fun j k hj hk heq => ?_, fun j e he hlive => ?_, fun x hx => ?_⟩
  · rw [List.length_append, List.length_singleton] at hj hk
    rcases Nat.lt_succ_iff_lt_or_eq.1 hj with hj | rfl <;>
      rcases Nat.lt_succ_iff_lt_or_eq.1 hk with hk | rfl
    · exact h.injective j k hj hk heq
    · exact absurd heq (hfresh j hj)
    · exact absurd heq.symm (hfresh k hk)
    · rfl
  · rcases Nat.lt_or_ge j l.length with hj | hj
    · rw [List.getElem?_append_left hj] at he
      obtain ⟨x, hx, hxid⟩ := h.kept j e he hlive
      exact ⟨x, List.mem_append_left _ hx, hxid⟩
    · rw [List.getElem?_append_right hj, List.getElem?_singleton] at he
      split at he
      · rename_i hzero
        obtain rfl : j = l.length := by omega
        exact ⟨r, List.mem_append_right _ List.mem_cons_self, hid⟩
      · cases he
  · rcases List.mem_append.1 hx with hx | hx
    · obtain ⟨j, e, hj, he, hsealed'⟩ := h.known x hx
      obtain ⟨hlt, -⟩ := List.getElem?_eq_some_iff.1 he
      exact ⟨j, e, hj, by rw [List.getElem?_append_left hlt, he], hsealed'⟩
    · rw [List.mem_singleton.1 hx]
      exact ⟨l.length, d, hid, List.getElem?_concat_length, hsealed⟩

end Ledger.Tracks

namespace Service

section Keeping

variable {σ : Type} {store : Store σ} {empty st : σ} {identifier : BitVec 128 → String}
  {chance : Nat → Chance} {s : Service} {now : Instant} {l : Ledger} {rs : List Record}

/-- A list of records, and a ledger of secrets that go by the identifiers of their draws. -/
def Tracks (identifier : BitVec 128 → String) (chance : Nat → Chance) (now : Instant) (l : Ledger)
    (rs : List Record) : Prop :=
  l.Tracks (fun i => identifier (chance i).random) (fun i => (chance i).nonce) now rs

/-- A take of a secret that was created is answered as from the ledger, and leaves of the store what it
leaves of the ledger. -/
theorem run_take_of_created (K : Keeping store empty identifier) (hkeeps : K.Keeps st rs)
    (h : Tracks identifier chance now l rs) (hnow : now.WholeMillis) {i : Nat} (hi : i < l.length)
    (passphrase : Option String) {α : Type} (result : Secret → α) :
    ∃ st' rs',
      (s.take (identifier (chance i).random) passphrase result).run (store.answer now) st =
        ((Ledger.take s (fun i => (chance i).nonce) now i passphrase l).1.map fun secret =>
          result { secret with id := identifier (chance i).random }, st') ∧
      K.Keeps st' rs' ∧
      Tracks identifier chance now (Ledger.take s (fun i => (chance i).nonce) now i passphrase l).2 rs' := by
  have hnamed : identifier (chance i).random = "" ∨
      ∃ random, identifier (chance i).random = identifier random := Or.inr ⟨_, rfl⟩
  obtain ⟨st₁, rs₁, hlapse₁, hkeeps₁, hfind⟩ := K.find hkeeps hnow hnamed
  obtain ⟨st₂, rs₂, hlapse₂, hkeeps₂, hremove⟩ := K.remove hkeeps₁ hnow hnamed
  have h₁ := h.lapse hlapse₁
  have h₂ := h₁.lapse hlapse₂
  have hreply := congrArg Prod.fst hfind
  rcases h₁.find? hi with ⟨hnone, hexpired⟩ | ⟨r, d, hsome, hr, hid, hd, hsealed⟩
  · rw [answerFind, hnone] at hreply
    rw [run_take_of_missing s passphrase result hreply, hfind, Ledger.take_of_missing passphrase hexpired]
    exact ⟨st₁, rs₁, rfl, hkeeps₁, h₁⟩
  rw [answerFind, hsome] at hreply
  have hexpiry : r.isExpired now = d.expiresAt.notAfter now := by
    rw [Record.isExpired, hsealed.expiry]
  have hreveal := Repository.reveal_eq hsealed.token (s.keyFor passphrase)
  cases hexpired : d.expiresAt.notAfter now with
  | true =>
    have hall : ∀ e : Deposit, l[i]? = some (some e) → e.expiresAt.notAfter now = true := by
      intro e he
      rw [hd] at he
      rw [← Option.some.inj (Option.some.inj he)]
      exact hexpired
    rw [run_take_of_expired s passphrase result hreply (hexpiry.trans hexpired), hfind, hremove,
      Ledger.take_of_missing passphrase hall]
    exact ⟨st₂, _, rfl, hkeeps₂, h₂.drop hi hall⟩
  | false =>
    cases hread : d.read? (chance i).nonce (s.keyFor passphrase) with
    | none =>
      have htaken : Ledger.take s (fun i => (chance i).nonce) now i passphrase l =
          (.error .decryptionFailed, l) := Ledger.take_of_refused hd hexpired hread
      rw [hread] at hreveal
      rw [run_take_of_refused s passphrase result hreply (hexpiry.trans hexpired) hreveal, hfind, htaken]
      exact ⟨st₁, rs₁, rfl, hkeeps₁, h₁⟩
    | some value =>
      have hthere : rs₂.countP (·.id == identifier (chance i).random) ≠ 0 := by
        have hmem := hlapse₂.kept r hr (hexpiry.trans hexpired)
        exact Nat.ne_of_gt (List.countP_pos_iff.2 ⟨r, hmem, beq_iff_eq.2 hid⟩)
      have hremoved : (store now (.remove (identifier (chance i).random))
          (store now (.find (identifier (chance i).random)) st).2).1 = .ok () := by
        rw [hfind, hremove]
        exact if_neg hthere
      have htaken : Ledger.take s (fun i => (chance i).nonce) now i passphrase l =
          (.ok { value := value, expiresAt := some d.expiresAt }, l.set i none) :=
        Ledger.take_of_opened hd hexpired hread
      rw [hread] at hreveal
      rw [run_take_of_opened s passphrase result hreply (hexpiry.trans hexpired) hreveal hremoved,
        hfind, hremove, htaken]
      refine ⟨st₂, _, ?_, hkeeps₂, h₂.erase hi⟩
      rw [hid, hsealed.expiry]
      rfl

/-- A take of a secret that was not created yet finds nothing. -/
theorem run_take_of_stranger (K : Keeping store empty identifier) (hkeeps : K.Keeps st rs)
    (h : Tracks identifier chance now l rs) (hnow : now.WholeMillis) (passphrase : Option String)
    {α : Type} (result : Secret → α) :
    ∃ st' rs', (s.take "" passphrase result).run (store.answer now) st =
        (.error .secretNotFound, st') ∧
      K.Keeps st' rs' ∧ Tracks identifier chance now l rs' := by
  obtain ⟨st₁, rs₁, hlapse, hkeeps₁, hfind⟩ := K.find hkeeps hnow (Or.inl rfl)
  have h₁ := h.lapse hlapse
  have hnone : rs₁.find? (·.id == "") = none := by
    refine List.find?_eq_none.2 fun r hr heq => ?_
    obtain ⟨i, -, hid, -⟩ := h₁.known r hr
    exact K.identifier_ne (chance i).random (hid.symm.trans (beq_iff_eq.1 heq))
  have hreply := congrArg Prod.fst hfind
  rw [answerFind, hnone] at hreply
  rw [run_take_of_missing s passphrase result hreply, hfind]
  exact ⟨st₁, rs₁, rfl, hkeeps₁, h₁⟩

/-- The identifiers of the first secrets. -/
def identifiers (identifier : BitVec 128 → String) (chance : Nat → Chance) (count : Nat) : List String :=
  (List.range count).map fun i => identifier (chance i).random

theorem length_identifiers (count : Nat) :
    (identifiers identifier chance count).length = count := by
  unfold identifiers
  rw [List.length_map, List.length_range]

theorem identifiers_succ (count : Nat) : identifiers identifier chance (count + 1) =
    identifiers identifier chance count ++ [identifier (chance count).random] := by
  unfold identifiers
  rw [List.range_succ, List.map_append, List.map_singleton]

theorem getD_identifiers_of_lt {i count : Nat} (h : i < count) :
    (identifiers identifier chance count).getD i "" = identifier (chance i).random := by
  unfold identifiers
  rw [List.getD_eq_getElem?_getD, List.getElem?_map, List.getElem?_range h]
  rfl

theorem getD_identifiers_of_le {i count : Nat} (h : count ≤ i) :
    (identifiers identifier chance count).getD i "" = "" := by
  rw [List.getD_eq_getElem?_getD, List.getElem?_eq_none]
  · rfl
  · rw [length_identifiers]
    exact h

/-- A take from a store is answered as from the ledger, and leaves of the store what it leaves of the
ledger. -/
theorem run_take_tracks (K : Keeping store empty identifier) (hkeeps : K.Keeps st rs)
    (h : Tracks identifier chance now l rs) (hnow : now.WholeMillis) (i : Nat)
    (passphrase : Option String) {α : Type} (result : Secret → α) :
    ∃ id st' rs',
      (s.take ((identifiers identifier chance l.length).getD i "") passphrase result).run
          (store.answer now) st =
        ((Ledger.take s (fun i => (chance i).nonce) now i passphrase l).1.map fun secret =>
          result { secret with id := id }, st') ∧
      K.Keeps st' rs' ∧
      Tracks identifier chance now (Ledger.take s (fun i => (chance i).nonce) now i passphrase l).2 rs' := by
  rcases Nat.lt_or_ge i l.length with hi | hi
  · rw [getD_identifiers_of_lt hi]
    exact ⟨_, run_take_of_created K hkeeps h hnow hi passphrase result⟩
  · have hnone : ∀ d : Deposit, l[i]? = some (some d) → d.expiresAt.notAfter now = true := by
      intro d hd
      rw [List.getElem?_eq_none hi] at hd
      cases hd
    rw [getD_identifiers_of_le hi, Ledger.take_of_missing passphrase hnone]
    exact ⟨"", run_take_of_stranger K hkeeps h hnow passphrase result⟩

/-- A call to a store is answered as by the ledger, and leaves of the store what it leaves of the
ledger. -/
theorem perform_tracks (K : Keeping store empty identifier) (hkeeps : K.Keeps st rs)
    (h : Tracks identifier chance now l rs) (hnow : now.WholeMillis) {ask : Ask}
    (hlasting : ∀ wanted t, ask = .create wanted → s.accept wanted now = .ok t →
      t.inRange = true ∧ t.WholeMillis)
    (hfresh : ∀ i < l.length, identifier (chance i).random ≠ identifier (chance l.length).random) :
    ∃ o st' rs',
      s.perform store now (ask.operation chance (identifiers identifier chance l.length)) st = (o, st') ∧
      o.nameless = (Ledger.perform s (fun i => (chance i).nonce) now ask l).1 ∧
      identifiers identifier chance l.length ++ o.issued = identifiers identifier chance
        (Ledger.perform s (fun i => (chance i).nonce) now ask l).2.length ∧
      K.Keeps st' rs' ∧
      Tracks identifier chance now (Ledger.perform s (fun i => (chance i).nonce) now ask l).2 rs' := by
  unfold perform
  cases ask with
  | create wanted =>
    simp only [Ask.operation, Operation.call, Ledger.perform, Dialogue.run_andThen, Dialogue.run,
      length_identifiers]
    cases haccept : s.accept wanted now with
    | error f =>
      rw [run_create_of_accept_error store (chance l.length) st haccept]
      exact ⟨_, _, rs, rfl, rfl, List.append_nil _, hkeeps, h⟩
    | ok t =>
      obtain ⟨-, token, htoken, hrun⟩ := run_create_of_accept store (chance l.length) st haccept
      obtain ⟨hrange, hwhole⟩ := hlasting wanted t rfl haccept
      have hunused : ∀ r ∈ rs, r.id ≠ identifier (chance l.length).random := by
        intro r hr heq
        obtain ⟨i, d, hid, hd, -⟩ := h.known r hr
        obtain ⟨hi, -⟩ := List.getElem?_eq_some_iff.1 hd
        exact hfresh i hi (hid.symm.trans heq)
      obtain ⟨st', rs', hlapse, hkeeps', hinsert⟩ := K.insert
        ⟨token, t, (chance l.length).random⟩ hkeeps hnow ⟨hrange, hwhole⟩ hunused
      rw [hrun, hinsert]
      refine ⟨_, st', _, rfl, rfl, ?_, hkeeps', (h.lapse hlapse).push ⟨rfl, htoken⟩ rfl hfresh⟩
      rw [List.length_append, List.length_singleton, identifiers_succ]
      rfl
  | get name passphrase =>
    obtain ⟨id, st', rs', hrun, hkeeps', h'⟩ :=
      run_take_tracks K hkeeps h hnow name passphrase (s := s) fun secret => secret
    simp only [Ask.operation, Operation.call, Ledger.perform, Dialogue.run_andThen, Dialogue.run, get]
    rw [hrun]
    refine ⟨_, st', rs', rfl, Ledger.nameless_take passphrase id, ?_, hkeeps', h'⟩
    rw [Ledger.length_take]
    cases (Ledger.take s (fun i => (chance i).nonce) now name passphrase l).1 <;> exact List.append_nil _
  | delete name passphrase =>
    obtain ⟨id, st', rs', hrun, hkeeps', h'⟩ :=
      run_take_tracks K hkeeps h hnow name passphrase (s := s) fun _ => ()
    simp only [Ask.operation, Operation.call, Ledger.perform, Dialogue.run_andThen, Dialogue.run, delete]
    rw [hrun]
    refine ⟨_, st', rs', rfl, rfl, ?_, hkeeps', h'⟩
    rw [Ledger.length_take]
    exact List.append_nil _

/-- A run over a store is answered as by the ledger. -/
theorem performNamed_eq (K : Keeping store empty identifier) {calls : List (Instant × Ask)}
    (timely : s.Timely calls) (hkeeps : K.Keeps st rs)
    (h : ∀ call ∈ calls, Tracks identifier chance call.1 l rs)
    (hfresh : ∀ i j, i < j → j < l.length + calls.length →
      identifier (chance i).random ≠ identifier (chance j).random) :
    s.performNamed store chance calls (identifiers identifier chance l.length) st =
      Ledger.performAll s (fun i => (chance i).nonce) calls l := by
  induction calls generalizing st l rs with
  | nil => rfl
  | cons call rest ih =>
    obtain ⟨now, ask⟩ := call
    have hmem : (now, ask) ∈ (now, ask) :: rest := List.mem_cons_self
    have hlasting : ∀ wanted t, ask = .create wanted → s.accept wanted now = .ok t →
        t.inRange = true ∧ t.WholeMillis := by
      rintro wanted t rfl haccept
      exact timely.lasting now wanted t hmem haccept
    obtain ⟨o, st', rs', hperform, hnameless, hids, hkeeps', h'⟩ :=
      perform_tracks K hkeeps (h _ hmem) (timely.whole _ hmem) hlasting fun i hi =>
        hfresh i l.length hi (by rw [List.length_cons]; omega)
    have hgrow := Ledger.length_perform_le s (fun i => (chance i).nonce) now ask l
    have htimely : s.Timely rest := timely.tail
    have hlater : ∀ call ∈ rest, Tracks identifier chance call.1
        (Ledger.perform s (fun i => (chance i).nonce) now ask l).2 rs' := by
      intro call hcall
      exact h'.later ((List.pairwise_cons.1 timely.ordered).1 call.1 (List.mem_map_of_mem hcall))
    have hrest := ih htimely hkeeps' hlater fun i j hij hj =>
      hfresh i j hij (by rw [List.length_cons]; omega)
    simp only [performNamed, Ledger.performAll]
    rw [hperform]
    dsimp only
    rw [hids, hnameless, hrest]

end Keeping

end Service

/-- The stores that a secret can be kept in. -/
inductive Backend where
  | memory
  | textTable
  | keyValue
  | document

namespace Backend

def State : Backend → Type
  | memory => Memory
  | textTable => TextTable.Table
  | keyValue => KeyValue.Keys
  | document => Document.Collection

def store : (b : Backend) → Store b.State
  | memory => Memory.store
  | textTable => TextTable.store
  | keyValue => KeyValue.store
  | document => Document.store

/-- A store that nothing was stored in. -/
def empty : (b : Backend) → b.State
  | memory => .empty
  | textTable => .empty
  | keyValue => .empty
  | document => .empty

/-- The identifier that a store makes of random bits. -/
def identifier : Backend → BitVec 128 → String
  | document, random => (ObjectId.ofRandom random).text
  | _, random => (Uuid.ofRandom random).text

def keeping : (b : Backend) → Keeping b.store b.empty b.identifier
  | memory => Memory.keeping
  | textTable => TextTable.keeping
  | keyValue => KeyValue.keeping
  | document => Document.keeping

/-- The identifiers of the first draws are all different. -/
def Fresh (b : Backend) (chance : Nat → Chance) (count : Nat) : Prop :=
  ∀ i j, i < j → j < count → b.identifier (chance i).random ≠ b.identifier (chance j).random

/-- The outcomes of some calls over a store, without identifiers. -/
def outcomes (b : Backend) (s : Service) (chance : Nat → Chance) (calls : List (Instant × Ask)) :
    List Outcome :=
  s.performNamed b.store chance calls [] b.empty

theorem outcomes_eq (b : Backend) {s : Service} {chance : Nat → Chance} {calls : List (Instant × Ask)}
    (timely : s.Timely calls) (fresh : b.Fresh chance calls.length) :
    b.outcomes s chance calls = Ledger.performAll s (fun i => (chance i).nonce) calls [] := by
  refine Service.performNamed_eq b.keeping timely b.keeping.keeps_empty (fun call _ => .nil) ?_
  rw [List.length_nil, Nat.zero_add]
  exact fresh

/-- Whatever calls are made in the order of time, their outcomes over any two stores are the same. The
stores may draw what they like, as long as no identifier is drawn twice and the cipher keeps its
promise. -/
theorem outcomes_agree (b b' : Backend) (s : Service) (chance chance' : Nat → Chance)
    (calls : List (Instant × Ask)) (timely : s.Timely calls) (fresh : b.Fresh chance calls.length)
    (fresh' : b'.Fresh chance' calls.length)
    (alike : s.Alike (fun i => (chance i).nonce) (fun i => (chance' i).nonce) calls) :
    b.outcomes s chance calls = b'.outcomes s chance' calls ∧
      ∀ o ∈ b.outcomes s chance calls, o.IsOrdinary := by
  have hledger := b.outcomes_eq timely fresh
  have hledger' := b'.outcomes_eq timely fresh'
  have hnone : Ledger.CreatedBy s calls [] := fun i d hd => nomatch hd
  have hcongr := Ledger.performAll_congr alike (List.Subset.refl calls) hnone (by simp)
  refine ⟨hledger.trans (hcongr.trans hledger'.symm), ?_⟩
  rw [hledger]
  exact Ledger.performAll_ordinary s _ calls []

/-- A secret that two readers ask for, over records in memory and over documents. -/
theorem outcomes_agree_of_two_readers :
    let s : Service := ⟨"service key", ⟨0⟩⟩
    let wanted : Secret :=
      { value := "attack at dawn", passphrase := some "x", expiresAt := some ⟨100, 5000000⟩ }
    let calls : List (Instant × Ask) :=
      [(⟨10, 0⟩, .create wanted), (⟨20, 1000000⟩, .get 0 (some "x")),
        (⟨20, 1000000⟩, .delete 0 (some "x"))]
    let chance : Nat → Chance := fun i => ⟨Vector.replicate 12 0, BitVec.ofNat 128 i⟩
    let chance' : Nat → Chance := fun i => ⟨Vector.replicate 12 1, BitVec.ofNat 128 i <<< 32⟩
    memory.outcomes s chance calls = document.outcomes s chance' calls ∧
      ∀ o ∈ memory.outcomes s chance calls, o.IsOrdinary := by
  intro s wanted calls chance chance'
  have timely : s.Timely calls := by
    refine ⟨by decide, by decide, fun now wanted' t hcreate haccept => ?_⟩
    have hfirst : s.accept wanted ⟨10, 0⟩ = .ok ⟨100, 5000000⟩ := by
      rw [Service.accept, Service.checkValue_eq_ok_iff.2 (by decide)]
      rfl
    obtain ⟨rfl, rfl⟩ : now = ⟨10, 0⟩ ∧ wanted' = wanted := by simpa [calls] using hcreate
    rw [hfirst] at haccept
    rw [← Except.ok.inj haccept]
    decide
  have fresh : memory.Fresh chance calls.length := by
    have hall : ∀ j < 3, ∀ i < j,
        memory.identifier (chance i).random ≠ memory.identifier (chance j).random := by
      decide
    exact fun i j hij hj => hall j hj i hij
  have fresh' : document.Fresh chance' calls.length := by
    have hall : ∀ j < 3, ∀ i < j,
        document.identifier (chance' i).random ≠ document.identifier (chance' j).random := by
      decide
    exact fun i j hij hj => hall j hj i hij
  refine outcomes_agree memory document s chance chance' calls timely fresh fresh' ?_
  intro i _ now wanted' now' ask passphrase hcreate hask hpresents
  obtain ⟨-, rfl⟩ : now = ⟨10, 0⟩ ∧ wanted' = wanted := by simpa [calls] using hcreate
  have hkey : passphrase = some "x" := by
    obtain ⟨name, rfl | rfl⟩ := hpresents <;> simp [calls] at hask <;> exact hask.2.2
  have hlen : (Crypto.utf8 wanted.value).length ≤ Crypto.Gcm.maxText :=
    Nat.le_trans (Crypto.length_utf8_le wanted.value) (by decide)
  exact Crypto.alike_of_promise hlen (Or.inl (by rw [hkey]))

end Backend

end BurnAfterRead
