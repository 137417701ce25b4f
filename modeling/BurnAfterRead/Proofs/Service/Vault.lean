import BurnAfterRead.Proofs.Service.Ledger
import BurnAfterRead.Proofs.Store.Memory
import Mathlib.Data.Set.Card

/-!
# The service as a map

What the service is for one who uses it by himself: a map from identifiers to plaintexts, each with
the key that it was sealed under and the time from which it is gone. The service over records in
memory answers every run of operations as this map does.

A reader gets what his key makes of the token. That is the plaintext if it is the creator's key; but
a token may open under another key as well, to some other text.
-/

namespace BurnAfterRead

/-- A secret with the nonce of its token, which is of no use but to tell what keys make of the token. -/
structure Entry extends Deposit where
  nonce : Crypto.Nonce

namespace Entry

def isExpired (e : Entry) (now : Instant) : Bool := e.expiresAt.notAfter now

end Entry

/-- Secrets by their identifiers. -/
def Vault : Type := String → Option Entry

namespace Vault

def empty : Vault := fun _ => none

def put (v : Vault) (id : String) (e : Entry) : Vault := fun x => if x = id then some e else v x

def erase (v : Vault) (id : String) : Vault := fun x => if x = id then none else v x

/-- The secrets that have not expired. -/
def live (v : Vault) (now : Instant) : Vault := fun x => (v x).filter fun e => !e.isExpired now

/-- The identifiers of the secrets that have expired. -/
def expired (v : Vault) (now : Instant) : Set String := {x | ∃ e, v x = some e ∧ e.isExpired now = true}

/-- The expiry of a new secret: the explicit one, or else that of its lifetime, or else that of the
default lifetime, if there is such a time. -/
def expiry? (s : Service) (wanted : Secret) (now : Instant) : Option Instant :=
  match wanted.expiresAt, wanted.ttl with
  | some t, _ => some t
  | none, some ttl => now.plus? ttl
  | none, none => now.plus? s.defaultTtl

/-- The expiry of a new secret if it is accepted, or else what is wrong with it. -/
def accept (s : Service) (wanted : Secret) (now : Instant) : Except Failure Instant :=
  if wanted.value = "" then .error (.invalidRequest "value is required")
  else if 5000 < wanted.value.length then .error (.invalidRequest "value exceeds 5000 characters")
  else
    match expiry? s wanted now with
    | some t => .ok t
    | none => .error (.invalidRequest "ttl is out of range")

/-- Takes a secret away for one who has a key to it. -/
def take (s : Service) (now : Instant) (id : String) (passphrase : Option String) (v : Vault) :
    Except Failure Secret × Vault :=
  match v id with
  | none => (.error .secretNotFound, v)
  | some e =>
    if e.isExpired now then (.error .secretNotFound, v.erase id)
    else
      match e.read? e.nonce (s.keyFor passphrase) with
      | some value => (.ok { id := id, value := value, expiresAt := some e.expiresAt }, v.erase id)
      | none => (.error .decryptionFailed, v)

theorem take_of_opened {s : Service} {now : Instant} {id value : String} {passphrase : Option String}
    {v : Vault} {e : Entry} (h : v id = some e) (hlive : e.isExpired now = false)
    (hread : e.read? e.nonce (s.keyFor passphrase) = some value) :
    take s now id passphrase v =
      (.ok { id := id, value := value, expiresAt := some e.expiresAt }, v.erase id) := by
  unfold take
  rw [h]
  dsimp only
  rw [hlive, hread]
  rfl

/-- What an operation does to the map, and how it is answered. -/
noncomputable def perform (s : Service) (now : Instant) : Operation → Vault → Outcome × Vault
  | .create chance wanted, v =>
    match accept s wanted now with
    | .ok t =>
      (.created (.ok { id := chance.identifier, expiresAt := some t }),
        v.put chance.identifier ⟨⟨wanted.value, s.keyFor wanted.passphrase, t⟩, chance.nonce⟩)
    | .error f => (.created (.error f), v)
  | .get id passphrase, v =>
    let (answer, v) := take s now id passphrase v
    (.redeemed answer, v)
  | .delete id passphrase, v =>
    let (answer, v) := take s now id passphrase v
    (.burnt (answer.map fun _ => ()), v)
  | .deleteExpired, v => (.swept (.ok (v.expired now).ncard), v.live now)

noncomputable def performAll (s : Service) : List (Instant × Operation) → Vault → List Outcome × Vault
  | [], v => ([], v)
  | (now, op) :: rest, v =>
    let (o, v) := perform s now op v
    let (os, v) := performAll s rest v
    (o :: os, v)

end Vault

namespace Memory

/-- A memory holds the secrets of a map: each as a record with its token, and no other. -/
structure Represents (m : Memory) (v : Vault) : Prop where
  nodup : (m.records.map (·.id)).Nodup
  none_iff : ∀ id, m.find? id = none ↔ v id = none
  entry : ∀ id r e, m.find? id = some r → v id = some e → r.expiresAt = e.expiresAt ∧
    Crypto.encrypt e.nonce (Crypto.utf8 e.plaintext) e.key = .ok r.value

namespace Represents

variable {m : Memory} {v : Vault}

theorem empty : Represents .empty .empty :=
  ⟨List.nodup_nil, fun _ => ⟨fun _ => rfl, fun _ => rfl⟩, fun _ _ _ h => by cases h⟩

theorem exists_record (rep : Represents m v) {id : String} {e : Entry} (h : v id = some e) :
    ∃ r, m.find? id = some r ∧ r.id = id ∧ r.expiresAt = e.expiresAt ∧
      Crypto.encrypt e.nonce (Crypto.utf8 e.plaintext) e.key = .ok r.value := by
  cases hfind : m.find? id with
  | none =>
    rw [(rep.none_iff id).1 hfind] at h
    cases h
  | some r =>
    exact ⟨r, rfl, id_of_find? hfind, rep.entry id r e hfind h⟩

theorem erase (rep : Represents m v) (id : String) : Represents (m.erase id) (v.erase id) := by
  refine ⟨?_, fun x => ?_, fun x r e hr he => ?_⟩
  · exact rep.nodup.sublist (List.filter_sublist.map _)
  · by_cases hx : x = id
    · subst hx
      simp [find?_erase_self, Vault.erase]
    · rw [find?_erase_of_ne m hx, Vault.erase, if_neg hx]
      exact rep.none_iff x
  · by_cases hx : x = id
    · subst hx
      rw [find?_erase_self] at hr
      cases hr
    · rw [find?_erase_of_ne m hx] at hr
      rw [Vault.erase, if_neg hx] at he
      exact rep.entry x r e hr he

theorem put (rep : Represents m v) {r : Record} {e : Entry} (hexpiry : r.expiresAt = e.expiresAt)
    (htoken : Crypto.encrypt e.nonce (Crypto.utf8 e.plaintext) e.key = .ok r.value) :
    Represents (m.insert r) (v.put r.id e) := by
  refine ⟨?_, fun x => ?_, fun x r' e' hr he => ?_⟩
  · unfold insert
    rw [List.map_append, List.nodup_append]
    refine ⟨(rep.erase r.id).nodup, List.nodup_singleton _, ?_⟩
    intro x hx y hy
    obtain ⟨r', hr', rfl⟩ := List.mem_map.1 hx
    rw [List.mem_singleton.1 hy]
    simpa using (List.mem_filter.1 hr').2
  · by_cases hx : r.id = x
    · subst hx
      simp [find?_insert_self, Vault.put]
    · rw [find?_insert_of_ne m hx, Vault.put, if_neg (Ne.symm hx)]
      exact rep.none_iff x
  · by_cases hx : r.id = x
    · subst hx
      rw [find?_insert_self] at hr
      rw [Vault.put, if_pos rfl] at he
      rw [← Option.some.inj hr, ← Option.some.inj he]
      exact ⟨hexpiry, htoken⟩
    · rw [find?_insert_of_ne m hx] at hr
      rw [Vault.put, if_neg (Ne.symm hx)] at he
      exact rep.entry x r' e' hr he

theorem isExpired_eq (rep : Represents m v) {r : Record} {e : Entry} {id : String} (now : Instant)
    (hr : m.find? id = some r) (he : v id = some e) : r.isExpired now = e.isExpired now := by
  rw [Record.isExpired, (rep.entry id r e hr he).1, Entry.isExpired]

theorem exists_entry (rep : Represents m v) {r : Record} (h : r ∈ m.records) :
    ∃ e, v r.id = some e ∧ m.find? r.id = some r := by
  have hfind := find?_of_mem rep.nodup h
  cases he : v r.id with
  | none =>
    rw [(rep.none_iff r.id).2 he] at hfind
    cases hfind
  | some e => exact ⟨e, rfl, hfind⟩

theorem find?_live (rep : Represents m v) (now : Instant) (id : String) :
    (m.live now).find? id = (m.find? id).filter fun r => !r.isExpired now := by
  have nodup : ((m.live now).records.map (·.id)).Nodup :=
    rep.nodup.sublist (List.filter_sublist.map _)
  cases hfind : m.find? id with
  | none =>
    refine List.find?_eq_none.2 fun r hr => ?_
    exact List.find?_eq_none.1 hfind r (List.mem_filter.1 hr).1
  | some r =>
    have hid : r.id = id := id_of_find? hfind
    have hmem := List.mem_of_find?_eq_some hfind
    rw [Option.filter_some]
    split
    · rename_i hlive
      rw [← hid]
      exact find?_of_mem nodup (List.mem_filter.2 ⟨hmem, hlive⟩)
    · rename_i hdead
      refine List.find?_eq_none.2 fun r' hr' hid' => hdead ?_
      obtain ⟨hmem', hlive'⟩ := List.mem_filter.1 hr'
      have hfind' := find?_of_mem rep.nodup hmem'
      rw [beq_iff_eq.1 hid', hfind] at hfind'
      rw [Option.some.inj hfind']
      exact hlive'

theorem live (rep : Represents m v) (now : Instant) : Represents (m.live now) (v.live now) := by
  refine ⟨rep.nodup.sublist (List.filter_sublist.map _), fun id => ?_, fun id r e hr he => ?_⟩
  · rw [rep.find?_live, Vault.live]
    cases he : v id with
    | none => simp [(rep.none_iff id).2 he]
    | some e =>
      obtain ⟨r, hr, -⟩ := rep.exists_record he
      simp [hr, Option.filter_some, rep.isExpired_eq now hr he]
  · rw [rep.find?_live] at hr
    exact rep.entry id r e (Option.filter_eq_some_iff.1 hr).1 (Option.filter_eq_some_iff.1 he).1

/-- As many records are expired as secrets of the map. -/
theorem size_sub_size_live (rep : Represents m v) (now : Instant) :
    m.size - (m.live now).size = (v.expired now).ncard := by
  let dead : List String := (m.records.filter fun r => r.isExpired now).map (·.id)
  have hset : v.expired now = ↑dead.toFinset := by
    ext x
    simp only [Vault.expired, Set.mem_ofPred_eq, List.coe_toFinset, dead, List.mem_map,
      List.mem_filter]
    constructor
    · rintro ⟨e, he, hexp⟩
      obtain ⟨r, hr, hid, -⟩ := rep.exists_record he
      exact ⟨r, ⟨List.mem_of_find?_eq_some hr, by rw [rep.isExpired_eq now hr he, hexp]⟩, hid⟩
    · rintro ⟨r, ⟨hmem, hexp⟩, rfl⟩
      obtain ⟨e, he, hr⟩ := rep.exists_entry hmem
      exact ⟨e, he, by rw [← rep.isExpired_eq now hr he, hexp]⟩
  have nodup : dead.Nodup := rep.nodup.sublist (List.filter_sublist.map _)
  have hlength := List.length_eq_length_filter_add (l := m.records) fun r => r.isExpired now
  rw [hset, Set.ncard_coe_finset, List.toFinset_card_of_nodup nodup, List.length_map]
  change m.records.length - (m.records.filter fun r => !r.isExpired now).length = _
  omega

end Represents

end Memory

namespace Service

variable {m : Memory} {v : Vault}

theorem reveal_of_decrypt {r : Record} {key value : String}
    (h : Crypto.decrypt r.value key = .ok (Crypto.utf8 value)) :
    Repository.reveal r key = .ok { id := r.id, value := value, expiresAt := some r.expiresAt } := by
  unfold Repository.reveal
  rw [h]
  dsimp only
  rw [Crypto.utf8Text?_utf8]

theorem reveal_of_decrypt_error {r : Record} {key : String} {f : Failure}
    (h : Crypto.decrypt r.value key = .error f) : Repository.reveal r key = .error .decryptionFailed := by
  unfold Repository.reveal
  rw [h, Crypto.decrypt_error h]

/-- A take from a memory is answered as from the map, and leaves the memory of what it leaves. -/
theorem take_represents (s : Service) (now : Instant) (id : String) (passphrase : Option String)
    {α : Type} (result : Secret → α) (rep : m.Represents v) :
    ((s.take id passphrase result).run (Memory.store.answer now) m).1 =
        (Vault.take s now id passphrase v).1.map result ∧
      ((s.take id passphrase result).run (Memory.store.answer now) m).2.Represents
        (Vault.take s now id passphrase v).2 := by
  unfold Vault.take
  cases he : v id with
  | none =>
    have hfind : Memory.store now (.find id) m = (.error .secretNotFound, m) := by
      simp only [Memory.store, (rep.none_iff id).2 he]
    have hreply := congrArg Prod.fst hfind
    rw [run_take_of_missing s passphrase result hreply, hfind]
    exact ⟨rfl, rep⟩
  | some e =>
    obtain ⟨r, hr, rfl, hexpiry, htoken⟩ := rep.exists_record he
    have hfind : Memory.store now (.find r.id) m = (.ok r, m) := by
      simp only [Memory.store, hr]
    have hreply := congrArg Prod.fst hfind
    have hexp := rep.isExpired_eq now hr he
    have hreveal := Repository.reveal_eq htoken (s.keyFor passphrase)
    dsimp only
    cases hdead : e.isExpired now with
    | true =>
      rw [run_take_of_expired s passphrase result hreply (hexp.trans hdead), hfind]
      exact ⟨rfl, rep.erase r.id⟩
    | false =>
      rw [if_neg (by simp)]
      cases hread : e.read? e.nonce (s.keyFor passphrase) with
      | none =>
        rw [hread] at hreveal
        rw [run_take_of_refused s passphrase result hreply (hexp.trans hdead) hreveal, hfind]
        exact ⟨rfl, rep⟩
      | some value =>
        rw [hread, hexpiry] at hreveal
        have hremove : (Memory.store now (.remove r.id) (Memory.store now (.find r.id) m).2).1 =
            .ok () := by
          rw [hfind, Memory.store_remove, if_neg (by simp [hr])]
        rw [run_take_of_opened s passphrase result hreply (hexp.trans hdead) hreveal hremove, hfind]
        exact ⟨rfl, rep.erase r.id⟩

theorem expiry_eq (s : Service) (wanted : Secret) (now : Instant) :
    s.expiry wanted now =
      match Vault.expiry? s wanted now with
      | some t => .ok t
      | none => .error (.invalidRequest "ttl is out of range") := by
  unfold expiry Vault.expiry? expiryAfter
  cases wanted.expiresAt with
  | some t => rfl
  | none => cases wanted.ttl <;> rfl

/-- The map accepts what the service accepts, and refuses the rest for the same reason. -/
theorem accept_eq (s : Service) (wanted : Secret) (now : Instant) :
    Vault.accept s wanted now = s.accept wanted now := by
  unfold Vault.accept accept checkValue
  rw [expiry_eq]
  split
  · rfl
  · change (if 5000 < wanted.value.length then _ else _) =
      Except.bind (if wanted.value.length > 5000 then _ else _) _
    split <;> rfl

/-- An operation on a memory is answered as on the map, and leaves the memory of what it leaves. -/
theorem perform_represents (s : Service) (now : Instant) (op : Operation) (rep : m.Represents v) :
    (s.perform Memory.store now op m).1 = (Vault.perform s now op v).1 ∧
      (s.perform Memory.store now op m).2.Represents (Vault.perform s now op v).2 := by
  unfold perform
  cases op with
  | create chance wanted =>
    simp only [Operation.call, Vault.perform, Dialogue.run_andThen, Dialogue.run]
    rw [accept_eq]
    cases haccept : s.accept wanted now with
    | error f =>
      rw [run_create_of_accept_error Memory.store chance m haccept]
      exact ⟨rfl, rep⟩
    | ok t =>
      obtain ⟨-, token, htoken, hrun⟩ := run_create_of_accept Memory.store chance m haccept
      rw [hrun]
      dsimp only
      exact ⟨rfl, rep.put (r := Draft.record ⟨token, t, chance.random⟩) rfl htoken⟩
  | get id passphrase =>
    obtain ⟨hanswer, hrep⟩ := take_represents s now id passphrase (fun secret => secret) rep
    simp only [Operation.call, Vault.perform, Dialogue.run_andThen, Dialogue.run]
    refine ⟨congrArg Outcome.redeemed (hanswer.trans ?_), hrep⟩
    cases (Vault.take s now id passphrase v).1 <;> rfl
  | delete id passphrase =>
    obtain ⟨hanswer, hrep⟩ := take_represents s now id passphrase (fun _ => ()) rep
    simp only [Operation.call, Vault.perform, Dialogue.run_andThen, Dialogue.run]
    exact ⟨congrArg Outcome.burnt hanswer, hrep⟩
  | deleteExpired =>
    simp only [Operation.call, Vault.perform, Dialogue.run_andThen, Dialogue.run]
    rw [run_deleteExpired]
    have hreply : (Memory.store now .sweep m).1 = removedSome (v.expired now).ncard :=
      congrArg removedSome (rep.size_sub_size_live now)
    refine ⟨congrArg Outcome.swept ?_, rep.live now⟩
    rw [hreply, removedSome]
    by_cases h : (v.expired now).ncard = 0
    · rw [if_pos h, h]
    · rw [if_neg h]

theorem performAll_represents (s : Service) (ops : List (Instant × Operation)) (rep : m.Represents v) :
    (s.performAll Memory.store ops m).1 = (Vault.performAll s ops v).1 ∧
      (s.performAll Memory.store ops m).2.Represents (Vault.performAll s ops v).2 := by
  induction ops generalizing m v with
  | nil => exact ⟨rfl, rep⟩
  | cons p rest ih =>
    obtain ⟨now, op⟩ := p
    obtain ⟨hanswer, hrep⟩ := perform_represents s now op rep
    obtain ⟨hanswers, hreps⟩ := ih hrep
    refine ⟨?_, hreps⟩
    simp only [performAll, Vault.performAll]
    rw [hanswer, hanswers]

/-- Whatever operations follow each other, at whatever times, the service over records in memory
answers each as the map of secrets does, and its memory holds the secrets of the map. Who has the
creator's key, or one with the same cipher key, reads of a secret what its creator put there. -/
theorem performAll_memory (s : Service) (ops : List (Instant × Operation)) :
    (s.performAll Memory.store ops .empty).1 = (Vault.performAll s ops .empty).1 ∧
      (s.performAll Memory.store ops .empty).2.Represents (Vault.performAll s ops .empty).2 ∧
      ∀ id e key, (Vault.performAll s ops .empty).2 id = some e →
        Crypto.cipherKey key = Crypto.cipherKey e.key → e.read? e.nonce key = some e.plaintext := by
  obtain ⟨hanswers, rep⟩ := performAll_represents s ops .empty
  refine ⟨hanswers, rep, fun id e key he hkey => ?_⟩
  obtain ⟨r, -, -, -, htoken⟩ := rep.exists_record he
  exact Deposit.read?_of_cipherKey_eq htoken hkey

/-- A secret that is read before it expires is answered as what the key of the reader brings out. -/
theorem performAll_create_get {s : Service} {created read t : Instant} {chance : Chance} {wanted : Secret}
    {passphrase : Option String} {value : String} (haccept : s.accept wanted created = .ok t)
    (hlive : t.notAfter read = false)
    (hread : Deposit.read? ⟨wanted.value, s.keyFor wanted.passphrase, t⟩ chance.nonce
      (s.keyFor passphrase) = some value) :
    (s.performAll Memory.store
      [(created, .create chance wanted), (read, .get chance.identifier passphrase)] .empty).1 =
      [.created (.ok { id := chance.identifier, expiresAt := some t }),
        .redeemed (.ok { id := chance.identifier, value := value, expiresAt := some t })] := by
  let e : Entry := ⟨⟨wanted.value, s.keyFor wanted.passphrase, t⟩, chance.nonce⟩
  have hcreate : Vault.perform s created (.create chance wanted) .empty =
      (.created (.ok { id := chance.identifier, expiresAt := some t }),
        Vault.empty.put chance.identifier e) := by
    simp only [Vault.perform]
    rw [accept_eq, haccept]
  have hput : Vault.empty.put chance.identifier e chance.identifier = some e := if_pos rfl
  have htake := Vault.take_of_opened (s := s) hput hlive hread
  rw [(performAll_represents s _ .empty).1]
  simp only [Vault.performAll, hcreate]
  simp only [Vault.perform, htake, e]

/-- A secret that was sealed under one key and is read under another, as something else. -/
theorem performAll_memory_of_other_key :
    let s : Service := ⟨"service key", ⟨0⟩⟩
    let chance : Chance := ⟨Crypto.TwoKeys.nonce, 0⟩
    let wanted : Secret :=
      { value := Crypto.TwoKeys.alphaText, passphrase := some "alpha", expiresAt := some ⟨100, 0⟩ }
    (s.performAll Memory.store
      [(⟨10, 0⟩, .create chance wanted), (⟨20, 0⟩, .get chance.identifier (some "bravo"))] .empty).1 =
      [.created (.ok { id := chance.identifier, expiresAt := some ⟨100, 0⟩ }),
        .redeemed (.ok { id := chance.identifier, value := Crypto.TwoKeys.bravoText,
                         expiresAt := some ⟨100, 0⟩ })] ∧
      Crypto.TwoKeys.bravoText ≠ wanted.value := by
  intro s chance wanted
  refine ⟨?_, by decide⟩
  have haccept : s.accept wanted ⟨10, 0⟩ = .ok ⟨100, 0⟩ :=
    accept_eq_ok_iff.2 ⟨checkValue_eq_ok_iff.2 (by decide), rfl⟩
  exact performAll_create_get haccept (by decide) (Deposit.read?_of_two_keys ⟨100, 0⟩)

end Service

end BurnAfterRead
