import BurnAfterRead.Proofs.Crypto.Sealing
import BurnAfterRead.Proofs.Service.Sequential
import BurnAfterRead.Proofs.Time.Millis

/-!
# Secrets by the order of their creation

A client who names secrets by the order of their creation sees nothing of the identifiers that a store
makes up, and can be served from a ledger of what was deposited. How a ledger answers depends on the
nonces of the tokens only as far as the cipher does.
-/

namespace BurnAfterRead

/-- What a client asks who names secrets by the order of their creation. -/
inductive Ask where
  | create (wanted : Secret)
  | get (name : Nat) (passphrase : Option String)
  | delete (name : Nat) (passphrase : Option String)

namespace Ask

/-- What is asked of the service, given the identifiers of the secrets so far. The draws are those of
each secret; a name that no secret has yet goes by the empty text. -/
def operation (chance : Nat → Chance) (ids : List String) : Ask → Operation
  | create wanted => .create (chance ids.length) wanted
  | get name passphrase => .get (ids.getD name "") passphrase
  | delete name passphrase => .delete (ids.getD name "") passphrase

/-- A passphrase is presented for a secret, whether to read or to burn it. -/
def Presents (ask : Ask) (passphrase : Option String) : Prop :=
  ∃ name, ask = get name passphrase ∨ ask = delete name passphrase

end Ask

namespace Outcome

/-- The identifier of the secret that a call created. -/
def issued : Outcome → List String
  | created (.ok secret) => [secret.id]
  | _ => []

/-- What is left of an outcome for one who does not look at identifiers. -/
def nameless : Outcome → Outcome
  | created answer => created (answer.map fun secret => { secret with id := "" })
  | redeemed answer => redeemed (answer.map fun secret => { secret with id := "" })
  | outcome => outcome

/-- The call succeeded, or its secret is not there, or does not open, or it was refused. -/
def IsOrdinary (o : Outcome) : Prop :=
  ∀ f, o.failure? = some f →
    f = .secretNotFound ∨ f = .decryptionFailed ∨ ∃ reason, f = .invalidRequest reason

end Outcome

namespace Service

/-- Performs calls one after the other, and tells their outcomes without identifiers. -/
def performNamed {σ : Type} (s : Service) (store : Store σ) (chance : Nat → Chance) :
    List (Instant × Ask) → List String → σ → List Outcome
  | [], _, _ => []
  | (now, ask) :: rest, ids, st =>
    let (o, st) := s.perform store now (ask.operation chance ids) st
    o.nameless :: performNamed s store chance rest (ids ++ o.issued) st

/-- Calls in the order of their times, where all times and expiries are whole milliseconds. -/
structure Timely (s : Service) (calls : List (Instant × Ask)) : Prop where
  ordered : (calls.map (·.1)).Pairwise fun t u => t.notAfter u = true
  whole : ∀ call ∈ calls, call.1.WholeMillis
  lasting : ∀ now wanted t, (now, Ask.create wanted) ∈ calls → s.accept wanted now = .ok t →
    t.inRange = true ∧ t.WholeMillis

theorem Timely.tail {s : Service} {call : Instant × Ask} {rest : List (Instant × Ask)}
    (h : s.Timely (call :: rest)) : s.Timely rest where
  ordered := (List.pairwise_cons.1 h.ordered).2
  whole := fun c hc => h.whole c (List.mem_cons_of_mem _ hc)
  lasting := fun now wanted t hc => h.lasting now wanted t (List.mem_cons_of_mem _ hc)

/-- The promise of the cipher for two runs of the same calls: a key that is presented makes the same of
both tokens of a secret. Runs that draw the same nonces have the same tokens, and keep it anyway. -/
def Alike (s : Service) (nonce nonce' : Nat → Crypto.Nonce) (calls : List (Instant × Ask)) : Prop :=
  ∀ i < calls.length, ∀ now wanted now' ask passphrase, (now, .create wanted) ∈ calls →
    (now', ask) ∈ calls → ask.Presents passphrase →
    Crypto.Alike (nonce i) (nonce' i) (Crypto.utf8 wanted.value) (s.keyFor wanted.passphrase)
      (s.keyFor passphrase)

end Service

/-- A secret as its creator knows it. -/
structure Deposit where
  plaintext : String
  key : String
  expiresAt : Instant

/-- What a key brings out of the token of a secret. -/
def Deposit.read? (d : Deposit) (nonce : Crypto.Nonce) (key : String) : Option String :=
  match Crypto.opening nonce (Crypto.utf8 d.plaintext) d.key key with
  | .ok bytes => Crypto.utf8Text? bytes
  | .error _ => none

theorem Deposit.read?_of_opening {d : Deposit} {nonce : Crypto.Nonce} {key value : String}
    (h : Crypto.opening nonce (Crypto.utf8 d.plaintext) d.key key = .ok (Crypto.utf8 value)) :
    d.read? nonce key = some value := by
  unfold Deposit.read?
  rw [h]
  exact Crypto.utf8Text?_utf8 _

/-- Keys with the cipher key of the sealing key bring the plaintext out. -/
theorem Deposit.read?_of_cipherKey_eq {d : Deposit} {nonce : Crypto.Nonce} {key token : String}
    (htoken : Crypto.encrypt nonce (Crypto.utf8 d.plaintext) d.key = .ok token)
    (h : Crypto.cipherKey key = Crypto.cipherKey d.key) : d.read? nonce key = some d.plaintext := by
  refine Deposit.read?_of_opening ?_
  rw [Crypto.opening_of_encrypt htoken, Crypto.decrypt_congr h, Crypto.decrypt_encrypt htoken]

/-- A secret that a key which is not its own brings out as something else. -/
theorem Deposit.read?_of_two_keys (expiresAt : Instant) :
    Deposit.read? ⟨Crypto.TwoKeys.alphaText, "alpha", expiresAt⟩ Crypto.TwoKeys.nonce "bravo" =
      some Crypto.TwoKeys.bravoText :=
  Deposit.read?_of_opening Crypto.TwoKeys.opening_eq

/-- Secrets in the order of their creation; those that were taken are gone. -/
abbrev Ledger : Type := List (Option Deposit)

namespace Ledger

/-- Takes a secret away for one who has a key to it. One that has expired is left where it is. -/
def take (s : Service) (nonce : Nat → Crypto.Nonce) (now : Instant) (name : Nat)
    (passphrase : Option String) (l : Ledger) : Except Failure Secret × Ledger :=
  match l[name]? with
  | some (some d) =>
    if d.expiresAt.notAfter now then (.error .secretNotFound, l)
    else
      match d.read? (nonce name) (s.keyFor passphrase) with
      | some value => (.ok { value := value, expiresAt := some d.expiresAt }, l.set name none)
      | none => (.error .decryptionFailed, l)
  | _ => (.error .secretNotFound, l)

def perform (s : Service) (nonce : Nat → Crypto.Nonce) (now : Instant) : Ask → Ledger → Outcome × Ledger
  | .create wanted, l =>
    match s.accept wanted now with
    | .ok t =>
      (.created (.ok { expiresAt := some t }),
        l ++ [some ⟨wanted.value, s.keyFor wanted.passphrase, t⟩])
    | .error f => (.created (.error f), l)
  | .get name passphrase, l =>
    let (answer, l) := take s nonce now name passphrase l
    (.redeemed answer, l)
  | .delete name passphrase, l =>
    let (answer, l) := take s nonce now name passphrase l
    (.burnt (answer.map fun _ => ()), l)

def performAll (s : Service) (nonce : Nat → Crypto.Nonce) : List (Instant × Ask) → Ledger → List Outcome
  | [], _ => []
  | (now, ask) :: rest, l =>
    let (o, l) := perform s nonce now ask l
    o :: performAll s nonce rest l

section Take

variable {s : Service} {nonce : Nat → Crypto.Nonce} {now : Instant} {name : Nat} {l : Ledger}
  {d : Deposit}

/-- There is nothing to take under a name that no secret has, or only an expired one. -/
theorem take_of_missing (passphrase : Option String)
    (h : ∀ d : Deposit, l[name]? = some (some d) → d.expiresAt.notAfter now = true) :
    take s nonce now name passphrase l = (.error .secretNotFound, l) := by
  unfold take
  split
  · rename_i d hd
    rw [if_pos (h d hd)]
  · rfl

theorem take_of_refused {passphrase : Option String} (h : l[name]? = some (some d))
    (hlive : d.expiresAt.notAfter now = false)
    (hread : d.read? (nonce name) (s.keyFor passphrase) = none) :
    take s nonce now name passphrase l = (.error .decryptionFailed, l) := by
  unfold take
  rw [h]
  dsimp only
  rw [hlive, hread]
  rfl

theorem take_of_opened {passphrase : Option String} {value : String} (h : l[name]? = some (some d))
    (hlive : d.expiresAt.notAfter now = false)
    (hread : d.read? (nonce name) (s.keyFor passphrase) = some value) :
    take s nonce now name passphrase l =
      (.ok { value := value, expiresAt := some d.expiresAt }, l.set name none) := by
  unfold take
  rw [h]
  dsimp only
  rw [hlive, hread]
  rfl

/-- A secret of the ledger has no identifier to lose. -/
theorem nameless_take (passphrase : Option String) (id : String) :
    (Outcome.redeemed ((take s nonce now name passphrase l).1.map fun secret =>
        { secret with id := id })).nameless = .redeemed (take s nonce now name passphrase l).1 := by
  unfold take
  split
  · split
    · rfl
    · split <;> rfl
  · rfl

end Take

section Ordinary

variable (s : Service) (nonce : Nat → Crypto.Nonce)

theorem take_ordinary (now : Instant) (name : Nat) (passphrase : Option String) (l : Ledger)
    {f : Failure} (h : (take s nonce now name passphrase l).1 = .error f) :
    f = .secretNotFound ∨ f = .decryptionFailed := by
  unfold take at h
  split at h
  · split at h
    · exact Or.inl (Except.error.inj h).symm
    · split at h
      · cases h
      · exact Or.inr (Except.error.inj h).symm
  · exact Or.inl (Except.error.inj h).symm

theorem perform_ordinary (now : Instant) (ask : Ask) (l : Ledger) :
    (perform s nonce now ask l).1.IsOrdinary := by
  intro f hf
  cases ask with
  | create wanted =>
    simp only [perform] at hf
    cases haccept : s.accept wanted now with
    | ok t =>
      rw [haccept] at hf
      cases hf
    | error g =>
      rw [haccept] at hf
      obtain rfl : g = f := Option.some.inj hf
      exact Or.inr (Or.inr (Service.accept_error haccept))
  | get name passphrase =>
    simp only [perform] at hf
    cases htake : (take s nonce now name passphrase l).1 with
    | ok secret =>
      rw [htake] at hf
      cases hf
    | error g =>
      rw [htake] at hf
      obtain rfl : g = f := Option.some.inj hf
      exact (take_ordinary s nonce now name passphrase l htake).imp_right Or.inl
  | delete name passphrase =>
    simp only [perform] at hf
    cases htake : (take s nonce now name passphrase l).1 with
    | ok secret =>
      rw [htake] at hf
      cases hf
    | error g =>
      rw [htake] at hf
      obtain rfl : g = f := Option.some.inj hf
      exact (take_ordinary s nonce now name passphrase l htake).imp_right Or.inl

theorem performAll_ordinary (calls : List (Instant × Ask)) (l : Ledger) :
    ∀ o ∈ performAll s nonce calls l, o.IsOrdinary := by
  induction calls generalizing l with
  | nil =>
    intro o ho
    cases ho
  | cons call rest ih =>
    intro o ho
    rcases List.mem_cons.1 ho with rfl | ho
    · exact perform_ordinary s nonce call.1 call.2 l
    · exact ih _ o ho

end Ordinary

section Nonces

variable {s : Service} {nonce nonce' : Nat → Crypto.Nonce} {calls : List (Instant × Ask)}

/-- The secrets of a ledger are among those that some calls create. -/
def CreatedBy (s : Service) (calls : List (Instant × Ask)) (l : Ledger) : Prop :=
  ∀ (i : Nat) (d : Deposit), l[i]? = some (some d) → ∃ now wanted, (now, Ask.create wanted) ∈ calls ∧
    d.plaintext = wanted.value ∧ d.key = s.keyFor wanted.passphrase

theorem CreatedBy.set_none {l : Ledger} (h : CreatedBy s calls l) (name : Nat) :
    CreatedBy s calls (l.set name none) := by
  intro i d hd
  rw [List.getElem?_set] at hd
  split at hd
  · split at hd
    · cases hd
    · cases hd
  · exact h i d hd

theorem CreatedBy.take {l : Ledger} (h : CreatedBy s calls l) (nonce : Nat → Crypto.Nonce)
    (now : Instant) (name : Nat) (passphrase : Option String) :
    CreatedBy s calls (take s nonce now name passphrase l).2 := by
  unfold Ledger.take
  split
  · split
    · exact h
    · split
      · exact h.set_none name
      · exact h
  · exact h

theorem length_take (now : Instant) (name : Nat) (passphrase : Option String) (l : Ledger) :
    (take s nonce now name passphrase l).2.length = l.length := by
  unfold take
  split
  · split
    · rfl
    · split
      · exact List.length_set
      · rfl
  · rfl

theorem length_perform_le (s : Service) (nonce : Nat → Crypto.Nonce) (now : Instant) (ask : Ask)
    (l : Ledger) : (perform s nonce now ask l).2.length ≤ l.length + 1 := by
  cases ask with
  | create wanted =>
    simp only [perform]
    split
    · exact Nat.le_of_eq (List.length_append)
    · exact Nat.le_succ _
  | get name passphrase =>
    simp only [perform]
    rw [length_take]
    exact Nat.le_succ _
  | delete name passphrase =>
    simp only [perform]
    rw [length_take]
    exact Nat.le_succ _

theorem CreatedBy.perform {l : Ledger} (h : CreatedBy s calls l) (nonce : Nat → Crypto.Nonce)
    {now : Instant} {ask : Ask} (hmem : (now, ask) ∈ calls) :
    CreatedBy s calls (perform s nonce now ask l).2 := by
  cases ask with
  | create wanted =>
    simp only [Ledger.perform]
    split
    · intro i d hd
      by_cases hi : i < l.length
      · rw [List.getElem?_append_left hi] at hd
        exact h i d hd
      · rw [List.getElem?_append_right (Nat.not_lt.1 hi), List.getElem?_singleton] at hd
        split at hd
        · rw [← Option.some.inj (Option.some.inj hd)]
          exact ⟨now, wanted, hmem, rfl, rfl⟩
        · cases hd
    · exact h
  | get name passphrase => exact h.take nonce now name passphrase
  | delete name passphrase => exact h.take nonce now name passphrase

theorem take_congr {now : Instant} {name : Nat} {passphrase : Option String} {l : Ledger}
    (h : ∀ d : Deposit, l[name]? = some (some d) →
      d.read? (nonce name) (s.keyFor passphrase) = d.read? (nonce' name) (s.keyFor passphrase)) :
    take s nonce now name passphrase l = take s nonce' now name passphrase l := by
  unfold take
  split
  · rename_i d hd
    rw [h d hd]
  · rfl

/-- A ledger answers one call alike for nonces that the cipher makes no difference between. -/
theorem perform_congr {now : Instant} {ask : Ask} {l : Ledger} (alike : s.Alike nonce nonce' calls)
    (h : CreatedBy s calls l) (hlen : l.length ≤ calls.length) (hmem : (now, ask) ∈ calls) :
    perform s nonce now ask l = perform s nonce' now ask l := by
  have hread : ∀ name passphrase, ask.Presents passphrase → ∀ d : Deposit, l[name]? = some (some d) →
      d.read? (nonce name) (s.keyFor passphrase) = d.read? (nonce' name) (s.keyFor passphrase) := by
    intro name passphrase hpresents d hd
    obtain ⟨now', wanted, hcreate, hplaintext, hkey⟩ := h name d hd
    have hname : name < calls.length := by
      obtain ⟨hlt, -⟩ := List.getElem?_eq_some_iff.1 hd
      omega
    have hopen := alike name hname now' wanted now ask passphrase hcreate hmem hpresents
    unfold Deposit.read?
    rw [hplaintext, hkey, hopen]
  cases ask with
  | create wanted => rfl
  | get name passphrase =>
    simp only [perform]
    rw [take_congr (hread name passphrase ⟨name, Or.inl rfl⟩)]
  | delete name passphrase =>
    simp only [perform]
    rw [take_congr (hread name passphrase ⟨name, Or.inr rfl⟩)]

theorem performAll_congr (alike : s.Alike nonce nonce' calls) {rest : List (Instant × Ask)} {l : Ledger}
    (hrest : rest ⊆ calls) (h : CreatedBy s calls l) (hlen : l.length + rest.length ≤ calls.length) :
    performAll s nonce rest l = performAll s nonce' rest l := by
  induction rest generalizing l with
  | nil => rfl
  | cons call rest ih =>
    obtain ⟨now, ask⟩ := call
    rw [List.length_cons] at hlen
    have hmem : (now, ask) ∈ calls := hrest List.mem_cons_self
    have hstep := perform_congr alike h (by omega) hmem
    have hgrow := length_perform_le s nonce' now ask l
    have htail := ih (fun p hp => hrest (List.mem_cons_of_mem _ hp)) (h.perform nonce' hmem) (by omega)
    simp only [performAll]
    rw [hstep, htail]

end Nonces

end Ledger

/-- What a record gives out under a key is what its secret does. -/
theorem Repository.reveal_eq {r : Record} {d : Deposit} {nonce : Crypto.Nonce}
    (h : Crypto.encrypt nonce (Crypto.utf8 d.plaintext) d.key = .ok r.value) (key : String) :
    reveal r key =
      match d.read? nonce key with
      | some value => .ok { id := r.id, value := value, expiresAt := some r.expiresAt }
      | none => .error .decryptionFailed := by
  have hopen : Crypto.opening nonce (Crypto.utf8 d.plaintext) d.key key =
      Crypto.decrypt r.value key := by
    unfold Crypto.opening
    rw [h]
    rfl
  unfold reveal Deposit.read?
  rw [hopen]
  cases hdecrypt : Crypto.decrypt r.value key with
  | error f => rw [Crypto.decrypt_error hdecrypt]
  | ok bytes => cases Crypto.utf8Text? bytes <;> rfl

end BurnAfterRead
