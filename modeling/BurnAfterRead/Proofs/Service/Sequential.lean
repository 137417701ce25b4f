import BurnAfterRead.Proofs.Crypto.Token
import BurnAfterRead.Proofs.Service.Operation

/-!
# Calls one after the other

A call that has the store for itself: all its questions are answered at one time, out of a state that
no one else changes. What comes of it is told by the replies of the store to at most two commands.
-/

namespace BurnAfterRead

/-- Answers what a call asks at a time. -/
def Store.answer {σ : Type} (store : Store σ) (now : Instant) : (q : Query) → σ → q.Answer × σ
  | .now, st => (now, st)
  | .store c, st => store now c st

/-- A record can be had under an identifier: it is found, and it can be removed then. -/
structure Store.Lends {σ : Type} (store : Store σ) (now : Instant) (st : σ) (id : String) (r : Record) :
    Prop where
  found : (store now (.find id) st).1 = .ok r
  removed : (store now (.remove id) (store now (.find id) st).2).1 = .ok ()

/-- A record has one way not to open. -/
theorem Repository.eq_of_reveal_error {r : Record} {key : String} {f : Failure}
    (h : reveal r key = .error f) : f = .decryptionFailed := by
  unfold reveal at h
  split at h
  · rename_i hopen
    rw [← Except.error.inj h, Crypto.decrypt_error hopen]
  · split at h
    · cases h
    · exact (Except.error.inj h).symm

namespace Service

variable {σ : Type}

/-- Performs an operation at a time, and nothing else meanwhile. -/
def perform (s : Service) (store : Store σ) (now : Instant) (op : Operation) (st : σ) : Outcome × σ :=
  (op.call s).run (store.answer now) st

/-- Performs one operation after the other. -/
def performAll (s : Service) (store : Store σ) : List (Instant × Operation) → σ → List Outcome × σ
  | [], st => ([], st)
  | (now, op) :: rest, st =>
    let (o, st) := s.perform store now op st
    let (os, st) := performAll s store rest st
    (o :: os, st)

section Perform

variable (s : Service) (store : Store σ) (now : Instant) (st : σ)

theorem perform_create (chance : Chance) (wanted : Secret) :
    s.perform store now (.create chance wanted) st =
      (.created ((s.create chance wanted).run (store.answer now) st).1,
        ((s.create chance wanted).run (store.answer now) st).2) := by
  unfold perform
  simp only [Operation.call, Dialogue.run_andThen, Dialogue.run]

theorem perform_get (id : String) (passphrase : Option String) :
    s.perform store now (.get id passphrase) st =
      (.redeemed ((s.get id passphrase).run (store.answer now) st).1,
        ((s.get id passphrase).run (store.answer now) st).2) := by
  unfold perform
  simp only [Operation.call, Dialogue.run_andThen, Dialogue.run]

theorem perform_delete (id : String) (passphrase : Option String) :
    s.perform store now (.delete id passphrase) st =
      (.burnt ((s.delete id passphrase).run (store.answer now) st).1,
        ((s.delete id passphrase).run (store.answer now) st).2) := by
  unfold perform
  simp only [Operation.call, Dialogue.run_andThen, Dialogue.run]

theorem performAll_append (calls calls' : List (Instant × Operation)) :
    (s.performAll store (calls ++ calls') st).2 =
      (s.performAll store calls' (s.performAll store calls st).2).2 := by
  induction calls generalizing st with
  | nil => rfl
  | cons call rest ih =>
    simp only [List.cons_append, performAll]
    exact ih _

end Perform

/-- The expiry of a secret that is created at a time: the one that was asked for, or else the end of
the lifetime that was asked for, or else of the default lifetime. -/
def expiry (s : Service) (wanted : Secret) (now : Instant) : Except Failure Instant :=
  match wanted.expiresAt with
  | some t => .ok t
  | none => expiryAfter (wanted.ttl.getD s.defaultTtl) now

/-- The expiry of a secret that is created at a time, if it is accepted. -/
def accept (s : Service) (wanted : Secret) (now : Instant) : Except Failure Instant :=
  (checkValue wanted.value).bind fun _ => s.expiry wanted now

theorem checkValue_eq_ok_iff {value : String} :
    checkValue value = .ok () ↔ value ≠ "" ∧ value.length ≤ Secret.maxValueLength := by
  unfold checkValue
  split
  · rename_i h
    simp [h]
  · rename_i h
    split
    · rename_i hlen
      constructor
      · intro h'
        exact absurd h' (by simp)
      · rintro ⟨-, h'⟩
        exact absurd h' (by omega)
    · rename_i hlen
      exact ⟨fun _ => ⟨h, by omega⟩, fun _ => rfl⟩

/-- A value that passes its check can be sealed. -/
theorem exists_token {value : String} (h : checkValue value = .ok ()) (nonce : Crypto.Nonce)
    (key : String) : ∃ token, Crypto.encrypt nonce (Crypto.utf8 value) key = .ok token := by
  have hlen := (checkValue_eq_ok_iff.1 h).2
  have hbytes := Crypto.length_utf8_le value
  have hmax : 4 * Secret.maxValueLength ≤ Crypto.Gcm.maxText := by decide
  exact Crypto.exists_encrypt nonce key (by omega)

theorem run_create (s : Service) (store : Store σ) (now : Instant) (chance : Chance)
    (wanted : Secret) (st : σ) {t : Instant} {token : String}
    (hvalue : checkValue wanted.value = .ok ()) (hexpiry : s.expiry wanted now = .ok t)
    (htoken : Crypto.encrypt chance.nonce (Crypto.utf8 wanted.value) (s.keyFor wanted.passphrase) =
      .ok token) :
    (s.create chance wanted).run (store.answer now) st =
      ((store now (.insert ⟨token, t, chance.random⟩) st).1.map shell,
        (store now (.insert ⟨token, t, chance.random⟩) st).2) := by
  unfold expiry at hexpiry
  unfold create
  rw [hvalue]
  dsimp only
  split
  · rename_i u hu
    rw [hu] at hexpiry
    obtain rfl := Except.ok.inj hexpiry
    unfold Repository.create
    rw [htoken]
    rfl
  · rename_i hu
    rw [hu] at hexpiry
    simp only [Dialogue.run, Store.answer]
    dsimp only at hexpiry
    rw [hexpiry]
    dsimp only
    unfold Repository.create
    rw [htoken]
    rfl

/-- A creation that is refused does nothing. -/
theorem run_create_of_refused (s : Service) (store : Store σ) (now : Instant) (chance : Chance)
    (wanted : Secret) (st : σ) {f : Failure}
    (h : checkValue wanted.value = .error f ∨
      checkValue wanted.value = .ok () ∧ s.expiry wanted now = .error f) :
    (s.create chance wanted).run (store.answer now) st = (.error f, st) := by
  unfold create
  rcases h with h | ⟨h, hexpiry⟩
  · rw [h]
    rfl
  · rw [h]
    unfold expiry at hexpiry
    dsimp only
    split
    · rename_i u hu
      rw [hu] at hexpiry
      exact absurd hexpiry (by simp)
    · rename_i hu
      rw [hu] at hexpiry
      dsimp only at hexpiry
      simp only [Dialogue.run, Store.answer]
      rw [hexpiry]
      rfl

/-- What is refused is refused as a request that is not valid. -/
theorem accept_error {s : Service} {wanted : Secret} {now : Instant} {f : Failure}
    (h : s.accept wanted now = .error f) : ∃ reason, f = .invalidRequest reason := by
  unfold accept checkValue at h
  split at h
  · exact ⟨_, (Except.error.inj h).symm⟩
  split at h
  · exact ⟨_, (Except.error.inj h).symm⟩
  change s.expiry wanted now = .error f at h
  unfold expiry expiryAfter at h
  split at h
  · cases h
  split at h
  · cases h
  · exact ⟨_, (Except.error.inj h).symm⟩

theorem run_create_of_accept_error (store : Store σ) {s : Service} {now : Instant} (chance : Chance)
    {wanted : Secret} (st : σ) {f : Failure} (h : s.accept wanted now = .error f) :
    (s.create chance wanted).run (store.answer now) st = (.error f, st) := by
  refine run_create_of_refused s store now chance wanted st ?_
  unfold accept at h
  cases hvalue : checkValue wanted.value with
  | error g =>
    rw [hvalue] at h
    exact Or.inl (by rw [← Except.error.inj h])
  | ok =>
    rw [hvalue] at h
    exact Or.inr ⟨rfl, h⟩

theorem accept_eq_ok_iff {s : Service} {wanted : Secret} {now t : Instant} :
    s.accept wanted now = .ok t ↔ checkValue wanted.value = .ok () ∧ s.expiry wanted now = .ok t := by
  unfold accept
  cases hvalue : checkValue wanted.value with
  | error f => simp [Except.bind]
  | ok => simp [Except.bind]

/-- A creation that is accepted stores the sealed plaintext. -/
theorem run_create_of_accept (store : Store σ) {s : Service} {now : Instant} (chance : Chance)
    {wanted : Secret} (st : σ) {t : Instant} (h : s.accept wanted now = .ok t) :
    s.expiry wanted now = .ok t ∧ ∃ token,
      Crypto.encrypt chance.nonce (Crypto.utf8 wanted.value) (s.keyFor wanted.passphrase) = .ok token ∧
      (s.create chance wanted).run (store.answer now) st =
        ((store now (.insert ⟨token, t, chance.random⟩) st).1.map shell,
          (store now (.insert ⟨token, t, chance.random⟩) st).2) := by
  obtain ⟨hvalue, hexpiry⟩ := accept_eq_ok_iff.1 h
  obtain ⟨token, htoken⟩ := exists_token hvalue chance.nonce (s.keyFor wanted.passphrase)
  exact ⟨hexpiry, token, htoken, run_create s store now chance wanted st hvalue hexpiry htoken⟩

/-- The draft that a creation at a time stores, if it is accepted. -/
def draft (s : Service) (now : Instant) (chance : Chance) (wanted : Secret) : Except Failure Draft :=
  (s.accept wanted now).bind fun t =>
    (Crypto.encrypt chance.nonce (Crypto.utf8 wanted.value) (s.keyFor wanted.passphrase)).map
      fun token => ⟨token, t, chance.random⟩

/-- A creation inserts its draft, and does nothing else. -/
theorem run_create_eq (s : Service) (store : Store σ) (now : Instant) (chance : Chance)
    (wanted : Secret) (st : σ) :
    (s.create chance wanted).run (store.answer now) st =
      match s.draft now chance wanted with
      | .error f => (.error f, st)
      | .ok d => ((store now (.insert d) st).1.map shell, (store now (.insert d) st).2) := by
  unfold draft
  cases haccept : s.accept wanted now with
  | error f => exact run_create_of_accept_error store chance st haccept
  | ok t =>
    obtain ⟨-, token, htoken, hrun⟩ := run_create_of_accept store chance st haccept
    rw [hrun, Except.bind, htoken]
    rfl

theorem draft_eq_ok {s : Service} {now : Instant} {chance : Chance} {wanted : Secret} {d : Draft}
    (h : s.draft now chance wanted = .ok d) :
    s.accept wanted now = .ok d.expiresAt ∧ Drafted s chance wanted d := by
  unfold draft at h
  cases haccept : s.accept wanted now with
  | error f =>
    rw [haccept] at h
    cases h
  | ok t =>
    rw [haccept, Except.bind] at h
    cases htoken : Crypto.encrypt chance.nonce (Crypto.utf8 wanted.value) (s.keyFor wanted.passphrase) with
    | error f =>
      rw [htoken] at h
      cases h
    | ok token =>
      rw [htoken] at h
      obtain rfl := Except.ok.inj h
      refine ⟨rfl, rfl, htoken, fun u hu => ?_⟩
      obtain ⟨-, hexpiry⟩ := accept_eq_ok_iff.1 haccept
      rw [expiry, hu] at hexpiry
      exact (Except.ok.inj hexpiry).symm

theorem exists_draft {s : Service} {now t : Instant} {wanted : Secret} (chance : Chance)
    (haccept : s.accept wanted now = .ok t) :
    ∃ d, s.draft now chance wanted = .ok d ∧ d.expiresAt = t := by
  obtain ⟨hvalue, -⟩ := accept_eq_ok_iff.1 haccept
  obtain ⟨token, htoken⟩ := exists_token hvalue chance.nonce (s.keyFor wanted.passphrase)
  refine ⟨⟨token, t, chance.random⟩, ?_, rfl⟩
  rw [draft, haccept, Except.bind, htoken]
  rfl

section Take

variable {α : Type} (s : Service) {store : Store σ} {now : Instant} {id : String}
  (passphrase : Option String) (result : Secret → α) {st : σ}

/-- A take of a record that cannot be had. -/
theorem run_take_of_missing {f : Failure} (h : (store now (.find id) st).1 = .error f) :
    (s.take id passphrase result).run (store.answer now) st =
      (.error f, (store now (.find id) st).2) := by
  rw [take_eq]
  simp only [Dialogue.run, Store.answer, h]

/-- A take of a record that has expired removes it, and does not tell. -/
theorem run_take_of_expired {r : Record} (h : (store now (.find id) st).1 = .ok r)
    (hexp : r.isExpired now = true) :
    (s.take id passphrase result).run (store.answer now) st =
      (.error .secretNotFound, (store now (.remove id) (store now (.find id) st).2).2) := by
  rw [take_eq]
  simp only [Dialogue.run, Store.answer, h, hexp, if_true]

/-- A take of a record that does not open leaves it. -/
theorem run_take_of_refused {r : Record} {f : Failure} (h : (store now (.find id) st).1 = .ok r)
    (hexp : r.isExpired now = false)
    (hopen : Repository.reveal r (s.keyFor passphrase) = .error f) :
    (s.take id passphrase result).run (store.answer now) st =
      (.error f, (store now (.find id) st).2) := by
  rw [take_eq]
  simp only [Dialogue.run, Store.answer, h, hexp, Bool.false_eq_true, if_false, hopen]

/-- A take of a record that opens removes it. -/
theorem run_take_of_opened {r : Record} {secret : Secret}
    (h : (store now (.find id) st).1 = .ok r) (hexp : r.isExpired now = false)
    (hopen : Repository.reveal r (s.keyFor passphrase) = .ok secret)
    (hremove : (store now (.remove id) (store now (.find id) st).2).1 = .ok ()) :
    (s.take id passphrase result).run (store.answer now) st =
      (.ok (result secret), (store now (.remove id) (store now (.find id) st).2).2) := by
  rw [take_eq]
  simp only [Dialogue.run, Store.answer, h, hexp, Bool.false_eq_true, if_false, hopen, hremove]

/-- A take of a record that opens and that someone else removes. -/
theorem run_take_of_beaten {r : Record} {secret : Secret} {f : Failure}
    (h : (store now (.find id) st).1 = .ok r) (hexp : r.isExpired now = false)
    (hopen : Repository.reveal r (s.keyFor passphrase) = .ok secret)
    (hremove : (store now (.remove id) (store now (.find id) st).2).1 = .error f) :
    (s.take id passphrase result).run (store.answer now) st =
      (.error f, (store now (.remove id) (store now (.find id) st).2).2) := by
  rw [take_eq]
  simp only [Dialogue.run, Store.answer, h, hexp, Bool.false_eq_true, if_false, hopen, hremove]

/-- A take leaves what its lookup leaves, or what a removal after the lookup leaves. -/
theorem run_take_state :
    ((s.take id passphrase result).run (store.answer now) st).2 = (store now (.find id) st).2 ∨
    ((s.take id passphrase result).run (store.answer now) st).2 =
      (store now (.remove id) (store now (.find id) st).2).2 := by
  cases hfound : (store now (.find id) st).1 with
  | error f => exact Or.inl (congrArg Prod.snd (run_take_of_missing s passphrase result hfound))
  | ok r =>
    cases hexpired : Record.isExpired r now with
    | true =>
      exact Or.inr (congrArg Prod.snd (run_take_of_expired s passphrase result hfound hexpired))
    | false =>
      cases hopen : Repository.reveal r (s.keyFor passphrase) with
      | error f =>
        exact Or.inl (congrArg Prod.snd (run_take_of_refused s passphrase result hfound hexpired hopen))
      | ok secret =>
        refine Or.inr ?_
        rw [take_eq]
        simp only [Dialogue.run, Store.answer, hfound, hexpired, Bool.false_eq_true, if_false, hopen]
        cases (store now (.remove id) (store now (.find id) st).2).1 <;> rfl

/-- What a take comes to: its answer, and whether the record goes. -/
structure Verdict where
  answer : Except Failure Secret
  removes : Bool

/-- What a take comes to if a record is found, or is not. -/
def judge (now : Instant) : Except Failure Record → Verdict
  | .error f => ⟨.error f, false⟩
  | .ok r =>
    if r.isExpired now then ⟨.error .secretNotFound, true⟩
    else match Repository.reveal r (s.keyFor passphrase) with
      | .error f => ⟨.error f, false⟩
      | .ok secret => ⟨.ok secret, true⟩

theorem judge_of_expired {r : Record} (h : r.isExpired now = true) :
    s.judge passphrase now (.ok r) = ⟨.error .secretNotFound, true⟩ := by
  unfold judge
  exact if_pos h

theorem judge_of_refused {r : Record} {f : Failure} (h : r.isExpired now = false)
    (hopen : Repository.reveal r (s.keyFor passphrase) = .error f) :
    s.judge passphrase now (.ok r) = ⟨.error f, false⟩ := by
  unfold judge
  simp only [h, hopen, Bool.false_eq_true, if_false]

theorem judge_of_opened {r : Record} {secret : Secret} (h : r.isExpired now = false)
    (hopen : Repository.reveal r (s.keyFor passphrase) = .ok secret) :
    s.judge passphrase now (.ok r) = ⟨.ok secret, true⟩ := by
  unfold judge
  simp only [h, hopen, Bool.false_eq_true, if_false]

/-- A take from a store whose lookups change nothing, and whose removals take what lookups find. -/
theorem run_take {found : Except Failure Record} (hfind : store now (.find id) st = (found, st))
    (hremove : ∀ r, found = .ok r → (store now (.remove id) st).1 = .ok ()) :
    (s.take id passphrase result).run (store.answer now) st =
      ((s.judge passphrase now found).answer.map result,
        if (s.judge passphrase now found).removes then (store now (.remove id) st).2 else st) := by
  have hfound : (store now (.find id) st).1 = found := congrArg Prod.fst hfind
  have hsame : (store now (.find id) st).2 = st := congrArg Prod.snd hfind
  cases found with
  | error f =>
    rw [run_take_of_missing s passphrase result hfound, hsame]
    rfl
  | ok r =>
    cases hexpired : r.isExpired now with
    | true =>
      rw [run_take_of_expired s passphrase result hfound hexpired, hsame,
        judge_of_expired s passphrase hexpired]
      rfl
    | false =>
      cases hopen : Repository.reveal r (s.keyFor passphrase) with
      | error f =>
        rw [run_take_of_refused s passphrase result hfound hexpired hopen, hsame,
          judge_of_refused s passphrase hexpired hopen]
        rfl
      | ok secret =>
        have hremoved : (store now (.remove id) (store now (.find id) st).2).1 = .ok () := by
          rw [hsame]
          exact hremove r rfl
        rw [run_take_of_opened s passphrase result hfound hexpired hopen hremoved, hsame,
          judge_of_opened s passphrase hexpired hopen]
        rfl

end Take

theorem run_deleteExpired (store : Store σ) (now : Instant) (st : σ) :
    deleteExpired.run (store.answer now) st =
      (match (store now .sweep st).1 with
        | .error .nothingSwept => .ok 0
        | answer => answer, (store now .sweep st).2) := by
  unfold deleteExpired Repository.deleteExpired
  simp only [Dialogue.andThen, Dialogue.run, Store.answer]
  generalize store now .sweep st = p
  obtain ⟨answer, st'⟩ := p
  cases answer with
  | ok n => rfl
  | error f => cases f <;> rfl

end Service

end BurnAfterRead
