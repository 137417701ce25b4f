import BurnAfterRead.Id.Uuid
import BurnAfterRead.Proofs.Dialogue.Path
import BurnAfterRead.Secret.Service

/-!
# Operations

What clients ask of the service, as data, so that statements can speak of many calls at once. The
second half tells what a single call can go through: the paths of a take, and the record that a
creation stores.
-/

namespace BurnAfterRead

/-- What a client asks of the service. -/
inductive Operation where
  | create (chance : Chance) (wanted : Secret)
  | get (id : String) (passphrase : Option String)
  | delete (id : String) (passphrase : Option String)
  | deleteExpired

/-- What a client is answered. -/
inductive Outcome where
  | created (answer : Except Failure Secret)
  | redeemed (answer : Except Failure Secret)
  | burnt (answer : Except Failure Unit)
  | swept (answer : Except Failure Nat)

namespace Outcome

/-- How the call failed, if it did. -/
def failure? : Outcome → Option Failure
  | created (.error f) | redeemed (.error f) | burnt (.error f) | swept (.error f) => some f
  | _ => none

/-- Whether the call returned a result. -/
def Succeeds (o : Outcome) : Prop := o.failure? = none

instance (o : Outcome) : Decidable o.Succeeds := inferInstanceAs (Decidable (o.failure? = none))

end Outcome

namespace Operation

/-- The course of an operation. -/
def call (s : Service) : Operation → Call Outcome
  | create chance wanted => (s.create chance wanted).andThen fun a => .done (.created a)
  | get id passphrase => (s.get id passphrase).andThen fun a => .done (.redeemed a)
  | delete id passphrase => (s.delete id passphrase).andThen fun a => .done (.burnt a)
  | deleteExpired => Service.deleteExpired.andThen fun a => .done (.swept a)

/-- The operation takes the secret of an identifier away if it succeeds, whether to read or to burn
it. -/
def Takes (op : Operation) (id : String) (passphrase : Option String) : Prop :=
  op = get id passphrase ∨ op = delete id passphrase

end Operation

/-- The identifier that a draft is stored under, where identifiers are universally unique ones. -/
def Draft.identifier (draft : Draft) : String := (Uuid.ofRandom draft.random).text

/-- The identifier of a secret that is stored with these random bits, where identifiers are
universally unique ones. -/
def Chance.identifier (chance : Chance) : String := (Uuid.ofRandom chance.random).text

namespace Service

open Dialogue

/-- A question of a call with its answer. -/
abbrev Exchange : Type := Dialogue.Exchange Query.Answer

/-- What an ended take has gone through, and what came of it. -/
inductive Taking (s : Service) (id : String) (passphrase : Option String) :
    List Exchange → Except Failure Secret → Prop where
  /-- The record could not be had. -/
  | missing (f : Failure) :
      Taking s id passphrase [⟨.store (.find id), .error f⟩] (.error f)
  /-- The record had expired. -/
  | expired {r : Record} {now : Instant} (reply : Except Failure Unit)
      (h : r.isExpired now = true) :
      Taking s id passphrase
        [⟨.store (.find id), .ok r⟩, ⟨.now, now⟩, ⟨.store (.remove id), reply⟩]
        (.error .secretNotFound)
  /-- The record did not open. -/
  | refused {r : Record} {now : Instant} {f : Failure} (h : r.isExpired now = false)
      (hopen : Repository.reveal r (s.keyFor passphrase) = .error f) :
      Taking s id passphrase [⟨.store (.find id), .ok r⟩, ⟨.now, now⟩] (.error f)
  /-- The record opened, but it was not this call that removed it. -/
  | beaten {r : Record} {now : Instant} {secret : Secret} (f : Failure)
      (h : r.isExpired now = false)
      (hopen : Repository.reveal r (s.keyFor passphrase) = .ok secret) :
      Taking s id passphrase
        [⟨.store (.find id), .ok r⟩, ⟨.now, now⟩, ⟨.store (.remove id), .error f⟩] (.error f)
  /-- The record opened and was removed. -/
  | taken {r : Record} {now : Instant} {secret : Secret} (h : r.isExpired now = false)
      (hopen : Repository.reveal r (s.keyFor passphrase) = .ok secret) :
      Taking s id passphrase
        [⟨.store (.find id), .ok r⟩, ⟨.now, now⟩, ⟨.store (.remove id), .ok ()⟩] (.ok secret)

/-- A take, with its steps one after the other. -/
theorem take_eq {α : Type} (s : Service) (id : String) (passphrase : Option String)
    (result : Secret → α) :
    s.take id passphrase result =
      .ask (.store (.find id)) fun
        | .error f => .done (.error f)
        | .ok r => .ask .now fun now =>
          if Record.isExpired r now then
            .ask (.store (.remove id)) fun _ => .done (.error .secretNotFound)
          else
            match Repository.reveal r (s.keyFor passphrase) with
            | .error f => .done (.error f)
            | .ok secret => .ask (.store (.remove id)) fun
              | .error f => .done (.error f)
              | .ok () => .done (.ok (result secret)) := by
  unfold take Repository.get
  rw [andThen]
  congr 1
  funext found
  cases found with
  | error f => rfl
  | ok r =>
    simp only [andThen]
    congr 1
    funext now
    split
    · rfl
    · cases Repository.reveal r (s.keyFor passphrase) <;> rfl

theorem taking_of_path {α : Type} {s : Service} {id : String} {passphrase : Option String}
    {result : Secret → α} {l : List Exchange} {a : Except Failure α}
    (h : Path (s.take id passphrase result) l (.done a)) :
    ∃ answer, Taking s id passphrase l answer ∧ a = answer.map result := by
  rw [take_eq] at h
  obtain ⟨found, rest, rfl, hfound⟩ := path_ask_done_iff.1 h
  cases found with
  | error f =>
    obtain ⟨rfl, ha⟩ := path_done_iff.1 hfound
    cases ha
    exact ⟨_, .missing f, rfl⟩
  | ok r =>
    obtain ⟨now, rest, rfl, hnow⟩ := path_ask_done_iff.1 hfound
    by_cases hexp : Record.isExpired r now = true
    · rw [if_pos hexp] at hnow
      obtain ⟨reply, rest, rfl, hreply⟩ := path_ask_done_iff.1 hnow
      obtain ⟨rfl, ha⟩ := path_done_iff.1 hreply
      cases ha
      exact ⟨_, .expired reply hexp, rfl⟩
    · rw [if_neg hexp] at hnow
      have hlive : Record.isExpired r now = false := by simpa using hexp
      cases hopen : Repository.reveal r (s.keyFor passphrase) with
      | error f =>
        rw [hopen] at hnow
        obtain ⟨rfl, ha⟩ := path_done_iff.1 hnow
        cases ha
        exact ⟨_, .refused hlive hopen, rfl⟩
      | ok secret =>
        rw [hopen] at hnow
        obtain ⟨reply, rest, rfl, hreply⟩ := path_ask_done_iff.1 hnow
        cases reply with
        | error f =>
          obtain ⟨rfl, ha⟩ := path_done_iff.1 hreply
          cases ha
          exact ⟨_, .beaten f hlive hopen, rfl⟩
        | ok u =>
          obtain ⟨rfl, ha⟩ := path_done_iff.1 hreply
          cases ha
          exact ⟨_, .taken hlive hopen, rfl⟩

/-- The draft that an exchange asks the store to keep. -/
def draftOf : Exchange → Option Draft
  | ⟨.store (.insert draft), _⟩ => some draft
  | _ => none

/-- The draft of a creation: its token seals the plaintext under the key of the secret. -/
structure Drafted (s : Service) (chance : Chance) (wanted : Secret) (draft : Draft) : Prop where
  random : draft.random = chance.random
  sealed : Crypto.encrypt chance.nonce (Crypto.utf8 wanted.value) (s.keyFor wanted.passphrase) =
    .ok draft.value
  expiry : ∀ t, wanted.expiresAt = some t → draft.expiresAt = t

theorem Drafted.identifier_eq {s : Service} {chance : Chance} {wanted : Secret} {draft : Draft}
    (h : Drafted s chance wanted draft) : draft.identifier = chance.identifier := by
  rw [Draft.identifier, h.random, Chance.identifier]

/-- What is answered for a record that was stored. -/
def shell (r : Record) : Secret := { id := r.id, expiresAt := some r.expiresAt }

/-- What an ended creation has gone through, and what came of it; it may have read the clock. -/
inductive Creating (s : Service) (chance : Chance) (wanted : Secret) :
    List Exchange → Except Failure Secret → Prop where
  | refused {l : List Exchange} (f : Failure) (h : ∀ x ∈ l, x.1 = .now) :
      Creating s chance wanted l (.error f)
  | stored {l : List Exchange} {draft : Draft} (reply : Except Failure Record)
      (h : ∀ x ∈ l, x.1 = .now) (drafted : Drafted s chance wanted draft) :
      Creating s chance wanted (l ++ [⟨.store (.insert draft), reply⟩]) (reply.map shell)

theorem creating_of_path_store {s : Service} {chance : Chance} {wanted : Secret} {t : Instant}
    {l : List Exchange} {a : Except Failure Secret}
    (h : Path (Repository.create chance wanted.value (s.keyFor wanted.passphrase) t) l (.done a))
    (ht : ∀ u, wanted.expiresAt = some u → t = u) (clock : List Exchange)
    (hclock : ∀ x ∈ clock, x.1 = .now) : Creating s chance wanted (clock ++ l) a := by
  unfold Repository.create at h
  split at h
  · obtain ⟨rfl, ha⟩ := path_done_iff.1 h
    cases ha
    rw [List.append_nil]
    exact .refused _ hclock
  · rename_i token hseal
    obtain ⟨reply, rest, rfl, hreply⟩ := path_ask_done_iff.1 h
    obtain ⟨rfl, ha⟩ := path_done_iff.1 hreply
    cases ha
    exact .stored reply hclock ⟨rfl, hseal, ht⟩

theorem creating_of_path {s : Service} {chance : Chance} {wanted : Secret} {l : List Exchange}
    {a : Except Failure Secret} (h : Path (s.create chance wanted) l (.done a)) :
    Creating s chance wanted l a := by
  unfold create at h
  split at h
  · obtain ⟨rfl, ha⟩ := path_done_iff.1 h
    cases ha
    exact .refused _ (by simp)
  · dsimp only at h
    split at h
    · rename_i t hexplicit
      refine creating_of_path_store h ?_ [] (by simp)
      intro u hu
      rw [hexplicit] at hu
      exact Option.some.inj hu
    · rename_i hnone
      obtain ⟨now, rest, rfl, hnow⟩ := path_ask_done_iff.1 h
      have hclock : ∀ x ∈ [(⟨.now, now⟩ : Exchange)], x.1 = .now := by simp
      split at hnow
      · obtain ⟨rfl, ha⟩ := path_done_iff.1 hnow
        cases ha
        exact .refused _ hclock
      · refine creating_of_path_store hnow ?_ [⟨.now, now⟩] hclock
        intro u hu
        rw [hnone] at hu
        cases hu

theorem draftOf_eq_none_of_now {x : Exchange} (h : x.1 = .now) : draftOf x = none := by
  obtain ⟨q, a⟩ := x
  cases h
  rfl

theorem Creating.drafts {s : Service} {chance : Chance} {wanted : Secret} {l : List Exchange}
    {a : Except Failure Secret} (h : Creating s chance wanted l a) :
    l.filterMap draftOf = [] ∨ ∃ draft, Drafted s chance wanted draft ∧ l.filterMap draftOf = [draft] := by
  have clock : ∀ {l : List Exchange}, (∀ x ∈ l, x.1 = .now) → l.filterMap draftOf = [] := by
    intro l h
    exact List.filterMap_eq_nil_iff.2 fun x hx => draftOf_eq_none_of_now (h x hx)
  cases h with
  | refused f h => exact Or.inl (clock h)
  | stored reply h drafted =>
    refine Or.inr ⟨_, drafted, ?_⟩
    rw [List.filterMap_append, clock h]
    rfl

theorem Taking.drafts {s : Service} {id : String} {passphrase : Option String} {l : List Exchange}
    {a : Except Failure Secret} (h : Taking s id passphrase l a) : l.filterMap draftOf = [] := by
  cases h <;> rfl

/-- A take fails with its lookup, or finds a record and reads the clock; a record that has expired by then
counts as none. -/
theorem Taking.lookup {s : Service} {id : String} {passphrase : Option String} {l : List Exchange}
    {a : Except Failure Secret} (h : Taking s id passphrase l a) :
    (∃ f, l = [⟨.store (.find id), .error f⟩] ∧ a = .error f) ∨
      ∃ r now rest, l = ⟨.store (.find id), .ok r⟩ :: ⟨.now, now⟩ :: rest ∧
        (r.isExpired now = true → a = .error .secretNotFound) := by
  cases h with
  | missing f => exact Or.inl ⟨f, rfl, rfl⟩
  | expired reply hexpired => exact Or.inr ⟨_, _, _, rfl, fun _ => rfl⟩
  | refused hlive | beaten _ hlive | taken hlive =>
    refine Or.inr ⟨_, _, _, rfl, fun hexpired => ?_⟩
    rw [hlive] at hexpired
    cases hexpired

theorem Taking.removes {s : Service} {id : String} {passphrase : Option String} {l : List Exchange}
    {secret : Secret} (h : Taking s id passphrase l (.ok secret)) :
    (⟨.store (.remove id), (.ok () : (Command.remove id).Reply)⟩ : Exchange) ∈ l := by
  cases h with
  | taken => simp

theorem Taking.not_closed {s : Service} {id : String} {passphrase : Option String} {l : List Exchange}
    {a : Except Failure Secret} (h : Taking s id passphrase l a) : ∀ x ∈ l, x.1 ≠ .store .close := by
  cases h <;> simp

theorem Creating.not_closed {s : Service} {chance : Chance} {wanted : Secret} {l : List Exchange}
    {a : Except Failure Secret} (h : Creating s chance wanted l a) : ∀ x ∈ l, x.1 ≠ .store .close := by
  intro x hx
  cases h with
  | refused f h =>
    rw [h x hx]
    simp
  | stored reply h drafted =>
    rcases List.mem_append.1 hx with hx | hx
    · rw [h x hx]
      simp
    · rw [List.mem_singleton.1 hx]
      simp

theorem Creating.not_removed {s : Service} {chance : Chance} {wanted : Secret} {l : List Exchange}
    {a : Except Failure Secret} (h : Creating s chance wanted l a) {id : String}
    {reply : Except Failure Unit} : (⟨.store (.remove id), reply⟩ : Exchange) ∉ l := by
  intro hx
  cases h with
  | refused f h => exact absurd (h _ hx) (by simp)
  | stored reply' h drafted =>
    rcases List.mem_append.1 hx with hx | hx
    · exact absurd (h _ hx) (by simp)
    · exact absurd (congrArg Sigma.fst (List.mem_singleton.1 hx)) (by simp)

theorem Taking.removed {s : Service} {id id' : String} {passphrase : Option String}
    {l : List Exchange} {a : Except Failure Secret} (h : Taking s id passphrase l a)
    (hx : (⟨.store (.remove id'), (.ok () : Except Failure Unit)⟩ : Exchange) ∈ l) :
    id' = id ∧ ∃ r now,
      l = [⟨.store (.find id), .ok r⟩, ⟨.now, now⟩, ⟨.store (.remove id), .ok ()⟩] ∧
      (r.isExpired now = true ∨
        ∃ secret, Repository.reveal r (s.keyFor passphrase) = .ok secret ∧ a = .ok secret) := by
  -- The removal is told from the other exchanges by its question.
  cases h with
  | missing f => nomatch hx
  | refused h hopen => nomatch hx
  | @expired r now reply h =>
    rcases hx with _ | ⟨_, _ | ⟨_, _ | ⟨_, hx⟩⟩⟩
    · exact ⟨rfl, r, now, rfl, Or.inl h⟩
    · nomatch hx
  | beaten f h hopen => nomatch hx
  | @taken r now secret h hopen =>
    rcases hx with _ | ⟨_, _ | ⟨_, _ | ⟨_, hx⟩⟩⟩
    · exact ⟨rfl, r, now, rfl, Or.inr ⟨secret, hopen, rfl⟩⟩
    · nomatch hx

instance (q : Query) : Nonempty q.Answer := by
  cases q with
  | now => exact ⟨(default : Instant)⟩
  | store c => exact ⟨(Except.error .timeout : c.Reply)⟩

end Service

namespace Operation

open Dialogue Service

/-- What an ended operation has gone through, and what came of it. -/
inductive Course (s : Service) : Operation → List Exchange → Outcome → Prop where
  | create {chance : Chance} {wanted : Secret} {l : List Exchange} {a : Except Failure Secret}
      (h : Creating s chance wanted l a) : Course s (.create chance wanted) l (.created a)
  | get {id : String} {passphrase : Option String} {l : List Exchange} {a : Except Failure Secret}
      (h : Taking s id passphrase l a) : Course s (.get id passphrase) l (.redeemed a)
  | delete {id : String} {passphrase : Option String} {l : List Exchange}
      {a : Except Failure Secret} (h : Taking s id passphrase l a) :
      Course s (.delete id passphrase) l (.burnt (a.map fun _ => ()))
  | deleteExpired (reply a : Except Failure Nat) :
      Course s .deleteExpired [⟨.store .sweep, reply⟩] (.swept a)

theorem course_of_path {s : Service} {op : Operation} {l : List Exchange} {o : Outcome}
    (h : Path (op.call s) l (.done o)) : Course s op l o := by
  cases op with
  | create chance wanted =>
    obtain ⟨a, rfl, ha⟩ := path_rename_iff.1 h
    exact .create (creating_of_path ha)
  | get id passphrase =>
    obtain ⟨a, rfl, ha⟩ := path_rename_iff.1 h
    obtain ⟨b, hb, rfl⟩ := taking_of_path ha
    have e : b.map (fun secret => secret) = b := by cases b <;> rfl
    rw [e]
    exact .get hb
  | delete id passphrase =>
    obtain ⟨a, rfl, ha⟩ := path_rename_iff.1 h
    obtain ⟨b, hb, rfl⟩ := taking_of_path ha
    exact .delete hb
  | deleteExpired =>
    obtain ⟨a, rfl, ha⟩ := path_rename_iff.1 h
    obtain ⟨reply, rest, rfl, hreply⟩ := path_ask_done_iff.1 ha
    obtain rfl : rest = [] := by
      revert hreply
      cases reply with
      | ok n => exact fun h => (path_done_iff.1 h).1
      | error f => cases f <;> exact fun h => (path_done_iff.1 h).1
    exact .deleteExpired reply a

theorem Course.drafts {s : Service} {op : Operation} {l : List Exchange} {o : Outcome}
    (h : Course s op l o) :
    l.filterMap draftOf = [] ∨ ∃ chance wanted draft, op = .create chance wanted ∧
      Drafted s chance wanted draft ∧ l.filterMap draftOf = [draft] := by
  cases h with
  | create h =>
    rcases h.drafts with h | ⟨draft, drafted, h⟩
    · exact Or.inl h
    · exact Or.inr ⟨_, _, draft, rfl, drafted, h⟩
  | get h => exact Or.inl h.drafts
  | delete h => exact Or.inl h.drafts
  | deleteExpired => exact Or.inl rfl

/-- On any path, only a creation asks to store something, and does so at most once. -/
theorem drafts_of_path {s : Service} {op : Operation} {l : List Exchange} {e : Call Outcome}
    (h : Path (op.call s) l e) :
    l.filterMap draftOf = [] ∨ ∃ chance wanted draft, op = .create chance wanted ∧
      Drafted s chance wanted draft ∧ l.filterMap draftOf = [draft] := by
  obtain ⟨l', o, hend⟩ := h.exists_end
  have whole := (course_of_path hend).drafts
  rw [List.filterMap_append] at whole
  rcases whole with h | ⟨chance, wanted, draft, rfl, drafted, h⟩
  · exact Or.inl (List.append_eq_nil_iff.1 h).1
  · rcases List.append_eq_singleton_iff.1 h with ⟨h, -⟩ | ⟨h, -⟩
    · exact Or.inl h
    · exact Or.inr ⟨chance, wanted, draft, rfl, drafted, h⟩

/-- A removal that was acknowledged was the last step of a take: it succeeds, unless the record had
expired. -/
theorem Course.removed {s : Service} {op : Operation} {l : List Exchange} {o : Outcome}
    (h : Course s op l o) {id : String}
    (hx : (⟨.store (.remove id), (.ok () : Except Failure Unit)⟩ : Exchange) ∈ l) :
    ∃ passphrase r now, op.Takes id passphrase ∧
      l = [⟨.store (.find id), .ok r⟩, ⟨.now, now⟩, ⟨.store (.remove id), .ok ()⟩] ∧
      (r.isExpired now = true ∨
        ∃ secret, Repository.reveal r (s.keyFor passphrase) = .ok secret ∧ o.Succeeds) := by
  cases h with
  | create h => exact absurd hx h.not_removed
  | get h =>
    obtain ⟨rfl, r, now, hl, hcase⟩ := h.removed hx
    refine ⟨_, r, now, Or.inl rfl, hl, hcase.imp_right ?_⟩
    rintro ⟨secret, hopen, rfl⟩
    exact ⟨secret, hopen, rfl⟩
  | delete h =>
    obtain ⟨rfl, r, now, hl, hcase⟩ := h.removed hx
    refine ⟨_, r, now, Or.inr rfl, hl, hcase.imp_right ?_⟩
    rintro ⟨secret, hopen, rfl⟩
    exact ⟨secret, hopen, rfl⟩
  | deleteExpired reply a =>
    exact absurd (congrArg Sigma.fst (List.mem_singleton.1 hx)) (by simp)

/-- No operation closes the store. -/
theorem Course.not_closed {s : Service} {op : Operation} {l : List Exchange} {o : Outcome}
    (h : Course s op l o) : ∀ x ∈ l, x.1 ≠ .store .close := by
  cases h with
  | create h => exact h.not_closed
  | get h => exact h.not_closed
  | delete h => exact h.not_closed
  | deleteExpired reply a =>
    intro x hx
    rw [List.mem_singleton.1 hx]
    simp

/-- A question that an operation asks is part of a course of the operation. -/
theorem exists_course_of_asked {s : Service} {op : Operation} {l : List Exchange} {q : Query}
    {next : q.Answer → Call Outcome} (h : Path (op.call s) l (.ask q next)) (a : q.Answer) :
    ∃ l' o, Course s op (l ++ ⟨q, a⟩ :: l') o := by
  obtain ⟨l', o, hend⟩ := (h.snoc a).exists_end
  rw [List.append_assoc, List.singleton_append] at hend
  exact ⟨l', o, course_of_path hend⟩

theorem asked_ne_close {s : Service} {op : Operation} {l : List Exchange} {c : Command}
    {next : c.Reply → Call Outcome} (h : Path (op.call s) l (.ask (.store c) next)) : c ≠ .close := by
  obtain ⟨l', o, course⟩ := exists_course_of_asked h (.error .timeout : c.Reply)
  rintro rfl
  exact course.not_closed _ (List.mem_append_right _ List.mem_cons_self) rfl

/-- Before an operation removes a record, it has found it. -/
theorem found_before_removal {s : Service} {op : Operation} {l : List Exchange} {id : String}
    {next : Except Failure Unit → Call Outcome}
    (h : Path (op.call s) l (.ask (.store (.remove id)) next)) :
    ∃ r now, l = [⟨.store (.find id), .ok r⟩, ⟨.now, now⟩] := by
  obtain ⟨l', o, course⟩ := exists_course_of_asked h (.ok () : Except Failure Unit)
  obtain ⟨passphrase, r, now, -, hl, -⟩ := course.removed (List.mem_append_right l List.mem_cons_self)
  -- The removal is told from the questions before it.
  match l, hl with
  | [], hl => cases hl
  | [_], hl => cases hl
  | [x, y], hl =>
    injection hl with hx hl
    injection hl with hy hl
    exact ⟨r, now, by rw [hx, hy]⟩
  | _ :: _ :: _ :: l, hl =>
    have hlen := congrArg List.length hl
    simp at hlen

end Operation

end BurnAfterRead
