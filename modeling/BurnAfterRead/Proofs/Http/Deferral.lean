import BurnAfterRead.Proofs.Http.Plan
import BurnAfterRead.Proofs.Service.Backends
import BurnAfterRead.Proofs.Store.ServerTable

/-!
# Who puts clients off

Only a limiter tells a client to come back later. No store does, so neither does the service, and no
action on a route is answered with the status 429.
-/

namespace BurnAfterRead

/-- What failed is to be tried again later. -/
def Defers {β : Type} : Except Failure β → Prop
  | .error (.tooManyRequests _) => True
  | _ => False

theorem Defers.of_error {β γ : Type} {f : Failure} (h : Defers (.error f : Except Failure β)) :
    Defers (.error f : Except Failure γ) := by
  cases f <;> exact h

theorem status_ne_of_not_defers {β : Type} {f : Failure} (h : ¬Defers (.error f : Except Failure β)) :
    f.status ≠ 429 := by
  intro hstatus
  cases f with
  | tooManyRequests wait => exact h trivial
  | _ => simp [Failure.status] at hstatus

theorem not_defers_removedOne (count : Nat) : ¬Defers (removedOne count) := by
  unfold removedOne
  split <;> exact not_false

theorem not_defers_removedSome (count : Nat) : ¬Defers (removedSome count) := by
  unfold removedSome
  split <;> exact not_false

/-! ## Stores -/

/-- Whatever a store is asked, it does not ask to come back later. -/
def Store.NeverDefers {σ : Type} (store : Store σ) : Prop := ∀ now c st, ¬Defers (store now c st).1

theorem Memory.neverDefers : Memory.store.NeverDefers := by
  intro now c m
  cases c with
  | find id =>
    simp only [store]
    split <;> exact not_false
  | insert draft => exact not_false
  | remove id => exact not_defers_removedOne _
  | sweep => exact not_defers_removedSome _
  | close => exact not_false

theorem KeyValue.neverDefers : KeyValue.store.NeverDefers := by
  intro now c keys
  cases c with
  | find id =>
    change ¬Defers (Payload.decode _)
    unfold Payload.decode
    split
    · exact not_false
    · split <;> exact not_false
  | insert draft => exact not_false
  | remove id => exact not_defers_removedOne _
  | sweep => exact not_defers_removedSome 0
  | close => exact not_false

namespace Document

theorem not_defers_found (document? : Option Document) : ¬Defers (found document?) := by
  cases document? with
  | none => exact not_false
  | some d =>
    change ¬Defers d.toRecord
    unfold toRecord
    split <;> exact not_false

theorem neverDefers : Document.store.NeverDefers := by
  intro now c docs
  cases c with
  | find id =>
    simp only [store, command, readId]
    cases ObjectId.ofText? id with
    | none => exact not_false
    | some oid => exact not_defers_found _
  | insert draft => exact not_defers_found _
  | remove id =>
    simp only [store, command, readId]
    cases ObjectId.ofText? id with
    | none => exact not_false
    | some oid => exact not_defers_removedOne _
  | sweep => exact not_defers_removedSome _
  | close => exact not_false

end Document

namespace TextTable

/-- A failure of the engine is one of the storage. -/
theorem not_defers_select (answer : Except RowFault Record) :
    ¬Defers (answer.mapError RowFault.toFailure) := by
  match answer with
  | .ok r => exact not_false
  | .error .absent => exact not_false
  | .error (.engine detail) => exact not_false

theorem not_defers_commit (now : Instant) (stored : Record) (t : Table) :
    ¬Defers ((Table.answer now .commit t).1.map fun _ => stored) := by
  unfold Table.answer
  split <;> exact not_false

theorem not_defers_insertAndSelect (now : Instant) (r : Record) (t : Table) :
    ¬Defers ((insertAndSelect r).run (Table.answer now) t).1 := by
  obtain ⟨rows, open?, isClosed⟩ := t
  cases isClosed with
  | true => exact not_false
  | false =>
    simp only [insertAndSelect, Dialogue.run, Table.answer, Table.answerOpen, Bool.false_eq_true, if_false]
    by_cases hused : (Table.mk rows (some rows) false).current.any (·.id == (TextRow.ofRecord r).id)
    · rw [if_pos hused]
      exact not_false
    · rw [if_neg hused]
      dsimp only
      rw [Dialogue.run]
      generalize Table.answer now (.select r.id) _ = selected
      obtain ⟨fault | stored, t⟩ := selected
      · cases fault <;> exact not_false
      · exact not_defers_commit now stored t

theorem neverDefers : TextTable.store.NeverDefers := by
  intro now c t
  cases c with
  | find id => exact not_defers_select _
  | insert draft => exact not_defers_insertAndSelect now _ t
  | remove id =>
    change ¬Defers ((Table.answer now (.delete id) t).1.bind removedOne)
    unfold Table.answer
    split
    · exact not_false
    · exact not_defers_removedOne _
  | sweep =>
    change ¬Defers ((Table.answer now .deleteExpired t).1.bind removedSome)
    unfold Table.answer
    split
    · exact not_false
    · exact not_defers_removedSome _
  | close =>
    change ¬Defers (Table.answer now .close t).1
    unfold Table.answer
    split <;> exact not_false

end TextTable

namespace ServerTable

theorem not_defers_found (row? : Option Row) : ¬Defers (found row?) := by
  cases row? with
  | none => exact not_false
  | some row =>
    change ¬Defers row.toRecord
    unfold Row.toRecord
    split <;> exact not_false

/-- What is done in a session is not put off, if what the script comes to is not. -/
theorem not_defers_inSession {β : Type} (now : Instant) (script : Script (Except Failure β)) (s : Server)
    (h : ∀ s', ¬Defers (script.run (Server.execute now) s').1) :
    ¬Defers ((inSession script).run (Server.answer now) s).1 := by
  have hperform : ∀ s', ¬Defers
      (((Session.perform script).run (Server.answer now) s').1.bind fun reply => reply) := by
    intro s'
    rw [run_perform]
    exact h s'
  unfold inSession
  rw [Dialogue.run_andThen]
  obtain ⟨rows, slot, isClosed⟩ := s
  match isClosed, slot with
  | true, _ => exact not_false
  | false, some client => exact hperform ⟨rows, some client, false⟩
  | false, none => exact hperform ⟨rows, some ⟨none⟩, false⟩

theorem neverDefers : ServerTable.store.NeverDefers := by
  intro now c s
  cases c with
  | find id => exact not_defers_inSession now _ s fun _ => not_defers_found _
  | insert draft =>
    exact not_defers_inSession now (insertScript draft.record) s fun _ => not_defers_found _
  | remove id => exact not_defers_inSession now _ s fun _ => not_defers_removedOne _
  | sweep => exact not_defers_inSession now _ s fun _ => not_defers_removedSome _
  | close =>
    obtain ⟨rows, slot, isClosed⟩ := s
    cases slot <;> exact not_false

end ServerTable

theorem Backend.neverDefers (b : Backend) : b.store.NeverDefers :=
  match b with
  | memory => Memory.neverDefers
  | textTable => TextTable.neverDefers
  | keyValue => KeyValue.neverDefers
  | document => Document.neverDefers

/-! ## The service -/

namespace Store.NeverDefers

variable {σ : Type} {store : Store σ} (h : store.NeverDefers) (s : Service) (now : Instant) (st : σ)
include h

theorem create (chance : Chance) (wanted : Secret) :
    ¬Defers ((s.create chance wanted).run (store.answer now) st).1 := by
  cases haccept : s.accept wanted now with
  | error f =>
    rw [Service.run_create_of_accept_error store chance st haccept]
    obtain ⟨reason, rfl⟩ := Service.accept_error haccept
    exact not_false
  | ok t =>
    obtain ⟨-, token, -, hrun⟩ := Service.run_create_of_accept store chance st haccept
    have hreply := h now (.insert ⟨token, t, chance.random⟩) st
    rw [hrun]
    dsimp only
    cases hinsert : (store now (.insert ⟨token, t, chance.random⟩) st).1 with
    | error f =>
      rw [hinsert] at hreply
      exact fun hdefers => hreply hdefers.of_error
    | ok r => exact not_false

theorem take {β : Type} (id : String) (passphrase : Option String) (result : Secret → β) :
    ¬Defers ((s.take id passphrase result).run (store.answer now) st).1 := by
  have hfind := h now (.find id) st
  cases hfound : (store now (.find id) st).1 with
  | error f =>
    rw [hfound] at hfind
    rw [s.run_take_of_missing passphrase result hfound]
    exact fun hdefers => hfind hdefers.of_error
  | ok r =>
    cases hexpired : r.isExpired now with
    | true =>
      rw [s.run_take_of_expired passphrase result hfound hexpired]
      exact not_false
    | false =>
      cases hopen : Repository.reveal r (s.keyFor passphrase) with
      | error f =>
        rw [s.run_take_of_refused passphrase result hfound hexpired hopen,
          Repository.eq_of_reveal_error hopen]
        exact not_false
      | ok secret =>
        have hremove := h now (.remove id) (store now (.find id) st).2
        cases hremoved : (store now (.remove id) (store now (.find id) st).2).1 with
        | error f =>
          rw [hremoved] at hremove
          rw [s.run_take_of_beaten passphrase result hfound hexpired hopen hremoved]
          exact fun hdefers => hremove hdefers.of_error
        | ok u =>
          rw [s.run_take_of_opened passphrase result hfound hexpired hopen hremoved]
          exact not_false

end Store.NeverDefers

/-! ## Routes -/

namespace Http

namespace SecretRequest

theorem ofRequest_error {r : Request} {f : Failure} (h : ofRequest r = .error f) :
    ∃ reason, f = .invalidRequest reason := by
  unfold ofRequest ofBytes at h
  split at h
  · split at h
    · split at h
      · rename_i fault _
        cases fault <;> exact ⟨_, (Except.error.inj h).symm⟩
      · cases h
    · exact ⟨_, (Except.error.inj h).symm⟩
  · exact ⟨_, (Except.error.inj h).symm⟩

theorem readTtl_error {text : String} {f : Failure} (h : readTtl text = .error f) :
    ∃ reason, f = .invalidRequest reason := by
  unfold readTtl Span.parse at h
  cases hread : readSignedMillis text.toList with
  | error fault =>
    rw [hread] at h
    exact ⟨_, (Except.error.inj h).symm⟩
  | ok ms =>
    rw [hread] at h
    dsimp only at h
    split at h
    · exact ⟨_, (Except.error.inj h).symm⟩
    split at h
    · exact ⟨_, (Except.error.inj h).symm⟩
    · cases h

theorem toSecret_error {body : SecretRequest} {f : Failure} (h : body.toSecret = .error f) :
    ∃ reason, f = .invalidRequest reason := by
  unfold toSecret lifetime at h
  split at h
  · exact ⟨_, (Except.error.inj h).symm⟩
  split at h
  · rename_i text _
    cases hread : readTtl text with
    | error g =>
      rw [hread] at h
      obtain ⟨reason, rfl⟩ := readTtl_error hread
      exact ⟨reason, (Except.error.inj h).symm⟩
    | ok ttl =>
      rw [hread] at h
      cases h
  · cases h

/-- A body that is refused is refused as a request that is not valid. -/
theorem error_of_refused {r : Request} {f : Failure} (h : (ofRequest r).bind toSecret = .error f) :
    ∃ reason, f = .invalidRequest reason := by
  cases hbody : ofRequest r with
  | error g =>
    rw [hbody] at h
    obtain ⟨reason, rfl⟩ := ofRequest_error hbody
    exact ⟨reason, (Except.error.inj h).symm⟩
  | ok body =>
    rw [hbody] at h
    exact toSecret_error h

end SecretRequest

theorem Response.status_ofFailure_ne {β : Type} {f : Failure} (h : ¬Defers (.error f : Except Failure β)) :
    (ofFailure f).status ≠ 429 := by
  rw [status_ofFailure]
  exact status_ne_of_not_defers h

/-- What an action comes to is not put off. -/
theorem Action.status_ne {σ : Type} {store : Store σ} (hstore : store.NeverDefers) (s : Service)
    (now : Instant) (draws : Draws) (r : Request) (st : σ) (action : Action) :
    (carryOut s store now st (action.plan draws r)).1.status ≠ 429 := by
  cases action with
  | health => exact Nat.ne_of_beq_eq_false rfl
  | generate =>
    change (Http.generate r draws.letters).status ≠ 429
    rw [status_generate]
    decide
  | create =>
    simp only [plan]
    cases hwanted : (SecretRequest.ofRequest r).bind SecretRequest.toSecret with
    | error f =>
      obtain ⟨reason, rfl⟩ := SecretRequest.error_of_refused hwanted
      exact Nat.ne_of_beq_eq_false rfl
    | ok wanted =>
      have hcreate := hstore.create s now st draws.chance wanted
      rw [carryOut, Service.perform_create]
      generalize ((s.create draws.chance wanted).run (store.answer now) st).1 = answer at hcreate
      cases answer with
      | error f => exact Response.status_ofFailure_ne hcreate
      | ok secret => exact Nat.ne_of_beq_eq_false rfl
  | redeem segment =>
    simp only [plan]
    cases Text.percentText? segment with
    | none => exact Nat.ne_of_beq_eq_false rfl
    | some id =>
      have htake : ¬Defers ((s.get id (passphrase? r.headers)).run (store.answer now) st).1 :=
        hstore.take s now st id _ _
      dsimp only
      rw [carryOut, Service.perform_get]
      generalize ((s.get id (passphrase? r.headers)).run (store.answer now) st).1 = answer at htake
      cases answer with
      | error f => exact Response.status_ofFailure_ne htake
      | ok secret => exact Nat.ne_of_beq_eq_false rfl
  | delete segment =>
    simp only [plan]
    cases Text.percentText? segment with
    | none => exact Nat.ne_of_beq_eq_false rfl
    | some id =>
      have htake : ¬Defers ((s.delete id (passphrase? r.headers)).run (store.answer now) st).1 :=
        hstore.take s now st id _ _
      dsimp only
      rw [carryOut, Service.perform_delete]
      generalize ((s.delete id (passphrase? r.headers)).run (store.answer now) st).1 = answer at htake
      cases answer with
      | error f => exact Response.status_ofFailure_ne htake
      | ok u => exact Nat.ne_of_beq_eq_false rfl

end Http

end BurnAfterRead
