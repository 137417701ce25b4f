import BurnAfterRead.Proofs.Dialogue.Path
import BurnAfterRead.Relational.ServerTable

/-!
# What a failed insertion leaves behind

A new row is inserted and read back within a transaction, and the row that was read back is only looked
into after the commit. So a caller whose commit was not acknowledged is told of a failure, his session is
dropped, and the server undoes what he did. A caller whose commit was acknowledged is given the row that
he read back, or is told what is wrong with it; then too the row is there to stay.
-/

namespace BurnAfterRead.ServerTable

open Dialogue (Path Exchange)

/-- The steps of a session with their answers. -/
abbrev Transcript : Type := List (Exchange (SessionStep.Answer (S := Statement) Statement.Result))

/-- Statements that were answered, as steps of a session. -/
def answered (m : List (Exchange Statement.Result)) : Transcript := m.map fun x => ⟨.run x.1, .ok x.2⟩

/-- The statements that were answered in a session. -/
def statements (l : Transcript) : List (Exchange Statement.Result) :=
  l.filterMap fun
    | ⟨.run q, .ok result⟩ => some ⟨q, result⟩
    | _ => none

/-- The server acknowledged a commit. -/
def Commits (l : Transcript) : Prop := ⟨.commit, ()⟩ ∈ statements l

theorem statements_append (l l' : Transcript) : statements (l ++ l') = statements l ++ statements l' :=
  List.filterMap_append

theorem statements_answered (m : List (Exchange Statement.Result)) : statements (answered m) = m := by
  induction m with
  | nil => rfl
  | cons x m ih => exact congrArg (x :: ·) ih

variable {α : Type}

/-- What becomes of a script in a session: all statements are answered, and the client stays; or one of them
fails, and the client is given up. -/
inductive Performed (script : Script α) : Transcript → Except Failure α → Prop where
  | finished {m : List (Exchange Statement.Result)} {result : α} (path : Path script m (.done result)) :
      Performed script (answered m ++ [⟨.release true, ()⟩]) (.ok result)
  | broken {m : List (Exchange Statement.Result)} {q : Statement} {next : q.Result → Script α}
      (path : Path script m (.ask q next)) (f : Failure) :
      Performed script (answered m ++ [⟨.run q, .error f⟩, ⟨.release false, ()⟩]) (.error f)

theorem performed_of_path {script : Script α} {l : Transcript} {a : Except Failure α}
    (h : Path (Session.perform script) l (.done a)) : Performed script l a := by
  induction script generalizing l with
  | done result =>
    obtain ⟨_, rest, rfl, hdone⟩ := Dialogue.path_ask_done_iff.1 h
    obtain ⟨rfl, ha⟩ := Dialogue.path_done_iff.1 hdone
    cases ha
    exact .finished (.nil _)
  | ask q next ih =>
    rw [Session.perform] at h
    obtain ⟨answer, rest, rfl, hnext⟩ := Dialogue.path_ask_done_iff.1 h
    cases answer with
    | ok result =>
      cases ih result hnext with
      | finished path => exact .finished (.cons path)
      | broken path f => exact .broken (.cons path) f
    | error f =>
      obtain ⟨_, rest, rfl, hdone⟩ := Dialogue.path_ask_done_iff.1 hnext
      obtain ⟨rfl, ha⟩ := Dialogue.path_done_iff.1 hdone
      cases ha
      exact .broken (.nil _) f

/-- How a caller comes by a client. -/
inductive Entry : Transcript → Prop where
  | there : Entry [⟨.isClosed, false⟩, ⟨.acquire, true⟩]
  | dialled : Entry [⟨.isClosed, false⟩, ⟨.acquire, false⟩, ⟨.dial, .ok ()⟩]

/-- What becomes of a caller who opens a session for a script. -/
inductive Attended (script : Script α) : Transcript → Except Failure α → Prop where
  | refused : Attended script [⟨.isClosed, true⟩] (.error connectionClosed)
  | stranded (f : Failure) : Attended script
      [⟨.isClosed, false⟩, ⟨.acquire, false⟩, ⟨.dial, .error f⟩, ⟨.release false, ()⟩] (.error f)
  | performed {entry l : Transcript} {a : Except Failure α} (enters : Entry entry)
      (h : Performed script l a) : Attended script (entry ++ l) a

theorem attended_of_path {script : Script α} {l : Transcript} {a : Except Failure α}
    (h : Path (Session.within script) l (.done a)) : Attended script l a := by
  obtain ⟨closed, rest, rfl, hopened⟩ := Dialogue.path_ask_done_iff.1 h
  cases closed with
  | true =>
    obtain ⟨rfl, ha⟩ := Dialogue.path_done_iff.1 hopened
    cases ha
    exact .refused
  | false =>
    obtain ⟨there, rest, rfl, hentered⟩ := Dialogue.path_ask_done_iff.1 hopened
    cases there with
    | true => exact .performed .there (performed_of_path hentered)
    | false =>
      obtain ⟨answer, rest, rfl, hdialled⟩ := Dialogue.path_ask_done_iff.1 hentered
      cases answer with
      | ok => exact .performed .dialled (performed_of_path hdialled)
      | error f =>
        obtain ⟨_, rest, rfl, hdone⟩ := Dialogue.path_ask_done_iff.1 hdialled
        obtain ⟨rfl, ha⟩ := Dialogue.path_done_iff.1 hdone
        cases ha
        exact .stranded f

/-- The statements of an insertion and their answers, if the row is read back so. -/
def insertion (r : Record) (row : Option Row) : List (Exchange Statement.Result) :=
  [⟨.begin, ()⟩, ⟨.insert r, ()⟩, ⟨.select r.id, row⟩, ⟨.commit, ()⟩]

/-- An insertion whose statements were all answered tells what was read back. -/
theorem insertion_of_path {r : Record} {m : List (Exchange Statement.Result)}
    {result : Except Failure Record} (h : Path (insertScript r) m (.done result)) :
    ∃ row, m = insertion r row ∧ result = found row := by
  cases h with | cons h => cases h with | cons h => cases h with | @cons _ _ row _ _ h =>
  cases h with | cons h => cases h with | nil => exact ⟨row, rfl, rfl⟩

/-- The server after statements that it answered, once the client is given up. -/
def Server.afterLoss (now : Instant) (m : List (Exchange Statement.Result)) (s : Server) : Server :=
  (m.foldl (fun s x => (execute now x.1 s).2) s).discard

/-- An insertion that stops earlier has not committed, and nothing is left of it. -/
theorem insertion_undone {r : Record} {m : List (Exchange Statement.Result)} {q : Statement}
    {next : q.Result → Script (Except Failure Record)} (h : Path (insertScript r) m (.ask q next)) :
    (∀ x ∈ m, x.1 ≠ .commit) ∧ ∀ now s, (Server.afterLoss now m s).rows = s.rows := by
  cases h with
  | nil => exact ⟨by simp, fun _ _ => rfl⟩
  | cons h => cases h with
    | nil => exact ⟨by simp, fun _ _ => rfl⟩
    | cons h => cases h with
      | nil => exact ⟨by simp, fun _ _ => rfl⟩
      | cons h => cases h with
        | nil => exact ⟨by simp, fun _ _ => rfl⟩
        | cons h => cases h

/-- A caller's statements stand between his entry and the end of his session. -/
theorem Entry.statements_eq {entry rest : Transcript} (h : Entry entry) (hrest : statements rest = [])
    (m : List (Exchange Statement.Result)) : statements (entry ++ (answered m ++ rest)) = m := by
  have hentry : statements entry = [] := by cases h <;> rfl
  rw [statements_append, hentry, List.nil_append, statements_append, statements_answered, hrest,
    List.append_nil]

/-- An insertion either commits, or fails and leaves nothing behind. If the server acknowledged the commit,
the caller is given the row that he read back, or is told what is wrong with it, and the client stays. If
it did not, the caller is told of a failure, and unless he was turned away the client is given up. -/
theorem inserted_iff_committed (draft : Draft) {l : Transcript} {a : Except Failure Record}
    (h : Path (command (.insert draft)) l (.done a)) :
    (Commits l ∧ (∃ row, statements l = insertion draft.record row ∧ a = found row) ∧
      l.getLast? = some ⟨.release true, ()⟩) ∨
    (¬Commits l ∧ (∃ f, a = .error f) ∧
      (l = [⟨.isClosed, true⟩] ∨ l.getLast? = some ⟨.release false, ()⟩) ∧
      ∀ now s, (Server.afterLoss now (statements l) s).rows = s.rows) := by
  obtain ⟨outcome, rfl, hpath⟩ := Dialogue.path_rename_iff.1 h
  cases attended_of_path hpath with
  | refused => exact Or.inr ⟨by simp [Commits, statements], ⟨_, rfl⟩, Or.inl rfl, fun _ _ => rfl⟩
  | stranded f => exact Or.inr ⟨by simp [Commits, statements], ⟨_, rfl⟩, Or.inr rfl, fun _ _ => rfl⟩
  | performed enters hperformed =>
    cases hperformed with
    | @finished m result path =>
      obtain ⟨row, rfl, rfl⟩ := insertion_of_path path
      have hrest : statements [⟨.release true, ()⟩] = [] := rfl
      have hran := enters.statements_eq hrest (insertion draft.record row)
      refine Or.inl ⟨?_, ⟨row, hran, rfl⟩, by simp⟩
      rw [Commits, hran]
      simp [insertion]
    | @broken m q next path f =>
      obtain ⟨huncommitted, hundone⟩ := insertion_undone path
      have hrest : statements [⟨.run q, .error f⟩, ⟨.release false, ()⟩] = [] := rfl
      have hran := enters.statements_eq hrest m
      refine Or.inr ⟨?_, ⟨f, rfl⟩, Or.inr (by simp), ?_⟩
      · rw [Commits, hran]
        exact fun hcommit => huncommitted _ hcommit rfl
      · rw [hran]
        exact hundone

/-- A server may answer every statement of a script. -/
theorem path_of_answered {script : Script α} {m : List (Exchange Statement.Result)} {result : α}
    (h : Path script m (.done result)) :
    Path (Session.perform script) (answered m ++ [⟨.release true, ()⟩]) (.done (.ok result)) := by
  induction script generalizing m with
  | done r =>
    obtain ⟨rfl, hr⟩ := Dialogue.path_done_iff.1 h
    cases hr
    exact .cons (.nil _)
  | ask q next ih =>
    obtain ⟨answer, rest, rfl, hnext⟩ := Dialogue.path_ask_done_iff.1 h
    rw [Session.perform]
    exact Dialogue.path_ask_done_iff.2 ⟨.ok answer, _, rfl, ih answer hnext⟩

/-- What is wrong with the row is told after the commit, so a caller may be told of a failure although his
row is there to stay. -/
theorem exists_committed_failure (draft : Draft) {row : Option Row} {f : Failure}
    (h : found row = .error f) :
    ∃ l, Path (command (.insert draft)) l (.done (.error f)) ∧ Commits l := by
  have hscript : Path (insertScript draft.record) (insertion draft.record row)
      (.done (.error f)) := by
    rw [← h]
    exact .cons (.cons (.cons (.cons (.nil _))))
  have hsession : Path (Session.within (insertScript draft.record))
      ([⟨.isClosed, false⟩, ⟨.acquire, true⟩] ++
        (answered (insertion draft.record row) ++ [⟨.release true, ()⟩])) (.done (.ok (.error f))) :=
    Dialogue.path_ask_done_iff.2 ⟨false, _, rfl,
      Dialogue.path_ask_done_iff.2 ⟨true, _, rfl, path_of_answered hscript⟩⟩
  refine ⟨_, Dialogue.path_rename_iff.2 ⟨_, rfl, hsession⟩, ?_⟩
  rw [Commits, Entry.there.statements_eq rfl]
  simp [insertion]

end BurnAfterRead.ServerTable
