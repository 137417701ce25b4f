import BurnAfterRead.Proofs.Dialogue.Path
import BurnAfterRead.Proofs.Store.TextTable
import Mathlib.Logic.Relation

/-!
# What an insertion leaves in a table of texts

The engine may fail at any request, and a caller may give up between any two; a transaction that is still
open is undone when the connection is given back. So an insertion leaves the table as it was, unless the
caller is given the record that was inserted: then one row is added behind the others. From then on the
record is found as it was inserted, until it is removed or swept.
-/

namespace BurnAfterRead.TextTable

open Dialogue (Exchange)

/-- The table once the connection is given back. -/
def Table.givenBack (t : Table) : Table := { t with open? := none }

/-- The answer to a request tells of a failure. -/
def Request.Fails : (q : Request) → q.Answer → Prop
  | .begin, a | .commit, a | .rollback, a | .insert _, a | .close, a => ∃ f : Failure, a = .error f
  | .select _, a => ∃ fault : RowFault, a = .error fault
  | .delete _, a | .deleteExpired, a => ∃ f : Failure, a = .error f

/-- How a request may be answered: the engine does what it is asked, or it fails, and what was committed
stays. -/
inductive Answers (now : Instant) (t : Table) (q : Request) : q.Answer → Table → Prop where
  | done {a : q.Answer} {t' : Table} (h : Table.answer now q t = (a, t')) : Answers now t q a t'
  | failed {a : q.Answer} {t' : Table} (fails : q.Fails a) (kept : t'.givenBack = t.givenBack) :
      Answers now t q a t'

/-- The requests of a call with their answers. -/
abbrev Transcript : Type := List (Exchange Request.Answer)

/-- `Reaches now d t l d' t'`: after the requests and answers `l`, what is left of `d` is `d'`, and the table is
no longer `t` but `t'`. -/
inductive Reaches (now : Instant) {α : Type} : Talk α → Table → Transcript → Talk α → Table → Prop where
  | here (d : Talk α) (t : Table) : Reaches now d t [] d t
  | ask {q : Request} {next : q.Answer → Talk α} {a : q.Answer} {t t₁ t' : Table} {l : Transcript} {d : Talk α}
      (answers : Answers now t q a t₁) (rest : Reaches now (next a) t₁ l d t') :
      Reaches now (.ask q next) t (⟨q, a⟩ :: l) d t'

section Calls

variable {now : Instant} {α : Type} {t t' : Table} {l : Transcript} {d : Talk α}

/-- An engine that does what it is asked brings every call to its end. -/
theorem exists_reaches_run (now : Instant) (d : Talk α) (t : Table) :
    ∃ l, Reaches now d t l (.done (d.run (Table.answer now) t).1) (d.run (Table.answer now) t).2 := by
  induction d generalizing t with
  | done a => exact ⟨[], .here _ _⟩
  | ask q next ih =>
    obtain ⟨l, h⟩ := ih (Table.answer now q t).1 (Table.answer now q t).2
    exact ⟨_, .ask (.done rfl) h⟩

theorem of_reaches_done {a : α} (h : Reaches now (.done a) t l d t') : l = [] ∧ d = .done a ∧ t' = t := by
  cases h with
  | here => exact ⟨rfl, rfl, rfl⟩

theorem of_reaches_ask {q : Request} {next : q.Answer → Talk α} (h : Reaches now (.ask q next) t l d t') :
    (d = .ask q next ∧ t' = t) ∨
      ∃ a t₁ rest, l = ⟨q, a⟩ :: rest ∧ Answers now t q a t₁ ∧ Reaches now (next a) t₁ rest d t' := by
  cases h with
  | here => exact Or.inl ⟨rfl, rfl⟩
  | ask answers rest => exact Or.inr ⟨_, _, _, rfl, answers, rest⟩

/-- A call of one request has asked it or not. -/
theorem of_reaches_question {q : Request} {f : q.Answer → α}
    (h : Reaches now (.ask q fun a => .done (f a)) t l d t') :
    (d = .ask q (fun a => .done (f a)) ∧ t' = t) ∨
      ∃ a, l = [⟨q, a⟩] ∧ Answers now t q a t' ∧ d = .done (f a) := by
  rcases of_reaches_ask h with hunasked | ⟨a, t₁, rest, rfl, answers, hdone⟩
  · exact Or.inl hunasked
  · obtain ⟨rfl, rfl, rfl⟩ := of_reaches_done hdone
    exact Or.inr ⟨a, rfl, answers, rfl⟩

/-- A lookup leaves the table as it is, also an open transaction. -/
theorem answerOpen_select (now : Instant) (id : String) (t : Table) :
    (Table.answerOpen now (.select id) t).2 = t := by
  unfold Table.answerOpen
  dsimp only
  split
  · rfl
  · split <;> rfl

namespace Answers

variable {q : Request} {a : q.Answer}

theorem of_not_fails (h : Answers now t q a t') (ha : ¬q.Fails a) : Table.answer now q t = (a, t') := by
  cases h with
  | done h => exact h
  | failed fails => exact absurd fails ha

/-- The table is as the engine leaves it when it does what it is asked, or nothing was committed. -/
theorem table (h : Answers now t q a t') :
    t' = (Table.answerOpen now q t).2 ∨ t'.givenBack = t.givenBack := by
  cases h with
  | done h =>
    unfold Table.answer at h
    split at h
    · cases h
      exact Or.inr rfl
    · rw [h]
      exact Or.inl rfl
  | failed _ kept => exact Or.inr kept

theorem givenBack (h : Answers now t q a t') (hdone : (Table.answerOpen now q t).2.givenBack = t.givenBack) :
    t'.givenBack = t.givenBack := by
  rcases h.table with rfl | hkept
  · exact hdone
  · exact hkept

end Answers

end Calls

section Insertion

variable {now : Instant} {t t' : Table} {l : Transcript} {d : Talk (Except Failure Record)}

/-- No record is given to the caller, and nothing is committed. -/
def Undone (t : Table) (d : Talk (Except Failure Record)) (t' : Table) : Prop :=
  (∀ stored, d ≠ .done (.ok stored)) ∧ t'.givenBack = t.givenBack

/-- What is left undone may have begun with steps that committed nothing. -/
theorem Undone.after {t₁ : Table} (h : Undone t₁ d t') (kept : t₁.givenBack = t.givenBack) : Undone t d t' :=
  ⟨h.1, h.2.trans kept⟩

theorem undone_ask (q : Request) (next : q.Answer → Talk (Except Failure Record)) (t : Table) :
    Undone t (.ask q next) t :=
  ⟨fun _ hd => (nomatch hd), rfl⟩

theorem undone_error (f : Failure) (kept : t'.givenBack = t.givenBack) : Undone t (.done (.error f)) t' :=
  ⟨fun _ hd => (nomatch hd), kept⟩

theorem undone_abandon {f : Failure} (h : Reaches now (abandon f) t l d t') : Undone t d t' := by
  rcases of_reaches_question h with ⟨rfl, rfl⟩ | ⟨a, -, answers, rfl⟩
  · exact undone_ask _ _ _
  · exact undone_error f (answers.givenBack rfl)

variable {r : Record} {rows : List TextRow} {closed : Bool}

theorem of_begun (h : Answers now ⟨rows, none, closed⟩ .begin (.ok ()) t') :
    closed = false ∧ t' = ⟨rows, some rows, false⟩ := by
  have hdone := h.of_not_fails (by rintro ⟨f, ⟨⟩⟩)
  cases closed with
  | true => cases hdone
  | false =>
    cases hdone
    exact ⟨rfl, rfl⟩

/-- A row is only inserted where its identifier is not in use. -/
theorem of_inserted {row : TextRow} (h : Answers now ⟨rows, some rows, false⟩ (.insert row) (.ok ()) t') :
    rows.find? (·.id == row.id) = none ∧ t' = ⟨rows, some (rows ++ [row]), false⟩ := by
  have hdone := h.of_not_fails (by rintro ⟨f, ⟨⟩⟩)
  by_cases hused : rows.any (·.id == row.id) = true
  · have hrefused : Table.answer now (.insert row) ⟨rows, some rows, false⟩ = (.error _, _) :=
      if_pos hused
    rw [hrefused] at hdone
    cases hdone
  · have hstored : Table.answer now (.insert row) ⟨rows, some rows, false⟩ =
        (.ok (), ⟨rows, some (rows ++ [row]), false⟩) := if_neg hused
    rw [hstored] at hdone
    cases hdone
    refine ⟨?_, rfl⟩
    rw [List.find?_eq_none]
    rw [Bool.not_eq_true, List.any_eq_false] at hused
    exact hused

/-- What is read back is what the row that was written tells. -/
theorem of_readBack (hunused : rows.find? (·.id == r.id) = none) {stored : Record}
    (h : Answers now ⟨rows, some (rows ++ [.ofRecord r]), false⟩ (.select r.id) (.ok stored) t') :
    (TextRow.ofRecord r).toRecord? = some stored ∧ t' = ⟨rows, some (rows ++ [.ofRecord r]), false⟩ := by
  have hfind : (rows ++ [TextRow.ofRecord r]).find? (·.id == r.id) = some (.ofRecord r) :=
    find?_concat hunused (beq_self_eq_true r.id)
  have hdone := h.of_not_fails (by rintro ⟨f, ⟨⟩⟩)
  simp only [Table.answer, Table.answerOpen, Table.current, Option.getD_some, Bool.false_eq_true, if_false,
    hfind] at hdone
  split at hdone
  · rename_i hread
    cases hdone
    exact ⟨hread, rfl⟩
  · cases hdone

theorem of_committed {inserted : List TextRow}
    (h : Answers now ⟨rows, some inserted, false⟩ .commit (.ok ()) t') : t' = ⟨inserted, none, false⟩ := by
  have hdone := h.of_not_fails (by rintro ⟨f, ⟨⟩⟩)
  cases hdone
  rfl

/-- An insertion went through without a failure: its row is the last, and the caller is given what the row
tells. -/
structure Stored (r : Record) (rows : List TextRow) (l : Transcript) (d : Talk (Except Failure Record))
    (t' : Table) : Prop where
  unused : rows.find? (·.id == r.id) = none
  answered : ∀ x ∈ l, ¬x.1.Fails x.2
  told : ∃ stored, d = .done (.ok stored) ∧ (TextRow.ofRecord r).toRecord? = some stored
  table : t' = ⟨rows ++ [.ofRecord r], none, false⟩

theorem Stored.cons (h : Stored r rows l d t') {q : Request} {a : q.Answer} (ha : ¬q.Fails a) :
    Stored r rows (⟨q, a⟩ :: l) d t' :=
  { h with answered := List.forall_mem_cons.2 ⟨ha, h.answered⟩ }

/-- What is left of an insertion once the row is written. -/
def readBack (r : Record) : Talk (Except Failure Record) :=
  .ask (.select r.id) fun
    | .error .absent => abandon (.storageUnavailable "no row to read back")
    | .error (.engine detail) => abandon (.storageUnavailable detail)
    | .ok stored => .ask .commit fun answer => .done (answer.map fun _ => stored)

/-- What is left of an insertion once the transaction is open. -/
def writeRow (r : Record) : Talk (Except Failure Record) :=
  .ask (.insert (.ofRecord r)) fun
    | .error f => abandon f
    | .ok () => readBack r

theorem reaches_commit (hunused : rows.find? (·.id == r.id) = none) {stored : Record}
    (hread : (TextRow.ofRecord r).toRecord? = some stored)
    (h : Reaches now (.ask .commit fun answer => .done (answer.map fun _ => stored))
      ⟨rows, some (rows ++ [.ofRecord r]), false⟩ l d t') :
    Stored r rows l d t' ∨ Undone ⟨rows, some (rows ++ [.ofRecord r]), false⟩ d t' := by
  rcases of_reaches_question h with ⟨rfl, rfl⟩ | ⟨a, rfl, answers, rfl⟩
  · exact Or.inr (undone_ask _ _ _)
  · cases a with
    | ok =>
      refine Or.inl ⟨hunused, ?_, ⟨stored, rfl, hread⟩, of_committed answers⟩
      rw [List.forall_mem_singleton]
      rintro ⟨f, ⟨⟩⟩
    | error f =>
      cases answers with
      | done h => cases h
      | failed _ kept => exact Or.inr (undone_error f kept)

theorem reaches_readBack (hunused : rows.find? (·.id == r.id) = none)
    (h : Reaches now (readBack r) ⟨rows, some (rows ++ [.ofRecord r]), false⟩ l d t') :
    Stored r rows l d t' ∨ Undone ⟨rows, some (rows ++ [.ofRecord r]), false⟩ d t' := by
  rcases of_reaches_ask h with ⟨rfl, rfl⟩ | ⟨a, t₁, l, rfl, answers, rest⟩
  · exact Or.inr (undone_ask _ _ _)
  · cases a with
    | ok stored =>
      obtain ⟨hread, rfl⟩ := of_readBack hunused answers
      exact (reaches_commit hunused hread rest).imp_left fun hstored => hstored.cons (by rintro ⟨f, ⟨⟩⟩)
    | error fault =>
      have hkept := answers.givenBack (by rw [answerOpen_select])
      cases fault with
      | absent => exact Or.inr ((undone_abandon rest).after hkept)
      | engine detail => exact Or.inr ((undone_abandon rest).after hkept)

theorem reaches_writeRow (h : Reaches now (writeRow r) ⟨rows, some rows, false⟩ l d t') :
    Stored r rows l d t' ∨ Undone ⟨rows, some rows, false⟩ d t' := by
  rcases of_reaches_ask h with ⟨rfl, rfl⟩ | ⟨a, t₁, l, rfl, answers, rest⟩
  · exact Or.inr (undone_ask _ _ _)
  · cases a with
    | ok =>
      obtain ⟨hunused, rfl⟩ := of_inserted answers
      exact (reaches_readBack hunused rest).imp (fun hstored => hstored.cons (by rintro ⟨f, ⟨⟩⟩))
        fun hundone => hundone.after rfl
    | error f =>
      refine Or.inr ((undone_abandon rest).after (answers.givenBack ?_))
      unfold Table.answerOpen
      dsimp only
      split <;> rfl

/-- An insertion in a table without an open transaction goes through, or nothing is left of it. -/
theorem reaches_insertAndSelect (h : Reaches now (insertAndSelect r) ⟨rows, none, closed⟩ l d t') :
    Stored r rows l d t' ∨ Undone ⟨rows, none, closed⟩ d t' := by
  rcases of_reaches_ask h with ⟨rfl, rfl⟩ | ⟨a, t₁, l, rfl, answers, rest⟩
  · exact Or.inr (undone_ask _ _ _)
  · cases a with
    | ok =>
      obtain ⟨rfl, rfl⟩ := of_begun answers
      exact (reaches_writeRow rest).imp (fun hstored => hstored.cons (by rintro ⟨f, ⟨⟩⟩))
        fun hundone => hundone.after rfl
    | error f =>
      obtain ⟨-, rfl, rfl⟩ := of_reaches_done rest
      exact Or.inr (undone_error f (answers.givenBack rfl))

end Insertion

/-- A command at some time that is not for the record: no removal of it, and no sweep that takes it. Outside
the years 0 to 9999 a sweep takes nothing. -/
def Spares (r : Record) (now : Instant) : Command → Prop
  | .remove id => id ≠ r.id
  | .sweep => 0 ≤ now.year ∧ now.year ≤ 9999 → swept now r = false
  | .find _ | .insert _ | .close => True

/-- What may befall a table between two lookups of a record: a call that spares it, whether it comes to its end
or not; or the connections are given up and new ones opened. -/
inductive Event (r : Record) (t : Table) : Table → Prop where
  | call {now : Instant} {c : Command} {l : Transcript} {d : Talk c.Reply} {t' : Table}
      (spares : Spares r now c) (reaches : Reaches now (command c) t l d t') : Event r t t'.givenBack
  | reopened : Event r t t.reopened

/-- Among these events are the calls that an engine answers which does what it is asked. -/
theorem event_store {r : Record} {now : Instant} {c : Command} (spares : Spares r now c) (t : Table) :
    Event r t (store now c t).2.givenBack := by
  obtain ⟨l, reaches⟩ := exists_reaches_run now (command c) t
  exact .call spares reaches

/-- What a table may become in any number of events. -/
abbrev Later (r : Record) : Table → Table → Prop := Relation.ReflTransGen (Event r)

/-- No transaction is open, and the row of the record is the one found under its identifier. -/
structure Holds (r : Record) (t : Table) : Prop where
  idle : t.open? = none
  found : t.rows.find? (·.id == r.id) = some (.ofRecord r)

namespace Holds

variable {now : Instant} {r : Record} {t t' : Table} {l : Transcript}

/-- A sweep leaves the row of a record that it does not take. -/
theorem find?_keep (h : Holds r t) (hwell : r.expiresAt.WellFormed) (hspared : Spares r now .sweep) :
    (Table.keep now t.rows).find? (·.id == r.id) = some (.ofRecord r) := by
  rw [keep_eq]
  by_cases hnow : 0 ≤ now.year ∧ now.year ≤ 9999
  · rw [if_pos hnow]
    apply find?_filter_of_find? h.found
    rw [decide_lt_second hwell hnow, hspared hnow, Bool.not_false]
  · rw [if_neg hnow]
    exact h.found

theorem of_givenBack (h : Holds r t) (hkept : t'.givenBack = t.givenBack) : Holds r t'.givenBack := by
  refine ⟨rfl, ?_⟩
  rw [hkept]
  exact h.found

theorem question {α : Type} {q : Request} {f : q.Answer → α} {d : Talk α} (h : Holds r t)
    (hdone : (Table.answerOpen now q t).2.rows.find? (·.id == r.id) = some (.ofRecord r))
    (reaches : Reaches now (.ask q fun a => .done (f a)) t l d t') : Holds r t'.givenBack := by
  rcases of_reaches_question reaches with ⟨-, rfl⟩ | ⟨a, -, answers, -⟩
  · exact h.of_givenBack rfl
  · rcases answers.table with rfl | hkept
    · exact ⟨rfl, hdone⟩
    · exact h.of_givenBack hkept

/-- What one call preserves. -/
theorem call (h : Holds r t) (hwell : r.expiresAt.WellFormed) {c : Command} {d : Talk c.Reply}
    (spares : Spares r now c) (reaches : Reaches now (command c) t l d t') : Holds r t'.givenBack := by
  obtain ⟨rows, opened, closed⟩ := t
  obtain rfl : opened = none := h.idle
  cases c with
  | find id =>
    apply h.question _ reaches
    rw [answerOpen_select]
    exact h.found
  | insert draft =>
    rcases reaches_insertAndSelect reaches with ⟨-, -, -, rfl⟩ | ⟨-, hkept⟩
    · refine ⟨rfl, ?_⟩
      change (rows ++ _).find? _ = _
      rw [List.find?_append, h.found, Option.some_or]
    · exact h.of_givenBack hkept
  | remove id =>
    apply h.question _ reaches
    exact find?_filter_of_find? h.found (bne_iff_ne.2 (Ne.symm spares))
  | sweep =>
    apply h.question _ reaches
    exact h.find?_keep hwell spares
  | close =>
    apply h.question _ reaches
    exact h.found

theorem event (h : Holds r t) (hwell : r.expiresAt.WellFormed) (event : Event r t t') : Holds r t' := by
  cases event with
  | call spares reaches => exact h.call hwell spares reaches
  | reopened => exact ⟨rfl, h.found⟩

/-- What any number of events preserves. -/
theorem later (h : Holds r t) (hwell : r.expiresAt.WellFormed) (later : Later r t t') : Holds r t' := by
  induction later with
  | refl => exact h
  | tail _ event ih => exact ih.event hwell event

theorem answer_select (h : Holds r t) (hwell : r.expiresAt.WellFormed) (hopen : t.isClosed = false)
    (now : Instant) : Table.answer now (.select r.id) t = (.ok r, t) := by
  obtain ⟨rows, opened, closed⟩ := t
  obtain rfl : opened = none := h.idle
  obtain rfl : closed = false := hopen
  have hfound : rows.find? (·.id == r.id) = some (.ofRecord r) := h.found
  simp only [Table.answer, Table.answerOpen, Table.current, Option.getD_none, Bool.false_eq_true, if_false,
    hfound, toRecord?_ofRecord hwell]

theorem store_find (h : Holds r t) (hwell : r.expiresAt.WellFormed) (hopen : t.isClosed = false)
    (now : Instant) : store now (.find r.id) t = (.ok r, t) := by
  simp only [store, command, Dialogue.run, h.answer_select hwell hopen now]
  rfl

/-- A lookup that gives a record gives this one. -/
theorem eq_of_reaches_find (h : Holds r t) (hwell : r.expiresAt.WellFormed) {r' : Record}
    (reaches : Reaches now (command (.find r.id)) t l (.done (.ok r')) t') : r' = r := by
  rcases of_reaches_question reaches with ⟨hd, -⟩ | ⟨a, -, answers, hd⟩
  · cases hd
  · cases a with
    | error fault => cases hd
    | ok stored =>
      cases hd
      have hdone := answers.of_not_fails (by rintro ⟨f, ⟨⟩⟩)
      cases hclosed : t.isClosed with
      | true =>
        rw [Table.answer, if_pos hclosed] at hdone
        cases hdone
      | false =>
        rw [h.answer_select hwell hclosed] at hdone
        cases hdone
        rfl

end Holds

/-- Whatever rows a table has, and whatever is inserted: a new identifier is given a row behind the others, and
the caller the very record. However the engine fails and wherever the caller gives up, he is given the record
and the row is there, or he is given none and the table is as before; so it is after every request that
failed. Once the row is there, whatever happens that spares it, the record is found as it was inserted, and
no lookup of its identifier gives another. -/
theorem kept_faithfully (rows : List TextRow) (draft : Draft) (hwell : draft.expiresAt.WellFormed)
    (now : Instant) :
    let before : Table := ⟨rows, none, false⟩
    let r : Record := ⟨(Uuid.ofRandom draft.random).text, draft.value, draft.expiresAt⟩
    let after : Table := ⟨rows ++ [.ofRecord r], none, false⟩
    ((∀ row ∈ rows, row.id ≠ r.id) → store now (.insert draft) before = (.ok r, after)) ∧
    (∀ l d t, Reaches now (command (.insert draft)) before l d t →
      ((∀ row ∈ rows, row.id ≠ r.id) ∧ (∀ x ∈ l, ¬x.1.Fails x.2) ∧ d = .done (.ok r) ∧ t = after) ∨
      ((∀ r', d ≠ .done (.ok r')) ∧ t.givenBack = before)) ∧
    ((∀ row ∈ rows, row.id ≠ r.id) → ∀ t, Later r after t → ∀ later,
      (t.isClosed = false → store later (.find r.id) t = (.ok r, t)) ∧
      ∀ l r' t', Reaches later (command (.find r.id)) t l (.done (.ok r')) t' → r' = r) := by
  intro before r after
  have hread : (TextRow.ofRecord r).toRecord? = some r := toRecord?_ofRecord hwell
  have hfresh : (∀ row ∈ rows, row.id ≠ r.id) ↔ rows.find? (·.id == r.id) = none := by
    simp [List.find?_eq_none]
  refine ⟨fun hnew => ?_, fun l d t reaches => ?_, fun hnew t hlater later => ?_⟩
  · have hinsert : store now (.insert draft) before = _ := insert_rows now (hfresh.1 hnew)
    have hrecord : (TextRow.ofRecord draft.record).toRecord? = some r := hread
    unfold readRow at hinsert
    rw [hrecord] at hinsert
    exact hinsert
  · rcases reaches_insertAndSelect reaches with ⟨hunused, hanswered, ⟨stored, rfl, hstored⟩, rfl⟩ | hundone
    · obtain rfl : r = stored := Option.some.inj (hread.symm.trans hstored)
      exact Or.inl ⟨hfresh.2 hunused, hanswered, rfl, rfl⟩
    · exact Or.inr hundone
  · have hafter : Holds r after := ⟨rfl, find?_concat (hfresh.1 hnew) (beq_self_eq_true r.id)⟩
    have hholds := hafter.later hwell hlater
    exact ⟨fun hopen => hholds.store_find hwell hopen later, fun l r' t' => hholds.eq_of_reaches_find hwell⟩

/-- A record that expires within a leap second, inserted next to a row that cannot be read: it is found after
a sweep in that second, the removal of the other row, and a new start. -/
theorem kept_faithfully_in_leap_second :
    let other : TextRow := ⟨"other", "", "not a time"⟩
    let r : Record := ⟨(Uuid.ofRandom 7).text, "gAAAAA==", ⟨1483228799, 1123456789⟩⟩
    let inserted : Table := ⟨[other, .ofRecord r], none, false⟩
    let swept := (store ⟨1483228799, 5⟩ .sweep inserted).2.givenBack
    let removed := (store ⟨1483228799, 6⟩ (.remove "other") swept).2.givenBack
    store ⟨1483228790, 0⟩ (.insert ⟨r.value, r.expiresAt, 7⟩) ⟨[other], none, false⟩ = (.ok r, inserted) ∧
      store ⟨1483228799, 7⟩ (.find r.id) removed.reopened = (.ok r, removed.reopened) := by
  intro other r inserted swept removed
  have hnew : ∀ row ∈ [other], row.id ≠ r.id := by decide +kernel
  have hsweep : Spares r ⟨1483228799, 5⟩ .sweep := fun _ => by decide
  have hremove : Spares r ⟨1483228799, 6⟩ (.remove "other") := show "other" ≠ r.id by decide +kernel
  have hlater : Later r inserted removed.reopened :=
    ((Relation.ReflTransGen.single (event_store hsweep _)).tail (event_store hremove _)).tail .reopened
  obtain ⟨hinsert, -, hfound⟩ :=
    kept_faithfully [other] ⟨r.value, r.expiresAt, 7⟩ (show r.expiresAt.WellFormed by decide) ⟨1483228790, 0⟩
  exact ⟨hinsert hnew, (hfound hnew _ hlater ⟨1483228799, 7⟩).1 rfl⟩

end BurnAfterRead.TextTable
