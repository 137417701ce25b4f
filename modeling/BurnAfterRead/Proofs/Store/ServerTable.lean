import BurnAfterRead.Proofs.Store.Memory
import BurnAfterRead.Relational.ServerTable

/-!
# Rows on a server

As long as the connection is not closed, a caller finds the server without an open transaction and
leaves it so, on the client that was there or on a new one.
-/

namespace BurnAfterRead.ServerTable

/-- A server with a client that has no transaction open. -/
def Server.ready (rows : List KeyedRow) : Server := ⟨rows, some ⟨none⟩, false⟩

/-- Callers are let in, and no transaction is open. -/
structure Server.IsIdle (s : Server) : Prop where
  isOpen : s.isClosed = false
  settled : s.slot.bind (·.transaction?) = none

/-- A server that answers every statement leaves its client in its slot. -/
theorem run_perform {α : Type} (now : Instant) (script : Script α) (s : Server) :
    (Session.perform script).run (Server.answer now) s =
      (.ok (script.run (Server.execute now) s).1, (script.run (Server.execute now) s).2) := by
  induction script generalizing s with
  | done result => rfl
  | ask q next ih =>
    simp only [Session.perform, Dialogue.run, Server.answer]
    exact ih _ _

/-- Whether a client is there or has to be dialled makes no difference. -/
theorem run_inSession {α : Type} (now : Instant) (script : Script (Except Failure α)) {s : Server}
    (h : s.IsIdle) :
    (inSession script).run (Server.answer now) s = script.run (Server.execute now) (.ready s.rows) := by
  obtain ⟨rows, slot, isClosed⟩ := s
  obtain ⟨hopen, hsettled⟩ := h
  obtain rfl : isClosed = false := hopen
  unfold inSession
  rw [Dialogue.run_andThen]
  have hwithin : (Session.within script).run (Server.answer now) ⟨rows, slot, false⟩ =
      (Session.perform script).run (Server.answer now) (.ready rows) := by
    match slot, hsettled with
    | none, _ => rfl
    | some ⟨none⟩, _ => rfl
  rw [hwithin, run_perform]
  rfl

/-- The row of a record. -/
def rowOf (r : Record) : KeyedRow := ⟨r.id, some r.id, some r.value, some (r.expiresAt.cut Server.tick)⟩

/-- What is read back of a draft. -/
def kept (draft : Draft) : Record :=
  { draft.record with expiresAt := draft.expiresAt.cut Server.tick }

section Store

variable {s : Server} (h : s.IsIdle) (now : Instant)
include h

theorem store_find (id : String) : store now (.find id) s =
    (found ((s.rows.find? (·.key == id)).map (·.cells)), .ready s.rows) :=
  run_inSession now _ h

theorem store_insert (draft : Draft) : store now (.insert draft) s =
    (found (((s.rows ++ [rowOf draft.record]).find? (·.key == draft.record.id)).map (·.cells)),
      .ready (s.rows ++ [rowOf draft.record])) :=
  run_inSession now (insertScript draft.record) h

theorem store_remove (id : String) : store now (.remove id) s =
    (removedOne (s.rows.length - (s.rows.filter (·.key != id)).length),
      .ready (s.rows.filter (·.key != id))) :=
  run_inSession now _ h

theorem store_sweep : store now .sweep s =
    (removedSome (s.rows.length - (s.rows.filter fun r => !Server.expiresBefore now r).length),
      .ready (s.rows.filter fun r => !Server.expiresBefore now r)) :=
  run_inSession now _ h

end Store

theorem Server.isIdle_ready (rows : List KeyedRow) : (Server.ready rows).IsIdle := ⟨rfl, rfl⟩

/-- A row goes by the identifier of its draft. -/
theorem goesBy_rowOf (id : String) (row : KeyedRow) (d : Draft) (h : row = rowOf d.record) :
    (row.key == id) = true ↔ id = (Uuid.ofRandom d.random).text := by
  rw [h, beq_iff_eq, eq_comm]
  rfl

def custody : Custody store .empty (fun random => (Uuid.ofRandom random).text)
    (fun id random => id = (Uuid.ofRandom random).text) where
  Holds s P := s.IsIdle ∧ KeptFor (fun row d => row = rowOf d.record) s.rows P
  read d := .ok (kept d)
  denotes_iff := Memory.uuid_denotes_iff
  holds_empty P := ⟨⟨rfl, rfl⟩, .nil P⟩
  mono := fun ⟨idle, h⟩ hPQ => ⟨idle, h.mono hPQ⟩
  find := by
    rintro s P ⟨idle, h⟩ now id
    rw [store_find idle]
    refine ⟨⟨Server.isIdle_ready _, h⟩, ?_⟩
    rcases h.find? (goesBy_rowOf id) with ⟨hnone, hleft⟩ | ⟨row, d, hsome, rfl, hd, hid⟩
    · rw [hnone]
      exact Or.inl ⟨rfl, Server.isIdle_ready _, hleft⟩
    · rw [hsome]
      exact Or.inr ⟨d, hd, hid, rfl⟩
  insert := by
    rintro s P ⟨idle, h⟩ now draft hfresh
    have hunused := h.find?_eq_none (goesBy_rowOf draft.record.id)
      fun d hd hid => hfresh d hd hid.symm
    have hfind : (s.rows ++ [rowOf draft.record]).find? (·.key == draft.record.id) =
        some (rowOf draft.record) :=
      find?_concat hunused (beq_self_eq_true _)
    rw [store_insert idle, hfind]
    refine ⟨⟨Server.isIdle_ready _, h.concat rfl⟩, fun r hr => ?_⟩
    obtain rfl : kept draft = r := Except.ok.inj hr
    exact ⟨rfl, fun _ => rfl⟩
  remove := by
    rintro s P ⟨idle, h⟩ now id
    rw [store_remove idle]
    exact ⟨Server.isIdle_ready _, h.filter_not (goesBy_rowOf id)⟩
  sweep := by
    rintro s P ⟨idle, h⟩ now
    rw [store_sweep idle]
    exact ⟨Server.isIdle_ready _, h.subset fun _ hrow => List.mem_of_mem_filter hrow⟩
  read_error h := by cases h

end BurnAfterRead.ServerTable
