import BurnAfterRead.Proofs.Store.ServerTable

/-!
# The line to the server

All callers reach the server on one line, one caller after the other. What the server answers, and when,
is left open: every statement may fail, every attempt to dial too, and wherever a caller waits he may
give up. A connection knows how far the server has come with it: whether the last answer was read to its
end, and which transactions are open. A statement that failed tells nothing of either.
-/

namespace BurnAfterRead.ServerTable

/-- The number of open transactions after a statement that was answered. -/
def Statement.depthAfter : Statement → Nat → Nat
  | .begin, depth => depth + 1
  | .commit, depth => depth - 1
  | _, depth => depth

/-- A connection to the server. -/
structure Link where
  /-- Connections are numbered as they are dialled. -/
  serial : Nat
  /-- The answer to the last statement was read to its end. -/
  atBoundary : Bool
  /-- The transactions that were begun and not yet committed. -/
  depth : Nat
  deriving DecidableEq, Repr

namespace Link

def fresh (serial : Nat) : Link := ⟨serial, true, 0⟩

/-- The connection after a statement that was answered to its end. -/
def after (l : Link) (q : Statement) : Link := { l with depth := q.depthAfter l.depth }

@[simp] theorem serial_after (l : Link) (q : Statement) : (l.after q).serial = l.serial := rfl

/-- The connection can be handed to another caller. -/
structure IsSettled (l : Link) : Prop where
  boundary : l.atBoundary = true
  idle : l.depth = 0

theorem isSettled_fresh (serial : Nat) : (fresh serial).IsSettled := ⟨rfl, rfl⟩

end Link

/-- The slot of the shared client, and what all callers know of it. -/
structure Line where
  slot : Option Link
  /-- How many connections were dialled so far. -/
  dialled : Nat
  isClosed : Bool
  deriving DecidableEq, Repr

namespace Line

/-- The line after the first connection was dialled. -/
def connected : Line := ⟨some (.fresh 0), 1, false⟩

/-- The line after a new connection was dialled. -/
def dial (line : Line) : Line :=
  { line with slot := some (.fresh line.dialled), dialled := line.dialled + 1 }

/-- The line after a caller has let go of the slot. -/
def release (line : Line) (finished : Bool) : Line :=
  { line with slot := if finished then Session.finish ⟨line.slot⟩ else Session.drop ⟨line.slot⟩ }

/-- The line after a caller gave up while he waited for the answer to a step. A session in which a
statement is under way is dropped; before that, there is no session yet. -/
def abandon (line : Line) : SessionStep Statement → Line
  | .run _ => line.release false
  | .hangUp => { line with slot := none }
  | _ => line

end Line

/-- A caller waits for the answer to the step. -/
inductive IsWait : SessionStep Statement → Prop where
  | acquire : IsWait .acquire
  | dial : IsWait .dial
  | run (q : Statement) : IsWait (.run q)
  | hangUp : IsWait .hangUp

/-- `Meets line q answer line'`: the step `q` on the line may be answered so, and leave it so. -/
inductive Meets : Line → (q : SessionStep Statement) → SessionStep.Answer Statement.Result q → Line → Prop
  | isClosed (line : Line) : Meets line .isClosed line.isClosed line
  | acquire (line : Line) : Meets line .acquire line.slot.isSome line
  | dialled (line : Line) : Meets line .dial (.ok ()) line.dial
  | undialled (line : Line) (f : Failure) : Meets line .dial (.error f) line
  | missing {line : Line} {f : Failure} (h : Session.client ⟨line.slot⟩ = .error f) (q : Statement) :
      Meets line (.run q) (.error f) line
  /-- Only a connection at a boundary is known to do what the statement says. -/
  | answered {line : Line} {l l' : Link} (held : line.slot = some l) {q : Statement} (result : q.Result)
      (serial : l'.serial = l.serial) (orderly : l.atBoundary = true → l' = l.after q) :
      Meets line (.run q) (.ok result) { line with slot := some l' }
  | failed {line : Line} {l l' : Link} (held : line.slot = some l) (q : Statement) (f : Failure)
      (serial : l'.serial = l.serial) : Meets line (.run q) (.error f) { line with slot := some l' }
  | release (line : Line) (finished : Bool) : Meets line (.release finished) () (line.release finished)
  | markClosed (line : Line) : Meets line .markClosed () { line with isClosed := true }
  | hangUp (line : Line) (answer : Except Failure Unit) :
      Meets line .hangUp answer { line with slot := none }

/-- What becomes of a step. -/
inductive Fate where
  | answered
  | failed
  | abandoned
  deriving DecidableEq, Repr

/-- Whether an answer tells of a failure. -/
def Fate.ofAnswer : (q : SessionStep Statement) → SessionStep.Answer Statement.Result q → Fate
  | .dial, .error _ | .run _, .error _ | .hangUp, .error _ => failed
  | _, _ => answered

/-- A step of a visit: the line as the caller found it, what was asked for, and what became of it. -/
structure Stage where
  line : Line
  step : SessionStep Statement
  fate : Fate

/-- `Visit steps line log line'`: a caller who finds the line so may take his steps as the log tells, and
leave the line so. -/
inductive Visit {α : Type} : Steps α → Line → List Stage → Line → Prop where
  | done (result : α) (line : Line) : Visit (.done result) line [] line
  | ask {q : SessionStep Statement} {next : SessionStep.Answer Statement.Result q → Steps α}
      {answer : SessionStep.Answer Statement.Result q} {line mid line' : Line} {log : List Stage}
      (meets : Meets line q answer mid) (rest : Visit (next answer) mid log line') :
      Visit (.ask q next) line (⟨line, q, .ofAnswer q answer⟩ :: log) line'
  | abandon {q : SessionStep Statement} (next : SessionStep.Answer Statement.Result q → Steps α)
      (line : Line) (waits : IsWait q) : Visit (.ask q next) line [⟨line, q, .abandoned⟩] (line.abandon q)

theorem Visit.of_done {α : Type} {result : α} {line line' : Line} {log : List Stage}
    (h : Visit (.done result) line log line') : log = [] ∧ line' = line := by
  cases h with
  | done => exact ⟨rfl, rfl⟩

/-- A step is answered, and the visit goes on, or the caller gives up. -/
theorem Visit.of_ask {α : Type} {q : SessionStep Statement}
    {next : SessionStep.Answer Statement.Result q → Steps α} {line line' : Line} {log : List Stage}
    (h : Visit (.ask q next) line log line') :
    (∃ answer mid rest, Meets line q answer mid ∧ Visit (next answer) mid rest line' ∧
      log = ⟨line, q, .ofAnswer q answer⟩ :: rest) ∨
    (IsWait q ∧ log = [⟨line, q, .abandoned⟩] ∧ line' = line.abandon q) := by
  cases h with
  | ask meets rest => exact Or.inl ⟨_, _, _, meets, rest, rfl⟩
  | abandon _ _ waits => exact Or.inr ⟨waits, rfl, rfl⟩

/-- A step that is not waited for is answered. -/
theorem Visit.of_prompt {α : Type} {q : SessionStep Statement}
    {next : SessionStep.Answer Statement.Result q → Steps α} {line line' : Line} {log : List Stage}
    (h : Visit (.ask q next) line log line') (prompt : ¬IsWait q) :
    ∃ answer mid rest, Meets line q answer mid ∧ Visit (next answer) mid rest line' ∧
      log = ⟨line, q, .ofAnswer q answer⟩ :: rest :=
  h.of_ask.resolve_right fun waits => prompt waits.1

/-- Once the slot is let go of, nothing more is done. -/
theorem Visit.of_release {α : Type} {finished : Bool} {result : α} {line line' : Line} {log : List Stage}
    (h : Visit (.ask (.release finished) fun _ => .done result) line log line') :
    log = [⟨line, .release finished, .answered⟩] ∧ line' = line.release finished := by
  obtain ⟨answer, mid, rest, meets, hdone, rfl⟩ := h.of_prompt (fun waits => nomatch waits)
  obtain ⟨rfl, rfl⟩ := hdone.of_done
  cases meets
  exact ⟨rfl, rfl⟩

/-- What a caller makes of his result does not show on the line. -/
theorem visit_rename_iff {α β : Type} {steps : Steps α} {f : α → β} {line line' : Line}
    {log : List Stage} :
    Visit (steps.andThen fun a => .done (f a)) line log line' ↔ Visit steps line log line' := by
  induction steps generalizing line log with
  | done a =>
    constructor
    · intro h
      obtain ⟨rfl, rfl⟩ := Visit.of_done h
      exact .done a _
    · intro h
      obtain ⟨rfl, rfl⟩ := h.of_done
      exact .done (f a) _
  | ask q next ih =>
    constructor
    · intro h
      cases h with
      | ask meets rest => exact .ask meets ((ih _).1 rest)
      | abandon _ _ waits => exact .abandon next _ waits
    · intro h
      cases h with
      | ask meets rest => exact .ask meets ((ih _).2 rest)
      | abandon _ _ waits => exact .abandon _ _ waits

/-- The caller got hold of the slot. -/
def Enters (log : List Stage) : Prop := ∃ s ∈ log, s.step = .acquire ∧ s.fate = .answered

/-- The caller dialled a new connection, or tried to. -/
def Dials (log : List Stage) : Prop := ∃ s ∈ log, s.step = .dial

/-- The caller had a statement run on the connection of that number. -/
def Uses (log : List Stage) (serial : Nat) : Prop :=
  ∃ s ∈ log, ∃ q, s.step = .run q ∧ ∃ l, s.line.slot = some l ∧ l.serial = serial

/-- The caller had a statement run that was not answered to its end. -/
def Interrupted (log : List Stage) : Prop := ∃ s ∈ log, ∃ q, s.step = .run q ∧ s.fate ≠ .answered

/-- The caller dialled in vain. -/
def Stranded (log : List Stage) : Prop := ∃ s ∈ log, s.step = .dial ∧ s.fate ≠ .answered

/-- All steps of the caller were answered. -/
def RanThrough (log : List Stage) : Prop := ∀ s ∈ log, s.fate = .answered

instance : DecidablePred Enters := fun log =>
  inferInstanceAs (Decidable (∃ s ∈ log, s.step = .acquire ∧ s.fate = .answered))

section Log

variable (s : Stage) (log : List Stage)

@[simp] theorem enters_cons :
    Enters (s :: log) ↔ (s.step = .acquire ∧ s.fate = .answered) ∨ Enters log := by
  simp [Enters]

@[simp] theorem dials_cons : Dials (s :: log) ↔ s.step = .dial ∨ Dials log := by
  simp [Dials]

@[simp] theorem uses_cons (serial : Nat) : Uses (s :: log) serial ↔
    (∃ q, s.step = .run q ∧ ∃ l, s.line.slot = some l ∧ l.serial = serial) ∨ Uses log serial := by
  simp [Uses]

@[simp] theorem interrupted_cons :
    Interrupted (s :: log) ↔ (∃ q, s.step = .run q ∧ s.fate ≠ .answered) ∨ Interrupted log := by
  simp [Interrupted]

@[simp] theorem stranded_cons :
    Stranded (s :: log) ↔ (s.step = .dial ∧ s.fate ≠ .answered) ∨ Stranded log := by
  simp [Stranded]

@[simp] theorem ranThrough_cons : RanThrough (s :: log) ↔ s.fate = .answered ∧ RanThrough log := by
  simp [RanThrough]

@[simp] theorem not_enters_nil : ¬Enters [] := by simp [Enters]
@[simp] theorem not_dials_nil : ¬Dials [] := by simp [Dials]
@[simp] theorem not_uses_nil (serial : Nat) : ¬Uses [] serial := by simp [Uses]
@[simp] theorem not_interrupted_nil : ¬Interrupted [] := by simp [Interrupted]
@[simp] theorem not_stranded_nil : ¬Stranded [] := by simp [Stranded]
@[simp] theorem ranThrough_nil : RanThrough [] := by simp [RanThrough]

end Log

theorem RanThrough.not_interrupted {log : List Stage} (h : RanThrough log) : ¬Interrupted log := by
  rintro ⟨s, hs, q, -, hfate⟩
  exact hfate (h s hs)

theorem RanThrough.not_stranded {log : List Stage} (h : RanThrough log) : ¬Stranded log := by
  rintro ⟨s, hs, -, hfate⟩
  exact hfate (h s hs)

/-- The log of the last caller who got hold of the slot; the logs are told backwards. -/
def lastSession? (past : List (List Stage)) : Option (List Stage) := past.find? fun log => Enters log

theorem lastSession?_cons_of_enters {log : List Stage} (h : Enters log) (past : List (List Stage)) :
    lastSession? (log :: past) = some log :=
  List.find?_cons_of_pos (decide_eq_true h)

theorem lastSession?_cons_of_not_enters {log : List Stage} (h : ¬Enters log) (past : List (List Stage)) :
    lastSession? (log :: past) = lastSession? past :=
  List.find?_cons_of_neg (by rw [decide_eq_true_iff]; exact h)

section Course

variable {α : Type} {line line' : Line} {log : List Stage}

theorem visit_perform_done (result : α) (line : Line) :
    Visit (Session.perform (.done result)) line [⟨line, .release true, .answered⟩] line :=
  .ask (.release _ true) (.done _ _)

section Statement

variable {q : Statement} {next : q.Result → Script α} {l : Link} (held : line.slot = some l)

theorem visit_perform_abandoned (line : Line) :
    Visit (Session.perform (.ask q next)) line [⟨line, .run q, .abandoned⟩] (line.release false) := by
  rw [Session.perform]
  exact .abandon _ _ (.run q)

include held

theorem visit_perform_answered (result : q.Result)
    (h : Visit (Session.perform (next result)) { line with slot := some (l.after q) } log line') :
    Visit (Session.perform (.ask q next)) line (⟨line, .run q, .answered⟩ :: log) line' := by
  rw [Session.perform]
  exact .ask (.answered held result (l.serial_after q) fun _ => rfl) h

theorem visit_perform_failed (f : Failure) :
    Visit (Session.perform (.ask q next)) line
      [⟨line, .run q, .failed⟩, ⟨{ line with slot := some l }, .release false, .answered⟩]
      (line.release false) := by
  rw [Session.perform]
  exact .ask (.failed held q f rfl) (.ask (.release _ false) (.done _ _))

end Statement

variable {script : Script α} (isOpen : line.isClosed = false)
include isOpen

theorem visit_within_of_held {l : Link} (there : line.slot = some l)
    (h : Visit (Session.perform script) line log line') :
    Visit (Session.within script) line
      (⟨line, .isClosed, .answered⟩ :: ⟨line, .acquire, .answered⟩ :: log) line' := by
  obtain ⟨slot, dialled, isClosed⟩ := line
  obtain rfl : isClosed = false := isOpen
  obtain rfl : slot = some l := there
  exact .ask (.isClosed _) (.ask (.acquire _) h)

theorem visit_within_of_empty (empty : line.slot = none)
    (h : Visit (Session.perform script) line.dial log line') :
    Visit (Session.within script) line (⟨line, .isClosed, .answered⟩ :: ⟨line, .acquire, .answered⟩ ::
      ⟨line, .dial, .answered⟩ :: log) line' := by
  obtain ⟨slot, dialled, isClosed⟩ := line
  obtain rfl : isClosed = false := isOpen
  obtain rfl : slot = none := empty
  exact .ask (.isClosed _) (.ask (.acquire _) (.ask (.dialled _) h))

end Course

/-- The line shows what a caller can tell of the server. -/
structure Line.Shows (line : Line) (s : Server) : Prop where
  slot : line.slot.isSome = s.slot.isSome
  isClosed : line.isClosed = s.isClosed

/-- No statement takes the client out of its slot. -/
theorem Server.execute_slot (now : Instant) (q : Statement) {s : Server} (held : s.slot.isSome = true) :
    (execute now q s).2.slot.isSome = true ∧ (execute now q s).2.isClosed = s.isClosed := by
  have hset (rows : List KeyedRow) :
      (s.setVisible rows).slot.isSome = true ∧ (s.setVisible rows).isClosed = s.isClosed := by
    unfold setVisible
    split
    · exact ⟨rfl, rfl⟩
    · exact ⟨held, rfl⟩
  cases q with
  | createTable => exact ⟨held, rfl⟩
  | begin => exact ⟨rfl, rfl⟩
  | insert r => exact hset _
  | select id => exact ⟨held, rfl⟩
  | commit => exact ⟨rfl, rfl⟩
  | delete id => exact hset _
  | deleteExpired => exact hset _

theorem visit_perform_of_shows {α : Type} (now : Instant) (script : Script α) {line : Line} {s : Server}
    (h : line.Shows s) (held : s.slot.isSome = true) :
    ∃ log line', Visit (Session.perform script) line log line' ∧ RanThrough log ∧
      line'.Shows (script.run (Server.execute now) s).2 := by
  induction script generalizing line s with
  | done result => exact ⟨_, _, visit_perform_done result line, by simp, h⟩
  | ask q next ih =>
    obtain ⟨l, hl⟩ := Option.isSome_iff_exists.1 (h.slot.trans held)
    obtain ⟨hslot, hclosed⟩ := Server.execute_slot now q held
    have hshows : Line.Shows { line with slot := some (l.after q) } (Server.execute now q s).2 :=
      ⟨hslot.symm, h.isClosed.trans hclosed.symm⟩
    obtain ⟨log, line', hvisit, hthrough, hend⟩ := ih (Server.execute now q s).1 hshows hslot
    exact ⟨_, line', visit_perform_answered hl _ hvisit, by simpa using hthrough, hend⟩

theorem visit_within_of_shows {α : Type} (now : Instant) (script : Script α) {line : Line} {s : Server}
    (h : line.Shows s) (isOpen : s.isClosed = false) :
    ∃ log line', Visit (Session.within script) line log line' ∧ RanThrough log ∧
      line'.Shows ((Session.within script).run (Server.answer now) s).2 := by
  obtain ⟨rows, slot, isClosed⟩ := s
  obtain rfl : isClosed = false := isOpen
  cases slot with
  | some c =>
    obtain ⟨l, hl⟩ := Option.isSome_iff_exists.1 h.slot
    obtain ⟨log, line', hvisit, hthrough, hend⟩ := visit_perform_of_shows now script h rfl
    refine ⟨_, line', visit_within_of_held h.isClosed hl hvisit, by simpa using hthrough, ?_⟩
    change line'.Shows ((Session.perform script).run (Server.answer now) ⟨rows, some c, false⟩).2
    rw [run_perform]
    exact hend
  | none =>
    have hslot : line.slot = none := Option.isSome_eq_false_iff.1 h.slot |> Option.isNone_iff_eq_none.1
    have hdialled : line.dial.Shows (.ready rows) := ⟨rfl, h.isClosed⟩
    obtain ⟨log, line', hvisit, hthrough, hend⟩ := visit_perform_of_shows now script hdialled rfl
    refine ⟨_, line', visit_within_of_empty h.isClosed hslot hvisit, by simpa using hthrough, ?_⟩
    change line'.Shows ((Session.perform script).run (Server.answer now) (.ready rows)).2
    rw [run_perform]
    exact hend

/-- What a server does that answers every statement is one of the courses that an errand may take. -/
theorem exists_visit_of_store (now : Instant) {c : Command} (hc : c ≠ .close) {line : Line} {s : Server}
    (h : line.Shows s) (isOpen : s.isClosed = false) :
    ∃ log line', Visit (command c) line log line' ∧ RanThrough log ∧ line'.Shows (store now c s).2 := by
  have hsession {α : Type} (script : Script (Except Failure α)) :
      ∃ log line', Visit (inSession script) line log line' ∧ RanThrough log ∧
        line'.Shows ((inSession script).run (Server.answer now) s).2 := by
    obtain ⟨log, line', hvisit, hthrough, hend⟩ := visit_within_of_shows now script h isOpen
    refine ⟨log, line', visit_rename_iff.2 hvisit, hthrough, ?_⟩
    unfold inSession
    rw [Dialogue.run_andThen]
    exact hend
  cases c with
  | find id => exact hsession _
  | insert draft => exact hsession (insertScript draft.record)
  | remove id => exact hsession _
  | sweep => exact hsession _
  | close => exact absurd rfl hc

end BurnAfterRead.ServerTable
