import BurnAfterRead.Proofs.Relational.Line

/-!
# Sessions on a line that breaks

A session that stops anywhere but behind its last statement leaves the slot empty. So the slot holds a
connection only if every statement on it was answered to its end, and since every script commits what it
begins, no transaction is open on it then. The next caller finds either such a connection or none at all.
-/

namespace BurnAfterRead.ServerTable

/-- From `depth` open transactions on, the script commits what was begun, if all its statements are
answered. -/
def Balanced {α : Type} : Nat → Script α → Prop
  | depth, .done _ => depth = 0
  | depth, .ask q next => ∀ result, Balanced (q.depthAfter depth) (next result)

/-- What callers do on the line as long as it is not closed. -/
inductive IsErrand : {α : Type} → Steps α → Prop where
  | createTable : IsErrand createTable
  | command {c : Command} (h : c ≠ .close) : IsErrand (command c)

theorem balanced_single {α : Type} {q : Statement} (h : q.depthAfter 0 = 0) (next : q.Result → α) :
    Balanced 0 (.ask q fun result => .done (next result)) := fun _ => h

/-- Every errand is a session in which a balanced script runs. -/
theorem IsErrand.exists_script {α : Type} {steps : Steps α} (h : IsErrand steps) :
    ∃ (β : Type) (script : Script β), Balanced 0 script ∧ ∀ {line line' : Line} {log : List Stage},
      Visit steps line log line' → Visit (Session.within script) line log line' := by
  cases h with
  | createTable => exact ⟨_, _, balanced_single (by rfl) _, id⟩
  | @command c h =>
    cases c with
    | find id => exact ⟨_, _, balanced_single (by rfl) _, visit_rename_iff.1⟩
    | insert draft => exact ⟨_, insertScript draft.record, fun _ _ _ _ => rfl, visit_rename_iff.1⟩
    | remove id => exact ⟨_, _, balanced_single (by rfl) _, visit_rename_iff.1⟩
    | sweep => exact ⟨_, _, balanced_single (by rfl) _, visit_rename_iff.1⟩
    | close => exact absurd rfl h

/-- What a session on the connection of that number comes to: its statements run on this connection only,
and at its boundaries. At the end the slot is empty if the session was interrupted; if not, the connection
is settled, and still there. -/
structure Served (serial : Nat) (line : Line) (log : List Stage) (line' : Line) : Prop where
  found : ∀ s ∈ log, ∀ q, s.step = .run q →
    ∃ l, s.line.slot = some l ∧ l.serial = serial ∧ l.atBoundary = true
  held : ¬Enters log
  undialled : ¬Dials log
  dialled : line'.dialled = line.dialled
  isClosed : line'.isClosed = line.isClosed
  ending : (Interrupted log ∧ line'.slot = none) ∨
    (RanThrough log ∧ ∃ l, line'.slot = some l ∧ l.serial = serial ∧ l.IsSettled)

/-- A script in its session, by induction on the script: each answer leaves the connection at a
boundary, and anything else empties the slot. -/
theorem served_of_perform {α : Type} {script : Script α} {l : Link} {line line' : Line}
    {log : List Stage} (held : line.slot = some l) (boundary : l.atBoundary = true)
    (balanced : Balanced l.depth script) (h : Visit (Session.perform script) line log line') :
    Served l.serial line log line' := by
  induction script generalizing l line log with
  | done result =>
    obtain ⟨rfl, rfl⟩ := Visit.of_release h
    exact ⟨by simp, by simp, by simp, rfl, rfl, Or.inr ⟨by simp, l, held, rfl, boundary, balanced⟩⟩
  | ask q next ih =>
    have hfound (fate : Fate) : ∀ p, (⟨line, .run q, fate⟩ : Stage).step = .run p →
        ∃ l', line.slot = some l' ∧ l'.serial = l.serial ∧ l'.atBoundary = true :=
      fun _ _ => ⟨l, held, rfl, boundary⟩
    rw [Session.perform] at h
    obtain ⟨answer, mid, rest, meets, hrest, rfl⟩ | ⟨-, rfl, rfl⟩ := Visit.of_ask h
    · cases meets with
      | missing hempty =>
        rw [Session.client, held] at hempty
        cases hempty
      | answered held' result serial orderly =>
        obtain rfl : l = _ := Option.some.inj (held.symm.trans held')
        obtain rfl := orderly boundary
        obtain ⟨hfound', hentry, hdial, hdialled, hclosed, hending⟩ :=
          ih result (l := l.after q) rfl boundary (balanced result) hrest
        refine ⟨List.forall_mem_cons.2 ⟨hfound _, hfound'⟩, by simpa using hentry, by simpa using hdial,
          hdialled, hclosed, ?_⟩
        simpa [Fate.ofAnswer] using hending
      | failed held' q f serial =>
        obtain ⟨rfl, rfl⟩ := Visit.of_release hrest
        refine ⟨List.forall_mem_cons.2 ⟨hfound _, by simp⟩, by simp, by simp, rfl, rfl, Or.inl ⟨?_, rfl⟩⟩
        simp [Fate.ofAnswer]
    · exact ⟨List.forall_mem_cons.2 ⟨hfound _, by simp⟩, by simp, by simp, rfl, rfl,
        Or.inl ⟨by simp, rfl⟩⟩

theorem Served.eq_of_uses {serial : Nat} {line line' : Line} {log : List Stage}
    (h : Served serial line log line') {n : Nat} (uses : Uses log n) : n = serial := by
  obtain ⟨s, hs, q, hq, l, hl, rfl⟩ := uses
  obtain ⟨l', hl', hserial, -⟩ := h.found s hs q hq
  obtain rfl := Option.some.inj (hl.symm.trans hl')
  exact hserial

theorem Served.atBoundary {serial : Nat} {line line' : Line} {log : List Stage}
    (h : Served serial line log line') : ∀ s ∈ log, ∀ q, s.step = .run q →
      ∃ l, s.line.slot = some l ∧ l.atBoundary = true := by
  intro s hs q hq
  obtain ⟨l, hl, -, boundary⟩ := h.found s hs q hq
  exact ⟨l, hl, boundary⟩

/-- A session that ran through keeps its connection, and ran on no other. -/
theorem Served.kept {serial : Nat} {line line' : Line} {log : List Stage}
    (h : Served serial line log line') (through : RanThrough log) :
    ∃ l, line'.slot = some l ∧ l.IsSettled ∧ l.serial = serial ∧ ∀ n, Uses log n → n = l.serial := by
  rcases h.ending with ⟨hinterrupted, -⟩ | ⟨-, l, hl, hserial, hsettled⟩
  · exact absurd hinterrupted through.not_interrupted
  · exact ⟨l, hl, hsettled, hserial, fun n hn => (h.eq_of_uses hn).trans hserial.symm⟩

/-- What can become of a visit to a line that is not closed. -/
inductive Account (line : Line) : List Stage → Line → Prop where
  /-- The caller gave up before it was his turn. -/
  | waived : Account line [⟨line, .isClosed, .answered⟩, ⟨line, .acquire, .abandoned⟩] line
  /-- The caller found the slot empty, and dialled in vain. -/
  | stranded {fate : Fate} {rest : List Stage} (empty : line.slot = none) (vain : fate ≠ .answered)
      (after : ∀ s ∈ rest, s.step = .release false) :
      Account line (⟨line, .isClosed, .answered⟩ :: ⟨line, .acquire, .answered⟩ ::
        ⟨line, .dial, fate⟩ :: rest) line
  /-- The caller found a connection. -/
  | served {l : Link} {log : List Stage} {line' : Line} (there : line.slot = some l)
      (session : Served l.serial line log line') :
      Account line (⟨line, .isClosed, .answered⟩ :: ⟨line, .acquire, .answered⟩ :: log) line'
  /-- The caller found the slot empty, and dialled. -/
  | redialled {log : List Stage} {line' : Line} (empty : line.slot = none)
      (session : Served line.dialled line.dial log line') :
      Account line (⟨line, .isClosed, .answered⟩ :: ⟨line, .acquire, .answered⟩ ::
        ⟨line, .dial, .answered⟩ :: log) line'

theorem Line.release_of_empty {line : Line} (empty : line.slot = none) (finished : Bool) :
    line.release finished = line := by
  obtain ⟨slot, dialled, isClosed⟩ := line
  obtain rfl : slot = none := empty
  cases finished <;> rfl

theorem account_of_within {α : Type} {script : Script α} {line line' : Line} {log : List Stage}
    (balanced : Balanced 0 script) (isOpen : line.isClosed = false)
    (settled : ∀ l, line.slot = some l → l.IsSettled)
    (h : Visit (Session.within script) line log line') : Account line log line' := by
  obtain ⟨closed, mid, rest, meets, hopened, rfl⟩ := Visit.of_prompt h (fun waits => nomatch waits)
  obtain ⟨rfl, rfl⟩ : closed = false ∧ line = mid := by
    cases meets
    exact ⟨isOpen, rfl⟩
  obtain ⟨there, mid, rest, meets, hentered, rfl⟩ | ⟨-, rfl, rfl⟩ := Visit.of_ask hopened
  · obtain ⟨hthere, rfl⟩ : line.slot.isSome = there ∧ line = mid := by
      cases meets
      exact ⟨rfl, rfl⟩
    cases hslot : line.slot with
    | some l =>
      obtain rfl : true = there := by rwa [hslot] at hthere
      obtain ⟨boundary, idle⟩ := settled l hslot
      exact .served hslot (served_of_perform hslot boundary (idle ▸ balanced) hentered)
    | none =>
      obtain rfl : false = there := by rwa [hslot] at hthere
      obtain ⟨answer, mid, rest, meets, hdialled, rfl⟩ | ⟨-, rfl, rfl⟩ := Visit.of_ask hentered
      · cases meets with
        | dialled => exact .redialled hslot (served_of_perform rfl rfl balanced hdialled)
        | undialled f =>
          obtain ⟨rfl, rfl⟩ := Visit.of_release hdialled
          rw [Line.release_of_empty hslot]
          exact .stranded hslot (by simp [Fate.ofAnswer]) (by simp)
      · exact .stranded hslot (by decide) (by simp)
  · exact .waived

/-- Callers on the line, from its first connection on; the last comes first. -/
inductive Calls : List (List Stage) → Line → Prop where
  | nil : Calls [] .connected
  | cons {past : List (List Stage)} {line line' : Line} {log : List Stage} {α : Type} {steps : Steps α}
      (h : Calls past line) (errand : IsErrand steps) (visit : Visit steps line log line') :
      Calls (log :: past) line'

/-- What holds of the line between two callers. -/
structure Sound (past : List (List Stage)) (line : Line) : Prop where
  isOpen : line.isClosed = false
  settled : ∀ l, line.slot = some l → l.IsSettled
  numbered : ∀ l, line.slot = some l → l.serial < line.dialled
  used : ∀ log ∈ past, ∀ n, Uses log n → n < line.dialled
  /-- A connection on which a session was interrupted is not there any more. -/
  given_up : ∀ log ∈ past, Interrupted log → ∀ n, Uses log n → ∀ l, line.slot = some l → l.serial ≠ n
  empty_iff : line.slot = none ↔
    ∃ previous, lastSession? past = some previous ∧ (Interrupted previous ∨ Stranded previous)

theorem sound_nil : Sound [] .connected where
  isOpen := rfl
  settled l h := by
    obtain rfl := Option.some.inj h
    exact Link.isSettled_fresh 0
  numbered l h := by
    obtain rfl := Option.some.inj h
    exact Nat.zero_lt_one
  used := by simp
  given_up := by simp
  empty_iff := by simp [Line.connected, lastSession?]

namespace Sound

variable {past : List (List Stage)} {line line' : Line} {log : List Stage}

/-- A session that ran on a connection that no interrupted session had used. -/
theorem session (h : Sound past line) {n : Nat} (enters : Enters log) (uses : ∀ m, Uses log m → m = n)
    (isOpen : line'.isClosed = line.isClosed) (dialled : line.dialled ≤ line'.dialled)
    (numbered : n < line'.dialled) (unspoilt : ∀ earlier ∈ past, Interrupted earlier → ¬Uses earlier n)
    (ending : (Interrupted log ∧ line'.slot = none) ∨
      (RanThrough log ∧ ∃ l, line'.slot = some l ∧ l.serial = n ∧ l.IsSettled)) :
    Sound (log :: past) line' := by
  have hslot : ∀ l, line'.slot = some l → RanThrough log ∧ l.serial = n ∧ l.IsSettled := by
    intro l hl
    rcases ending with ⟨-, hnone⟩ | ⟨hthrough, l', hsome, hserial, hsettled⟩
    · rw [hnone] at hl
      cases hl
    · obtain rfl := Option.some.inj (hsome.symm.trans hl)
      exact ⟨hthrough, hserial, hsettled⟩
  refine ⟨isOpen.trans h.isOpen, fun l hl => (hslot l hl).2.2, fun l hl => (hslot l hl).2.1 ▸ numbered,
    ?_, ?_, ?_⟩
  · intro earlier hearlier m hm
    rcases List.mem_cons.1 hearlier with rfl | hearlier
    · exact uses m hm ▸ numbered
    · exact Nat.lt_of_lt_of_le (h.used earlier hearlier m hm) dialled
  · intro earlier hearlier hinterrupted m hm l hl hserial
    obtain ⟨hthrough, hn, -⟩ := hslot l hl
    rcases List.mem_cons.1 hearlier with rfl | hearlier
    · exact hthrough.not_interrupted hinterrupted
    · obtain rfl : n = m := hn.symm.trans hserial
      exact unspoilt earlier hearlier hinterrupted hm
  · rw [lastSession?_cons_of_enters enters]
    rcases ending with ⟨hinterrupted, hnone⟩ | ⟨hthrough, l, hsome, -⟩
    · exact iff_of_true hnone ⟨log, rfl, Or.inl hinterrupted⟩
    · refine iff_of_false (by rw [hsome]; exact Option.some_ne_none l) ?_
      rintro ⟨previous, hprevious, hbroken⟩
      obtain rfl := Option.some.inj hprevious
      exact hbroken.elim hthrough.not_interrupted hthrough.not_stranded

theorem not_uses_of_slot (h : Sound past line) {l : Link} (there : line.slot = some l) :
    ∀ earlier ∈ past, Interrupted earlier → ¬Uses earlier l.serial :=
  fun earlier hearlier hinterrupted huses => h.given_up earlier hearlier hinterrupted _ huses l there rfl

/-- The number of the next connection is given to no earlier one. -/
theorem not_uses_dialled (h : Sound past line) : ∀ earlier ∈ past, ¬Uses earlier line.dialled :=
  fun earlier hearlier huses => Nat.lt_irrefl _ (h.used earlier hearlier _ huses)

/-- What one visit preserves. -/
theorem cons (h : Sound past line) (account : Account line log line') : Sound (log :: past) line' := by
  cases account with
  | waived =>
    refine ⟨h.isOpen, h.settled, h.numbered, List.forall_mem_cons.2 ⟨by simp, h.used⟩,
      List.forall_mem_cons.2 ⟨by simp, h.given_up⟩, ?_⟩
    rw [lastSession?_cons_of_not_enters (by simp)]
    exact h.empty_iff
  | @stranded fate rest empty vain after =>
    have hempty (l : Link) (hl : line.slot = some l) : False := by
      rw [empty] at hl
      cases hl
    have hrest : ∀ n, ¬Uses rest n := by
      rintro n ⟨s, hs, q, hq, -⟩
      rw [after s hs] at hq
      cases hq
    refine ⟨h.isOpen, h.settled, h.numbered, List.forall_mem_cons.2 ⟨by simp [hrest], h.used⟩,
      fun _ _ _ _ _ l hl => (hempty l hl).elim, ?_⟩
    rw [lastSession?_cons_of_enters (by simp)]
    exact iff_of_true empty ⟨_, rfl, Or.inr (by simp [vain])⟩
  | @served l rest _ there session =>
    refine h.session (n := l.serial) (by simp) ?_ session.isClosed (Nat.le_of_eq session.dialled.symm)
      (session.dialled ▸ h.numbered l there) (h.not_uses_of_slot there) (by simpa using session.ending)
    intro m hm
    exact session.eq_of_uses (by simpa using hm)
  | @redialled rest _ empty session =>
    have hdialled : line'.dialled = line.dialled + 1 := session.dialled
    refine h.session (n := line.dialled) (by simp) ?_ session.isClosed (by omega) (by omega)
      (fun earlier hearlier _ => h.not_uses_dialled earlier hearlier) (by simpa using session.ending)
    intro m hm
    exact session.eq_of_uses (by simpa using hm)

end Sound

theorem IsErrand.account {α : Type} {steps : Steps α} (errand : IsErrand steps)
    {past : List (List Stage)} {line line' : Line} {log : List Stage} (h : Sound past line)
    (visit : Visit steps line log line') : Account line log line' := by
  obtain ⟨β, script, balanced, hvisit⟩ := errand.exists_script
  exact account_of_within balanced h.isOpen h.settled (hvisit visit)

theorem Calls.sound {past : List (List Stage)} {line : Line} (h : Calls past line) : Sound past line := by
  induction h with
  | nil => exact sound_nil
  | cons _ errand visit ih => exact ih.cons (errand.account ih visit)

namespace Account

variable {line line' : Line} {log : List Stage} (h : Account line log line')
include h

theorem found : ∀ s ∈ log, ∀ q, s.step = .run q → ∃ l, s.line.slot = some l ∧ l.atBoundary = true := by
  cases h with
  | waived => simp
  | stranded empty vain after =>
    simp only [List.forall_mem_cons]
    refine ⟨by simp, by simp, by simp, fun s hs q hq => ?_⟩
    rw [after s hs] at hq
    cases hq
  | served there session =>
    simp only [List.forall_mem_cons]
    exact ⟨by simp, by simp, session.atBoundary⟩
  | redialled empty session =>
    simp only [List.forall_mem_cons]
    exact ⟨by simp, by simp, by simp, session.atBoundary⟩

theorem not_uses {past : List (List Stage)} (sound : Sound past line) :
    ∀ earlier ∈ past, Interrupted earlier → ∀ n, Uses earlier n → ¬Uses log n := by
  intro earlier hearlier hinterrupted n huses huses'
  cases h with
  | waived => simp at huses'
  | stranded empty vain after =>
    obtain ⟨s, hs, q, hq, -⟩ : Uses _ n := by simpa using huses'
    rw [after s hs] at hq
    cases hq
  | served there session =>
    obtain rfl := session.eq_of_uses (by simpa using huses')
    exact sound.not_uses_of_slot there earlier hearlier hinterrupted huses
  | redialled empty session =>
    obtain rfl := session.eq_of_uses (by simpa using huses')
    exact sound.not_uses_dialled earlier hearlier huses

theorem dials_iff : Dials log ↔ Enters log ∧ line.slot = none := by
  cases h with
  | waived => simp
  | stranded empty => simp [empty]
  | served there session => simp [there, session.undialled]
  | redialled empty => simp [empty]

theorem kept (enters : Enters log) (through : RanThrough log) :
    ∃ l, line'.slot = some l ∧ l.IsSettled ∧ (∀ n, Uses log n → n = l.serial) ∧
      ∀ l', line.slot = some l' → l'.serial = l.serial := by
  cases h with
  | waived => simp at enters
  | stranded empty vain => simp [vain] at through
  | served there session =>
    simp only [ranThrough_cons] at through
    obtain ⟨l, hl, hsettled, hserial, huses⟩ := session.kept through.2.2
    refine ⟨l, hl, hsettled, by simpa using huses, fun l' hl' => ?_⟩
    obtain rfl := Option.some.inj (there.symm.trans hl')
    exact hserial.symm
  | redialled empty session =>
    simp only [ranThrough_cons] at through
    obtain ⟨l, hl, hsettled, -, huses⟩ := session.kept through.2.2.2
    refine ⟨l, hl, hsettled, by simpa using huses, fun l' hl' => ?_⟩
    rw [empty] at hl'
    cases hl'

end Account

/-- After any number of callers, each of whom may fail or give up at any step: the slot is empty or holds
a connection at a boundary and without a transaction. The next caller runs no statement elsewhere than at
a boundary, nor on a connection on which an earlier session was interrupted. He dials if and only if he
gets hold of the slot and the last session was interrupted, or dialled in vain. And if he is not
interrupted himself, he leaves the connection that he found, or dialled, in the slot. -/
theorem settled_between_calls {past : List (List Stage)} {line : Line} (h : Calls past line) :
    (∀ l, line.slot = some l → l.IsSettled) ∧
      ∀ {α : Type} {steps : Steps α} {log : List Stage} {line' : Line}, IsErrand steps →
        Visit steps line log line' →
        (∀ s ∈ log, ∀ q, s.step = .run q → ∃ l, s.line.slot = some l ∧ l.atBoundary = true) ∧
          (∀ earlier ∈ past, Interrupted earlier → ∀ n, Uses earlier n → ¬Uses log n) ∧
          (Dials log ↔ Enters log ∧
            ∃ previous, lastSession? past = some previous ∧ (Interrupted previous ∨ Stranded previous)) ∧
          (Enters log → RanThrough log → ∃ l, line'.slot = some l ∧ l.IsSettled ∧
            (∀ n, Uses log n → n = l.serial) ∧ ∀ l', line.slot = some l' → l'.serial = l.serial) := by
  have sound := h.sound
  refine ⟨sound.settled, fun errand visit => ?_⟩
  have account := errand.account sound visit
  refine ⟨account.found, account.not_uses sound, ?_, account.kept⟩
  rw [← sound.empty_iff]
  exact account.dials_iff

/-- A reader gives up while his statement is under way, and the next caller's insertion fails within its
transaction. Then a sweep dials the third connection, and leaves it. -/
theorem settled_after_interruptions :
    ∃ past line log line', past.length = 2 ∧ Calls past line ∧ Visit (command .sweep) line log line' ∧
      Dials log ∧ ¬Uses log 0 ∧ ¬Uses log 1 ∧ ∃ l, line'.slot = some l ∧ l.serial = 2 ∧ l.IsSettled := by
  let draft : Draft := ⟨"sealed", ⟨60, 0⟩, 0⟩
  let called : List Stage :=
    [⟨.connected, .isClosed, .answered⟩, ⟨.connected, .acquire, .answered⟩,
      ⟨.connected, .run (.select "id"), .abandoned⟩]
  have hcalled : Visit (command (.find "id")) .connected called ⟨none, 1, false⟩ :=
    visit_rename_iff.2 (visit_within_of_held rfl rfl (visit_perform_abandoned _))
  let failed : List Stage :=
    [⟨⟨none, 1, false⟩, .isClosed, .answered⟩, ⟨⟨none, 1, false⟩, .acquire, .answered⟩,
      ⟨⟨none, 1, false⟩, .dial, .answered⟩, ⟨⟨some (.fresh 1), 2, false⟩, .run .begin, .answered⟩,
      ⟨⟨some ⟨1, true, 1⟩, 2, false⟩, .run (.insert draft.record), .failed⟩,
      ⟨⟨some ⟨1, true, 1⟩, 2, false⟩, .release false, .answered⟩]
  have hfailed : Visit (command (.insert draft)) ⟨none, 1, false⟩ failed ⟨none, 2, false⟩ :=
    visit_rename_iff.2 (visit_within_of_empty rfl rfl
      (visit_perform_answered rfl () (visit_perform_failed rfl .timeout)))
  let swept : List Stage :=
    [⟨⟨none, 2, false⟩, .isClosed, .answered⟩, ⟨⟨none, 2, false⟩, .acquire, .answered⟩,
      ⟨⟨none, 2, false⟩, .dial, .answered⟩, ⟨⟨some (.fresh 2), 3, false⟩, .run .deleteExpired, .answered⟩,
      ⟨⟨some (.fresh 2), 3, false⟩, .release true, .answered⟩]
  have hswept : Visit (command .sweep) ⟨none, 2, false⟩ swept ⟨some (.fresh 2), 3, false⟩ :=
    visit_rename_iff.2 (visit_within_of_empty rfl rfl
      (visit_perform_answered rfl (0 : Nat) (visit_perform_done _ _)))
  have hcalls : Calls [failed, called] ⟨none, 2, false⟩ :=
    .cons (.cons .nil (.command (by decide)) hcalled) (.command (by decide)) hfailed
  obtain ⟨-, hnext⟩ := settled_between_calls hcalls
  obtain ⟨-, hspared, hdials, hkept⟩ := hnext (.command (by decide)) hswept
  have hlast : lastSession? [failed, called] = some failed :=
    lastSession?_cons_of_enters (by simp [failed]) _
  obtain ⟨l, hl, hsettled, hserial, -⟩ := hkept (by simp [swept]) (by simp [swept])
  exact ⟨_, _, swept, _, rfl, hcalls, hswept,
    hdials.2 ⟨by simp [swept], failed, hlast, Or.inl (by simp [failed])⟩,
    hspared called (by simp) (by simp [called]) 0 (by simp [called, Line.connected, Link.fresh]),
    hspared failed (by simp) (by simp [failed]) 1 (by simp [failed, Link.fresh]),
    l, hl, (hserial 2 (by simp [swept, Link.fresh])).symm, hsettled⟩

end BurnAfterRead.ServerTable
