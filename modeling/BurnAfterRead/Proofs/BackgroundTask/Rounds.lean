import BurnAfterRead.BackgroundTask
import BurnAfterRead.Proofs.Dialogue.Path
import Mathlib.Data.List.Induction

/-!
# Rounds of a background task

A task at work waits, and looks up now and then: first whether it was told to stop, and only if not, at the
clock. With each tick it begins a run, which goes on from answer to answer until it is finished, and the
task does not look up before that. So its diary consists of whole rounds, except for a run in progress. The
signal to stop can come at any time. A run in progress is finished all the same, and none is begun any
more, not even if the interval has passed as well when the task looks up.
-/

namespace BurnAfterRead.BackgroundTask

variable {Q : Type} {A : Q → Type} {α : Type}

/-! ## A task at work -/

/-- What happens around a task. -/
inductive Happening (A : Q → Type) where
  /-- If it waits, it looks up. -/
  | look (now : Int)
  /-- It is told to stop. -/
  | signal
  /-- What its run asks is answered. -/
  | answer (answers : (q : Q) → A q) (now : Int)

/-- What a task does. -/
inductive Deed (A : Q → Type) (α : Type) where
  | began (now : Int)
  | asked (exchange : Dialogue.Exchange A)
  | finished (result : α) (now : Int)

/-- A task at work: whether it was told to stop, what is left of its run, and what it has done so far. -/
structure Worker (A : Q → Type) (α : Type) where
  task : BackgroundTask
  signalled : Bool := false
  left? : Option (Dialogue Q A α) := none
  diary : List (Deed A α) := []

namespace Worker

def start (interval : Duration) (now : Int) : Worker A α := { task := .start interval now }

def write (w : Worker A α) (deed : Deed A α) : Worker A α := { w with diary := w.diary ++ [deed] }

/-- Goes on with what is left of a run. -/
def proceed (w : Worker A α) (now : Int) : Dialogue Q A α → Worker A α
  | .done result =>
    { w with task := w.task.step (.finished result now), left? := none }.write (.finished result now)
  | .ask q next => { w with left? := some (.ask q next) }

/-- Meets an event while it waits; if that is a tick, a run begins. -/
def meet (job : Dialogue Q A α) (event : Event α) (now : Int) (w : Worker A α) : Worker A α :=
  match w.left? with
  | some _ => w
  | none =>
    let w := { w with task := w.task.step event }
    if w.task.isRunning then (w.write (.began now)).proceed now job else w

/-- Takes an answer if its run has asked something. -/
def take (answers : (q : Q) → A q) (now : Int) (w : Worker A α) : Worker A α :=
  match w.left? with
  | some (.ask q next) => (w.write (.asked ⟨q, answers q⟩)).proceed now (next (answers q))
  | _ => w

/-- What a task at work does upon a happening. Whether it was told to stop it finds out when it looks up, and
before it looks at the clock. -/
def step (job : Dialogue Q A α) (w : Worker A α) : Happening A → Worker A α
  | .look now => w.meet job (if w.signalled then .stop else .clock now) now
  | .signal => { w with signalled := true }
  | .answer answers now => w.take answers now

/-- The same for a task that hears at once that it is to stop. -/
def promptStep (job : Dialogue Q A α) (w : Worker A α) : Happening A → Worker A α
  | .look now => w.meet job (.clock now) now
  | .signal => { w with task := w.task.step (.stop : Event α), signalled := true }
  | .answer answers now => w.take answers now

end Worker

section Work

variable (job : Dialogue Q A α) (interval : Duration) (start : Int)

/-- The task after some happenings. -/
def work (hs : List (Happening A)) : Worker A α := hs.foldl (Worker.step job) (.start interval start)

def promptWork (hs : List (Happening A)) : Worker A α :=
  hs.foldl (Worker.promptStep job) (.start interval start)

theorem work_snoc (hs : List (Happening A)) (h : Happening A) :
    work job interval start (hs ++ [h]) = (work job interval start hs).step job h :=
  List.foldl_append

theorem promptWork_snoc (hs : List (Happening A)) (h : Happening A) :
    promptWork job interval start (hs ++ [h]) = (promptWork job interval start hs).promptStep job h :=
  List.foldl_append

end Work

/-! ## Reading a diary -/

def Deed.begin? : Deed A α → Option Int
  | began now => some now
  | _ => none

def Deed.finish? : Deed A α → Option Int
  | finished _ now => some now
  | _ => none

/-- When runs were begun. -/
def begins (diary : List (Deed A α)) : List Int := diary.filterMap Deed.begin?

/-- When runs were finished. -/
def finishes (diary : List (Deed A α)) : List Int := diary.filterMap Deed.finish?

/-- Since when a task waits that began to do so at `start`. -/
def waitsSince (start : Int) (diary : List (Deed A α)) : Int := (finishes diary).getLast?.getD start

/-- A look at `now` finds no run in progress, and the interval passed since the last one. -/
structure IsTick (interval : Duration) (start : Int) (diary : List (Deed A α)) (now : Int) : Prop where
  idle : (begins diary).length = (finishes diary).length
  passed : waitsSince start diary + interval.nanos ≤ now

instance (interval : Duration) (start : Int) (diary : List (Deed A α)) (now : Int) :
    Decidable (IsTick interval start diary now) :=
  decidable_of_iff (_ ∧ _) ⟨fun h => ⟨h.1, h.2⟩, fun h => ⟨h.idle, h.passed⟩⟩

def Happening.isSignal : Happening A → Bool
  | signal => true
  | _ => false

/-- A run from its beginning to its end. -/
structure Round (job : Dialogue Q A α) where
  began : Int
  exchanges : List (Dialogue.Exchange A)
  result : α
  finished : Int
  path : Dialogue.Path job exchanges (.done result)

variable {job : Dialogue Q A α} {interval : Duration} {start : Int}

def Round.deeds (r : Round job) : List (Deed A α) :=
  .began r.began :: (r.exchanges.map .asked ++ [.finished r.result r.finished])

/-- What the diary has of a run in progress. -/
def underway (now : Int) (exchanges : List (Dialogue.Exchange A)) : List (Deed A α) :=
  .began now :: exchanges.map .asked

section Diaries

variable (d e : List (Deed A α)) (l : List (Dialogue.Exchange A)) (now : Int)

@[simp] theorem begins_nil : begins ([] : List (Deed A α)) = [] := rfl

@[simp] theorem finishes_nil : finishes ([] : List (Deed A α)) = [] := rfl

@[simp] theorem begins_append : begins (d ++ e) = begins d ++ begins e := List.filterMap_append

@[simp] theorem finishes_append : finishes (d ++ e) = finishes d ++ finishes e := List.filterMap_append

@[simp] theorem begins_asked (x : Dialogue.Exchange A) : begins (.asked x :: d) = begins d := rfl

@[simp] theorem finishes_asked (x : Dialogue.Exchange A) : finishes (.asked x :: d) = finishes d := rfl

@[simp] theorem begins_map_asked : begins (l.map .asked : List (Deed A α)) = [] := by
  induction l with
  | nil => rfl
  | cons x l ih => exact ih

@[simp] theorem finishes_map_asked : finishes (l.map .asked : List (Deed A α)) = [] := by
  induction l with
  | nil => rfl
  | cons x l ih => exact ih

@[simp] theorem begins_began : begins (.began now :: d) = now :: begins d := rfl

@[simp] theorem finishes_began : finishes (.began now :: d) = finishes d := rfl

@[simp] theorem begins_finished (result : α) : begins (.finished result now :: d) = begins d := rfl

@[simp] theorem finishes_finished (result : α) :
    finishes (.finished result now :: d) = now :: finishes d := rfl

@[simp] theorem begins_underway : begins (underway now l : List (Deed A α)) = [now] := by simp [underway]

@[simp] theorem finishes_underway : finishes (underway now l : List (Deed A α)) = [] := by simp [underway]

end Diaries

/-- The diary of whole rounds. -/
def whole (rounds : List (Round job)) : List (Deed A α) := rounds.flatMap Round.deeds

@[simp] theorem begins_whole (rounds : List (Round job)) :
    begins (whole rounds) = rounds.map Round.began := by
  induction rounds with
  | nil => rfl
  | cons r rounds ih =>
    rw [whole, List.flatMap_cons, begins_append, ← whole, ih]
    simp [Round.deeds]

@[simp] theorem finishes_whole (rounds : List (Round job)) :
    finishes (whole rounds) = rounds.map Round.finished := by
  induction rounds with
  | nil => rfl
  | cons r rounds ih =>
    rw [whole, List.flatMap_cons, finishes_append, ← whole, ih]
    simp [Round.deeds]

theorem underway_snoc (now : Int) (l : List (Dialogue.Exchange A)) (x : Dialogue.Exchange A) :
    (underway now l ++ [.asked x] : List (Deed A α)) = underway now (l ++ [x]) := by
  simp [underway]

/-- With its result a run in progress becomes a whole round. -/
theorem whole_snoc (rounds : List (Round job)) (r : Round job) :
    whole rounds ++ underway r.began r.exchanges ++ [.finished r.result r.finished] =
      whole (rounds ++ [r]) := by
  simp [whole, underway, Round.deeds]

/-! ## How a task stands -/

/-- How a task can stand: it waits since its last round, or it has a run in progress, or it has stopped, as it
was told to. -/
inductive Stands (job : Dialogue Q A α) (interval : Duration) (start : Int) : Worker A α → Prop where
  | waiting (rounds : List (Round job)) (signalled : Bool) :
      Stands job interval start
        ⟨⟨interval, .waiting (waitsSince start (whole rounds))⟩, signalled, none, whole rounds⟩
  | running (rounds : List (Round job)) (signalled : Bool) (began : Int) {l : List (Dialogue.Exchange A)}
      {q : Q} {next : A q → Dialogue Q A α} (path : Dialogue.Path job l (.ask q next)) :
      Stands job interval start
        ⟨⟨interval, .running false⟩, signalled, some (.ask q next), whole rounds ++ underway began l⟩
  | stopped (rounds : List (Round job)) :
      Stands job interval start ⟨⟨interval, .stopped⟩, true, none, whole rounds⟩

theorem stands_start : Stands job interval start (.start interval start) := .waiting [] false

/-- Wherever a run goes on, it stays in progress or makes a round. -/
theorem stands_proceed (rounds : List (Round job)) (signalled : Bool) (left? : Option (Dialogue Q A α))
    (began now : Int) {l : List (Dialogue.Exchange A)} {rest : Dialogue Q A α}
    (path : Dialogue.Path job l rest) :
    Stands job interval start (Worker.proceed
      ⟨⟨interval, .running false⟩, signalled, left?, whole rounds ++ underway began l⟩ now rest) := by
  cases rest with
  | ask q next => exact .running rounds signalled began path
  | done result =>
    have hstands : Stands job interval start _ :=
      .waiting (rounds ++ [⟨began, l, result, now, path⟩]) signalled
    have hsince : waitsSince start (whole (rounds ++ [⟨began, l, result, now, path⟩])) = now := by
      simp [waitsSince]
    rw [hsince, ← whole_snoc] at hstands
    exact hstands

/-- A task that waits and was not told to stop begins a run if the interval has passed. -/
theorem look_waiting (job : Dialogue Q A α) (interval : Duration) (since now : Int)
    (diary : List (Deed A α)) :
    Worker.step job ⟨⟨interval, .waiting since⟩, false, none, diary⟩ (.look now) =
      if since + interval.nanos ≤ now then
        Worker.proceed ⟨⟨interval, .running false⟩, false, none, diary ++ [.began now]⟩ now job
      else ⟨⟨interval, .waiting since⟩, false, none, diary⟩ := by
  by_cases hdue : since + interval.nanos ≤ now
  · simp [Worker.step, Worker.meet, BackgroundTask.step, isDue, isRunning, Worker.write, hdue]
  · simp [Worker.step, Worker.meet, BackgroundTask.step, isDue, isRunning, hdue]

theorem Stands.step {w : Worker A α} (h : Stands job interval start w) (happening : Happening A) :
    Stands job interval start (w.step job happening) := by
  cases happening with
  | signal =>
    cases h with
    | waiting rounds signalled => exact .waiting rounds true
    | running rounds signalled began path => exact .running rounds true began path
    | stopped rounds => exact .stopped rounds
  | answer answers now =>
    cases h with
    | waiting rounds signalled => exact .waiting rounds signalled
    | stopped rounds => exact .stopped rounds
    | @running rounds signalled began l q next path =>
      have hstands : Stands job interval start _ :=
        stands_proceed rounds signalled (some (.ask q next)) began now (path.snoc (answers q))
      rw [← underway_snoc, ← List.append_assoc] at hstands
      exact hstands
  | look now =>
    cases h with
    | running rounds signalled began path => exact .running rounds signalled began path
    | stopped rounds => exact .stopped rounds
    | waiting rounds signalled =>
      cases signalled with
      | true => exact .stopped rounds
      | false =>
        rw [look_waiting]
        split
        · exact stands_proceed rounds false none now now (.nil job)
        · exact .waiting rounds false

variable (job interval start) in
theorem stands_work (hs : List (Happening A)) : Stands job interval start (work job interval start hs) := by
  induction hs using List.reverseRecOn with
  | nil => exact stands_start
  | append_singleton hs h ih =>
    rw [work_snoc]
    exact ih.step h

/-! ## When runs begin -/

theorem begins_proceed (w : Worker A α) (now : Int) (rest : Dialogue Q A α) :
    begins (w.proceed now rest).diary = begins w.diary := by
  cases rest <;> simp [Worker.proceed, Worker.write]

theorem begins_take (w : Worker A α) (answers : (q : Q) → A q) (now : Int) :
    begins (w.take answers now).diary = begins w.diary := by
  unfold Worker.take
  split
  · simp [begins_proceed, Worker.write]
  · rfl

/-- A task begins a run when it looks up with the interval passed, unless it was told to stop. -/
theorem Stands.begins_look {w : Worker A α} (h : Stands job interval start w) (now : Int) :
    begins (w.step job (.look now)).diary =
      begins w.diary ++
        if w.signalled = false ∧ IsTick interval start w.diary now then [now] else [] := by
  cases h with
  | stopped rounds => simp [Worker.step, Worker.meet, BackgroundTask.step, isRunning]
  | @running rounds signalled began l q next path =>
    have hbusy : ¬IsTick interval start (whole rounds ++ underway began l) now := fun h => by
      simpa using h.idle
    simp [Worker.step, Worker.meet, hbusy]
  | waiting rounds signalled =>
    cases signalled with
    | true => simp [Worker.step, Worker.meet, BackgroundTask.step, isRunning]
    | false =>
      have htick : IsTick interval start (whole rounds) now ↔
          waitsSince start (whole rounds) + interval.nanos ≤ now :=
        ⟨IsTick.passed, fun h => ⟨by simp, h⟩⟩
      rw [look_waiting]
      simp only [htick, true_and]
      split
      · simp [begins_proceed]
      · simp

/-! ## Hearing the signal at once -/

section Signal

variable (w : Worker A α) (now : Int)

theorem signalled_proceed (rest : Dialogue Q A α) : (w.proceed now rest).signalled = w.signalled := by
  cases rest <;> rfl

theorem signalled_meet (event : Event α) : (w.meet job event now).signalled = w.signalled := by
  unfold Worker.meet
  split
  · rfl
  · dsimp only
    split
    · exact signalled_proceed _ _ _
    · rfl

theorem signalled_take (answers : (q : Q) → A q) : (w.take answers now).signalled = w.signalled := by
  unfold Worker.take
  split
  · exact signalled_proceed _ _ _
  · rfl

theorem signalled_step (h : Happening A) : (w.step job h).signalled = (w.signalled || h.isSignal) := by
  cases h with
  | signal => exact (Bool.or_true _).symm
  | look now => exact (signalled_meet w now _).trans (Bool.or_false _).symm
  | answer answers now => exact (signalled_take w now answers).trans (Bool.or_false _).symm

theorem step_stop_stop (t : BackgroundTask) :
    (t.step (.stop : Event α)).step (.stop : Event α) = t.step (.stop : Event α) := by
  obtain ⟨interval, phase⟩ := t
  cases phase <;> rfl

/-- A run that has finished and one that is told to stop come to the same, in either order. -/
theorem step_finished_stop (t : BackgroundTask) (result : α) :
    (t.step (.finished result now)).step (.stop : Event α) =
      (t.step (.stop : Event α)).step (.finished result now) := by
  obtain ⟨interval, phase⟩ := t
  rcases phase with since | (_ | _) | _ <;> rfl

namespace Worker

/-- The task, had it heard at once what it was told. -/
def heard : Worker A α :=
  { w with task := if w.signalled then w.task.step (.stop : Event α) else w.task }

theorem heard_of_not_signalled (h : w.signalled = false) : w.heard = w := by
  obtain ⟨task, signalled, left?, diary⟩ := w
  subst h
  rfl

theorem heard_proceed (rest : Dialogue Q A α) : (w.proceed now rest).heard = w.heard.proceed now rest := by
  cases rest with
  | ask q next => rfl
  | done result =>
    unfold proceed heard write
    by_cases h : w.signalled <;> simp [h, step_finished_stop]

theorem heard_take (answers : (q : Q) → A q) : (w.take answers now).heard = w.heard.take answers now := by
  unfold take
  rw [show w.heard.left? = w.left? from rfl]
  split
  · exact heard_proceed _ _ _
  · rfl

theorem heard_signal : (w.step job .signal).heard = w.heard.promptStep job .signal := by
  unfold heard
  by_cases h : w.signalled <;> simp [h, step, promptStep, step_stop_stop]

end Worker

theorem Stands.heard_look {w : Worker A α} (h : Stands job interval start w) :
    (w.step job (.look now)).heard = w.heard.promptStep job (.look now) := by
  cases h with
  | stopped rounds => rfl
  | running rounds signalled began path => cases signalled <;> rfl
  | waiting rounds signalled =>
    cases signalled with
    | true => rfl
    | false =>
      rw [Worker.heard_of_not_signalled _ (signalled_step _ _)]
      rfl

end Signal

section Laws

variable (job interval start) (hs hs' : List (Happening A))

theorem work_append :
    work job interval start (hs ++ hs') = hs'.foldl (Worker.step job) (work job interval start hs) :=
  List.foldl_append

theorem signalled_work : (work job interval start hs).signalled = hs.any Happening.isSignal := by
  induction hs using List.reverseRecOn with
  | nil => rfl
  | append_singleton hs h ih => simp [work_snoc, signalled_step, ih]

theorem promptWork_eq : promptWork job interval start hs = (work job interval start hs).heard := by
  induction hs using List.reverseRecOn with
  | nil => rfl
  | append_singleton hs h ih =>
    rw [promptWork_snoc, ih, work_snoc]
    cases h with
    | look now => exact ((stands_work job interval start hs).heard_look now).symm
    | signal => exact (Worker.heard_signal _).symm
    | answer answers now => exact (Worker.heard_take _ now answers).symm

theorem begins_work_look (now : Int) :
    begins (work job interval start (hs ++ [.look now])).diary =
      begins (work job interval start hs).diary ++
        if hs.any Happening.isSignal = false ∧ IsTick interval start (work job interval start hs).diary now
        then [now] else [] := by
  rw [work_snoc, (stands_work job interval start hs).begins_look, signalled_work]

theorem begins_work_answer (answers : (q : Q) → A q) (now : Int) :
    begins (work job interval start (hs ++ [.answer answers now])).diary =
      begins (work job interval start hs).diary := by
  rw [work_snoc]
  exact begins_take _ _ _

/-- From the signal on no run begins. -/
theorem begins_work_signal :
    begins (work job interval start (hs ++ .signal :: hs')).diary =
      begins (work job interval start hs).diary := by
  induction hs' using List.reverseRecOn with
  | nil => rw [work_snoc]; rfl
  | append_singleton hs' h ih =>
    rw [← List.cons_append, ← List.append_assoc, ← ih]
    cases h with
    | look now =>
      rw [begins_work_look, if_neg (by simp [Happening.isSignal]), List.append_nil]
    | signal => rw [work_snoc]; rfl
    | answer answers now => exact begins_work_answer job interval start _ answers now

end Laws

/-! ## Coming to an end -/

theorem Stands.stopped_of_signalled {w : Worker A α} (h : Stands job interval start w)
    (hsignalled : w.signalled = true) (hleft : w.left? = none) (now : Int) :
    (w.step job (.look now)).task.phase = .stopped := by
  cases h with
  | waiting rounds signalled =>
    subst hsignalled
    rfl
  | stopped rounds => rfl
  | running => cases hleft

theorem Stands.whole_of_stopped {w : Worker A α} (h : Stands job interval start w)
    (hstopped : w.task.phase = .stopped) : ∃ rounds : List (Round job), w.diary = whole rounds := by
  cases h with
  | stopped rounds => exact ⟨rounds, rfl⟩
  | waiting => cases hstopped
  | running => cases hstopped

theorem Stands.step_of_stopped {w : Worker A α} (h : Stands job interval start w)
    (hstopped : w.task.phase = .stopped) (happening : Happening A) : w.step job happening = w := by
  cases h with
  | stopped rounds => cases happening <;> rfl
  | waiting => cases hstopped
  | running => cases hstopped

variable (job interval start) in
/-- A task that has stopped has stopped for good. -/
theorem work_of_stopped {hs : List (Happening A)}
    (hstopped : (work job interval start hs).task.phase = .stopped) (hs' : List (Happening A)) :
    work job interval start (hs ++ hs') = work job interval start hs := by
  induction hs' using List.reverseRecOn with
  | nil => rw [List.append_nil]
  | append_singleton hs' h ih =>
    rw [← List.append_assoc, work_snoc, ih]
    exact (stands_work job interval start hs).step_of_stopped hstopped h

/-! ## Without interruption -/

section Partner

variable (job) {σ : Type} (clock : σ → Int) (answer : (q : Q) → σ → A q × σ)

/-- What a partner answers in the course of a run leads to what the run does with this partner. -/
theorem exists_answers_proceed (rest : Dialogue Q A α) (s : σ) (w : Worker A α) :
    ∃ l : List (Happening A), (∀ h ∈ l, ∃ answers now, h = .answer answers now) ∧
      (l.foldl (Worker.step job) (w.proceed (clock s) rest)).task =
        w.task.step (.finished (rest.run answer s).1 (clock (rest.run answer s).2)) := by
  induction rest generalizing s w with
  | done result => exact ⟨[], List.forall_mem_nil _, rfl⟩
  | ask q next ih =>
    let a := (answer q s).1
    let now := clock (answer q s).2
    obtain ⟨l, hl, htask⟩ := ih a (answer q s).2
      ({ w with left? := some (.ask q next) }.write (.asked ⟨q, a⟩))
    refine ⟨.answer (fun q => (answer q s).1) now :: l, fun h hh => ?_, htask⟩
    obtain rfl | hh := List.mem_cons.1 hh
    · exact ⟨_, _, rfl⟩
    · exact hl h hh

/-- If nothing comes between, a task does what it does with a partner who is there for it alone. -/
theorem exists_answers_onClock (s : σ) {w : Worker A α} (hsignalled : w.signalled = false)
    (hleft : w.left? = none) :
    ∃ l : List (Happening A), (∀ h ∈ l, ∃ answers now, h = .answer answers now) ∧
      (l.foldl (Worker.step job) (w.step job (.look (clock s)))).task =
        (w.task.onClock clock (job.run answer) s).1 := by
  obtain ⟨task, signalled, left?, diary⟩ := w
  subst hsignalled hleft
  by_cases hruns : (task.step (.clock (clock s) : Event α)).isRunning
  · obtain ⟨l, hl, htask⟩ := exists_answers_proceed job clock answer job s
      (Worker.write ⟨task.step (.clock (clock s) : Event α), false, none, diary⟩ (.began (clock s)))
    refine ⟨l, hl, ?_⟩
    simpa [Worker.step, Worker.meet, Worker.write, onClock, hruns] using htask
  · refine ⟨[], List.forall_mem_nil _, ?_⟩
    simp [Worker.step, Worker.meet, onClock, hruns]

end Partner

end BurnAfterRead.BackgroundTask
