import BurnAfterRead.Proofs.BackgroundTask.Rounds
import BurnAfterRead.Proofs.Limiter.Run
import BurnAfterRead.Secret.Service

/-!
# Upkeep

Two tasks clean up while the service is up: one has the store sweep out what has expired, the other has the
limiter drop the clients that were idle for too long. A run of either asks for one thing and takes whatever
answer comes, a failure too, so that what came of earlier runs does not matter to when one begins.
-/

namespace BurnAfterRead

namespace BackgroundTask

variable {Q : Type} {A : Q → Type} {α : Type}

/-! ## Jobs that ask for one thing -/

/-- A run asks `q`, and makes its result of the answer. -/
def AsksOnly (q : Q) (job : Dialogue Q A α) : Prop := ∃ f : A q → α, job = .ask q fun a => .done (f a)

/-- Two happenings differ in an answer at most. -/
inductive Happening.SameTime : Happening A → Happening A → Prop where
  | look (now : Int) : SameTime (.look now) (.look now)
  | signal : SameTime .signal .signal
  | answer (answers answers' : (q : Q) → A q) (now : Int) :
      SameTime (.answer answers now) (.answer answers' now)

/-- Two tasks with runs that ask for one thing do the same, except for the results. -/
structure Alike (job : Dialogue Q A α) (w w' : Worker A α) : Prop where
  task : w.task = w'.task
  signalled : w.signalled = w'.signalled
  left? : w.left? = w'.left?
  left : w.left? = none ∨ w.left? = some job
  begins : begins w.diary = begins w'.diary

variable {q : Q} {job : Dialogue Q A α} {interval : Duration} {start : Int}

namespace AsksOnly

theorem exchanges (h : AsksOnly q job) (r : Round job) : ∃ a, r.exchanges = [⟨q, a⟩] := by
  obtain ⟨f, rfl⟩ := h
  obtain ⟨a, rest, hl, hrest⟩ := Dialogue.path_ask_done_iff.1 r.path
  obtain ⟨rfl, -⟩ := Dialogue.path_done_iff.1 hrest
  exact ⟨a, hl⟩

/-- A run in progress has asked for the one thing and has no answer. -/
theorem of_path (h : AsksOnly q job) {l : List (Dialogue.Exchange A)} {q' : Q}
    {next : A q' → Dialogue Q A α} (path : Dialogue.Path job l (.ask q' next)) :
    l = [] ∧ job = .ask q' next := by
  obtain ⟨f, rfl⟩ := h
  obtain ⟨rfl, heq⟩ | ⟨a, rest, -, hrest⟩ := Dialogue.path_ask_iff.1 path
  · exact ⟨rfl, heq.symm⟩
  · cases (Dialogue.path_done_iff.1 hrest).2

theorem left?_of_stands (h : AsksOnly q job) {w : Worker A α} (hw : Stands job interval start w) :
    w.left? = none ∨ w.left? = some job := by
  cases hw with
  | waiting | stopped => exact Or.inl rfl
  | running rounds signalled began path => exact Or.inr (congrArg some (h.of_path path).2.symm)

theorem diary_of_stands (h : AsksOnly q job) {w : Worker A α} (hw : Stands job interval start w) :
    ∃ rounds : List (Round job), w.diary = whole rounds ∨
      w.left? = some job ∧ ∃ began, w.diary = whole rounds ++ [.began began] := by
  cases hw with
  | waiting rounds | stopped rounds => exact ⟨rounds, Or.inl rfl⟩
  | running rounds signalled began path =>
    obtain ⟨rfl, hjob⟩ := h.of_path path
    exact ⟨rounds, Or.inr ⟨congrArg some hjob.symm, began, rfl⟩⟩

/-- With its answer a run in progress is finished. -/
theorem step_answer (h : AsksOnly q job) {w : Worker A α} (hleft : w.left? = some job)
    (answers : (q : Q) → A q) (now : Int) :
    ∃ result, Dialogue.Path job [⟨q, answers q⟩] (.done result) ∧
      w.step job (.answer answers now) =
        { w with
          task := w.task.step (.finished result now)
          left? := none
          diary := w.diary ++ [.asked ⟨q, answers q⟩, .finished result now] } := by
  obtain ⟨f, rfl⟩ := h
  refine ⟨f (answers q), .cons (.nil _), ?_⟩
  simp [Worker.step, Worker.take, hleft, Worker.proceed, Worker.write]

theorem left?_step_answer (h : AsksOnly q job) {w : Worker A α} (hw : Stands job interval start w)
    (answers : (q : Q) → A q) (now : Int) : (w.step job (.answer answers now)).left? = none := by
  obtain hleft | hleft := h.left?_of_stands hw
  · simp [Worker.step, Worker.take, hleft]
  · obtain ⟨result, -, hstep⟩ := h.step_answer hleft answers now
    rw [hstep]

end AsksOnly

namespace Alike

variable {w w' : Worker A α}

theorem begin (h : Alike job w w') (hjob : AsksOnly q job) (task : BackgroundTask) (now : Int) :
    Alike job ((Worker.write { w with task := task } (.began now)).proceed now job)
      ((Worker.write { w' with task := task } (.began now)).proceed now job) := by
  obtain ⟨f, rfl⟩ := hjob
  exact ⟨rfl, h.signalled, rfl, Or.inr rfl, by simp [Worker.proceed, Worker.write, h.begins]⟩

theorem meet (h : Alike job w w') (hjob : AsksOnly q job) (event : Event α) (now : Int) :
    Alike job (w.meet job event now) (w'.meet job event now) := by
  unfold Worker.meet
  obtain hleft | hleft := h.left
  · simp only [hleft, ← h.left?, ← h.task]
    split
    · exact h.begin hjob _ now
    · exact ⟨rfl, h.signalled, rfl, Or.inl rfl, h.begins⟩
  · simpa only [hleft, ← h.left?] using h

theorem take (h : Alike job w w') (hjob : AsksOnly q job) (answers answers' : (q : Q) → A q) (now : Int) :
    Alike job (w.step job (.answer answers now)) (w'.step job (.answer answers' now)) := by
  obtain hleft | hleft := h.left
  · simpa [Worker.step, Worker.take, hleft, ← h.left?] using h
  · obtain ⟨result, -, hstep⟩ := hjob.step_answer hleft answers now
    obtain ⟨result', -, hstep'⟩ := hjob.step_answer (h.left?.symm.trans hleft) answers' now
    rw [hstep, hstep', ← h.task]
    exact ⟨rfl, h.signalled, rfl, Or.inl rfl, by simp [h.begins]⟩

theorem step (h : Alike job w w') (hjob : AsksOnly q job) {e e' : Happening A} (he : e.SameTime e') :
    Alike job (w.step job e) (w'.step job e') := by
  cases he with
  | look now =>
    rw [Worker.step, Worker.step, ← h.signalled]
    exact h.meet hjob _ now
  | signal => exact ⟨h.task, rfl, h.left?, h.left, h.begins⟩
  | answer answers answers' now => exact h.take hjob answers answers' now

theorem steps (hjob : AsksOnly q job) {hs hs' : List (Happening A)}
    (hsame : List.Forall₂ Happening.SameTime hs hs') (h : Alike job w w') :
    Alike job (hs.foldl (Worker.step job) w) (hs'.foldl (Worker.step job) w') := by
  induction hsame generalizing w w' with
  | nil => exact h
  | cons he _ ih => exact ih (h.step hjob he)

end Alike

/-! ## Diligence -/

/-- What one can rely on in a task that asks for `q` in each run. -/
structure Diligent (q : Q) (job : Dialogue Q A α) (interval : Duration) (start : Int) : Prop where
  /-- A look begins exactly one run if it is a tick before the signal; else it begins none. -/
  begins_look : ∀ hs now,
    begins (work job interval start (hs ++ [.look now])).diary =
      begins (work job interval start hs).diary ++
        if hs.any Happening.isSignal = false ∧ IsTick interval start (work job interval start hs).diary now
        then [now] else []
  /-- An answer begins no run. -/
  begins_answer : ∀ hs answers now,
    begins (work job interval start (hs ++ [.answer answers now])).diary =
      begins (work job interval start hs).diary
  /-- From the signal on no run begins. -/
  begins_signal : ∀ hs hs',
    begins (work job interval start (hs ++ .signal :: hs')).diary =
      begins (work job interval start hs).diary
  /-- Whatever the results are, the runs begin at the same times. -/
  begins_same : ∀ hs hs', List.Forall₂ Happening.SameTime hs hs' →
    begins (work job interval start hs).diary = begins (work job interval start hs').diary
  /-- What a task has done is whole rounds, up to a run that waits for its answer. -/
  rounds : ∀ hs, ∃ rounds : List (Round job), (work job interval start hs).diary = whole rounds ∨
    (work job interval start hs).left? = some job ∧
      ∃ began, (work job interval start hs).diary = whole rounds ++ [.began began]
  /-- In each of them `q` is asked once, and nothing else. -/
  exchanges : ∀ r : Round job, ∃ a, r.exchanges = [⟨q, a⟩]
  /-- A run that waits for its answer is finished with it, also after the signal. -/
  finishes : ∀ hs, (work job interval start hs).left? = some job → ∀ answers now,
    ∃ result, Dialogue.Path job [⟨q, answers q⟩] (.done result) ∧
      (work job interval start (hs ++ [.answer answers now])).diary =
        (work job interval start hs).diary ++ [.asked ⟨q, answers q⟩, .finished result now]
  /-- After the signal the task stops as soon as it has the answer and looks up. -/
  stops : ∀ hs, hs.any Happening.isSignal = true → ∀ answers answered now,
    (work job interval start (hs ++ [.answer answers answered, .look now])).task.phase = .stopped
  /-- A task that has stopped has finished what it began, and has stopped for good. -/
  stopped : ∀ hs, (work job interval start hs).task.phase = .stopped →
    (∃ rounds : List (Round job), (work job interval start hs).diary = whole rounds) ∧
      ∀ hs', work job interval start (hs ++ hs') = work job interval start hs
  /-- Whether it hears the signal at once or when it looks up makes no difference to what it does. -/
  prompt : ∀ hs, (promptWork job interval start hs).diary = (work job interval start hs).diary
  /-- If nothing comes between, it does what it does with a partner it has for itself. -/
  undisturbed : ∀ {σ : Type} (clock : σ → Int) (answer : (q : Q) → σ → A q × σ) (s : σ) hs,
    hs.any Happening.isSignal = false → (work job interval start hs).left? = none →
      ∃ l : List (Happening A), (∀ h ∈ l, ∃ answers now, h = .answer answers now) ∧
        (work job interval start (hs ++ .look (clock s) :: l)).task =
          ((work job interval start hs).task.onClock clock (job.run answer) s).1

theorem AsksOnly.diligent (h : AsksOnly q job) (interval : Duration) (start : Int) :
    Diligent q job interval start where
  begins_look hs now := begins_work_look job interval start hs now
  begins_answer hs answers now := begins_work_answer job interval start hs answers now
  begins_signal hs hs' := begins_work_signal job interval start hs hs'
  begins_same hs hs' hsame := (Alike.steps h hsame ⟨rfl, rfl, rfl, Or.inl rfl, rfl⟩).begins
  rounds hs := h.diary_of_stands (stands_work job interval start hs)
  exchanges := h.exchanges
  finishes hs hleft answers now := by
    obtain ⟨result, path, hstep⟩ := h.step_answer hleft answers now
    exact ⟨result, path, by rw [work_snoc, hstep]⟩
  stops hs hsignal answers answered now := by
    have hw := stands_work job interval start hs
    have hsignalled : (work job interval start hs).signalled = true :=
      (signalled_work job interval start hs).trans hsignal
    rw [work_append]
    refine (hw.step (.answer answers answered)).stopped_of_signalled ?_ ?_ now
    · rw [signalled_step, hsignalled, Bool.true_or]
    · exact h.left?_step_answer hw answers answered
  stopped hs hstopped :=
    ⟨(stands_work job interval start hs).whole_of_stopped hstopped,
      work_of_stopped job interval start hstopped⟩
  prompt hs := by
    rw [promptWork_eq]
    rfl
  undisturbed clock answer s hs hsignal hleft := by
    obtain ⟨l, hl, htask⟩ := exists_answers_onClock job clock answer s
      ((signalled_work job interval start hs).trans hsignal) hleft
    exact ⟨l, hl, by rw [work_append, List.foldl_cons, htask]⟩

end BackgroundTask

theorem Service.asksOnly_deleteExpired : BackgroundTask.AsksOnly (.store .sweep) Service.deleteExpired := by
  refine ⟨fun (answer : Except Failure Nat) =>
    answer.tryCatch fun f => if f = .nothingSwept then .ok 0 else .error f,
    congrArg _ (funext fun answer => ?_)⟩
  cases answer with
  | ok n => rfl
  | error f => cases f <;> rfl

namespace Limiter

def Event.Answer : Event → Type
  | check _ => Admission
  | evict => Nat

/-- What a limiter says to an event. -/
def answer {α : Type} [TokenNumber α] (now : Int) : (e : Event) → Limiter α → e.Answer × Limiter α
  | .check key, l => l.check key now
  | .evict, l => (l.evicted now, l.evict now)

/-- Has a limiter drop the clients that were idle for too long, and tells their number. -/
def eviction : Dialogue Event Event.Answer Nat := .ask .evict .done

theorem asksOnly_eviction : BackgroundTask.AsksOnly .evict eviction := ⟨id, rfl⟩

end Limiter

/-- The task that sweeps the store and the one that clears the limiter are diligent: until they are told to
stop they begin exactly one run with each tick, whatever came of earlier ones; a run that is in progress then
is finished, and none is begun any more. A run of the first asks the store for a sweep, and one of the second
is an eviction of the limiter. -/
theorem upkeep_until_signal (interval : Duration) (start : Int) :
    BackgroundTask.Diligent (.store .sweep) Service.deleteExpired interval start ∧
      BackgroundTask.Diligent .evict Limiter.eviction interval start ∧
      ∀ (α : Type) [TokenNumber α] (now : Int) (l : Limiter α),
        Limiter.eviction.run (Limiter.answer now) l = (l.evicted now, l.evict now) :=
  ⟨Service.asksOnly_deleteExpired.diligent interval start,
    Limiter.asksOnly_eviction.diligent interval start, fun _ _ _ _ => rfl⟩

open BackgroundTask in
/-- The signal comes during the first run. When the task looks up again, the interval has passed as well. -/
example (answers : (e : Limiter.Event) → e.Answer) :
    let w := work Limiter.eviction (.ofSeconds 5) 0
      [.look 4000000000, .look 5000000000, .signal, .answer answers 6000000000, .look 12000000000]
    begins w.diary = [5000000000] ∧ finishes w.diary = [6000000000] ∧ w.task.phase = .stopped :=
  ⟨rfl, rfl, rfl⟩

end BurnAfterRead
