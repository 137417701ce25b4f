import BurnAfterRead.Proofs.Service.Sequential

/-!
# Calls over one store

Any number of calls share a store of any kind. In each step one call has one question answered, so the
commands of different calls interleave in every way. A command may also fail: then its caller is
answered with a failure, while the command itself stays adrift and may still take effect at any later
time, or never. Nothing is assumed of the clocks.

`Scene.Run.path` carries over what is known of a single call: what a call of a run has gone through is a
path of its operation.
-/

namespace BurnAfterRead.Concurrency

open Dialogue Service

/-- A call under way: what was asked for, and the part of its course that is left. -/
structure Course where
  operation : Operation
  rest : Call Outcome

/-- A store with calls under way. -/
structure Scene (σ : Type) where
  state : σ
  /-- The calls in the order of their start. -/
  courses : List Course
  /-- Commands whose callers no longer wait for them. -/
  adrift : List Command

/-- What happens in a step; calls are numbered in the order of their start. -/
inductive Event where
  | started (operation : Operation)
  | read (call : Nat) (now : Instant)
  /-- The store answers a command of a call. -/
  | served (call : Nat) (now : Instant) (c : Command) (reply : c.Reply)
  /-- A command of a call fails, or is waited for no longer. -/
  | failed (call : Nat) (c : Command) (f : Failure)
  /-- A command that failed takes effect after all. -/
  | settled (now : Instant) (c : Command)

namespace Event

/-- The exchange of call `i` that happens with an event. -/
def exchange? (i : Nat) : Event → Option Exchange
  | read j now => if j = i then some ⟨.now, now⟩ else none
  | served j _ c reply => if j = i then some ⟨.store c, reply⟩ else none
  | failed j c f => if j = i then some ⟨.store c, (.error f : c.Reply)⟩ else none
  | started _ | settled _ _ => none

/-- The time that a call, or the store, goes by. -/
def time? : Event → Option Instant
  | read _ now | served _ now _ _ | settled now _ => some now
  | started _ | failed _ _ _ => none

/-- The event is the failure of a command, or follows from one. -/
def IsFault : Event → Prop
  | failed _ _ _ | settled _ _ => True
  | started _ | read _ _ | served _ _ _ _ => False

end Event

/-- The exchanges of call `i` in the order of a trace. -/
def exchanges (i : Nat) (trace : List Event) : List Exchange := trace.filterMap (Event.exchange? i)

theorem exchanges_append (i : Nat) (a b : List Event) :
    exchanges i (a ++ b) = exchanges i a ++ exchanges i b := List.filterMap_append

theorem exchanges_snoc (i : Nat) (trace : List Event) (e : Event) :
    exchanges i (trace ++ [e]) = exchanges i trace ++ (e.exchange? i).toList := by
  rw [exchanges_append]
  unfold exchanges
  cases h : e.exchange? i <;> simp [h]

/-- What the store has answered to a call was served, or is a failure. -/
theorem exists_event_of_mem {i : Nat} {c : Command} {a : c.Reply} {trace : List Event}
    (h : (⟨.store c, a⟩ : Exchange) ∈ exchanges i trace) :
    (∃ now, .served i now c a ∈ trace) ∨ ∃ f, a = .error f ∧ .failed i c f ∈ trace := by
  obtain ⟨e, he, hx⟩ := List.mem_filterMap.1 h
  cases e with
  | started | settled => cases hx
  | read j now =>
    simp only [Event.exchange?] at hx
    split at hx <;> cases hx
  | served j now c' reply =>
    simp only [Event.exchange?] at hx
    split at hx
    · rename_i hj
      subst hj
      obtain ⟨hq, ha⟩ := Sigma.mk.inj (Option.some.inj hx)
      obtain rfl := Query.store.inj hq
      obtain rfl := eq_of_heq ha
      exact Or.inl ⟨now, he⟩
    · cases hx
  | failed j c' f =>
    simp only [Event.exchange?] at hx
    split at hx
    · rename_i hj
      subst hj
      obtain ⟨hq, ha⟩ := Sigma.mk.inj (Option.some.inj hx)
      obtain rfl := Query.store.inj hq
      exact Or.inr ⟨f, (eq_of_heq ha).symm, he⟩
    · cases hx

/-- What came of a command was served. -/
theorem exists_served_of_ok {i : Nat} {c : Command} {a : c.Result} {trace : List Event}
    (h : (⟨.store c, (.ok a : c.Reply)⟩ : Exchange) ∈ exchanges i trace) :
    ∃ now, .served i now c (.ok a) ∈ trace := by
  rcases exists_event_of_mem h with hserved | ⟨f, hf, -⟩
  · exact hserved
  · cases hf

/-- The clock was read whenever a call has learned the time. -/
theorem exists_read_of_mem {i : Nat} {now : Instant} {trace : List Event}
    (h : (⟨.now, now⟩ : Exchange) ∈ exchanges i trace) : .read i now ∈ trace := by
  obtain ⟨e, he, hx⟩ := List.mem_filterMap.1 h
  cases e with
  | started | settled => cases hx
  | read j t =>
    simp only [Event.exchange?] at hx
    split at hx
    · rename_i hj
      subst hj
      obtain ⟨-, ha⟩ := Sigma.mk.inj (Option.some.inj hx)
      obtain rfl := eq_of_heq ha
      exact he
    · cases hx
  | served | failed =>
    simp only [Event.exchange?] at hx
    split at hx <;> cases hx

namespace Scene

variable {σ : Type} {store : Store σ} {s : Service}

/-- Puts the course of call `i`. -/
def proceed (w : Scene σ) (i : Nat) (c : Course) : Scene σ := { w with courses := w.courses.set i c }

inductive Step (store : Store σ) (s : Service) : Scene σ → Event → Scene σ → Prop where
  | start (w : Scene σ) (op : Operation) :
      Step store s w (.started op) { w with courses := w.courses ++ [⟨op, op.call s⟩] }
  | read {w : Scene σ} {i : Nat} {op : Operation} {next : Instant → Call Outcome} (now : Instant)
      (h : w.courses[i]? = some ⟨op, .ask .now next⟩) :
      Step store s w (.read i now) (w.proceed i ⟨op, next now⟩)
  | serve {w : Scene σ} {i : Nat} {op : Operation} {c : Command} {next : c.Reply → Call Outcome}
      (now : Instant) (h : w.courses[i]? = some ⟨op, .ask (.store c) next⟩) :
      Step store s w (.served i now c (store now c w.state).1)
        { w.proceed i ⟨op, next (store now c w.state).1⟩ with state := (store now c w.state).2 }
  | fail {w : Scene σ} {i : Nat} {op : Operation} {c : Command} {next : c.Reply → Call Outcome}
      (f : Failure) (h : w.courses[i]? = some ⟨op, .ask (.store c) next⟩) :
      Step store s w (.failed i c f) { w.proceed i ⟨op, next (.error f)⟩ with adrift := c :: w.adrift }
  | settle {w : Scene σ} {c : Command} (now : Instant) (h : c ∈ w.adrift) :
      Step store s w (.settled now c)
        { w with state := (store now c w.state).2, adrift := w.adrift.erase c }

/-- The step of a store that gives this answer. -/
theorem Step.serve_of_eq {w : Scene σ} {i : Nat} {op : Operation} {c : Command}
    {next : c.Reply → Call Outcome} {now : Instant} {reply : c.Reply} {st : σ}
    (h : w.courses[i]? = some ⟨op, .ask (.store c) next⟩) (hreply : store now c w.state = (reply, st)) :
    Step store s w (.served i now c reply) { w.proceed i ⟨op, next reply⟩ with state := st } := by
  have step : Step store s w _ _ := .serve now h
  rwa [hreply] at step

inductive Run (store : Store σ) (s : Service) : Scene σ → List Event → Scene σ → Prop where
  | refl (w : Scene σ) : Run store s w [] w
  | tail {w w' w'' : Scene σ} {trace : List Event} {e : Event} (run : Run store s w trace w')
      (step : Step store s w' e w'') : Run store s w (trace ++ [e]) w''

/-- A store with no calls. -/
def quiet (st : σ) : Scene σ := ⟨st, [], []⟩

/-- Call `i` was made for `op`, and has returned with `o`. -/
def Returned (w : Scene σ) (i : Nat) (op : Operation) (o : Outcome) : Prop :=
  w.courses[i]? = some ⟨op, .done o⟩

/-- What a step does to the calls: one begins, one has a question answered, or none is concerned. -/
theorem Step.courses {w w' : Scene σ} {e : Event} (step : Step store s w e w') :
    (∃ op, (∀ i, e.exchange? i = none) ∧ w'.courses = w.courses ++ [⟨op, op.call s⟩]) ∨
    (∃ i op q, ∃ next : q.Answer → Call Outcome, ∃ a, w.courses[i]? = some ⟨op, .ask q next⟩ ∧
      (∀ j, e.exchange? j = if i = j then some ⟨q, a⟩ else none) ∧
      w'.courses = w.courses.set i ⟨op, next a⟩) ∨
    ((∀ i, e.exchange? i = none) ∧ w'.courses = w.courses) := by
  cases step with
  | start op => exact Or.inl ⟨op, fun _ => rfl, rfl⟩
  | read now h => exact Or.inr (Or.inl ⟨_, _, .now, _, now, h, fun _ => rfl, rfl⟩)
  | serve now h => exact Or.inr (Or.inl ⟨_, _, .store _, _, _, h, fun _ => rfl, rfl⟩)
  | fail f h => exact Or.inr (Or.inl ⟨_, _, .store _, _, _, h, fun _ => rfl, rfl⟩)
  | settle now h => exact Or.inr (Or.inr ⟨fun _ => rfl, rfl⟩)

namespace Run

variable {w w' w'' : Scene σ} {st : σ} {trace trace' before after : List Event}

theorem append (h : Run store s w trace w') (h' : Run store s w' trace' w'') :
    Run store s w (trace ++ trace') w'' := by
  induction h' with
  | refl => rwa [List.append_nil]
  | tail _ step ih => rw [← List.append_assoc]; exact ih.tail step

/-- A run stops at each of its events. -/
theorem split {before after : List Event} {e : Event} (h : Run store s w (before ++ e :: after) w'') :
    ∃ v v', Run store s w before v ∧ Step store s v e v' ∧ Run store s v' after w'' := by
  generalize htrace : before ++ e :: after = trace at h
  induction h generalizing after with
  | refl => simp at htrace
  | @tail v v' trace x run step ih =>
    rcases List.eq_nil_or_concat after with rfl | ⟨front, y, rfl⟩
    · obtain ⟨rfl, hx⟩ := List.append_inj' htrace rfl
      obtain rfl := (List.cons.inj hx).1
      exact ⟨v, v', run, step, .refl _⟩
    · rw [List.concat_eq_append, ← List.cons_append, ← List.append_assoc] at htrace
      obtain ⟨hfront, hx⟩ := List.append_inj' htrace rfl
      obtain rfl := (List.cons.inj hx).1
      obtain ⟨u, u', h₁, h₂, h₃⟩ := ih hfront
      rw [List.concat_eq_append]
      exact ⟨u, u', h₁, h₂, h₃.tail step⟩

/-- A call stays the call that it is. -/
theorem keeps (run : Run store s w trace w') {i : Nat} {c : Course} (h : w.courses[i]? = some c) :
    ∃ c', w'.courses[i]? = some c' ∧ c'.operation = c.operation := by
  induction run with
  | refl => exact ⟨c, h, rfl⟩
  | tail _ step ih =>
    obtain ⟨c', hc', hop⟩ := ih
    rcases step.courses with ⟨op, -, hw⟩ | ⟨j, op, q, next, a, hj, -, hw⟩ | ⟨-, hw⟩
    · rw [hw, List.getElem?_append_left (List.getElem?_eq_some_iff.1 hc').1]
      exact ⟨c', hc', hop⟩
    · rw [hw]
      by_cases hij : j = i
      · subst hij
        obtain rfl := Option.some.inj (hj.symm.trans hc')
        exact ⟨_, List.getElem?_set_self (List.getElem?_eq_some_iff.1 hj).1, hop⟩
      · rw [List.getElem?_set_ne hij]
        exact ⟨c', hc', hop⟩
    · rw [hw]
      exact ⟨c', hc', hop⟩

/-- What a call has gone through is a path of its operation; what is not a call yet has gone through
nothing. -/
theorem path_or_idle (run : Run store s (quiet st) trace w) (i : Nat) :
    (∀ c, w.courses[i]? = some c → Path (c.operation.call s) (exchanges i trace) c.rest) ∧
      (w.courses[i]? = none → exchanges i trace = []) := by
  induction run with
  | refl => exact ⟨fun c h => by simp [quiet] at h, fun _ => rfl⟩
  | @tail v w trace e run step ih =>
    obtain ⟨hpath, hidle⟩ := ih
    rw [exchanges_snoc]
    rcases step.courses with ⟨op, he, hw⟩ | ⟨j, op, q, next, a, hj, he, hw⟩ | ⟨he, hw⟩
    · rw [hw, he, Option.toList_none, List.append_nil]
      refine ⟨?_, ?_⟩
      · intro c hc
        rw [List.getElem?_append] at hc
        split at hc
        · exact hpath c hc
        · rename_i hlen
          rw [hidle (List.getElem?_eq_none (Nat.le_of_not_lt hlen))]
          obtain ⟨-, rfl⟩ := List.getElem?_eq_some_iff.1 hc
          simp only [List.getElem_singleton]
          exact .nil _
      · intro hc
        refine hidle (List.getElem?_eq_none ?_)
        have := List.getElem?_eq_none_iff.1 hc
        rw [List.length_append] at this
        omega
    · rw [hw, he]
      by_cases hij : j = i
      · subst hij
        rw [if_pos rfl, Option.toList_some]
        have hlen := (List.getElem?_eq_some_iff.1 hj).1
        rw [List.getElem?_set_self hlen]
        refine ⟨?_, fun hc => by cases hc⟩
        intro c hc
        obtain rfl := Option.some.inj hc
        exact (hpath _ hj).snoc a
      · rw [if_neg hij, Option.toList_none, List.append_nil, List.getElem?_set_ne hij]
        exact ⟨hpath, hidle⟩
    · rw [hw, he, Option.toList_none, List.append_nil]
      exact ⟨hpath, hidle⟩

theorem path (run : Run store s (quiet st) trace w) {i : Nat} {op : Operation} {rest : Call Outcome}
    (h : w.courses[i]? = some ⟨op, rest⟩) : Path (op.call s) (exchanges i trace) rest :=
  (run.path_or_idle i).1 _ h

/-- A take that has returned has gone through one of the five ways of a take. -/
theorem taking (run : Run store s (quiet st) trace w) {i : Nat} {op : Operation} {o : Outcome}
    {id : String} {passphrase : Option String} (h : w.Returned i op o) (takes : op.Takes id passphrase) :
    ∃ a, Taking s id passphrase (exchanges i trace) a ∧
      ((∃ secret, a = .ok secret ∧ o.Succeeds ∧ (op = .get id passphrase → o = .redeemed (.ok secret))) ∨
        ∃ f, a = .error f ∧ o.failure? = some f) := by
  have hcourse := Operation.course_of_path (run.path h)
  rcases takes with rfl | rfl
  · cases hcourse with
    | @get _ _ _ a taking =>
      refine ⟨a, taking, ?_⟩
      cases a with
      | error f => exact Or.inr ⟨f, rfl, rfl⟩
      | ok secret => exact Or.inl ⟨secret, rfl, rfl, fun _ => rfl⟩
  · cases hcourse with
    | @delete _ _ _ a taking =>
      refine ⟨a, taking, ?_⟩
      cases a with
      | error f => exact Or.inr ⟨f, rfl, rfl⟩
      | ok secret => exact Or.inl ⟨secret, rfl, rfl, fun h => by cases h⟩

/-- The removal of a record was acknowledged to a call that has taken its secret. -/
theorem removed (run : Run store s (quiet st) trace w) {i : Nat} {op : Operation} {o : Outcome}
    {id : String} {passphrase : Option String} (h : w.Returned i op o) (takes : op.Takes id passphrase)
    (ok : o.Succeeds) : ∃ now, .served i now (.remove id) (.ok ()) ∈ trace := by
  obtain ⟨a, taking, ⟨secret, rfl, -⟩ | ⟨f, -, hf⟩⟩ := run.taking h takes
  · exact exists_served_of_ok taking.removes
  · cases hf.symm.trans ok

/-- A creation that has returned a secret has had its draft stored. -/
theorem stored (run : Run store s (quiet st) trace w) {k : Nat} {chance : Chance}
    {wanted created : Secret} (h : w.Returned k (.create chance wanted) (.created (.ok created))) :
    ∃ d r now, Drafted s chance wanted d ∧ created = shell r ∧ .served k now (.insert d) (.ok r) ∈ trace := by
  have hcourse := Operation.course_of_path (run.path h)
  generalize hl : exchanges k trace = l at hcourse
  generalize ho : Outcome.created (.ok created) = o at hcourse
  cases hcourse with
  | @create _ _ _ a hcreating =>
    obtain rfl := Outcome.created.inj ho
    generalize ha : (Except.ok created : Except Failure Secret) = a at hcreating
    cases hcreating with
    | refused f hclock => exact absurd ha (by simp)
    | @stored clock d reply hclock drafted =>
      cases reply with
      | error f => exact absurd ha (by simp [Except.map])
      | ok r =>
        have hx : (⟨.store (.insert d), (.ok r : (Command.insert d).Reply)⟩ : Exchange) ∈
            exchanges k trace := by
          rw [hl]
          exact List.mem_append_right _ (List.mem_singleton.2 rfl)
        obtain ⟨now, hserved⟩ := exists_served_of_ok hx
        exact ⟨d, r, now, drafted, Except.ok.inj ha, hserved⟩

/-- Whatever call asked something in a run is a call of the run. -/
theorem exists_course (run : Run store s (quiet st) trace w) {i : Nat} {e : Event} {x : Exchange}
    (he : e ∈ trace) (hx : e.exchange? i = some x) : ∃ c, w.courses[i]? = some c := by
  cases hc : w.courses[i]? with
  | some c => exact ⟨c, rfl⟩
  | none =>
    have hmem : x ∈ exchanges i trace := List.mem_filterMap.2 ⟨e, he, hx⟩
    rw [(run.path_or_idle i).2 hc] at hmem
    cases hmem

/-- The store answers out of the state that the events so far have led to. -/
theorem reply_eq {i : Nat} {now : Instant} {c : Command} {reply : c.Reply}
    (run : Run store s (quiet st) (before ++ .served i now c reply :: after) w) :
    ∃ v v', Run store s (quiet st) before v ∧ Run store s v' after w ∧
      reply = (store now c v.state).1 ∧ v'.state = (store now c v.state).2 := by
  obtain ⟨v, v', hbefore, step, hafter⟩ := run.split
  cases step with
  | serve now h => exact ⟨v, _, hbefore, hafter, rfl, rfl⟩

/-- A call that has returned stays so. -/
theorem returned_stays {v : Scene σ} (run : Run store s v trace w) {i : Nat} {op : Operation}
    {o : Outcome} (h : v.Returned i op o) : w.Returned i op o := by
  induction run with
  | refl => exact h
  | tail _ step ih =>
    unfold Scene.Returned at ih ⊢
    rcases step.courses with ⟨op', -, hw⟩ | ⟨j, op', q, next, a, hj, -, hw⟩ | ⟨-, hw⟩
    · rw [hw, List.getElem?_append_left (List.getElem?_eq_some_iff.1 ih).1]
      exact ih
    · rw [hw, List.getElem?_set_ne]
      · exact ih
      · rintro rfl
        exact absurd (hj.symm.trans ih) (by simp)
    · rw [hw]
      exact ih

/-- A call that has returned since then had its last question answered since then. -/
theorem last_after {v : Scene σ} (run : Run store s (quiet st) before v)
    (run' : Run store s v after w) {i : Nat} {op : Operation} {o : Outcome} (returned : w.Returned i op o)
    (pending : ∀ op o, ¬ v.Returned i op o) {front : List Exchange} {x : Exchange}
    (hx : exchanges i (before ++ after) = front ++ [x]) : x ∈ exchanges i after := by
  have hpath := (run.append run').path returned
  rw [exchanges_append] at hx hpath
  rcases List.eq_nil_or_concat (exchanges i after) with hnil | ⟨ys, y, hy⟩
  · -- Then the call would have returned before.
    rw [hnil, List.append_nil] at hx hpath
    cases hc : v.courses[i]? with
    | none =>
      rw [(run.path_or_idle i).2 hc] at hx
      exact absurd hx (by simp)
    | some c =>
      obtain ⟨c', hc', hop⟩ := run'.keeps hc
      obtain rfl := Option.some.inj (hc'.symm.trans returned)
      obtain ⟨op', rest⟩ := c
      obtain rfl : op = op' := hop
      rw [(run.path hc).unique hpath] at hc
      exact absurd hc (pending op o)
  · rw [List.concat_eq_append] at hy
    rw [hy, ← List.append_assoc] at hx
    obtain ⟨-, hlast⟩ := List.append_inj' hx rfl
    rw [hy, (List.cons.inj hlast).1]
    simp

/-- Whatever calls are under way, one of them can be led to its end before any other goes on. -/
theorem alone (store : Store σ) (s : Service) (now : Instant) {d : Call Outcome} {v : Scene σ} {i : Nat}
    {op : Operation} (h : v.courses[i]? = some ⟨op, d⟩) :
    ∃ trace, Run store s v trace
      { v with
        state := (d.run (store.answer now) v.state).2
        courses := v.courses.set i ⟨op, .done (d.run (store.answer now) v.state).1⟩ } ∧
      ∀ e ∈ trace, ¬ e.IsFault ∧ ∀ t, e.time? = some t → t = now := by
  induction d generalizing v with
  | done o =>
    refine ⟨[], ?_, by simp⟩
    obtain ⟨hi, hget⟩ := List.getElem?_eq_some_iff.1 h
    have hset : v.courses.set i ⟨op, .done o⟩ = v.courses := by
      rw [← hget]
      exact List.set_getElem_self hi
    simp only [Dialogue.run, hset]
    exact .refl v
  | ask q next ih =>
    have hi := (List.getElem?_eq_some_iff.1 h).1
    cases q with
    | now =>
      obtain ⟨trace, run, hevents⟩ := ih now (v := v.proceed i ⟨op, next now⟩)
        (List.getElem?_set_self hi)
      refine ⟨[.read i now] ++ trace, ((Run.refl v).tail (.read now h)).append ?_, ?_⟩
      · simpa [proceed, Dialogue.run, Store.answer, List.set_set] using run
      · intro e he
        rcases List.mem_append.1 he with he | he
        · rw [List.mem_singleton.1 he]
          exact ⟨id, fun t ht => (Option.some.inj ht).symm⟩
        · exact hevents e he
    | store c =>
      have step : Step store s v (.served i now c (store now c v.state).1) _ := .serve now h
      obtain ⟨trace, run, hevents⟩ := ih (store now c v.state).1
        (v := { v.proceed i ⟨op, next (store now c v.state).1⟩ with
          state := (store now c v.state).2 }) (List.getElem?_set_self hi)
      refine ⟨[.served i now c (store now c v.state).1] ++ trace,
        ((Run.refl v).tail step).append ?_, ?_⟩
      · simpa [proceed, Dialogue.run, Store.answer, List.set_set] using run
      · intro e he
        rcases List.mem_append.1 he with he | he
        · rw [List.mem_singleton.1 he]
          exact ⟨id, fun t ht => (Option.some.inj ht).symm⟩
        · exact hevents e he

/-- A creation that is accepted, and nothing else. -/
theorem create_alone {s : Service} {now : Instant} {chance : Chance} {wanted : Secret} {d : Draft}
    (hdraft : s.draft now chance wanted = .ok d) {reply : Except Failure Record} {st' : σ}
    (hstored : store now (.insert d) st = (reply, st')) :
    ∃ trace, Run store s (quiet st) trace
      ⟨st', [⟨.create chance wanted, .done (.created (reply.map shell))⟩], []⟩ ∧
      ∀ e ∈ trace, ¬ e.IsFault ∧ ∀ t, e.time? = some t → t = now := by
  have hrun : ((Operation.create chance wanted).call s).run (store.answer now) st =
      (.created (reply.map shell), st') := by
    change (((s.create chance wanted).andThen fun a => .done (.created a)).run _ _ : Outcome × σ) = _
    rw [run_andThen, run_create_eq, hdraft]
    dsimp only
    rw [hstored]
    rfl
  obtain ⟨trace, run, hevents⟩ := alone store s now (i := 0)
    (v := ⟨st, [⟨.create chance wanted, (Operation.create chance wanted).call s⟩], []⟩) rfl
  rw [hrun] at run
  refine ⟨[.started (.create chance wanted)] ++ trace, ((Run.refl _).tail (.start _ _)).append run, ?_⟩
  intro e he
  rcases List.mem_append.1 he with he | he
  · rw [List.mem_singleton.1 he]
    exact ⟨id, fun t ht => absurd ht (by simp [Event.time?])⟩
  · exact hevents e he

end Run

end Scene

end BurnAfterRead.Concurrency
