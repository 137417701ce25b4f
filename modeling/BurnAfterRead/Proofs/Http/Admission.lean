import BurnAfterRead.Proofs.Http.Deferral
import BurnAfterRead.Proofs.Limiter.Run

/-!
# The limiter only filters

A limiter stands before the service and lets requests pass or turns them away. Those that pass are
answered as if it was not there, and the others leave no trace but in the limiter. A request on a
limited route costs its client one check; all others cost nothing and are never turned away.
-/

namespace BurnAfterRead

namespace Http

/-- A request as it comes in: the times on the clocks of the limiter and the service, and its draws. -/
structure Arrival where
  steady : Int
  now : Instant
  draws : Draws
  request : Request

namespace Arrival

/-- What an arrival costs: on a limited route one check under its client's key. -/
def check? (a : Arrival) : Option (Int × Limiter.Event) :=
  match Route.ofPath? a.request.path with
  | some route => if route.isLimited then some (a.steady, .check a.request.clientKey) else none
  | none => none

/-- The response to an arrival that the limiter turns away. -/
def refusal (a : Arrival) (wait : Nat) : Response :=
  a.request.dress a.draws (.ofFailure (.tooManyRequests wait))

theorem status_refusal (a : Arrival) (wait : Nat) : (a.refusal wait).status = 429 :=
  Request.status_dress a.draws a.request _

/-- A request for the service's health, or one that no route takes. -/
def IsExempt (a : Arrival) : Prop :=
  a.request.path = "/healthz".toList ∨ Route.ofPath? a.request.path = none

theorem IsExempt.check?_eq_none {a : Arrival} (h : a.IsExempt) : a.check? = none := by
  unfold check?
  rcases h with h | h
  · rw [h]
    rfl
  · rw [h]

end Arrival

/-- An arrival, what the limiter said to it, and its response. -/
structure Served where
  arrival : Arrival
  admission : Admission
  response : Response

namespace Site

variable {α : Type} [TokenNumber α] {σ : Type}

/-- What the limiter says to an arrival. Without a route there is nothing to ask it. -/
def admission (site : Site α) (a : Arrival) : Admission :=
  match Route.ofPath? a.request.path with
  | some route => (site.check a.steady a.request route).1
  | none => .admitted

/-- Answers an arrival. -/
def serve (site : Site α) (store : Store σ) (a : Arrival) (st : σ) : Response × σ :=
  site.respond store a.steady a.now a.draws a.request st

/-- The site after an arrival. -/
def after (site : Site α) (a : Arrival) : Site α := (site.handle a.steady a.draws a.request).2

/-- Handles requests one after the other. -/
def serveAll (site : Site α) (store : Store σ) : List Arrival → σ → List Served × Site α × σ
  | [], st => ([], site, st)
  | a :: rest, st =>
    let (response, st) := site.serve store a st
    let (log, left, st) := serveAll (site.after a) store rest st
    (⟨a, site.admission a, response⟩ :: log, left, st)

/-! ## One request -/

section Step

variable (site : Site α) (store : Store σ) (service : Service) (limiter : Limiter α) (a : Arrival)
  (st : σ)

/-- What is left of the site does not depend on what the limiter said. -/
theorem after_eq : site.after a =
    match Route.ofPath? a.request.path with
    | some route => (site.check a.steady a.request route).2
    | none => site := by
  unfold after handle answer
  cases Route.ofPath? a.request.path with
  | none => rfl
  | some route =>
    dsimp only
    cases site.check a.steady a.request route with
    | mk admission site' => cases admission <;> rfl

/-- The limiter either has the last word, or none. -/
theorem plan_eq : site.plan a.steady a.draws a.request =
    match site.admission a with
    | .rejected wait => .error (.ofFailure (.tooManyRequests wait))
    | .admitted => (⟨site.service, none⟩ : Site α).plan a.steady a.draws a.request := by
  unfold plan admission
  cases Route.ofPath? a.request.path with
  | none => rfl
  | some route =>
    dsimp only
    cases (site.check a.steady a.request route).1 <;> rfl

variable {site a} in
/-- A request that is turned away changes nothing in the store. -/
theorem serve_of_rejected {wait : Nat} (h : site.admission a = .rejected wait) :
    site.serve store a st = (a.refusal wait, st) := by
  rw [serve, respond_eq, site.plan_eq a, h]
  rfl

variable {site a} in
/-- A request that passes is answered as without a limiter. -/
theorem serve_of_admitted (h : site.admission a = .admitted) :
    site.serve store a st = (⟨site.service, none⟩ : Site α).serve store a st := by
  rw [serve, serve, respond_eq, respond_eq, site.plan_eq a, h]

/-- Without a limiter all requests pass. -/
theorem admission_unlimited : (⟨service, none⟩ : Site α).admission a = .admitted := by
  unfold admission
  cases Route.ofPath? a.request.path <;> rfl

theorem after_unlimited : (⟨service, none⟩ : Site α).after a = ⟨service, none⟩ := by
  rw [after_eq]
  cases Route.ofPath? a.request.path <;> rfl

/-- A request costs one check under its client's key, or has nothing to do with the limiter. -/
theorem admission_cases :
    let site : Site α := ⟨service, some limiter⟩
    (a.check? = none ∧ site.admission a = .admitted ∧ site.after a = site) ∨
    (a.check? = some (a.steady, .check a.request.clientKey) ∧
      site.admission a = (limiter.check a.request.clientKey a.steady).1 ∧
      site.after a = ⟨service, some (limiter.check a.request.clientKey a.steady).2⟩) := by
  intro site
  rw [after_eq]
  unfold admission Arrival.check?
  cases Route.ofPath? a.request.path with
  | none => exact Or.inl ⟨rfl, rfl, rfl⟩
  | some route =>
    cases hlimited : route.isLimited with
    | false =>
      refine Or.inl ⟨?_, ?_, ?_⟩ <;> simp [check, site, hlimited]
    | true =>
      refine Or.inr ⟨?_, ?_, ?_⟩ <;> simp [check, site, hlimited]

variable {a} in
theorem admission_of_exempt (h : a.IsExempt) :
    (⟨service, some limiter⟩ : Site α).admission a = .admitted := by
  rcases admission_cases service limiter a with ⟨-, hadmitted, -⟩ | ⟨hcost, -, -⟩
  · exact hadmitted
  · rw [h.check?_eq_none] at hcost
    cases hcost

/-- Without a limiter no request is put off. -/
theorem status_unlimited_ne (hstore : store.NeverDefers) :
    ((⟨service, none⟩ : Site α).serve store a st).1.status ≠ 429 := by
  rw [serve, respond_eq, Request.status_dress]
  unfold plan
  cases Route.ofPath? a.request.path with
  | none => exact Nat.ne_of_beq_eq_false rfl
  | some route =>
    simp only [check]
    cases route.action? a.request.method with
    | none => exact Nat.ne_of_beq_eq_false rfl
    | some action => exact action.status_ne hstore service a.now a.draws a.request st

variable {a} in
/-- What costs nothing is not put off, and no store is asked. -/
theorem status_unlimited_ne_of_exempt (h : a.IsExempt) :
    ((⟨service, none⟩ : Site α).serve store a st).1.status ≠ 429 := by
  rw [serve, respond_eq, Request.status_dress]
  unfold plan
  rcases h with h | h
  · have hroute : Route.ofPath? a.request.path = some .health := by
      rw [h]
      rfl
    rw [hroute]
    cases a.request.method <;> exact Nat.ne_of_beq_eq_false rfl
  · rw [h]
    exact Nat.ne_of_beq_eq_false rfl

theorem service_after : (site.after a).service = site.service := by
  rw [after_eq]
  cases Route.ofPath? a.request.path with
  | none => rfl
  | some route => exact site.service_check a.steady a.request route

end Step

/-! ## Runs -/

section Run

variable (site : Site α) (store : Store σ) (service : Service) (limiter : Limiter α)
  (arrivals : List Arrival) (st : σ)

theorem serveAll_cons (a : Arrival) (rest : List Arrival) :
    site.serveAll store (a :: rest) st =
      let later := (site.after a).serveAll store rest (site.serve store a st).2
      (⟨a, site.admission a, (site.serve store a st).1⟩ :: later.1, later.2) := rfl

/-- All requests are answered, in the order of their arrival. -/
theorem map_arrival_serveAll : (site.serveAll store arrivals st).1.map (·.arrival) = arrivals := by
  induction arrivals generalizing site st with
  | nil => rfl
  | cons a rest ih => exact congrArg (a :: ·) (ih (site.after a) (site.serve store a st).2)

/-- Those that pass are a run of their own without a limiter, which leaves the store as it is left with
one. -/
theorem serveAll_passed :
    let run := site.serveAll store arrivals st
    let passed := run.1.filter (·.admission == .admitted)
    (⟨site.service, none⟩ : Site α).serveAll store (passed.map (·.arrival)) st =
      (passed, ⟨site.service, none⟩, run.2.2) := by
  induction arrivals generalizing site st with
  | nil => rfl
  | cons a rest ih =>
    have hrest := ih (site.after a) (site.serve store a st).2
    rw [service_after] at hrest
    rw [serveAll_cons]
    dsimp only at hrest ⊢
    cases hadmission : site.admission a with
    | rejected wait =>
      -- the request is not in the other run, and this run goes on from the same state
      rw [List.filter_cons_of_neg (by simp)]
      rw [serve_of_rejected store st hadmission] at hrest ⊢
      exact hrest
    | admitted =>
      rw [List.filter_cons_of_pos (by simp), List.map_cons, serveAll_cons, after_unlimited,
        admission_unlimited, ← serve_of_admitted store st hadmission, hrest]

/-- The limiter is asked about the requests that cost something, and about nothing else. -/
theorem serveAll_checks :
    let run := (⟨service, some limiter⟩ : Site α).serveAll store arrivals st
    let checked := limiter.run (arrivals.filterMap Arrival.check?)
    (run.1.filter (·.arrival.check?.isSome)).map (fun e => (e.arrival.request.clientKey, e.admission)) =
      checked.1 ∧ run.2.1 = ⟨service, some checked.2⟩ := by
  induction arrivals generalizing limiter st with
  | nil => exact ⟨rfl, rfl⟩
  | cons a rest ih =>
    rw [serveAll_cons]
    dsimp only
    generalize ((⟨service, some limiter⟩ : Site α).serve store a st).2 = st'
    rcases admission_cases service limiter a with ⟨hcheck, -, hafter⟩ | ⟨hcheck, hadmission, hafter⟩
    · rw [hafter, List.filter_cons_of_neg (by simp [hcheck]), List.filterMap_cons_none hcheck]
      exact ih limiter st'
    · obtain ⟨htold, hleft⟩ := ih (limiter.check a.request.clientKey a.steady).2 st'
      rw [hafter, List.filter_cons_of_pos (by simp [hcheck]), List.filterMap_cons_some hcheck,
        List.map_cons, htold, hadmission, Limiter.run_check]
      exact ⟨rfl, hleft⟩

/-- Each entry of the log was made by the limiter as it was at that time, on some state of the store. -/
theorem exists_of_mem_serveAll {e : Served}
    (h : e ∈ ((⟨service, some limiter⟩ : Site α).serveAll store arrivals st).1) :
    ∃ (limiter' : Limiter α) (st' : σ),
      e.admission = (⟨service, some limiter'⟩ : Site α).admission e.arrival ∧
      e.response = ((⟨service, some limiter'⟩ : Site α).serve store e.arrival st').1 := by
  induction arrivals generalizing limiter st with
  | nil => cases h
  | cons a rest ih =>
    rcases List.mem_cons.1 h with rfl | h
    · exact ⟨limiter, st, rfl, rfl⟩
    · rcases admission_cases service limiter a with ⟨-, -, hafter⟩ | ⟨-, -, hafter⟩ <;>
        exact ih _ _ (hafter ▸ h)

end Run

/-- A limiter only filters. All requests are answered; those that it turns away are answered 429, and
those that pass, as if they came alone and without a limiter, on the same store with the same draws. The
limiter is asked once about each request on a limited route, under its client's key. Others are not
put off; and unless the store does it, no response but the limiter's own is 429. -/
theorem limiter_only_filters (service : Service) (limiter : Limiter α) (store : Store σ)
    (arrivals : List Arrival) (st : σ) :
    let run := (⟨service, some limiter⟩ : Site α).serveAll store arrivals st
    let log := run.1
    let passed := log.filter (·.admission == .admitted)
    let checked := limiter.run (arrivals.filterMap Arrival.check?)
    log.map (·.arrival) = arrivals ∧
      (∀ e ∈ log, ∀ wait, e.admission = .rejected wait →
        e.response = e.arrival.refusal wait ∧ e.response.status = 429) ∧
      (⟨service, none⟩ : Site α).serveAll store (passed.map (·.arrival)) st =
        (passed, ⟨service, none⟩, run.2.2) ∧
      (log.filter (·.arrival.check?.isSome)).map (fun e => (e.arrival.request.clientKey, e.admission)) =
        checked.1 ∧
      run.2.1 = ⟨service, some checked.2⟩ ∧
      (∀ e ∈ log, e.arrival.IsExempt →
        e.arrival.check? = none ∧ e.admission = .admitted ∧ e.response.status ≠ 429) ∧
      (store.NeverDefers → ∀ e ∈ log, (e.response.status = 429 ↔ e.admission ≠ .admitted)) := by
  intro run log passed checked
  have hentry := fun e (he : e ∈ log) => exists_of_mem_serveAll store service limiter arrivals st he
  have hrejected : ∀ e ∈ log, ∀ wait, e.admission = .rejected wait →
      e.response = e.arrival.refusal wait ∧ e.response.status = 429 := by
    intro e he wait hwait
    obtain ⟨limiter', st', hadmission, hresponse⟩ := hentry e he
    rw [hadmission] at hwait
    rw [hresponse, serve_of_rejected store st' hwait]
    exact ⟨rfl, e.arrival.status_refusal wait⟩
  have hadmitted : ∀ e ∈ log, e.admission = .admitted →
      ∃ st', e.response = ((⟨service, none⟩ : Site α).serve store e.arrival st').1 := by
    intro e he hverdict
    obtain ⟨limiter', st', hadmission, hresponse⟩ := hentry e he
    rw [serve_of_admitted store st' (hadmission.symm.trans hverdict)] at hresponse
    exact ⟨st', hresponse⟩
  obtain ⟨htold, hleft⟩ := serveAll_checks store service limiter arrivals st
  refine ⟨map_arrival_serveAll _ store arrivals st, hrejected,
    serveAll_passed ⟨service, some limiter⟩ store arrivals st, htold, hleft, fun e he hexempt => ?_,
    fun hstore e he => ?_⟩
  · obtain ⟨limiter', -, hadmission, -⟩ := hentry e he
    have hverdict := hadmission.trans (admission_of_exempt service limiter' hexempt)
    obtain ⟨st', hresponse⟩ := hadmitted e he hverdict
    rw [hresponse]
    exact ⟨hexempt.check?_eq_none, hverdict, status_unlimited_ne_of_exempt store service st' hexempt⟩
  · cases hverdict : e.admission with
    | rejected wait => exact iff_of_true (hrejected e he wait hverdict).2 fun h => by cases h
    | admitted =>
      obtain ⟨st', hresponse⟩ := hadmitted e he hverdict
      rw [hresponse]
      exact iff_of_false (status_unlimited_ne store service e.arrival st' hstore) fun h => h rfl

/-- A client that asks twice at a time where it may do so once, and then for what costs nothing. -/
theorem limiter_only_filters_of_hasty_client :
    let draws : Draws := ⟨⟨Vector.replicate 12 0, 0⟩, fun _ => 0, 0⟩
    let arrivals : List Arrival :=
      [⟨0, ⟨10, 0⟩, draws, .on "GET" "/secret"⟩, ⟨0, ⟨10, 0⟩, draws, .on "GET" "/secret"⟩,
        ⟨0, ⟨10, 0⟩, draws, .on "GET" "/healthz"⟩, ⟨0, ⟨10, 0⟩, draws, .on "GET" "/nowhere"⟩]
    let site : Site Rat := ⟨⟨"service key", ⟨0⟩⟩, some (.new (1 / 2) 1 Limiter.defaultTtl)⟩
    let log := (site.serveAll Backend.memory.store arrivals Backend.memory.empty).1
    log.map (·.admission) = [.admitted, .rejected 2, .admitted, .admitted] ∧
      ∀ e ∈ log, (e.response.status = 429 ↔ e.admission ≠ .admitted) := by
  intro draws arrivals site log
  obtain ⟨-, -, -, -, -, -, hstatus⟩ := limiter_only_filters ⟨"service key", ⟨0⟩⟩
    (.new (1 / 2 : Rat) 1 Limiter.defaultTtl) Backend.memory.store arrivals Backend.memory.empty
  exact ⟨by decide +kernel, hstatus Backend.memory.neverDefers⟩

end Site

end Http

end BurnAfterRead
