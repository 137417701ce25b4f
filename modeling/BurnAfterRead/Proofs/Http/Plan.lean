import BurnAfterRead.Http.Site
import BurnAfterRead.Proofs.Service.Vault

/-!
# What a request comes to

A request is answered on the spot, or by what comes of one operation of the service. Which it is
depends on the request and the limiter only, so all that a request can do to a store is what that one
operation does.
-/

namespace BurnAfterRead

theorem Failure.status_ge (f : Failure) : 400 ≤ f.status := by
  cases f <;> simp [status]

namespace Http

/-- The path of a request is that of a secret. -/
def Request.Names (r : Request) (id : String) : Prop :=
  ∃ segment, Route.ofPath? r.path = some (.secret segment) ∧ Text.percentText? segment = some id

namespace Response

/-- The response to what came of an operation. No request asks for a sweep. -/
def ofOutcome (now : Instant) : Outcome → Response
  | .created (.ok secret) => created secret.id (secret.expiresAt.getD now)
  | .redeemed (.ok secret) => redeemed secret.id secret.value (secret.expiresAt.getD now)
  | .burnt (.ok ()) => empty 204
  | .swept (.ok _) => alive
  | .created (.error f) | .redeemed (.error f) | .burnt (.error f) | .swept (.error f) => ofFailure f

theorem status_ofFailure (f : Failure) : (ofFailure f).status = f.status := by
  unfold ofFailure
  split <;> rfl

/-- Only what was stored is answered with the status of a creation. -/
theorem eq_created_of_status {now : Instant} {o : Outcome} (h : (ofOutcome now o).status = 201) :
    ∃ secret, o = .created (.ok secret) := by
  have failed : ∀ f : Failure, (ofFailure f).status ≠ 201 := by
    intro f hf
    rw [status_ofFailure] at hf
    have hge := f.status_ge
    omega
  cases o with
  | created answer =>
    cases answer with
    | ok secret => exact ⟨secret, rfl⟩
    | error f => exact absurd h (failed f)
  | redeemed answer =>
    cases answer with
    | ok secret => exact absurd (show 200 = 201 from h) (by decide)
    | error f => exact absurd h (failed f)
  | burnt answer =>
    cases answer with
    | ok u => exact absurd (show 204 = 201 from h) (by decide)
    | error f => exact absurd h (failed f)
  | swept answer =>
    cases answer with
    | ok n => exact absurd (show 200 = 201 from h) (by decide)
    | error f => exact absurd h (failed f)

end Response

theorem status_generate (r : Request) (letters : Nat → Nat) : (generate r letters).status = 200 := by
  unfold generate
  dsimp only
  split <;> rfl

theorem Route.action?_cases {route : Route} {method : Method} {action : Action}
    (h : route.action? method = some action) :
    action = .health ∨ action = .generate ∨ (action = .create ∧ method = .post) ∨
      (∃ segment, route = .secret segment ∧ (method = .get ∨ method = .head) ∧
        action = .redeem segment) ∨
      (∃ segment, route = .secret segment ∧ method = .delete ∧ action = .delete segment) := by
  cases route <;> cases method <;> simp [action?] at h <;> simp [← h]

/-- A response on the spot, or the operation that an action asks for. -/
def Action.plan (draws : Draws) (r : Request) : Action → Except Response Operation
  | health => .error .alive
  | generate => .error (Http.generate r draws.letters)
  | create =>
    match (SecretRequest.ofRequest r).bind SecretRequest.toSecret with
    | .error f => .error (.ofFailure f)
    | .ok wanted => .ok (.create draws.chance wanted)
  | redeem segment =>
    match Text.percentText? segment with
    | some id => .ok (.get id (passphrase? r.headers))
    | none => .error .unreadableId
  | delete segment =>
    match Text.percentText? segment with
    | some id => .ok (.delete id (passphrase? r.headers))
    | none => .error .unreadableId

/-- Carries out what was planned. -/
def carryOut {σ : Type} (s : Service) (store : Store σ) (now : Instant) (st : σ) :
    Except Response Operation → Response × σ
  | .error response => (response, st)
  | .ok op => (.ofOutcome now (s.perform store now op st).1, (s.perform store now op st).2)

section Run

variable {σ : Type} (s : Service) (store : Store σ) (now : Instant) (st : σ)

theorem run_expiryOf (secret : Secret) :
    (expiryOf secret).run (store.answer now) st = (secret.expiresAt.getD now, st) := by
  unfold expiryOf
  cases secret.expiresAt <;> rfl

theorem run_perform (draws : Draws) (r : Request) (action : Action) :
    (action.perform s draws r).run (store.answer now) st =
      carryOut s store now st (action.plan draws r) := by
  cases action with
  | health => rfl
  | generate => rfl
  | create =>
    simp only [Action.perform, Action.plan, Http.create]
    cases (SecretRequest.ofRequest r).bind SecretRequest.toSecret with
    | error f => rfl
    | ok wanted =>
      simp only [respond, Dialogue.run_andThen, carryOut, Service.perform_create]
      cases ((s.create draws.chance wanted).run (store.answer now) st).1 with
      | error f => rfl
      | ok secret =>
        simp only [Dialogue.run_andThen, run_expiryOf, Dialogue.run]
        rfl
  | redeem segment =>
    simp only [Action.perform, Action.plan, withId]
    cases Text.percentText? segment with
    | none => rfl
    | some id =>
      simp only [redeem, respond, Dialogue.run_andThen, carryOut, Service.perform_get]
      cases ((s.get id (passphrase? r.headers)).run (store.answer now) st).1 with
      | error f => rfl
      | ok secret =>
        simp only [Dialogue.run_andThen, run_expiryOf, Dialogue.run]
        rfl
  | delete segment =>
    simp only [Action.perform, Action.plan, withId]
    cases Text.percentText? segment with
    | none => rfl
    | some id =>
      simp only [delete, respond, Dialogue.run_andThen, carryOut, Service.perform_delete]
      cases ((s.delete id (passphrase? r.headers)).run (store.answer now) st).1 <;> rfl

end Run

/-- What all answers to a request have in common: how they are finished on their route, and that they
tell the request's identifier. -/
def Request.dress (draws : Draws) (r : Request) (response : Response) : Response :=
  let finished := match Route.ofPath? r.path with
    | some route => route.finish r.method response
    | none => response
  finished.withHeader "x-request-id" (requestId draws r.headers)

theorem Request.status_dress (draws : Draws) (r : Request) (response : Response) :
    (r.dress draws response).status = response.status := by
  unfold dress
  cases Route.ofPath? r.path with
  | none => rfl
  | some route =>
    unfold Route.finish
    dsimp only
    split
    · split <;> rfl
    · rfl

namespace Site

variable {α : Type} [TokenNumber α] {σ : Type}

/-- The answer to a request that arrives at `steady` on the clock of the limiter and `now` on that of
the service, and what is left in the store. -/
def respond (site : Site α) (store : Store σ) (steady : Int) (now : Instant) (draws : Draws)
    (r : Request) (st : σ) : Response × σ :=
  (site.handle steady draws r).1.run (store.answer now) st

/-- The limiter lets a request pass. -/
def Admits (site : Site α) (steady : Int) (r : Request) : Prop :=
  ∀ route, Route.ofPath? r.path = some route → (site.check steady r route).1 = .admitted

/-- A response on the spot, or the operation that a request asks for. -/
def plan (site : Site α) (steady : Int) (draws : Draws) (r : Request) : Except Response Operation :=
  match Route.ofPath? r.path with
  | none => .error .notFound
  | some route =>
    match (site.check steady r route).1 with
    | .rejected wait => .error (.ofFailure (.tooManyRequests wait))
    | .admitted =>
      match route.action? r.method with
      | some action => action.plan draws r
      | none => .error (.empty 405)

theorem service_check (site : Site α) (steady : Int) (r : Request) (route : Route) :
    (site.check steady r route).2.service = site.service := by
  unfold check
  split
  · split <;> rfl
  · rfl

variable (site : Site α) (store : Store σ) (steady : Int) (now : Instant) (draws : Draws)
  (r : Request) (st : σ)

/-- A request does what was planned, and nothing else. -/
theorem respond_eq : site.respond store steady now draws r st =
    (r.dress draws (carryOut site.service store now st (site.plan steady draws r)).1,
      (carryOut site.service store now st (site.plan steady draws r)).2) := by
  unfold respond handle answer plan Request.dress
  cases Route.ofPath? r.path with
  | none => rfl
  | some route =>
    have hservice := site.service_check steady r route
    dsimp only
    generalize site.check steady r route = checked at hservice
    obtain ⟨admission, site'⟩ := checked
    cases admission with
    | rejected wait => rfl
    | admitted =>
      dsimp only at hservice ⊢
      rw [Dialogue.run_andThen, Dialogue.run_andThen, hservice]
      unfold Route.answer
      cases route.action? r.method with
      | none => rfl
      | some action =>
        dsimp only
        rw [run_perform]
        rfl

/-- A request is answered on the spot, or stores the secret that its body asks for, or redeems or burns
the one that its path names. -/
theorem plan_cases :
    (∃ response, site.plan steady draws r = .error response ∧
      (response.status = 200 ∨ 400 ≤ response.status)) ∨
    (∃ wanted, r.method = .post ∧ (SecretRequest.ofRequest r).bind SecretRequest.toSecret = .ok wanted ∧
      site.plan steady draws r = .ok (.create draws.chance wanted)) ∨
    (∃ id, r.Names id ∧ (r.method = .get ∨ r.method = .head) ∧
      site.plan steady draws r = .ok (.get id (passphrase? r.headers))) ∨
    (∃ id, r.Names id ∧ r.method = .delete ∧
      site.plan steady draws r = .ok (.delete id (passphrase? r.headers))) := by
  unfold plan
  cases hroute : Route.ofPath? r.path with
  | none => exact Or.inl ⟨_, rfl, Or.inr (Nat.le_of_ble_eq_true rfl)⟩
  | some route =>
    dsimp only
    cases (site.check steady r route).1 with
    | rejected wait =>
      refine Or.inl ⟨_, rfl, Or.inr ?_⟩
      rw [Response.status_ofFailure]
      exact Failure.status_ge _
    | admitted =>
      cases haction : route.action? r.method with
      | none => exact Or.inl ⟨_, rfl, Or.inr (Nat.le_of_ble_eq_true rfl)⟩
      | some action =>
        dsimp only
        rcases Route.action?_cases haction with rfl | rfl | ⟨rfl, hmethod⟩ | ⟨segment, rfl, hmethod, rfl⟩ |
          ⟨segment, rfl, hmethod, rfl⟩
        · exact Or.inl ⟨_, rfl, Or.inl rfl⟩
        · exact Or.inl ⟨_, rfl, Or.inl (status_generate r draws.letters)⟩
        · cases hwanted : (SecretRequest.ofRequest r).bind SecretRequest.toSecret with
          | error f =>
            refine Or.inl ⟨.ofFailure f, ?_, Or.inr ?_⟩
            · simp only [Action.plan, hwanted]
            · rw [Response.status_ofFailure]
              exact f.status_ge
          | ok wanted =>
            refine Or.inr (Or.inl ⟨wanted, hmethod, rfl, ?_⟩)
            simp only [Action.plan, hwanted]
        · cases hid : Text.percentText? segment with
          | none =>
            refine Or.inl ⟨.unreadableId, ?_, Or.inr (Nat.le_of_ble_eq_true rfl)⟩
            simp only [Action.plan, hid]
          | some id =>
            refine Or.inr (Or.inr (Or.inl ⟨id, ⟨segment, hroute, hid⟩, hmethod, ?_⟩))
            simp only [Action.plan, hid]
        · cases hid : Text.percentText? segment with
          | none =>
            refine Or.inl ⟨.unreadableId, ?_, Or.inr (Nat.le_of_ble_eq_true rfl)⟩
            simp only [Action.plan, hid]
          | some id =>
            refine Or.inr (Or.inr (Or.inr ⟨id, ⟨segment, hroute, hid⟩, hmethod, ?_⟩))
            simp only [Action.plan, hid]

variable {site steady r} in
/-- A reading of a secret is planned if the limiter admits it. -/
theorem plan_get (hadmits : site.Admits steady r) {id : String} (hnames : r.Names id)
    (hmethod : r.method = .get ∨ r.method = .head) :
    site.plan steady draws r = .ok (.get id (passphrase? r.headers)) := by
  obtain ⟨segment, hroute, hid⟩ := hnames
  have haction : (Route.secret segment).action? r.method = some (.redeem segment) := by
    rcases hmethod with h | h <;> rw [h] <;> rfl
  unfold plan
  rw [hroute]
  dsimp only
  rw [hadmits _ hroute, haction]
  simp only [Action.plan, hid]

variable {site steady r} in
/-- A burning of a secret is planned if the limiter admits it. -/
theorem plan_delete (hadmits : site.Admits steady r) {id : String} (hnames : r.Names id)
    (hmethod : r.method = .delete) :
    site.plan steady draws r = .ok (.delete id (passphrase? r.headers)) := by
  obtain ⟨segment, hroute, hid⟩ := hnames
  unfold plan
  rw [hroute]
  dsimp only
  rw [hadmits _ hroute, hmethod]
  simp only [Route.action?, Action.plan, hid]

variable {site steady r} in
/-- A creation is planned if the limiter admits it and the body asks for a secret. -/
theorem plan_post (hadmits : site.Admits steady r) (hroute : Route.ofPath? r.path = some .secrets)
    (hmethod : r.method = .post) {wanted : Secret}
    (hwanted : (SecretRequest.ofRequest r).bind SecretRequest.toSecret = .ok wanted) :
    site.plan steady draws r = .ok (.create draws.chance wanted) := by
  unfold plan
  rw [hroute]
  dsimp only
  rw [hadmits _ hroute, hmethod]
  simp only [Route.action?, Action.plan, hwanted]

variable {site steady draws r} in
/-- Where an operation is asked for, only `HEAD` is answered without a body. -/
theorem body_dress {op : Operation} (h : site.plan steady draws r = .ok op) (response : Response) :
    (r.dress draws response).body = if r.method = .head then "" else response.body := by
  unfold plan at h
  unfold Request.dress
  cases hroute : Route.ofPath? r.path with
  | none =>
    rw [hroute] at h
    cases h
  | some route =>
    rw [hroute] at h
    dsimp only at h ⊢
    cases hcheck : (site.check steady r route).1 with
    | rejected wait =>
      rw [hcheck] at h
      cases h
    | admitted =>
      rw [hcheck] at h
      dsimp only at h
      unfold Route.finish
      cases haction : route.action? r.method with
      | none =>
        rw [haction] at h
        cases h
      | some action =>
        dsimp only
        split <;> rfl

variable {store st r} in
/-- A request that is answered with the status of a creation has stored what its body asks for. -/
theorem exists_created (h : (site.respond store steady now draws r st).1.status = 201) :
    ∃ wanted d x, (SecretRequest.ofRequest r).bind SecretRequest.toSecret = .ok wanted ∧
      site.service.draft now draws.chance wanted = .ok d ∧ (store now (.insert d) st).1 = .ok x ∧
      (site.respond store steady now draws r st).1.body = (Response.created x.id x.expiresAt).body ∧
      (site.respond store steady now draws r st).2 = (store now (.insert d) st).2 := by
  rw [respond_eq] at h ⊢
  rw [Request.status_dress] at h
  rcases site.plan_cases steady draws r with ⟨response, hplan, hstatus⟩ | ⟨wanted, hmethod, hwanted, hplan⟩ |
    ⟨id, -, -, hplan⟩ | ⟨id, -, -, hplan⟩
  · rw [hplan] at h
    change response.status = 201 at h
    omega
  · have hbody : ∀ response, (r.dress draws response).body = response.body := fun response =>
      (site.body_dress hplan response).trans (if_neg (by rw [hmethod]; decide))
    rw [hplan] at h ⊢
    obtain ⟨secret, hsecret⟩ := Response.eq_created_of_status h
    unfold carryOut
    dsimp only
    rw [hbody]
    rw [Service.perform_create, Service.run_create_eq] at hsecret ⊢
    cases hdraft : site.service.draft now draws.chance wanted with
    | error f =>
      rw [hdraft] at hsecret
      cases hsecret
    | ok d =>
      rw [hdraft] at hsecret
      dsimp only at hsecret ⊢
      cases hstored : (store now (.insert d) st).1 with
      | error f =>
        rw [hstored] at hsecret
        cases hsecret
      | ok x => exact ⟨wanted, d, x, hwanted, hdraft, hstored, rfl, rfl⟩
  · rw [hplan] at h
    obtain ⟨secret, hsecret⟩ := Response.eq_created_of_status h
    rw [Service.perform_get] at hsecret
    cases hsecret
  · rw [hplan] at h
    obtain ⟨secret, hsecret⟩ := Response.eq_created_of_status h
    rw [Service.perform_delete] at hsecret
    cases hsecret

variable {store now draws r st} in
/-- A request whose draft is stored is answered with the status of a creation. -/
theorem status_of_created {wanted : Secret}
    (hplan : site.plan steady draws r = .ok (.create draws.chance wanted)) {d : Draft} {x : Record}
    (hdraft : site.service.draft now draws.chance wanted = .ok d)
    (hx : (store now (.insert d) st).1 = .ok x) :
    (site.respond store steady now draws r st).1.status = 201 := by
  rw [respond_eq, Request.status_dress, hplan, carryOut, Service.perform_create, Service.run_create_eq,
    hdraft]
  dsimp only
  rw [hx]
  rfl

variable {store now r st} in
/-- What a reader is answered who has the passphrase of a record that can be had, and what is left. -/
theorem respond_opened (hadmits : site.Admits steady r) (hmethod : r.method = .get ∨ r.method = .head)
    {id : String} (hnames : r.Names id) {x : Record} (hlends : store.Lends now st id x)
    (hlive : x.isExpired now = false) {value : String}
    (hopen : Crypto.decrypt x.value (site.service.keyFor (passphrase? r.headers)) =
      .ok (Crypto.utf8 value)) :
    (site.respond store steady now draws r st).1.status = 200 ∧
      (site.respond store steady now draws r st).1.body =
        (if r.method = .head then "" else (Response.redeemed x.id value x.expiresAt).body) ∧
      (site.respond store steady now draws r st).2 =
        (store now (.remove id) (store now (.find id) st).2).2 := by
  have hplan := site.plan_get draws hadmits hnames hmethod
  have hrun := site.service.run_take_of_opened (passphrase? r.headers) (fun secret => secret) hlends.found
    hlive (Service.reveal_of_decrypt hopen) hlends.removed
  have hresult : carryOut site.service store now st (site.plan steady draws r) =
      (.redeemed x.id value x.expiresAt, (store now (.remove id) (store now (.find id) st).2).2) := by
    rw [hplan, carryOut, Service.perform_get, Service.get, hrun]
    rfl
  have hrespond := site.respond_eq store steady now draws r st
  rw [hresult] at hrespond
  rw [hrespond]
  exact ⟨Request.status_dress draws r _, site.body_dress hplan _, rfl⟩

variable {store now r st} in
/-- What a reader is answered whose key does not open the record. -/
theorem status_of_refused (hadmits : site.Admits steady r)
    (hmethod : r.method = .get ∨ r.method = .head) {id : String} (hnames : r.Names id) {x : Record}
    (hlends : store.Lends now st id x) (hlive : x.isExpired now = false) {f : Failure}
    (hshut : Crypto.decrypt x.value (site.service.keyFor (passphrase? r.headers)) = .error f) :
    (site.respond store steady now draws r st).1.status = 401 := by
  have hplan := site.plan_get draws hadmits hnames hmethod
  have hrun := site.service.run_take_of_refused (passphrase? r.headers) (fun secret => secret) hlends.found
    hlive (Service.reveal_of_decrypt_error hshut)
  rw [respond_eq, Request.status_dress, hplan, carryOut, Service.perform_get, Service.get, hrun]
  obtain rfl := Crypto.decrypt_error hshut
  rfl

end Site

end Http

end BurnAfterRead
