import BurnAfterRead.Proofs.Http.Wire

/-!
# What an error is answered with

A client that cannot be served is told so in a JSON body, which repeats the status next to a message.
That holds of every failure, of paths without a route, and of clients that the limiter turns away. Two
answers are left that have no such body, and both are given before any action is taken: to a method
that the route does not take, and to a path whose identifier is no text.
-/

namespace BurnAfterRead

namespace Http

/-- What stands at the front is found first. -/
theorem Headers.get?_append (headers more : Headers) (name : String) :
    (headers ++ more).get? name = (headers.get? name).or (more.get? name) := by
  unfold get?
  rw [List.find?_append]
  cases headers.find? fun h => h.1.toLower == name <;> rfl

theorem Headers.get?_singleton_of_ne {name other : String} (h : other.toLower ≠ name)
    (value : HeaderValue) : Headers.get? [(other, value)] name = none := by
  unfold get?
  rw [List.find?_cons_of_neg (by simpa using h)]
  rfl

namespace Response

/-- What the body of a response is said to be. -/
def contentType? (response : Response) : Option HeaderValue := response.headers.get? "content-type"

/-- The response tells of an error: its body is a JSON object of the status and a message. -/
structure IsReport (response : Response) : Prop where
  isJson : response.contentType? = some (Crypto.utf8 "application/json")
  tells : ∃ message, response.body = String.ofList
    (Json.writeObject [("statusCode", .number response.status), ("message", .text message)])

theorem contentType?_json (status : Nat) (members : List (String × Json.Scalar)) :
    (json status members).contentType? = some (Crypto.utf8 "application/json") :=
  Headers.get?_singleton (by decide +kernel) _

theorem contentType?_unreadableId :
    unreadableId.contentType? = some (Crypto.utf8 "text/plain; charset=utf-8") :=
  Headers.get?_singleton (by decide +kernel) _

theorem contentType?_withHeader (response : Response) {name : String}
    (h : name.toLower ≠ "content-type") (value : HeaderValue) :
    (response.withHeader name value).contentType? = response.contentType? := by
  unfold contentType? withHeader
  rw [Headers.get?_append, Headers.get?_singleton_of_ne h, Option.or_none]

theorem isReport_error (status : Nat) (message : String) : (error status message).IsReport :=
  ⟨contentType?_json _ _, message, rfl⟩

theorem isReport_ofFailure (f : Failure) : (ofFailure f).IsReport := by
  unfold ofFailure
  cases f.retryAfter? with
  | none => exact isReport_error f.status f.clientMessage
  | some seconds =>
    obtain ⟨hjson, htells⟩ := isReport_error f.status f.clientMessage
    exact ⟨(contentType?_withHeader _ (by decide +kernel) _).trans hjson, htells⟩

/-- What comes of an operation is a success, or a failure that is told of. -/
theorem isReport_ofOutcome {now : Instant} {o : Outcome} (h : 400 ≤ (ofOutcome now o).status) :
    (ofOutcome now o).IsReport := by
  match o with
  | .created (.ok secret) => exact absurd (show 400 ≤ 201 from h) (by decide)
  | .redeemed (.ok secret) => exact absurd (show 400 ≤ 200 from h) (by decide)
  | .burnt (.ok ()) => exact absurd (show 400 ≤ 204 from h) (by decide)
  | .swept (.ok n) => exact absurd (show 400 ≤ 200 from h) (by decide)
  | .created (.error f) | .redeemed (.error f) | .burnt (.error f) | .swept (.error f) =>
    exact isReport_ofFailure f

end Response

namespace Request

/-- The path has a route, but the route does not take the method. -/
def Misdirected (r : Request) : Prop :=
  ∃ route, Route.ofPath? r.path = some route ∧ r.method ∉ route.methods

/-- The path is that of a secret, and its route takes the method, but the identifier is no text. -/
def Illegible (r : Request) : Prop :=
  ∃ segment, Route.ofPath? r.path = some (.secret segment) ∧ r.method ∈ (Route.secret segment).methods ∧
    Text.percentText? segment = none

/-- Unless it asks for no body, a response is dressed by adding to the end of its headers. -/
theorem dress_of_ne_head {r : Request} (h : r.method ≠ .head) (draws : Draws) (response : Response) :
    (r.dress draws response).contentType? = response.contentType? ∧
      (r.dress draws response).body = response.body := by
  have hfinish (route : Route) : (route.finish r.method response).contentType? = response.contentType? ∧
      (route.finish r.method response).body = response.body := by
    unfold Route.finish
    rw [if_neg h]
    split
    · exact ⟨rfl, rfl⟩
    · exact ⟨response.contentType?_withHeader (by decide +kernel) _, rfl⟩
  have hid (finished : Response) (id : HeaderValue) :
      (finished.withHeader "x-request-id" id).contentType? = finished.contentType? :=
    finished.contentType?_withHeader (by decide +kernel) id
  unfold dress
  cases Route.ofPath? r.path with
  | none => exact ⟨hid _ _, rfl⟩
  | some route => exact ⟨(hid _ _).trans (hfinish route).1, (hfinish route).2⟩

theorem isReport_dress {r : Request} (h : r.method ≠ .head) (draws : Draws) {response : Response}
    (report : response.IsReport) : (r.dress draws response).IsReport := by
  obtain ⟨hjson, message, hbody⟩ := report
  obtain ⟨htype, hsame⟩ := dress_of_ne_head h draws response
  refine ⟨htype.trans hjson, message, ?_⟩
  rw [hsame, hbody, status_dress]

end Request

namespace Route

theorem of_action?_secret {segment : List Char} {method : Method} {action : Action}
    (h : (secret segment).action? method = some action) :
    action = .redeem segment ∨ action = .delete segment := by
  cases method <;> simp [action?] at h <;> simp [← h]

theorem eq_secret_of_action? {route : Route} {method : Method} {action : Action} {segment : List Char}
    (h : route.action? method = some action) (hsecret : action = .redeem segment ∨ action = .delete segment) :
    route = .secret segment := by
  rcases hsecret with rfl | rfl <;> cases route <;> cases method <;> simp [action?] at h <;> rw [h]

end Route

/-- What an action answers on the spot: a success, a report, or that the identifier is no text. -/
theorem Action.plan_error {draws : Draws} {r : Request} {action : Action} {response : Response}
    (h : action.plan draws r = .error response) :
    response.status = 200 ∨ response.IsReport ∨
      ∃ segment, Text.percentText? segment = none ∧ (action = .redeem segment ∨ action = .delete segment) := by
  cases action with
  | health =>
    obtain rfl := Except.error.inj h
    exact Or.inl rfl
  | generate =>
    obtain rfl := Except.error.inj h
    exact Or.inl (status_generate r draws.letters)
  | create =>
    simp only [plan] at h
    split at h
    · rename_i f _
      obtain rfl := Except.error.inj h
      exact Or.inr (Or.inl (Response.isReport_ofFailure f))
    · cases h
  | redeem segment =>
    simp only [plan] at h
    split at h
    · cases h
    · rename_i hid
      exact Or.inr (Or.inr ⟨segment, hid, Or.inl rfl⟩)
  | delete segment =>
    simp only [plan] at h
    split at h
    · cases h
    · rename_i hid
      exact Or.inr (Or.inr ⟨segment, hid, Or.inr rfl⟩)

namespace Site

variable {α : Type} [TokenNumber α] {σ : Type} {site : Site α} {steady : Int} {r : Request}

theorem admits_of_check {route : Route} (hroute : Route.ofPath? r.path = some route)
    (h : (site.check steady r route).1 = .admitted) : site.Admits steady r := by
  intro route' hroute'
  obtain rfl := Option.some.inj (hroute.symm.trans hroute')
  exact h

/-- A client that the limiter lets pass is answered by the route that his path has. -/
theorem plan_of_admits (hadmits : site.Admits steady r) {route : Route}
    (hroute : Route.ofPath? r.path = some route) (draws : Draws) :
    site.plan steady draws r = (route.action? r.method).elim (.error (.empty 405)) (·.plan draws r) := by
  unfold plan
  rw [hroute]
  dsimp only
  rw [hadmits route hroute]
  cases route.action? r.method <;> rfl

theorem plan_of_misdirected (hadmits : site.Admits steady r) (h : r.Misdirected) (draws : Draws) :
    site.plan steady draws r = .error (.empty 405) := by
  obtain ⟨route, hroute, hrefused⟩ := h
  have hnone : route.action? r.method = none := by
    rwa [← route.action?_isSome, Option.not_isSome_iff_eq_none] at hrefused
  rw [plan_of_admits hadmits hroute, hnone, Option.elim_none]

theorem plan_of_illegible (hadmits : site.Admits steady r) (h : r.Illegible) (draws : Draws) :
    site.plan steady draws r = .error .unreadableId := by
  obtain ⟨segment, hroute, htaken, hid⟩ := h
  rw [← Route.action?_isSome, Option.isSome_iff_exists] at htaken
  obtain ⟨action, haction⟩ := htaken
  rw [plan_of_admits hadmits hroute, haction, Option.elim_some]
  rcases Route.of_action?_secret haction with rfl | rfl <;> simp only [Action.plan, hid]

theorem plan_of_rejected {route : Route} (hroute : Route.ofPath? r.path = some route) {wait : Nat}
    (h : (site.check steady r route).1 = .rejected wait) (draws : Draws) :
    site.plan steady draws r = .error (.ofFailure (.tooManyRequests wait)) := by
  unfold plan
  rw [hroute]
  dsimp only
  rw [h]

/-- Wherever a request is neither misdirected nor illegible, an error is told of. -/
theorem isReport_of_plan (store : Store σ) (now : Instant) (draws : Draws) (st : σ)
    (hfit : ¬(site.Admits steady r ∧ (r.Misdirected ∨ r.Illegible)))
    (h : 400 ≤ (carryOut site.service store now st (site.plan steady draws r)).1.status) :
    (carryOut site.service store now st (site.plan steady draws r)).1.IsReport := by
  cases hroute : Route.ofPath? r.path with
  | none =>
    have hplan : site.plan steady draws r = .error .notFound := by
      unfold plan
      rw [hroute]
    rw [hplan]
    exact Response.isReport_error 404 "not found"
  | some route =>
    cases hcheck : (site.check steady r route).1 with
    | rejected wait =>
      rw [plan_of_rejected hroute hcheck]
      exact Response.isReport_ofFailure (.tooManyRequests wait)
    | admitted =>
      have hadmits := admits_of_check hroute hcheck
      rw [plan_of_admits hadmits hroute] at h ⊢
      cases haction : route.action? r.method with
      | none =>
        refine absurd ⟨hadmits, Or.inl ⟨route, hroute, ?_⟩⟩ hfit
        rw [← route.action?_isSome, haction]
        exact Bool.false_ne_true
      | some action =>
        rw [haction, Option.elim_some] at h
        rw [Option.elim_some]
        cases hresponse : action.plan draws r with
        | ok op =>
          rw [hresponse] at h
          exact Response.isReport_ofOutcome h
        | error response =>
          rw [hresponse] at h
          rcases Action.plan_error hresponse with hstatus | hreport | ⟨segment, hid, hasked⟩
          · exact absurd h (by rw [carryOut, hstatus]; decide)
          · exact hreport
          · obtain rfl := Route.eq_secret_of_action? haction hasked
            have htaken : ((Route.secret segment).action? r.method).isSome := by rw [haction]; rfl
            exact absurd ⟨hadmits, Or.inr ⟨segment, hroute, (Route.action?_isSome _ _).1 htaken, hid⟩⟩ hfit

/-- Whatever the store holds and however it answers: every error that is not answered to `HEAD` is told of
in a JSON object of its status and a message, but for two. A method that the route does not take is
answered without a body, and a path whose identifier is no text with a plain text; both only to a client
that the limiter lets pass. -/
theorem errors_reported (site : Site α) (store : Store σ) (steady : Int) (now : Instant) (draws : Draws)
    {r : Request} (hmethod : r.method ≠ .head) (st : σ)
    (herror : 400 ≤ (site.respond store steady now draws r st).1.status) :
    let response := (site.respond store steady now draws r st).1
    (¬(site.Admits steady r ∧ (r.Misdirected ∨ r.Illegible)) ∧ response.IsReport) ∨
      (site.Admits steady r ∧ r.Misdirected ∧ response.status = 405 ∧ response.contentType? = none ∧
        response.body = "") ∨
      (site.Admits steady r ∧ r.Illegible ∧ response.status = 400 ∧
        response.contentType? = some (Crypto.utf8 "text/plain; charset=utf-8") ∧
        response.body = "Invalid URL: Invalid UTF-8 in `id`") := by
  intro response
  have hresponse : response = r.dress draws (carryOut site.service store now st
      (site.plan steady draws r)).1 := congrArg Prod.fst (site.respond_eq store steady now draws r st)
  obtain ⟨htype, hbody⟩ := Request.dress_of_ne_head hmethod draws
    (carryOut site.service store now st (site.plan steady draws r)).1
  have hstatus := Request.status_dress draws r
    (carryOut site.service store now st (site.plan steady draws r)).1
  rw [← hresponse] at htype hbody hstatus
  by_cases hamiss : site.Admits steady r ∧ (r.Misdirected ∨ r.Illegible)
  · refine Or.inr ?_
    obtain ⟨hadmits, hmisdirected | hillegible⟩ := hamiss
    · rw [plan_of_misdirected hadmits hmisdirected] at htype hbody hstatus
      exact Or.inl ⟨hadmits, hmisdirected, hstatus, htype, hbody⟩
    · rw [plan_of_illegible hadmits hillegible] at htype hbody hstatus
      exact Or.inr ⟨hadmits, hillegible, hstatus, htype.trans Response.contentType?_unreadableId, hbody⟩
  · have hreport := isReport_of_plan store now draws st hamiss (hstatus ▸ herror)
    rw [hresponse]
    exact Or.inl ⟨hamiss, Request.isReport_dress hmethod draws hreport⟩

/-- A reader whose store does not answer in time is told of it, as of any other error. -/
theorem errors_reported_of_timeout :
    let site : Site Rat := ⟨⟨"service key", ⟨0⟩⟩, none⟩
    let store : Store Unit := fun _ _ st => (.error .timeout, st)
    let draws : Draws := ⟨⟨Vector.replicate 12 0, 0⟩, fun _ => 0, 0⟩
    let r : Request := { method := .get, path := secretPath draws.chance.identifier }
    let response := (site.respond store 0 ⟨0, 0⟩ draws r ()).1
    response.status = 500 ∧ response.IsReport := by
  intro site store draws r response
  have hnames : r.Names draws.chance.identifier := Request.names_secretPath rfl
  have hadmits : site.Admits 0 r := fun _ _ => rfl
  have hstatus : response.status = 500 := by
    have hmissing : (store ⟨0, 0⟩ (.find draws.chance.identifier) ()).1 = .error .timeout := rfl
    have hrun := site.service.run_take_of_missing (passphrase? r.headers) (fun secret => secret) hmissing
    change (site.respond store 0 ⟨0, 0⟩ draws r ()).1.status = 500
    rw [respond_eq, Request.status_dress, site.plan_get draws hadmits hnames (Or.inl rfl), carryOut,
      Service.perform_get, Service.get, hrun]
    rfl
  refine ⟨hstatus, ?_⟩
  rcases site.errors_reported store 0 ⟨0, 0⟩ draws (r := r) (by decide) ()
    (show 400 ≤ response.status by rw [hstatus]; decide) with h | ⟨-, -, h, -⟩ | ⟨-, -, h, -⟩
  · exact h.2
  · exact absurd (hstatus.symm.trans h) (by decide)
  · exact absurd (hstatus.symm.trans h) (by decide)

end Site

/-- One who posts to the address of the random strings is told nothing but the status. -/
theorem misdirected_gets_no_report :
    let site : Site Rat := ⟨⟨"service key", ⟨0⟩⟩, none⟩
    let draws : Draws := ⟨⟨Vector.replicate 12 0, 0⟩, fun _ => 0, 0⟩
    let r : Request := { method := .post, path := "/secret".toList }
    let response := (site.respond Memory.store 0 ⟨0, 0⟩ draws r .empty).1
    r.method ≠ .head ∧ response.status = 405 ∧ response.body = "" ∧ ¬response.IsReport := by
  intro site draws r response
  refine ⟨by decide, rfl, rfl, ?_⟩
  rintro ⟨-, message, hbody⟩
  have hchars := congrArg String.toList hbody
  rw [String.toList_ofList] at hchars
  cases hchars

end Http

end BurnAfterRead
