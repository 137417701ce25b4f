import BurnAfterRead.Http.Api
import BurnAfterRead.Id.Uuid
import BurnAfterRead.Limiter.Basic

/-!
# The site

All requests come in here. Those on a limited route need the leave of the limiter, whatever their
method; each spends one check under its client's key. Every response tells the request's identifier,
the client's own or a new one.
-/

namespace BurnAfterRead.Http

/-- The service, behind a limiter if there is one. -/
structure Site (α : Type) where
  service : Service
  limiter : Option (Limiter α) := none

namespace Response

/-- The response without its body. -/
def withoutBody (r : Response) : Response := { r with body := "" }

def withHeader (r : Response) (name : String) (value : HeaderValue) : Response :=
  { r with headers := r.headers ++ [(name, value)] }

/-- What is sent over a connection: an answer to `HEAD` never has a body there. -/
def sent (method : Method) (r : Response) : Response :=
  if method = .head then r.withoutBody else r

end Response

/-- The identifier of a request. -/
def requestId (draws : Draws) (headers : Headers) : HeaderValue :=
  (headers.get? "x-request-id").getD (Crypto.utf8 (Uuid.ofRandom draws.requestId).text)

/-- What a route answers to a request that may pass: a method that it does not take is refused. -/
def Route.answer (s : Service) (draws : Draws) (r : Request) (route : Route) : Call Response :=
  match route.action? r.method with
  | some action => action.perform s draws r
  | none => .done (.empty 405)

/-- What every answer on a route has in common: `HEAD` is answered without a body where the route
takes it, and the methods that the route takes are told to one who tries another. -/
def Route.finish (route : Route) (method : Method) (r : Response) : Response :=
  match route.action? method with
  | some _ => if method = .head then r.withoutBody else r
  | none => r.withHeader "allow" (Crypto.utf8 route.allow)

namespace Site

variable {α : Type} [TokenNumber α]

/-- Asks the limiter about a request on a route at `now`. -/
def check (site : Site α) (now : Int) (r : Request) (route : Route) : Admission × Site α :=
  match site.limiter with
  | some limiter =>
    if route.isLimited then
      let (admission, limiter) := limiter.check r.clientKey now
      (admission, { site with limiter := some limiter })
    else (.admitted, site)
  | none => (.admitted, site)

/-- What a request is answered, before the request's identifier is added. -/
def answer (site : Site α) (now : Int) (draws : Draws) (r : Request) : Call Response × Site α :=
  match Route.ofPath? r.path with
  | none => (.done .notFound, site)
  | some route =>
    match site.check now r route with
    | (.admitted, site) =>
      ((route.answer site.service draws r).andThen fun response =>
        .done (route.finish r.method response), site)
    | (.rejected wait, site) =>
      (.done (route.finish r.method (.ofFailure (.tooManyRequests wait))), site)

/-- Handles a request that arrives at `now`. -/
def handle (site : Site α) (now : Int) (draws : Draws) (r : Request) : Call Response × Site α :=
  let (call, site) := site.answer now draws r
  (call.andThen fun response =>
    .done (response.withHeader "x-request-id" (requestId draws r.headers)), site)

/-- Drops the clients that were idle for too long. -/
def evict (site : Site α) (now : Int) : Site α :=
  { site with limiter := site.limiter.map fun limiter => limiter.evict now }

end Site

end BurnAfterRead.Http
