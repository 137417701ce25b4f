import BurnAfterRead.Http.Request

/-!
# Routes

The places that requests can go to, which methods each of them takes, and what is done there. A
reading with `HEAD` does what one with `GET` does.
-/

namespace BurnAfterRead.Http

inductive Route where
  /-- Tells that the service is alive. -/
  | health
  /-- Random strings. -/
  | random
  /-- All secrets. -/
  | secrets
  /-- One secret; the segment is its identifier with percent signs. -/
  | secret (segment : List Char)
  deriving DecidableEq, Repr

/-- What a request asks for. -/
inductive Action where
  | health
  | generate
  | create
  | redeem (segment : List Char)
  | delete (segment : List Char)
  deriving DecidableEq, Repr

namespace Route

/-- The route of a path. A secret's segment is neither empty nor has it a slash. -/
def ofPath? (path : List Char) : Option Route :=
  if path = "/healthz".toList then some health
  else if path = "/secret".toList then some random
  else if path = "/secrets".toList then some secrets
  else
    match Text.after? "/secrets/".toList path with
    | some segment => if segment = [] ∨ '/' ∈ segment then none else some (secret segment)
    | none => none

/-- Whether the limiter watches a route. -/
def isLimited : Route → Bool
  | health => false
  | _ => true

/-- The methods that a route takes. -/
def methods : Route → List Method
  | health | random => [.get, .head]
  | secrets => [.post]
  | secret _ => [.get, .head, .delete]

/-- The methods of a route as a header tells them. -/
def allow (r : Route) : String := ",".intercalate (r.methods.map Method.name)

/-- What a method asks for on a route; none if the route does not take it. -/
def action? : Route → Method → Option Action
  | health, .get | health, .head => some .health
  | random, .get | random, .head => some .generate
  | secrets, .post => some .create
  | secret segment, .get | secret segment, .head => some (.redeem segment)
  | secret segment, .delete => some (.delete segment)
  | _, _ => none

theorem action?_isSome (r : Route) (m : Method) : (r.action? m).isSome ↔ m ∈ r.methods := by
  cases r <;> cases m <;> simp [action?, methods]

end Route

end BurnAfterRead.Http
