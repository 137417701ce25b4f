import BurnAfterRead.Http.ClientAddress

/-!
# HTTP requests

A request has a method, a path and a query as they were sent, headers, a body and, if it came over a
connection, the address of its peer.
-/

namespace BurnAfterRead.Http

/-- The methods that some route takes, and all others. Names are told apart by letter case. -/
inductive Method where
  | get
  | head
  | post
  | delete
  | other
  deriving DecidableEq, Repr

namespace Method

def ofName : String → Method
  | "GET" => get
  | "HEAD" => head
  | "POST" => post
  | "DELETE" => delete
  | _ => other

/-- The name of a method in the headers of a response. -/
def name : Method → String
  | get => "GET"
  | head => "HEAD"
  | post => "POST"
  | delete => "DELETE"
  | other => ""

end Method

structure Request where
  method : Method
  /-- The path, with its percent signs. -/
  path : List Char
  query : List Char := []
  headers : Headers := []
  /-- The bytes of the body. -/
  body : List UInt8 := []
  peer : Option IpAddress := none
  deriving Repr

namespace Request

/-- Cuts the target of a request into path and query; what follows a `#` is never looked at. -/
def cutTarget (target : List Char) : List Char × List Char :=
  let target := Text.upTo '#' target
  (Text.cutFirst '?' target).getD (target, [])

/-- A request of a method on a target. -/
def on (method target : String) : Request :=
  let (path, query) := cutTarget target.toList
  { method := .ofName method, path := path, query := query }

/-- The key under which the client's requests are counted. -/
def clientKey (r : Request) : String := Http.clientKey r.headers r.peer

end Request

end BurnAfterRead.Http
