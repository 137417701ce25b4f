import BurnAfterRead.Crypto.Token
import BurnAfterRead.Json.Writer

/-!
# HTTP responses

A response has a status, headers and a body. Failures are answered with their status and a JSON
body that repeats it next to the message for the client.
-/

namespace BurnAfterRead.Http

/-- The bytes of a header's value. -/
abbrev HeaderValue := List UInt8

/-- Headers in order; names are written in lower case. -/
abbrev Headers := List (String × HeaderValue)

/-- The first value of a header, whatever the case of its name. -/
def Headers.get? (headers : Headers) (name : String) : Option HeaderValue :=
  (headers.find? fun h => h.1.toLower == name).map (·.2)

structure Response where
  status : Nat
  headers : Headers
  body : String
  deriving DecidableEq, Repr

namespace Response

/-- A response with a JSON object. -/
def json (status : Nat) (members : List (String × Json.Scalar)) : Response :=
  ⟨status, [("content-type", Crypto.utf8 "application/json")],
    String.ofList (Json.writeObject members)⟩

/-- A response without a body. -/
def empty (status : Nat) : Response := ⟨status, [], ""⟩

/-- The body of every error answer. -/
def error (status : Nat) (message : String) : Response :=
  json status [("statusCode", .number status), ("message", .text message)]

/-- The answer to a request that failed. -/
def ofFailure (f : Failure) : Response :=
  let response := error f.status f.clientMessage
  match f.retryAfter? with
  | some seconds =>
    { response with
      headers := response.headers ++ [("retry-after", Crypto.utf8 (toString seconds))] }
  | none => response

end Response

end BurnAfterRead.Http
