import BurnAfterRead.Crypto.Generator
import BurnAfterRead.Http.Draws
import BurnAfterRead.Http.Route
import BurnAfterRead.Http.SecretRequest
import BurnAfterRead.Text.Percent

/-!
# What requests do

Each action of the service as a call that ends in a response. Failures of the service are answered
with their own status and message.
-/

namespace BurnAfterRead.Http

namespace Response

/-- A response with a plain text. -/
def text (status : Nat) (body : String) : Response :=
  ⟨status, [("content-type", Crypto.utf8 "text/plain; charset=utf-8")], body⟩

/-- The answer for a secret that was stored. -/
def created (id : String) (expiresAt : Instant) : Response :=
  json 201 [("id", .text id), ("expiresAt", .text expiresAt.text)]

/-- The answer for a secret that was redeemed. -/
def redeemed (id value : String) (expiresAt : Instant) : Response :=
  json 200 [("id", .text id), ("value", .text value), ("expiresAt", .text expiresAt.text)]

def alive : Response := json 200 [("status", .text "ok")]

def notFound : Response := error 404 "not found"

/-- The answer where a path's segment is no text. -/
def unreadableId : Response := text 400 "Invalid URL: Invalid UTF-8 in `id`"

end Response

/-- How long a random string is where no length is asked for. -/
def defaultLength : Nat := 16

/-- The value of a query's parameter, or else of its short form. The last of several counts. -/
def parameter? (query : List Char) (name short : String) : Option String :=
  let pairs := (Text.formPairs query).reverse
  (pairs.lookup name <|> pairs.lookup short)

/-- The random string that a query asks for; values that cannot be read count as not given. -/
def randomString (query : List Char) (letters : Nat → Nat) : String :=
  let length := (parameter? query "length" "l").bind fun v => Text.readUpTo Text.maxUInt64 v.toList
  let special := (parameter? query "specialCharacters" "sc").bind fun v => Text.readBool v.toList
  Crypto.generate (length.getD defaultLength) (special.getD false) letters

/-- Whether a client asks for plain text. -/
def wantsPlainText (headers : Headers) : Bool :=
  match headers.text? "accept" with
  | some accept => Text.contains "text/plain".toList accept
  | none => false

/-- The passphrase of a request; one that is no text counts as missing. -/
def passphrase? (headers : Headers) : Option String :=
  (headers.text? "passphrase").map String.ofList

/-- When a secret expires; one that does not say so expires now. -/
def expiryOf (secret : Secret) : Call Instant :=
  match secret.expiresAt with
  | some expiresAt => .done expiresAt
  | none => .ask .now .done

/-- Ends a call with the response to its result. -/
def respond {α : Type} (result : Call (Except Failure α)) (response : α → Call Response) :
    Call Response :=
  result.andThen fun
    | .error f => .done (.ofFailure f)
    | .ok a => response a

/-- Stores the secret that a request asks for. -/
def create (s : Service) (chance : Chance) (r : Request) : Call Response :=
  match (SecretRequest.ofRequest r).bind SecretRequest.toSecret with
  | .error f => .done (.ofFailure f)
  | .ok wanted => respond (s.create chance wanted) fun secret =>
    (expiryOf secret).andThen fun expiresAt => .done (.created secret.id expiresAt)

/-- Redeems the secret of an identifier. -/
def redeem (s : Service) (id : String) (headers : Headers) : Call Response :=
  respond (s.get id (passphrase? headers)) fun secret =>
    (expiryOf secret).andThen fun expiresAt => .done (.redeemed secret.id secret.value expiresAt)

/-- Burns the secret of an identifier unread. -/
def delete (s : Service) (id : String) (headers : Headers) : Call Response :=
  respond (s.delete id (passphrase? headers)) fun _ => .done (.empty 204)

/-- Answers with a random string, in the form that the client asks for. -/
def generate (r : Request) (letters : Nat → Nat) : Response :=
  let value := randomString r.query letters
  if wantsPlainText r.headers then .text 200 value else .json 200 [("value", .text value)]

/-- Goes on with the identifier that a path's segment stands for. -/
def withId (segment : List Char) (next : String → Call Response) : Call Response :=
  match Text.percentText? segment with
  | some id => next id
  | none => .done .unreadableId

/-- Does what a request asks for. -/
def Action.perform (s : Service) (draws : Draws) (r : Request) : Action → Call Response
  | health => .done .alive
  | generate => .done (Http.generate r draws.letters)
  | create => Http.create s draws.chance r
  | redeem segment => withId segment fun id => Http.redeem s id r.headers
  | delete segment => withId segment fun id => Http.delete s id r.headers

end BurnAfterRead.Http
