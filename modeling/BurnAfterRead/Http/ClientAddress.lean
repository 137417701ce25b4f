import BurnAfterRead.Http.IpAddress
import BurnAfterRead.Http.Response
import BurnAfterRead.Text.Blank

/-!
# Who is calling

The key under which a client's requests are counted: the address that a proxy announces, or the
peer's. Three headers may announce one, and the first that holds an address counts.
-/

namespace BurnAfterRead.Http

/-- A header's value as text: only visible ASCII, spaces and tabs are text. -/
def HeaderValue.text? (value : HeaderValue) : Option (List Char) :=
  if value.all fun b => b = 9 || (32 ≤ b && b < 127) then
    some (value.map fun b => Char.ofNat b.toNat)
  else none

/-- The text of the first header of a name. -/
def Headers.text? (headers : Headers) (name : String) : Option (List Char) :=
  (headers.get? name).bind HeaderValue.text?

/-- The address of a `for=` parameter, without quotes. -/
def forParameter? (pair : List Char) : Option (List Char) := do
  let (key, value) ← Text.cutFirst '=' pair
  if Text.sameLetters (Text.trim key) ['f', 'o', 'r'] then
    let address := Text.trimMarks '"' (Text.trim value)
    if address = [] then none else some address
  else none

/-- The address of the first hop of a `Forwarded` header. -/
def forwardedFor? (headers : Headers) : Option (List Char) := do
  let value ← headers.text? "forwarded"
  ((Text.upTo ',' value).splitOn ';').findSome? forParameter?

/-- The first entry of a list of addresses. -/
def firstEntry? (headers : Headers) (name : String) : Option (List Char) := do
  let value ← headers.text? name
  let entry := Text.trim (Text.upTo ',' value)
  if entry = [] then none else some entry

/-- The address without its port. An address with several colons and no brackets has none. -/
def stripPort (address : List Char) : List Char :=
  let plain := match Text.cutFirst ':' address with
    | some (host, port) => if port.contains ':' then address else host
    | none => address
  match address with
  | '[' :: rest =>
    match Text.cutFirst ']' rest with
    | some (host, _) => host
    | none => plain
  | _ => plain

/-- The address that the headers announce. -/
def announced? (headers : Headers) : Option (List Char) :=
  (forwardedFor? headers <|> firstEntry? headers "x-forwarded-for" <|>
    firstEntry? headers "x-real-ip").map stripPort

/-- The key of a request's client. -/
def clientKey (headers : Headers) (peer : Option IpAddress) : String :=
  match announced? headers, peer with
  | some address, _ => String.ofList address
  | none, some ip => String.ofList ip.text
  | none, none => "unknown"

end BurnAfterRead.Http
