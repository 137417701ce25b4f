import BurnAfterRead.Http.ClientAddress

/-!
# Media types

What a body is said to be: a type, a subtype that may end in a plus sign and a suffix, and
parameters. All of it has to be well-formed before it is believed.
-/

namespace BurnAfterRead.Http

/-- The parts of a media type that tell the form of a body, in lower case. -/
structure MediaType where
  main : List Char
  subtype : List Char
  suffix : Option (List Char)
  deriving DecidableEq, Repr

namespace MediaType

/-- The characters of names and of values without quotes. -/
def isToken (c : Char) : Bool := c.isAlphanum || "!#$%&'*+-.^_`|~".toList.contains c

def isQuotable (c : Char) : Bool := 32 ≤ c.toNat && c.toNat != 127

/-- What follows the closing quote of a value, which has at least one character. -/
def afterQuote? : List Char → Option (List Char)
  | [] => none
  | c :: cs =>
    if isQuotable c && (cs.takeWhile (· != '"')).all isQuotable then
      match cs.dropWhile (· != '"') with
      | _ :: rest => some rest
      | [] => none
    else none

/-- What follows a parameter's value, if that is well-formed: nothing, or a semicolon and more. -/
def afterValue? : List Char → Option (List Char)
  | '"' :: quoted => do
    let rest ← afterQuote? quoted
    match rest.dropWhile (· == ' ') with
    | [] => some []
    | ';' :: more => some more
    | _ => none
  | cs =>
    match cs.dropWhile isToken with
    | [] => some []
    | ';' :: more => if cs.head? = some ';' then none else some more
    | _ => none

/-- Whether the text is a list of parameters, at most `fuel` of them. -/
def areParameters : Nat → List Char → Bool
  | 0, cs => cs.isEmpty
  | fuel + 1, cs =>
    let cs := cs.dropWhile (· == ' ')
    match cs.takeWhile isToken, cs.dropWhile isToken with
    | [], [] => true
    | _ :: _, '=' :: value =>
      match afterValue? value with
      | some rest => areParameters fuel rest
      | none => false
    | _, _ => false

/-- A type of a well-formed main type and a subtype with its suffix behind the last plus sign. -/
def ofParts (main subtype : List Char) : MediaType :=
  match Text.cutLast '+' (Text.lower subtype) with
  | some (c :: base, suffix) => ⟨Text.lower main, c :: base, some suffix⟩
  | _ => ⟨Text.lower main, Text.lower subtype, none⟩

/-- Reads a media type. -/
def read? (cs : List Char) : Option MediaType :=
  let main := cs.takeWhile isToken
  match main, cs.dropWhile isToken with
  | _ :: _, '/' :: rest =>
    let subtype := rest.takeWhile isToken
    match rest.dropWhile isToken with
    | [] => some (ofParts main subtype)
    | ';' :: parameters =>
      if subtype ≠ [] ∧ areParameters (parameters.length + 1) parameters then
        some (ofParts main subtype)
      else none
    | _ => none
  | _, _ => none

/-- Whether a body of this type is JSON. -/
def isJson (t : MediaType) : Bool :=
  let json := ['j', 's', 'o', 'n']
  t.main == "application".toList && (t.subtype == json || t.suffix == some json)

end MediaType

/-- Whether the headers announce a body of JSON. -/
def Headers.announceJson (headers : Headers) : Bool :=
  (((headers.text? "content-type").bind MediaType.read?).map MediaType.isJson).getD false

end BurnAfterRead.Http
