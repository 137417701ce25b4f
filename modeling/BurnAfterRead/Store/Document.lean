import BurnAfterRead.Dialogue
import BurnAfterRead.Id.ObjectId
import BurnAfterRead.Store.Command

/-!
# Records in a document server

Documents are named by object identifiers and keep their expiry in milliseconds, cut toward the
past. A new document is read back, so that a caller sees what was stored. `Document.command` is
the client's side, `Collection` the server's.
-/

namespace BurnAfterRead

/-- A document as it is kept; one that was never stored has no identifier. -/
structure Document where
  id? : Option ObjectId
  value : String
  /-- Milliseconds since 1970. -/
  expiresAt : Int
  deriving DecidableEq, Repr

namespace Document

/-- The names of a document's fields in alphabetical order. -/
def fieldNames (d : Document) : List String :=
  if d.id?.isSome then ["_id", "expiresAt", "value"] else ["expiresAt", "value"]

/-- The record of a document. -/
def toRecord (d : Document) : Except Failure Record :=
  match d.id?, Instant.ofMillis? d.expiresAt with
  | none, _ => .error (.badRecord "document has no _id")
  | some _, none => .error (.badRecord "expiresAt out of range")
  | some id, some expiresAt => .ok ⟨id.text, d.value, expiresAt⟩

/-- A text that is no object identifier names no document. -/
def readId (id : String) : Except Failure ObjectId :=
  match ObjectId.ofText? id with
  | some oid => .ok oid
  | none => .error .secretNotFound

/-- Which documents a request is about. -/
inductive Filter where
  | named (id : ObjectId)
  /-- Documents that expire before a number of milliseconds since 1970. -/
  | expiresBefore (millis : Int)
  deriving DecidableEq, Repr

namespace Filter

/-- Documents that have expired. -/
def expired (now : Instant) : Filter := expiresBefore now.millis

/-- The fields that the filter is about. -/
def fieldNames : Filter → List String
  | named _ => ["_id"]
  | expiresBefore _ => ["expiresAt"]

/-- How the fields are compared; equality has no operator. -/
def operators : Filter → List String
  | named _ => []
  | expiresBefore _ => ["$lt"]

def selects : Filter → Document → Bool
  | named id, d => d.id? == some id
  | expiresBefore millis, d => d.expiresAt < millis

end Filter

/-- What the server is asked. -/
inductive Request where
  /-- The first document that a filter selects. -/
  | find (filter : Filter)
  | insert (document : Document)
  /-- Remove the first document that a filter selects. -/
  | deleteOne (filter : Filter)
  /-- Remove every document that a filter selects. -/
  | deleteAll (filter : Filter)
  deriving DecidableEq, Repr

/-- What the server answers; a deletion with the number of documents that are gone. -/
def Request.Answer : Request → Type
  | find _ => Except Failure (Option Document)
  | insert _ => Except Failure Unit
  | deleteOne _ => Except Failure Nat
  | deleteAll _ => Except Failure Nat

namespace Request

/-- The server's own word for a request. -/
def word : Request → String
  | find _ => "find"
  | insert _ => "insert"
  | deleteOne _ | deleteAll _ => "delete"

/-- The answer to a request that is refused. -/
def refusal (f : Failure) : (q : Request) → q.Answer
  | find _ => Except.error f
  | insert _ => Except.error f
  | deleteOne _ => Except.error f
  | deleteAll _ => Except.error f

end Request

/-- The record of a document that was looked up. -/
def found : Option Document → Except Failure Record
  | some d => d.toRecord
  | none => .error .secretNotFound

/-- A store's command as requests to the server. -/
def command (now : Instant) : (c : Command) → Dialogue Request Request.Answer c.Reply
  | .find id =>
    match readId id with
    | .ok oid => .ask (.find (.named oid)) fun answer => .done (answer.bind found)
    | .error f => .done (.error f)
  | .insert draft =>
    let oid := ObjectId.ofRandom draft.random
    .ask (.insert ⟨some oid, draft.value, draft.expiresAt.millis⟩) fun
      | .ok () => .ask (.find (.named oid)) fun answer => .done (answer.bind found)
      | .error f => .done (.error f)
  | .remove id =>
    match readId id with
    | .ok oid => .ask (.deleteOne (.named oid)) fun answer => .done (answer.bind removedOne)
    | .error f => .done (.error f)
  | .sweep => .ask (.deleteAll (.expired now)) fun answer => .done (answer.bind removedSome)
  | .close => .done (.ok ())

/-- The documents of a collection in the order of their insertion. -/
structure Collection where
  documents : List Document
  deriving DecidableEq, Repr

namespace Collection

def empty : Collection := ⟨[]⟩

def size (c : Collection) : Nat := c.documents.length

def find? (c : Collection) (filter : Filter) : Option Document := c.documents.find? filter.selects

def insert (c : Collection) (d : Document) : Collection := ⟨c.documents ++ [d]⟩

def eraseAll (c : Collection) (filter : Filter) : Collection :=
  ⟨c.documents.filter fun d => !filter.selects d⟩

def eraseFirst (c : Collection) (filter : Filter) : Collection :=
  ⟨c.documents.eraseP filter.selects⟩

/-- The server's answer to a request. -/
def answer : (q : Request) → Collection → q.Answer × Collection
  | .find filter, c => (.ok (c.find? filter), c)
  | .insert d, c => (.ok (), c.insert d)
  | .deleteOne filter, c => (.ok (c.size - (c.eraseFirst filter).size), c.eraseFirst filter)
  | .deleteAll filter, c => (.ok (c.size - (c.eraseAll filter).size), c.eraseAll filter)

end Collection

/-- A store on a server that answers every request. -/
def store : Store Collection := fun now c docs => (command now c).run Collection.answer docs

end Document

end BurnAfterRead
