import BurnAfterRead.Dialogue
import BurnAfterRead.Store.Command
import BurnAfterRead.Store.Payload

/-!
# Records in a key-value server

Each record is a key with a time to live, so the server drops it by itself and a sweep has nothing
to do. A command takes one request to the server; `KeyValue.command` is the client's side, `Keys`
the server's.
-/

namespace BurnAfterRead.KeyValue

/-- What the server is asked. -/
inductive Request where
  | get (key : String)
  /-- Set a key to a text for a number of milliseconds. -/
  | set (key text : String) (lifetime : Nat)
  | delete (key : String)
  deriving DecidableEq, Repr

/-- What the server answers; a deletion with the number of keys that are gone. -/
def Request.Answer : Request → Type
  | get _ => Except Failure (Option String)
  | set _ _ _ => Except Failure Unit
  | delete _ => Except Failure Nat

namespace Request

/-- The server's own word for a request. -/
def word : Request → String
  | get _ => "GET"
  | set _ _ _ => "PSETEX"
  | delete _ => "DEL"

/-- The answer to a request that is refused. -/
def refusal (f : Failure) : (q : Request) → q.Answer
  | get _ => Except.error f
  | set _ _ _ => Except.error f
  | delete _ => Except.error f

end Request

/-- A store's command as requests to the server. -/
def command (now : Instant) : (c : Command) → Dialogue Request Request.Answer c.Reply
  | .find id => .ask (.get id) fun answer => .done (answer.bind Payload.decode)
  | .insert draft =>
    let r := draft.record
    .ask (.set r.id (Payload.write r) (Payload.lifetime r now)) fun answer =>
      .done (answer.map fun _ => r)
  | .remove id => .ask (.delete id) fun answer => .done (answer.bind removedOne)
  | .sweep => .done (removedSome 0)
  | .close => .done (.ok ())

/-- A key, its text, and when the server drops it, in milliseconds since 1970. -/
structure Entry where
  key : String
  text : String
  deadline? : Option Int
  deriving DecidableEq, Repr

/-- The keys of a server. -/
structure Keys where
  entries : List Entry
  deriving DecidableEq, Repr

namespace Keys

def empty : Keys := ⟨[]⟩

/-- A key is gone once the time in milliseconds has reached its deadline. -/
def Entry.isLive (now : Instant) (e : Entry) : Bool :=
  match e.deadline? with
  | some deadline => now.millis < deadline
  | none => true

/-- The keys that are left at a time. -/
def live (now : Instant) (keys : Keys) : Keys := ⟨keys.entries.filter (Entry.isLive now)⟩

def size (keys : Keys) : Nat := keys.entries.length

def find? (keys : Keys) (key : String) : Option Entry := keys.entries.find? (·.key == key)

def erase (keys : Keys) (key : String) : Keys := ⟨keys.entries.filter (·.key != key)⟩

def put (keys : Keys) (e : Entry) : Keys := ⟨(keys.erase e.key).entries ++ [e]⟩

/-- The server's answer to a request. -/
def answer (now : Instant) : (q : Request) → Keys → q.Answer × Keys
  | .get key, keys =>
    let keys := keys.live now
    (.ok ((keys.find? key).map (·.text)), keys)
  | .set key text lifetime, keys =>
    (.ok (), (keys.live now).put ⟨key, text, some (now.millis + lifetime)⟩)
  | .delete key, keys =>
    let keys := keys.live now
    (.ok (keys.size - (keys.erase key).size), keys.erase key)

end Keys

/-- A store on a server that answers every request. -/
def store : Store Keys := fun now c keys => (command now c).run (Keys.answer now) keys

end BurnAfterRead.KeyValue
