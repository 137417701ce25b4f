import BurnAfterRead.Json.Reader
import BurnAfterRead.Json.Writer
import BurnAfterRead.Store.Record
import BurnAfterRead.Time.Timestamp

/-!
# Records as JSON

The text under which a key-value store keeps a record: an object with the fields `id`, `value` and
`expiresAt`. The reader also takes an array of the three, and blanks around the record.
-/

namespace BurnAfterRead.Payload

/-- The names of the fields in the order they are written. -/
def fieldNames : List String := ["id", "value", "expiresAt"]

/-- The text of a record. -/
def write (r : Record) : String :=
  String.ofList (Json.writeObject
    [("id", .text r.id), ("value", .text r.value), ("expiresAt", .text r.expiresAt.text)])

/-- Reads a record; every field has to be there. -/
def read? (text : String) : Option Record :=
  match Json.readRecord fieldNames false text.toList with
  | .ok (fields, rest) => do
    let id ← fields.get "id"
    let value ← fields.get "value"
    let expiresAt ← Timestamp.read? (← fields.get "expiresAt").toList
    if Json.skipSpace rest = [] then some ⟨id, value, expiresAt⟩ else none
  | .error _ => none

/-- Reads what was found under a key; a missing key is a missing record. -/
def decode : Option String → Except Failure Record
  | none => .error .secretNotFound
  | some text =>
    match read? text with
    | some r => .ok r
    | none => .error (.badRecord "not a record")

/-- The milliseconds that a record still has to live; at least one, as a key cannot live for none. -/
def lifetime (r : Record) (now : Instant) : Nat := (max (r.expiresAt.since now).millis 1).toNat

end BurnAfterRead.Payload
