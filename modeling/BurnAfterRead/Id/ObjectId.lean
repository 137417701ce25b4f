import BurnAfterRead.Text.Hex

/-!
# Object identifiers

The twelve bytes that a document store names its documents by, written as hexadecimal digits.
-/

namespace BurnAfterRead

structure ObjectId where
  bytes : List UInt8
  deriving DecidableEq, Repr

namespace ObjectId

/-- The number of bytes. -/
def length : Nat := 12

/-- The identifier of random bits: the first twelve bytes of them. -/
def ofRandom (random : BitVec 128) : ObjectId :=
  ⟨(List.range length).map fun i => UInt8.ofNat ((random.toNat >>> (8 * (15 - i))) % 256)⟩

/-- Lower-case hexadecimal digits. -/
def text (id : ObjectId) : String := String.ofList (Text.hexEncode id.bytes)

/-- Reads 24 hexadecimal digits of either letter case. -/
def ofText? (s : String) : Option ObjectId :=
  (Text.hexDecode? s.toList).bind fun bytes => if bytes.length = length then some ⟨bytes⟩ else none

theorem ofText?_text {id : ObjectId} (h : id.bytes.length = length) : ofText? id.text = some id := by
  simp [ofText?, text, Text.hexDecode?_hexEncode, h]

theorem length_bytes_ofRandom (random : BitVec 128) : (ofRandom random).bytes.length = length := by
  simp [ofRandom]

end ObjectId

end BurnAfterRead
