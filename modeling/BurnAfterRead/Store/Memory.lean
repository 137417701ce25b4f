import BurnAfterRead.Store.Command

/-!
# Records in memory

A table of records by identifier. Identifiers occur once: storing a record under an identifier in
use replaces the record there.
-/

namespace BurnAfterRead

/-- The records in the order of their creation. -/
structure Memory where
  records : List Record
  deriving DecidableEq, Repr

namespace Memory

def empty : Memory := ⟨[]⟩

/-- The number of records, expired or not. -/
def size (m : Memory) : Nat := m.records.length

def find? (m : Memory) (id : String) : Option Record := m.records.find? (·.id == id)

def erase (m : Memory) (id : String) : Memory := ⟨m.records.filter (·.id != id)⟩

def insert (m : Memory) (r : Record) : Memory := ⟨(m.erase r.id).records ++ [r]⟩

/-- The records that have not expired. -/
def live (m : Memory) (now : Instant) : Memory := ⟨m.records.filter fun r => !r.isExpired now⟩

/-- A store that keeps its records in memory. -/
def store : Store Memory
  | _, .find id, m =>
    match m.find? id with
    | some r => (.ok r, m)
    | none => (.error .secretNotFound, m)
  | _, .insert draft, m => (.ok draft.record, m.insert draft.record)
  | _, .remove id, m => (removedOne (m.size - (m.erase id).size), m.erase id)
  | now, .sweep, m => (removedSome (m.size - (m.live now).size), m.live now)
  | _, .close, m => (.ok (), m)

theorem find?_insert_self (m : Memory) (r : Record) : (m.insert r).find? r.id = some r := by
  have h : (m.erase r.id).records.find? (·.id == r.id) = none := by
    simp [erase]
  simp only [find?, insert, List.find?_append, h]
  simp

theorem find?_insert_of_ne (m : Memory) {r : Record} {id : String} (h : r.id ≠ id) :
    (m.insert r).find? id = m.find? id := by
  simp only [find?, insert, erase, List.find?_append, List.find?_filter]
  have hr : List.find? (·.id == id) [r] = none := by simp [h]
  rw [hr, Option.or_none]
  congr 1
  funext x
  by_cases hx : x.id = id
  · simp [hx, Ne.symm h]
  · simp [hx]

theorem find?_erase_self (m : Memory) (id : String) : (m.erase id).find? id = none := by
  simp [find?, erase]

theorem find?_erase_of_ne (m : Memory) {id other : String} (h : other ≠ id) :
    (m.erase id).find? other = m.find? other := by
  simp only [find?, erase, List.find?_filter]
  congr 1
  funext x
  by_cases hx : x.id = other
  · simp [hx, h]
  · simp [hx]

end Memory

end BurnAfterRead
