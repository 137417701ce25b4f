import BurnAfterRead.Proofs.Json.RoundTrip
import BurnAfterRead.Proofs.Time.Millis
import BurnAfterRead.Store.Payload

/-!
# Records are read back from their payload

The text of a record gives the record back, and the time that the record is given to live does not
end before the record does.
-/

namespace BurnAfterRead.Payload

theorem read?_write {r : Record} (h : r.expiresAt.WellFormed) : read? (write r) = some r := by
  let members := [("id", r.id), ("value", r.value), ("expiresAt", r.expiresAt.text)]
  have hread : Json.readRecord fieldNames false (Json.writeObject (Json.textMembers members)) =
      .ok (Json.textFields members, []) := by
    have hknown : ∀ m ∈ members, fieldNames.contains m.1 = true := by simp [members, fieldNames]
    have hrecord := Json.readRecord_writeObject false (List.cons_ne_nil _ _) hknown (by simp) []
    rw [List.append_nil] at hrecord
    exact hrecord
  have hwrite : (write r).toList = Json.writeObject (Json.textMembers members) := by
    unfold write
    rw [String.toList_ofList]
    rfl
  have hid : (Json.textFields members).get "id" = some r.id := rfl
  have hvalue : (Json.textFields members).get "value" = some r.value := rfl
  have hexpiry : (Json.textFields members).get "expiresAt" = some r.expiresAt.text := rfl
  unfold read?
  rw [hwrite, hread]
  simp only [hid, hvalue, hexpiry, Timestamp.read?_text h, Option.bind_eq_bind, Option.bind_some]
  rfl

theorem decode_write {r : Record} (h : r.expiresAt.WellFormed) : decode (some (write r)) = .ok r := by
  unfold decode
  simp only [read?_write h]

/-- The time that a record is given to live does not end before the record does. -/
theorem millis_le_lifetime {r : Record} {now : Instant} (hr : r.expiresAt.WholeMillis)
    (hnow : now.WholeMillis) : r.expiresAt.millis ≤ now.millis + lifetime r now := by
  have hsince := hr.since_millis hnow
  unfold lifetime
  rw [hsince]
  omega

end BurnAfterRead.Payload
