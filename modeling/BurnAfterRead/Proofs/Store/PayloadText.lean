import BurnAfterRead.Proofs.Json.Records
import BurnAfterRead.Proofs.Store.Payload

/-!
# Which texts are records

A text is a record if it is an object or an array with the three fields, each of them a text, and if the
text of its expiry tells a time. Such a text is decoded to that record, and every other text is refused.
-/

namespace BurnAfterRead.Payload

/-- The text says that there is this record: the identifier, the value and the expiry are there, once
each. -/
inductive Spells : String → Record → Prop where
  | mk {w ws : List Char} {fields : Json.Fields} {expiry : String} {r : Record}
      (record : Json.RecordText fieldNames false w fields) (blank : Json.Blank ws)
      (id : fields.get "id" = some r.id) (value : fields.get "value" = some r.value)
      (expiresAt : fields.get "expiresAt" = some expiry)
      (time : Timestamp.read? expiry.toList = some r.expiresAt) : Spells (String.ofList (w ++ ws)) r

theorem read?_eq_some_iff {text : String} {r : Record} : read? text = some r ↔ Spells text r := by
  constructor
  · intro h
    unfold read? at h
    split at h
    · rename_i fields rest hread
      obtain ⟨w, record, hw⟩ := Json.readRecord_eq_ok_iff.1 hread
      simp only [Option.bind_eq_bind, Option.bind_eq_some_iff] at h
      obtain ⟨id, hid, value, hvalue, expiry, hexpiry, t, ht, h⟩ := h
      split at h
      · rename_i hblank
        obtain rfl := Option.some.inj h
        have htext : text = String.ofList (w ++ rest) := by rw [← hw, String.ofList_toList]
        rw [htext]
        exact .mk record (Json.skipSpace_eq_nil_iff.1 hblank) hid hvalue hexpiry ht
      · cases h
    · cases h
  · rintro ⟨record, blank, hid, hvalue, hexpiry, ht⟩
    unfold read?
    rw [String.toList_ofList, Json.readRecord_eq_ok_iff.2 ⟨_, record, rfl⟩]
    simp only [hid, hvalue, hexpiry, ht, Json.skipSpace_eq_nil_iff.2 blank, Option.bind_eq_bind,
      Option.bind_some, if_true]

theorem decode_eq_ok_iff {text : String} {r : Record} : decode (some text) = .ok r ↔ Spells text r := by
  rw [← read?_eq_some_iff]
  unfold decode
  dsimp only
  cases read? text with
  | none => exact iff_of_false (fun h => nomatch h) (fun h => nomatch h)
  | some r' => rw [Except.ok.injEq, Option.some.injEq]

theorem decode_of_not_spells {text : String} (h : ∀ r, ¬Spells text r) :
    ∃ detail, decode (some text) = .error (.badRecord detail) := by
  have hnone : read? text = none := by
    refine Option.eq_none_iff_forall_ne_some.2 fun r hr => ?_
    exact h r (read?_eq_some_iff.1 hr)
  unfold decode
  dsimp only
  rw [hnone]
  exact ⟨_, rfl⟩

/-- The text that is written for a record is decoded to that record, whatever its identifier, its value
and its expiry are. A missing text is a missing record. Every other text is decoded to the record that it
spells, and refused if it spells none. -/
theorem decode_exact :
    decode none = .error .secretNotFound ∧
      (∀ r : Record, r.expiresAt.WellFormed → decode (some (write r)) = .ok r) ∧
      ∀ text, (∃ r, Spells text r ∧ decode (some text) = .ok r) ∨
        ((∀ r, ¬Spells text r) ∧ ∃ detail, decode (some text) = .error (.badRecord detail)) := by
  refine ⟨rfl, fun r h => decode_write h, fun text => ?_⟩
  by_cases h : ∃ r, Spells text r
  · obtain ⟨r, hr⟩ := h
    exact Or.inl ⟨r, hr, decode_eq_ok_iff.2 hr⟩
  · have hnone : ∀ r, ¬Spells text r := fun r hr => h ⟨r, hr⟩
    exact Or.inr ⟨hnone, decode_of_not_spells hnone⟩

/-- A record whose value has quotes, controls and a character beyond the basic plane, and which expires in
a leap second of the year -262143. -/
theorem decode_exact_hard :
    let r : Record := ⟨"a\"b\\", "\n\x01🔥/", ⟨-8334601228741, 1999999999⟩⟩
    decode (some (write r)) = .ok r := by
  intro r
  exact decode_exact.2.1 r (by decide)

end BurnAfterRead.Payload
