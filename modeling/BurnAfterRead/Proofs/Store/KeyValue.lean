import BurnAfterRead.Proofs.Store.Memory
import BurnAfterRead.Proofs.Store.Payload
import BurnAfterRead.Store.KeyValue

/-!
# The key-value server as a list of records

Each key holds the payload of a record, and is not dropped before the record has expired. Which
expired records are left depends on the time of the last request; those that are live are all there.
-/

namespace BurnAfterRead.KeyValue

/-- A key that holds a record, for as long as the record lives. -/
structure Entry.Holds (e : Entry) (r : Record) : Prop where
  key : e.key = r.id
  text : e.text = Payload.write r
  deadline : ∃ deadline, e.deadline? = some deadline ∧ r.expiresAt.millis ≤ deadline
  inRange : r.expiresAt.inRange = true
  whole : r.expiresAt.WholeMillis

variable {now : Instant} {es : List Entry} {rs : List Record} {keys : Keys}

theorem Entry.Holds.isLive {e : Entry} {r : Record} (h : e.Holds r) (hnow : now.WholeMillis)
    (hlive : r.isExpired now = false) : Keys.Entry.isLive now e = true := by
  obtain ⟨deadline, hdeadline, hle⟩ := h.deadline
  have hlt : now.millis < r.expiresAt.millis := by
    refine Int.not_le.1 fun hexpired => ?_
    rw [Record.isExpired, (h.whole.notAfter_iff_millis hnow).2 hexpired] at hlive
    cases hlive
  unfold Keys.Entry.isLive
  rw [hdeadline]
  exact decide_eq_true (Int.lt_of_lt_of_le hlt hle)

/-- Only expired records go with the keys that the server drops. -/
theorem exists_lapse (h : List.Forall₂ Entry.Holds es rs) (hnow : now.WholeMillis) :
    ∃ rs', Lapse now rs rs' ∧ List.Forall₂ Entry.Holds (es.filter (Keys.Entry.isLive now)) rs' := by
  induction h with
  | nil => exact ⟨[], .refl now [], .nil⟩
  | @cons e r es rs he _ ih =>
    obtain ⟨rs', hlapse, hrest⟩ := ih
    cases hlive : Keys.Entry.isLive now e with
    | true =>
      rw [List.filter_cons_of_pos hlive]
      exact ⟨r :: rs', hlapse.cons r, .cons he hrest⟩
    | false =>
      rw [List.filter_cons_of_neg (by rw [hlive]; exact Bool.false_ne_true)]
      refine ⟨rs', hlapse.drop ?_, hrest⟩
      cases hexpired : r.isExpired now with
      | true => rfl
      | false =>
        rw [he.isLive hnow hexpired] at hlive
        cases hlive

theorem key_beq {e : Entry} {r : Record} (h : e.Holds r) (id : String) :
    (e.key == id) = (r.id == id) := by
  rw [h.key]

theorem store_find (h : List.Forall₂ Entry.Holds (keys.live now).entries rs) (id : String) :
    store now (.find id) keys = (answerFind rs id, keys.live now) := by
  have hfind := find?_of_forall₂ h fun e r he => key_beq he id
  simp only [store, command, Dialogue.run, Keys.answer, Except.bind]
  congr 1
  unfold answerFind
  change Option.Rel Entry.Holds ((keys.live now).find? id) (rs.find? (·.id == id)) at hfind
  revert hfind
  generalize (keys.live now).find? id = found
  generalize rs.find? (·.id == id) = wanted
  intro hfind
  cases hfind with
  | none => rfl
  | some he =>
    rw [Option.map_some, he.text]
    exact Payload.decode_write (he.whole.wellFormed he.inRange)

theorem holds_erase (keys : Keys) (h : List.Forall₂ Entry.Holds keys.entries rs) (id : String) :
    List.Forall₂ Entry.Holds (keys.erase id).entries (rs.filter (·.id != id)) := by
  refine filter_of_forall₂ h fun e r he => ?_
  rw [he.key]

theorem holds_put (keys : Keys) {e : Entry} {r : Record}
    (h : List.Forall₂ Entry.Holds keys.entries rs) (he : e.Holds r) (hfresh : ∀ x ∈ rs, x.id ≠ r.id) :
    List.Forall₂ Entry.Holds (keys.put e).entries (rs ++ [r]) := by
  have hkept := holds_erase keys h e.key
  have hall : rs.filter (·.id != e.key) = rs := by
    rw [he.key]
    exact List.filter_eq_self.2 fun x hx => bne_iff_ne.2 (hfresh x hx)
  rw [hall] at hkept
  exact List.rel_append hkept (.cons he .nil)

theorem store_remove (h : List.Forall₂ Entry.Holds (keys.live now).entries rs) (id : String) :
    store now (.remove id) keys =
      (removedOne (rs.countP (·.id == id)), (keys.live now).erase id) := by
  have hcount := countP_of_forall₂ h fun e r he => key_beq he id
  have hsize := length_sub_length_filter (keys.live now).entries fun e => e.key == id
  rw [hcount] at hsize
  rw [← hsize]
  rfl

def keeping : Keeping store .empty fun random => (Uuid.ofRandom random).text where
  Keeps keys rs := List.Forall₂ Entry.Holds keys.entries rs
  identifier_ne := Uuid.text_ofRandom_ne
  keeps_empty := .nil
  find := by
    intro keys rs now id h hnow _
    obtain ⟨rs', hlapse, hlive⟩ := exists_lapse h hnow
    exact ⟨keys.live now, rs', hlapse, hlive, store_find hlive id⟩
  insert := by
    intro keys rs now draft h hnow hlasting hfresh
    obtain ⟨rs', hlapse, hlive⟩ := exists_lapse h hnow
    have hentry : Entry.Holds ⟨draft.record.id, Payload.write draft.record,
        some (now.millis + Payload.lifetime draft.record now)⟩ draft.record :=
      ⟨rfl, rfl, ⟨_, rfl, Payload.millis_le_lifetime hlasting.whole hnow⟩, hlasting.inRange,
        hlasting.whole⟩
    have hput := holds_put (keys.live now) hlive hentry fun r hr => hfresh r (hlapse.sublist.subset hr)
    exact ⟨_, rs', hlapse, hput, rfl⟩
  remove := by
    intro keys rs now id h hnow _
    obtain ⟨rs', hlapse, hlive⟩ := exists_lapse h hnow
    exact ⟨_, rs', hlapse, holds_erase (keys.live now) hlive id, store_remove hlive id⟩

section Kept

variable {e : Entry}

theorem find?_live (h : keys.find? e.key = some e) (hlive : Keys.Entry.isLive now e = true) :
    (keys.live now).find? e.key = some e :=
  find?_filter_of_find? h hlive

theorem find?_erase (h : keys.find? e.key = some e) {key : String} (hne : key ≠ e.key) :
    (keys.erase key).find? e.key = some e :=
  find?_filter_of_find? h (bne_iff_ne.2 (Ne.symm hne))

theorem find?_put (h : keys.find? e.key = some e) {other : Entry} (hne : other.key ≠ e.key) :
    (keys.put other).find? e.key = some e := by
  have hkept := find?_erase h hne
  unfold Keys.find? at hkept ⊢
  unfold Keys.put
  rw [List.find?_append, hkept, Option.some_or]

theorem find?_put_self (keys : Keys) (e : Entry) : (keys.put e).find? e.key = some e := by
  have hnone : (keys.erase e.key).entries.find? (·.key == e.key) = none := by
    refine List.find?_eq_none.2 fun x hx => ?_
    simpa using (List.mem_filter.1 hx).2
  exact find?_concat hnone (beq_self_eq_true e.key)

/-- The record of a key that is live is found. -/
theorem store_find_of_find? (h : keys.find? e.key = some e) (hlive : Keys.Entry.isLive now e = true)
    {r : Record} (htext : e.text = Payload.write r) (hr : r.expiresAt.WellFormed) :
    store now (.find e.key) keys = (.ok r, keys.live now) := by
  have hfind := find?_live h hlive
  simp only [store, command, Dialogue.run, Keys.answer, Except.bind, hfind, Option.map_some, htext,
    Payload.decode_write hr]
  rfl

/-- A key that is live can be removed. -/
theorem store_remove_of_find? (h : keys.find? e.key = some e) (hlive : Keys.Entry.isLive now e = true) :
    (store now (.remove e.key) keys).1 = .ok () := by
  have hfind := find?_live h hlive
  have hsize := length_sub_length_filter (keys.live now).entries fun x => x.key == e.key
  have hpos : 0 < (keys.live now).entries.countP fun x => x.key == e.key :=
    List.countP_pos_iff.2 ⟨e, List.mem_of_find?_eq_some hfind, beq_self_eq_true e.key⟩
  rw [← hsize] at hpos
  exact if_neg (Nat.ne_of_gt hpos)

end Kept

/-- A key that was set for a draft. -/
structure Entry.Of (e : Entry) (d : Draft) : Prop where
  key : e.key = (Uuid.ofRandom d.random).text
  text : e.text = Payload.write d.record

theorem Entry.goesBy_of (id : String) (e : Entry) (d : Draft) (h : e.Of d) :
    (e.key == id) = true ↔ id = (Uuid.ofRandom d.random).text := by
  rw [beq_iff_eq, h.key, eq_comm]

theorem decode_error {text : String} {f : Failure} (h : Payload.decode (some text) = .error f) :
    f ≠ .secretNotFound ∧ f ≠ .decryptionFailed := by
  unfold Payload.decode at h
  dsimp only at h
  split at h
  · cases h
  · rw [← Except.error.inj h]
    exact ⟨by simp, by simp⟩

def custody : Custody store .empty (fun random => (Uuid.ofRandom random).text)
    (fun id random => id = (Uuid.ofRandom random).text) where
  Holds keys := KeptFor Entry.Of keys.entries
  read d := Payload.decode (some (Payload.write d.record))
  denotes_iff := Memory.uuid_denotes_iff
  holds_empty := .nil
  mono h := h.mono
  find := by
    intro keys P h now id
    have hlive : KeptFor Entry.Of (keys.live now).entries P :=
      h.subset fun _ he => (List.mem_filter.1 he).1
    simp only [store, command, Dialogue.run, Keys.answer, Except.bind, Keys.find?]
    refine ⟨hlive, ?_⟩
    rcases hlive.find? (Entry.goesBy_of id) with ⟨hnone, hleft⟩ | ⟨e, d, hsome, hfor, hd, hid⟩
    · rw [hnone]
      exact Or.inl ⟨rfl, hleft⟩
    · rw [hsome, Option.map_some, hfor.text]
      exact Or.inr ⟨d, hd, hid, rfl⟩
  insert := by
    intro keys P h now draft _
    have hlive : KeptFor Entry.Of (keys.live now).entries P :=
      h.subset fun _ he => (List.mem_filter.1 he).1
    refine ⟨(hlive.subset fun _ he => (List.mem_filter.1 he).1).concat ⟨rfl, rfl⟩, fun r hr => ?_⟩
    obtain rfl : draft.record = r := Except.ok.inj hr
    exact ⟨rfl, Payload.decode_write⟩
  remove h now id := (h.subset fun _ he => (List.mem_filter.1 he).1).filter_not (Entry.goesBy_of id)
  sweep h _ := h
  read_error := decode_error

end BurnAfterRead.KeyValue
