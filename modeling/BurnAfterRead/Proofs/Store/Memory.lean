import BurnAfterRead.Proofs.Store.Custody
import BurnAfterRead.Proofs.Store.Keeping
import BurnAfterRead.Proofs.Store.Shelving
import BurnAfterRead.Store.Memory
import Mathlib.Data.List.Nodup

/-!
# What the store in memory replies

How many records go with an identifier, and what that means for the replies: a lookup finds what is
there, and a removal is acknowledged exactly if it takes a record away.
-/

namespace BurnAfterRead

theorem Uuid.text_ofRandom_ne (random : BitVec 128) : (ofRandom random).text ≠ "" := by
  intro h
  have hchars := congrArg String.toList h
  unfold text at hchars
  rw [String.toList_ofList] at hchars
  have hlen := congrArg List.length hchars
  simp [hyphenate, groupLengths] at hlen

namespace Memory

/-- How many records have an identifier. -/
def count (m : Memory) (x : String) : Nat := m.records.countP (·.id == x)

theorem count_erase (m : Memory) (id x : String) :
    (m.erase id).count x = if id = x then 0 else m.count x := by
  unfold count erase
  rw [List.countP_filter]
  split
  · rename_i h
    subst h
    simp
  · rename_i h
    refine List.countP_congr fun r _ => ?_
    simp only [Bool.and_eq_true, beq_iff_eq, bne_iff_ne, ne_eq, and_iff_left_iff_imp]
    rintro rfl
    exact Ne.symm h

theorem count_insert (m : Memory) (r : Record) (x : String) :
    (m.insert r).count x = if r.id = x then 1 else m.count x := by
  unfold insert count
  rw [List.countP_append]
  change (m.erase r.id).count x + _ = _
  rw [count_erase]
  split <;> simp_all [count]

theorem count_live_le (m : Memory) (now : Instant) (x : String) : (m.live now).count x ≤ m.count x := by
  unfold count live
  exact List.Sublist.countP_le List.filter_sublist

/-- The number of records that an erasure takes away. -/
theorem size_sub_size_erase (m : Memory) (id : String) : m.size - (m.erase id).size = m.count id :=
  length_sub_length_filter m.records fun r => r.id == id

theorem count_pos_iff (m : Memory) (id : String) : 0 < m.count id ↔ ∃ r, m.find? id = some r := by
  unfold count find?
  rw [List.countP_pos_iff, ← Option.isSome_iff_exists, List.find?_isSome]

theorem store_find_of_some {m : Memory} {id : String} {r : Record} (h : m.find? id = some r)
    (now : Instant) : (store now (.find id) m).1 = .ok r := by
  simp only [store, h]

theorem find?_of_store_find {m : Memory} {id : String} {now : Instant} {r : Record}
    (h : (store now (.find id) m).1 = .ok r) : m.find? id = some r := by
  simp only [store] at h
  cases hfind : m.find? id with
  | none => rw [hfind] at h; exact absurd h (by simp)
  | some r' => rw [hfind] at h; rw [Except.ok.inj h]

/-- A lookup can only fail for want of a record. -/
theorem eq_secretNotFound_of_store_find {m : Memory} {id : String} {now : Instant} {f : Failure}
    (h : (store now (.find id) m).1 = .error f) : f = .secretNotFound ∧ m.find? id = none := by
  simp only [store] at h
  cases hfind : m.find? id with
  | none => rw [hfind] at h; exact ⟨(Except.error.inj h).symm, rfl⟩
  | some r' => rw [hfind] at h; exact absurd h (by simp)

/-- A removal is acknowledged exactly if there is something to remove. -/
theorem store_remove (m : Memory) (now : Instant) (id : String) :
    (store now (.remove id) m).1 =
      if m.find? id = none then .error .secretNotFound else .ok () := by
  have hcount := count_pos_iff m id
  have hreply : (store now (.remove id) m).1 = removedOne (m.count id) := by
    rw [← size_sub_size_erase]
    rfl
  rw [hreply, removedOne]
  cases hfind : m.find? id with
  | none =>
    have hzero : m.count id = 0 := by
      refine Nat.eq_zero_of_not_pos fun hpos => ?_
      obtain ⟨r, hr⟩ := hcount.1 hpos
      exact absurd (hfind.symm.trans hr) (by simp)
    rw [if_pos hzero, if_pos rfl]
    rfl
  | some r =>
    rw [if_neg (Nat.ne_of_gt (hcount.2 ⟨r, hfind⟩)), if_neg (by simp)]
    rfl

theorem id_of_find? {m : Memory} {id : String} {r : Record} (h : m.find? id = some r) : r.id = id := by
  have hid := List.find?_some h
  exact beq_iff_eq.1 hid

theorem find?_of_mem {m : Memory} (nodup : (m.records.map (·.id)).Nodup) {r : Record}
    (h : r ∈ m.records) : m.find? r.id = some r := by
  unfold find?
  generalize m.records = l at nodup h
  induction l with
  | nil => cases h
  | cons x l ih =>
    rw [List.map_cons, List.nodup_cons] at nodup
    obtain ⟨hx, nodup⟩ := nodup
    rw [List.find?_cons]
    rcases List.mem_cons.1 h with rfl | h
    · simp
    · have hne : (x.id == r.id) = false := by
        refine beq_eq_false_iff_ne.2 fun heq => hx ?_
        rw [heq]
        exact List.mem_map_of_mem h
      rw [hne]
      exact ih nodup h

/-- A record at hand was there before, or is the one that was asked for. -/
theorem mem_store {m : Memory} {now : Instant} {c : Command} {r : Record}
    (h : r ∈ (store now c m).2.records) :
    r ∈ m.records ∨ ∃ draft, c = .insert draft ∧ r = draft.record := by
  cases c with
  | find id =>
    refine Or.inl ?_
    simp only [store] at h
    split at h <;> exact h
  | insert draft =>
    rcases List.mem_append.1 h with h | h
    · exact Or.inl (List.mem_filter.1 h).1
    · exact Or.inr ⟨draft, rfl, List.mem_singleton.1 h⟩
  | remove id => exact Or.inl (List.mem_filter.1 h).1
  | sweep => exact Or.inl (List.mem_filter.1 h).1
  | close => exact Or.inl h

theorem answerFind_records (m : Memory) (now : Instant) (id : String) :
    store now (.find id) m = (answerFind m.records id, m) := by
  unfold answerFind
  simp only [store, find?]
  cases m.records.find? (·.id == id) <;> rfl

def keeping : Keeping store .empty fun random => (Uuid.ofRandom random).text where
  Keeps m rs := m.records = rs
  identifier_ne := Uuid.text_ofRandom_ne
  keeps_empty := rfl
  find := by
    rintro m rs now id rfl - -
    exact ⟨m, m.records, .refl now _, rfl, answerFind_records m now id⟩
  insert := by
    rintro m rs now draft rfl - - hfresh
    refine ⟨m.insert draft.record, m.records, .refl now _, ?_, rfl⟩
    have herase : (m.erase draft.record.id).records = m.records :=
      List.filter_eq_self.2 fun r hr => bne_iff_ne.2 (hfresh r hr)
    unfold insert
    rw [herase]
    rfl
  remove := by
    rintro m rs now id rfl - -
    refine ⟨m.erase id, m.records, .refl now _, rfl, ?_⟩
    simp only [store]
    rw [size_sub_size_erase]
    rfl

/-- Records that go by one identifier are one. -/
theorem eq_of_id_beq {rs : List Record} (nodup : (rs.map (·.id)).Nodup) {id : String} {a b : Record}
    (ha : a ∈ rs) (hb : b ∈ rs) (hida : (a.id == id) = true) (hidb : (b.id == id) = true) : a = b :=
  List.inj_on_of_nodup_map nodup ha hb ((beq_iff_eq.1 hida).trans (beq_iff_eq.1 hidb).symm)

theorem nodup_append {rs : List Record} (nodup : (rs.map (·.id)).Nodup) {r : Record}
    (hfresh : ∀ x ∈ rs, (x.id == r.id) = false) : ((rs ++ [r]).map (·.id)).Nodup :=
  nodup_map_concat nodup fun x hx => beq_eq_false_iff_ne.1 (hfresh x hx)

theorem nodup_filter {rs : List Record} (nodup : (rs.map (·.id)).Nodup) (p : Record → Bool) :
    ((rs.filter p).map (·.id)).Nodup :=
  nodup.sublist (List.filter_sublist.map _)

/-- A draft's record goes by the identifier of its random bits only. -/
theorem text_eq_of_record (random : BitVec 128) (draft : Draft)
    (h : (draft.record.id == (Uuid.ofRandom random).text) = true) :
    (Uuid.ofRandom random).text = (Uuid.ofRandom draft.random).text :=
  (beq_iff_eq.1 h).symm

def shelving : Shelving store .empty (fun random => (Uuid.ofRandom random).text) (fun _ => True)
    Record where
  Keeps m rs := m.records = rs ∧ (rs.map (·.id)).Nodup
  names id r := r.id == id
  read := .ok
  shelve := Draft.record
  sweeps now r := r.isExpired now
  keeps_empty := ⟨rfl, List.nodup_nil⟩
  names_shelve := text_eq_of_record
  unique := by
    rintro m rs id ⟨-, nodup⟩ a ha b hb hida hidb
    exact eq_of_id_beq nodup ha hb hida hidb
  find := by
    rintro m rs ⟨rfl, -⟩ now id
    simp only [store, find?]
    cases m.records.find? (·.id == id) <;> rfl
  insert := by
    rintro m rs ⟨rfl, nodup⟩ draft - - hfresh now
    refine ⟨m.insert draft.record, ⟨?_, nodup_append nodup hfresh⟩, rfl⟩
    have herase : (m.erase draft.record.id).records = m.records :=
      List.filter_eq_self.2 fun r hr => bne_iff_ne.2 (beq_eq_false_iff_ne.1 (hfresh r hr))
    unfold insert
    rw [herase]
  remove := by
    rintro m rs ⟨rfl, nodup⟩ now id
    refine ⟨m.erase id, ⟨rfl, nodup_filter nodup _⟩, ?_⟩
    simp only [store]
    rw [size_sub_size_erase]
    rfl
  sweep := by
    rintro m rs now ⟨rfl, nodup⟩ -
    exact ⟨rfl, nodup_filter nodup _⟩
  expired_of_sweeps := by
    intro m rs now _ _ r _ hexpired
    exact ⟨r, rfl, hexpired⟩

/-- The text of an identifier denotes this identifier only. -/
theorem uuid_denotes_iff {id : String} {a : BitVec 128} (h : id = (Uuid.ofRandom a).text)
    (b : BitVec 128) :
    id = (Uuid.ofRandom b).text ↔ (Uuid.ofRandom b).text = (Uuid.ofRandom a).text := by
  rw [h, eq_comm]

theorem record_goesBy (id : String) (r : Record) (d : Draft) (h : r = d.record) :
    (r.id == id) = true ↔ id = (Uuid.ofRandom d.random).text := by
  rw [h, beq_iff_eq, eq_comm]
  rfl

def custody : Custody store .empty (fun random => (Uuid.ofRandom random).text)
    (fun id random => id = (Uuid.ofRandom random).text) where
  Holds m := KeptFor (fun r d => r = d.record) m.records
  read d := .ok d.record
  denotes_iff := uuid_denotes_iff
  holds_empty := .nil
  mono h := h.mono
  find := by
    intro m P h now id
    simp only [store, find?]
    rcases h.find? (record_goesBy id) with ⟨hnone, hleft⟩ | ⟨r, d, hsome, hfor, hd, hid⟩
    · rw [hnone]
      exact ⟨h, Or.inl ⟨rfl, hleft⟩⟩
    · rw [hsome]
      exact ⟨h, Or.inr ⟨d, hd, hid, congrArg Except.ok hfor⟩⟩
  insert := by
    intro m P h now draft _
    refine ⟨(h.subset fun _ hr => (List.mem_filter.1 hr).1).concat rfl, fun r hr => ?_⟩
    obtain rfl := Except.ok.inj hr
    exact ⟨rfl, fun _ => rfl⟩
  remove h _ id := h.filter_not (record_goesBy id)
  sweep h _ := h.subset fun _ hr => (List.mem_filter.1 hr).1
  read_error h := by cases h

end Memory

end BurnAfterRead
