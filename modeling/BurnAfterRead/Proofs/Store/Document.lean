import BurnAfterRead.Proofs.Store.Custody
import BurnAfterRead.Proofs.Store.Keeping
import BurnAfterRead.Proofs.Store.Shelving
import BurnAfterRead.Store.Document
import Mathlib.Data.List.Nodup

/-!
# The collection as a list of records

Each document holds a record, named by the object identifier that the record's identifier is the text
of, with its expiry in milliseconds. No two documents have one name, so that a removal, which takes
the first document of a name, takes all of them.
-/

namespace BurnAfterRead

namespace ObjectId

theorem text_ofRandom_ne (random : BitVec 128) : (ofRandom random).text ≠ "" := by
  intro h
  have hread := ofText?_text (length_bytes_ofRandom random)
  rw [h] at hread
  cases hread

theorem ofText?_text_ofRandom (random : BitVec 128) :
    ofText? (ofRandom random).text = some (ofRandom random) :=
  ofText?_text (length_bytes_ofRandom random)

end ObjectId

namespace Document

/-- A document that holds a record. -/
structure Holds (d : Document) (r : Record) : Prop where
  named : ∃ random, d.id? = some (ObjectId.ofRandom random) ∧ r.id = (ObjectId.ofRandom random).text
  value : d.value = r.value
  expiry : d.expiresAt = r.expiresAt.millis
  inRange : r.expiresAt.inRange = true
  whole : r.expiresAt.WholeMillis

variable {d : Document} {r : Record} {ds : List Document} {rs : List Record}

theorem Holds.toRecord (h : d.Holds r) : d.toRecord = .ok r := by
  obtain ⟨random, hid, hrid⟩ := h.named
  unfold Document.toRecord
  rw [hid, h.expiry, h.whole.ofMillis?_millis h.inRange]
  dsimp only
  rw [h.value, ← hrid]

theorem Holds.selects (h : d.Holds r) (random : BitVec 128) :
    Filter.selects (.named (ObjectId.ofRandom random)) d = (r.id == (ObjectId.ofRandom random).text) := by
  obtain ⟨other, hid, hrid⟩ := h.named
  unfold Filter.selects
  dsimp only
  rw [hid, hrid, Bool.eq_iff_iff, beq_iff_eq, beq_iff_eq]
  constructor
  · intro heq
    rw [Option.some.inj heq]
  · intro heq
    have hread := ObjectId.ofText?_text_ofRandom other
    rw [heq, ObjectId.ofText?_text_ofRandom] at hread
    exact hread.symm

theorem found_find? (h : List.Forall₂ Holds ds rs) (random : BitVec 128) :
    found (Collection.find? ⟨ds⟩ (.named (ObjectId.ofRandom random))) =
      answerFind rs (ObjectId.ofRandom random).text := by
  have hfind := find?_of_forall₂ h fun d r hd => hd.selects random
  unfold answerFind Collection.find?
  dsimp only
  revert hfind
  generalize ds.find? _ = document
  generalize rs.find? _ = record
  intro hfind
  cases hfind with
  | none => rfl
  | some hd => exact hd.toRecord

/-- No record goes by a text that names no document. -/
theorem find?_empty (h : List.Forall₂ Holds ds rs) : rs.find? (·.id == "") = none := by
  refine List.find?_eq_none.2 fun r hr heq => ?_
  obtain ⟨d, -, hd⟩ := exists_of_forall₂ h hr
  obtain ⟨random, -, hid⟩ := hd.named
  exact ObjectId.text_ofRandom_ne random (hid.symm.trans (beq_iff_eq.1 heq))

theorem store_find (h : List.Forall₂ Holds ds rs) (now : Instant) {id : String}
    (hid : id = "" ∨ ∃ random, id = (ObjectId.ofRandom random).text) :
    store now (.find id) ⟨ds⟩ = (answerFind rs id, ⟨ds⟩) := by
  rcases hid with rfl | ⟨random, rfl⟩
  · unfold answerFind
    rw [find?_empty h]
    rfl
  · simp only [store, command, readId, ObjectId.ofText?_text_ofRandom, Dialogue.run,
      Collection.answer, Except.bind, found_find? h random]
    rfl

/-- What is removed first is all that there is. -/
theorem eraseP_eq_filter {α : Type} {p : α → Bool} {l : List α} (h : l.countP p ≤ 1) :
    l.eraseP p = l.filter fun a => !p a := by
  induction l with
  | nil => rfl
  | cons a l ih =>
    cases ha : p a with
    | true =>
      rw [List.countP_cons_of_pos ha] at h
      have hnone : ∀ x ∈ l, ¬p x = true := List.countP_eq_zero.1 (by omega)
      rw [List.eraseP_cons_of_pos ha, List.filter_cons_of_neg (by simp [ha])]
      exact (List.filter_eq_self.2 fun x hx => by simpa using hnone x hx).symm
    | false =>
      rw [List.countP_cons_of_neg (by simp [ha])] at h
      rw [List.eraseP_cons_of_neg (by simp [ha]), List.filter_cons_of_pos (by simp [ha]), ih h]

theorem eraseFirst_eq (h : List.Forall₂ Holds ds rs) (nodup : (rs.map (·.id)).Nodup)
    (random : BitVec 128) :
    Collection.eraseFirst ⟨ds⟩ (.named (ObjectId.ofRandom random)) =
      ⟨ds.filter fun d => !Filter.selects (.named (ObjectId.ofRandom random)) d⟩ := by
  have hcount := countP_of_forall₂ h fun d r hd => hd.selects random
  have hone := List.nodup_iff_count_le_one.1 nodup (ObjectId.ofRandom random).text
  unfold Collection.eraseFirst
  rw [eraseP_eq_filter]
  rw [hcount]
  rw [List.count, List.countP_map] at hone
  exact hone

theorem store_remove (h : List.Forall₂ Holds ds rs) (nodup : (rs.map (·.id)).Nodup) (now : Instant)
    {id : String} (hid : id = "" ∨ ∃ random, id = (ObjectId.ofRandom random).text) :
    ∃ ds', List.Forall₂ Holds ds' (rs.filter (·.id != id)) ∧
      store now (.remove id) ⟨ds⟩ = (removedOne (rs.countP (·.id == id)), ⟨ds'⟩) := by
  rcases hid with rfl | ⟨random, rfl⟩
  · have hnone := List.find?_eq_none.1 (find?_empty h)
    have hall : rs.filter (·.id != "") = rs :=
      List.filter_eq_self.2 fun r hr => by simpa using hnone r hr
    have hzero : rs.countP (·.id == "") = 0 := List.countP_eq_zero.2 hnone
    rw [hall, hzero]
    exact ⟨ds, h, rfl⟩
  · have hcount := countP_of_forall₂ h fun d r hd => hd.selects random
    have hsize := length_sub_length_filter ds (Filter.selects (.named (ObjectId.ofRandom random)))
    have hrest := filter_of_forall₂ h (p := fun d => !Filter.selects (.named (ObjectId.ofRandom random)) d)
      (q := fun r => !(r.id == (ObjectId.ofRandom random).text)) fun d r hd => by rw [hd.selects random]
    refine ⟨_, hrest, ?_⟩
    simp only [store, command, readId, ObjectId.ofText?_text_ofRandom, Dialogue.run,
      Collection.answer, Except.bind, eraseFirst_eq h nodup random, Collection.size, hsize, hcount]
    rfl

theorem store_insert (h : List.Forall₂ Holds ds rs) (now : Instant) {draft : Draft}
    (hlasting : draft.Lasting) (hfresh : ∀ r ∈ rs, r.id ≠ (ObjectId.ofRandom draft.random).text) :
    ∃ d, Holds d ⟨(ObjectId.ofRandom draft.random).text, draft.value, draft.expiresAt⟩ ∧
      store now (.insert draft) ⟨ds⟩ =
        (.ok (⟨(ObjectId.ofRandom draft.random).text, draft.value, draft.expiresAt⟩ : Record),
          ⟨ds ++ [d]⟩) := by
  let r : Record := ⟨(ObjectId.ofRandom draft.random).text, draft.value, draft.expiresAt⟩
  have hd : Holds ⟨some (ObjectId.ofRandom draft.random), draft.value, draft.expiresAt.millis⟩ r :=
    ⟨⟨draft.random, rfl, rfl⟩, rfl, rfl, hlasting.inRange, hlasting.whole⟩
  have hall : List.Forall₂ Holds (ds ++ [_]) (rs ++ [r]) := List.rel_append h (.cons hd .nil)
  have hread := found_find? hall draft.random
  have hnone : rs.find? (·.id == (ObjectId.ofRandom draft.random).text) = none :=
    List.find?_eq_none.2 fun x hx heq => hfresh x hx (beq_iff_eq.1 heq)
  have hanswer : answerFind (rs ++ [r]) (ObjectId.ofRandom draft.random).text = .ok r := by
    unfold answerFind
    rw [find?_concat hnone (beq_self_eq_true r.id)]
  refine ⟨_, hd, ?_⟩
  rw [hanswer] at hread
  simp only [store, command, Dialogue.run, Collection.answer, Collection.insert, Except.bind, hread, r]
  rfl

def keeping : Keeping store .empty fun random => (ObjectId.ofRandom random).text where
  Keeps c rs := List.Forall₂ Holds c.documents rs ∧ (rs.map (·.id)).Nodup
  identifier_ne := ObjectId.text_ofRandom_ne
  keeps_empty := ⟨.nil, List.nodup_nil⟩
  find := by
    rintro ⟨ds⟩ rs now id ⟨h, nodup⟩ - hid
    exact ⟨⟨ds⟩, rs, .refl now rs, ⟨h, nodup⟩, store_find h now hid⟩
  insert := by
    rintro ⟨ds⟩ rs now draft ⟨h, nodup⟩ - hlasting hfresh
    obtain ⟨d, hd, heq⟩ := store_insert h now hlasting hfresh
    refine ⟨⟨ds ++ [d]⟩, rs, .refl now rs, ⟨List.rel_append h (.cons hd .nil), ?_⟩, heq⟩
    exact nodup_map_concat nodup hfresh
  remove := by
    rintro ⟨ds⟩ rs now id ⟨h, nodup⟩ - hid
    obtain ⟨ds', hrest, heq⟩ := store_remove h nodup now hid
    exact ⟨⟨ds'⟩, rs, .refl now rs, ⟨hrest, nodup.sublist (List.filter_sublist.map _)⟩, heq⟩

/-- Whether a document goes by an identifier. -/
def goesBy (id : String) (d : Document) : Bool :=
  match ObjectId.ofText? id with
  | some oid => Filter.selects (.named oid) d
  | none => false

theorem goesBy_of_some {id : String} {oid : ObjectId} (h : ObjectId.ofText? id = some oid) :
    goesBy id = Filter.selects (.named oid) := by
  funext d
  unfold goesBy
  rw [h]

theorem goesBy_of_none {id : String} (h : ObjectId.ofText? id = none) : goesBy id = fun _ => false := by
  funext d
  unfold goesBy
  rw [h]

/-- Fewer milliseconds than a clock shows are those of a time that has passed. -/
theorem exists_ofMillis? {ms : Int} {now : Instant} (hnow : now.OnClock)
    (hlow : Instant.minSeconds * 1000 ≤ ms) (hlt : ms < now.millis) :
    ∃ t, Instant.ofMillis? ms = some t ∧ t.notAfter now = true := by
  have hhigh := hnow.seconds_le
  have hnanos := hnow.nanos
  unfold Instant.minSeconds at hlow
  unfold Instant.millis at hlt
  have hrange : (Instant.ofMillis ms).inRange = true := by
    rw [Instant.inRange_iff]
    unfold Instant.ofMillis Instant.ofNanos
    dsimp only
    unfold Instant.maxSeconds at hhigh
    omega
  refine ⟨Instant.ofMillis ms, if_pos hrange, ?_⟩
  rw [Instant.notAfter_iff]
  unfold Instant.ofMillis Instant.ofNanos
  dsimp only
  omega

/-- What is swept by a clock has expired by it. -/
theorem exists_toRecord_of_swept {now : Instant} (hnow : now.OnClock) {d : Document}
    (hid : d.id?.isSome = true) (hlow : Instant.minSeconds * 1000 ≤ d.expiresAt)
    (hswept : (Filter.expired now).selects d = true) :
    ∃ r, d.toRecord = .ok r ∧ r.isExpired now = true := by
  obtain ⟨oid, hoid⟩ := Option.isSome_iff_exists.1 hid
  obtain ⟨t, ht, hexpired⟩ := exists_ofMillis? hnow hlow (of_decide_eq_true hswept)
  refine ⟨⟨oid.text, d.value, t⟩, ?_, hexpired⟩
  unfold toRecord
  rw [hoid, ht]

/-- A collection of documents that have names of their own, and expiries that are not below all
times. -/
structure Collection.Distinct (ds : List Document) : Prop where
  named : ∀ d ∈ ds, d.id?.isSome = true
  nodup : (ds.map (·.id?)).Nodup
  low : ∀ d ∈ ds, Instant.minSeconds * 1000 ≤ d.expiresAt

theorem Collection.Distinct.filter (h : Collection.Distinct ds) (p : Document → Bool) :
    Collection.Distinct (ds.filter p) where
  named d hd := h.named d (List.mem_filter.1 hd).1
  nodup := h.nodup.sublist (List.filter_sublist.map _)
  low d hd := h.low d (List.mem_filter.1 hd).1

theorem Collection.Distinct.eq_of_selects (h : Collection.Distinct ds) {oid : ObjectId}
    {a b : Document} (ha : a ∈ ds) (hb : b ∈ ds) (hida : Filter.selects (.named oid) a = true)
    (hidb : Filter.selects (.named oid) b = true) : a = b :=
  List.inj_on_of_nodup_map h.nodup ha hb ((beq_iff_eq.1 hida).trans (beq_iff_eq.1 hidb).symm)

theorem countP_selects_le_one (nodup : (ds.map (·.id?)).Nodup) (oid : ObjectId) :
    ds.countP (Filter.selects (.named oid)) ≤ 1 := by
  have hone := List.nodup_iff_count_le_one.1 nodup (some oid)
  rw [List.count, List.countP_map] at hone
  exact hone

/-- The document that is made of a draft. -/
def ofDraft (draft : Draft) : Document :=
  ⟨some (ObjectId.ofRandom draft.random), draft.value, draft.expiresAt.millis⟩

/-- A draft whose identifier is unused becomes the last document, and is read back from there. -/
theorem insert_documents {docs : List Document} {draft : Draft} (now : Instant)
    (hunused : docs.find? (Filter.selects (.named (ObjectId.ofRandom draft.random))) = none) :
    store now (.insert draft) ⟨docs⟩ = ((ofDraft draft).toRecord, ⟨docs ++ [ofDraft draft]⟩) := by
  change (found ((docs ++ [ofDraft draft]).find? _), _) = _
  rw [find?_concat hunused (beq_self_eq_true _)]
  rfl

theorem Collection.Distinct.insert (h : Collection.Distinct ds) {draft : Draft}
    (hrange : draft.expiresAt.inRange = true)
    (hfresh : ∀ d ∈ ds, Filter.selects (.named (ObjectId.ofRandom draft.random)) d = false) :
    Collection.Distinct (ds ++ [ofDraft draft]) := by
  refine ⟨fun d hd => ?_, ?_, fun d hd => ?_⟩
  · rcases List.mem_append.1 hd with hd | hd
    · exact h.named d hd
    · rw [List.mem_singleton.1 hd]
      rfl
  · exact nodup_map_concat h.nodup fun d hd => beq_eq_false_iff_ne.1 (hfresh d hd)
  · rcases List.mem_append.1 hd with hd | hd
    · exact h.low d hd
    · have hlow := (Instant.inRange_iff.1 hrange).1
      rw [List.mem_singleton.1 hd]
      unfold ofDraft Instant.millis Instant.minSeconds
      dsimp only
      omega

def shelving : Shelving store .empty (fun random => (ObjectId.ofRandom random).text) (fun _ => True)
    Document where
  Keeps c ds := c.documents = ds ∧ Collection.Distinct ds
  names := goesBy
  read := toRecord
  shelve := ofDraft
  sweeps now := (Filter.expired now).selects
  keeps_empty := ⟨rfl, fun d hd => (by cases hd), List.nodup_nil, fun d hd => (by cases hd)⟩
  names_shelve := by
    intro random draft h
    rw [goesBy_of_some (ObjectId.ofText?_text_ofRandom random)] at h
    rw [Option.some.inj (beq_iff_eq.1 h)]
  unique := by
    rintro c ds id ⟨-, distinct⟩ a ha b hb hida hidb
    cases hid : ObjectId.ofText? id with
    | none =>
      rw [goesBy_of_none hid] at hida
      cases hida
    | some oid =>
      rw [goesBy_of_some hid] at hida hidb
      exact distinct.eq_of_selects ha hb hida hidb
  find := by
    rintro c ds ⟨rfl, -⟩ now id
    cases hid : ObjectId.ofText? id with
    | none =>
      have hnone : c.documents.find? (fun _ => false) = none := List.find?_eq_none.2 (by simp)
      simp only [store, command, readId, hid, Dialogue.run, goesBy_of_none hid, hnone]
      rfl
    | some oid =>
      simp only [store, command, readId, hid, Dialogue.run, Collection.answer, Collection.find?,
        goesBy_of_some hid]
      cases c.documents.find? (Filter.selects (.named oid)) <;> rfl
  insert := by
    rintro ⟨ds⟩ - ⟨rfl, distinct⟩ draft hdraft - hfresh now
    rw [goesBy_of_some (ObjectId.ofText?_text_ofRandom draft.random)] at hfresh
    have hunused : ds.find? (Filter.selects (.named (ObjectId.ofRandom draft.random))) = none := by
      refine List.find?_eq_none.2 fun d hd => ?_
      rw [hfresh d hd]
      exact Bool.false_ne_true
    exact ⟨⟨ds ++ [ofDraft draft]⟩, ⟨rfl, distinct.insert hdraft.inRange hfresh⟩,
      insert_documents now hunused⟩
  remove := by
    rintro ⟨ds⟩ - ⟨rfl, distinct⟩ now id
    refine ⟨⟨ds.filter fun d => !goesBy id d⟩, ⟨rfl, distinct.filter _⟩, ?_⟩
    cases hid : ObjectId.ofText? id with
    | none =>
      simp only [store, command, readId, hid, Dialogue.run, goesBy_of_none hid, Bool.not_false,
        List.filter_true, List.countP_false]
      rfl
    | some oid =>
      have herase := eraseP_eq_filter (countP_selects_le_one distinct.nodup oid)
      have hsize := length_sub_length_filter ds (Filter.selects (.named oid))
      simp only [store, command, readId, hid, Dialogue.run, Collection.answer, Collection.size,
        Collection.eraseFirst, goesBy_of_some hid, herase, hsize]
      rfl
  sweep := by
    rintro ⟨ds⟩ - now ⟨rfl, distinct⟩ -
    exact ⟨rfl, distinct.filter _⟩
  expired_of_sweeps := by
    rintro ⟨ds⟩ - now ⟨rfl, distinct⟩ hnow d hd hswept
    exact exists_toRecord_of_swept hnow (distinct.named d hd) (distinct.low d hd) hswept

theorem ofRandom_eq_of_text {a b : BitVec 128}
    (h : (ObjectId.ofRandom a).text = (ObjectId.ofRandom b).text) :
    ObjectId.ofRandom a = ObjectId.ofRandom b := by
  have hread := ObjectId.ofText?_text_ofRandom a
  rw [h, ObjectId.ofText?_text_ofRandom] at hread
  exact (Option.some.inj hread).symm

/-- A text denotes an object identifier if it is read as one. -/
theorem denotes_iff {id : String} {a : BitVec 128}
    (h : ObjectId.ofText? id = some (ObjectId.ofRandom a)) (b : BitVec 128) :
    ObjectId.ofText? id = some (ObjectId.ofRandom b) ↔
      (ObjectId.ofRandom b).text = (ObjectId.ofRandom a).text := by
  rw [h]
  constructor
  · intro heq
    rw [Option.some.inj heq]
  · intro htext
    rw [ofRandom_eq_of_text htext]

/-- A document is selected by the identifier of its draft. -/
theorem selects_ofDraft {id : String} {oid : ObjectId} (h : ObjectId.ofText? id = some oid) (doc : Document)
    (d : Draft) (hdoc : doc = ofDraft d) :
    Filter.selects (.named oid) doc = true ↔ ObjectId.ofText? id = some (ObjectId.ofRandom d.random) := by
  rw [hdoc, h]
  change (some (ObjectId.ofRandom d.random) == some oid) = true ↔ _
  rw [beq_iff_eq, eq_comm]

theorem toRecord_error {d : Draft} {f : Failure} (h : (ofDraft d).toRecord = .error f) :
    f ≠ .secretNotFound ∧ f ≠ .decryptionFailed := by
  unfold toRecord ofDraft at h
  dsimp only at h
  split at h
  · rw [← Except.error.inj h]
    exact ⟨by simp, by simp⟩
  · rw [← Except.error.inj h]
    exact ⟨by simp, by simp⟩
  · cases h

theorem id_of_toRecord {d : Draft} {r : Record} (h : (ofDraft d).toRecord = .ok r) :
    r.id = (ObjectId.ofRandom d.random).text := by
  unfold toRecord ofDraft at h
  dsimp only at h
  split at h
  · cases h
  · cases h
  · rename_i oid t hoid ht
    rw [← Except.ok.inj h, ← Option.some.inj hoid]

def custody : Custody store .empty (fun random => (ObjectId.ofRandom random).text)
    (fun id random => ObjectId.ofText? id = some (ObjectId.ofRandom random)) where
  Holds c P := (c.documents.map fun doc : Document => doc.id?).Nodup ∧
    KeptFor (fun doc d => doc = ofDraft d) c.documents P
  read d := (ofDraft d).toRecord
  denotes_iff := denotes_iff
  holds_empty P := ⟨List.nodup_nil, .nil P⟩
  mono := fun ⟨nodup, h⟩ hPQ => ⟨nodup, h.mono hPQ⟩
  find := by
    rintro c P ⟨nodup, h⟩ now id
    cases hid : ObjectId.ofText? id with
    | none =>
      have hstore : store now (.find id) c = (.error .secretNotFound, c) := by
        simp only [store, command, readId, hid, Dialogue.run]
      rw [hstore]
      exact ⟨⟨nodup, h⟩, Or.inl ⟨rfl, nodup, h.mono fun d hd => ⟨hd, by simp⟩⟩⟩
    | some oid =>
      simp only [store, command, readId, hid, Dialogue.run, Collection.answer, Except.bind,
        Collection.find?]
      refine ⟨⟨nodup, h⟩, ?_⟩
      rw [← hid]
      rcases h.find? (selects_ofDraft hid) with ⟨hnone, hleft⟩ | ⟨doc, d, hsome, hfor, hd, hdenotes⟩
      · rw [hnone]
        exact Or.inl ⟨rfl, nodup, hleft⟩
      · rw [hsome]
        exact Or.inr ⟨d, hd, hdenotes, congrArg toRecord hfor⟩
  insert := by
    rintro ⟨docs⟩ P ⟨nodup, h⟩ now draft hfresh
    have hunused := h.find?_eq_none (selects_ofDraft (ObjectId.ofText?_text_ofRandom draft.random))
      fun d hd hid => hfresh d hd ((denotes_iff hid draft.random).1 (ObjectId.ofText?_text_ofRandom _)).symm
    rw [insert_documents now hunused]
    refine ⟨⟨nodup_map_concat nodup fun doc hdoc => ?_, h.concat rfl⟩, fun r hr => ⟨?_, fun _ => hr⟩⟩
    · exact beq_eq_false_iff_ne.1 (Bool.eq_false_iff.2 (List.find?_eq_none.1 hunused doc hdoc))
    · rw [id_of_toRecord hr]
      exact ObjectId.ofText?_text_ofRandom draft.random
  remove := by
    rintro ⟨docs⟩ P ⟨nodup, h⟩ now id
    cases hid : ObjectId.ofText? id with
    | none =>
      simp only [store, command, readId, hid, Dialogue.run]
      exact ⟨nodup, h.mono fun d hd => ⟨hd, by simp⟩⟩
    | some oid =>
      simp only [store, command, readId, hid, Dialogue.run, Collection.answer, Collection.eraseFirst,
        eraseP_eq_filter (countP_selects_le_one nodup oid)]
      refine ⟨nodup.sublist (List.filter_sublist.map _), ?_⟩
      rw [← hid]
      exact h.filter_not (selects_ofDraft hid)
  sweep := by
    rintro ⟨docs⟩ P ⟨nodup, h⟩ now
    exact ⟨nodup.sublist (List.filter_sublist.map _), h.subset fun _ hdoc => List.mem_of_mem_filter hdoc⟩
  read_error := toRecord_error

end Document

end BurnAfterRead
