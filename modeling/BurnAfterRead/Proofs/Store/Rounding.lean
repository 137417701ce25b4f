import BurnAfterRead.Proofs.Store.Document
import BurnAfterRead.Proofs.Time.Spans

/-!
# Expiries in milliseconds

A document keeps its expiry in milliseconds, and a sweep compares them with those of the clock. Both are
cut toward the past, before 1970 too. So what is read back is the expiry cut to its millisecond, however
often it is read, and no sweep takes a document before it has expired: it takes it at the first
millisecond after. Leap seconds are left out: their milliseconds are also those of the second after.
-/

namespace BurnAfterRead

namespace Instant

variable {t u : Instant}

/-- An instant cut to its millisecond. -/
def cutMilli (t : Instant) : Instant := t.cut 1000000

theorem wholeMillis_cutMilli (h : t.isLeapSecond = false) : t.cutMilli.WholeMillis := by
  have hnanos := nanos_lt h
  constructor
  · unfold cutMilli cut
    dsimp only
    omega
  · exact Nat.mul_mod_left _ _

theorem millis_cutMilli (t : Instant) : t.cutMilli.millis = t.millis := by
  unfold cutMilli cut millis
  dsimp only
  rw [Nat.mul_div_cancel _ (by decide)]

theorem ofMillis?_millis_eq_cutMilli (h : t.isLeapSecond = false) (hrange : t.inRange = true) :
    ofMillis? t.millis = some t.cutMilli := by
  rw [← millis_cutMilli]
  exact (wholeMillis_cutMilli h).ofMillis?_millis hrange

theorem before_cutMilli_iff (ht : t.isLeapSecond = false) (hu : u.isLeapSecond = false) :
    t.cutMilli.before u.cutMilli = true ↔ t.millis < u.millis := by
  rw [← notAfter_eq_false_iff, ← Bool.not_eq_true,
    (wholeMillis_cutMilli hu).notAfter_iff_millis (wholeMillis_cutMilli ht), Int.not_le, millis_cutMilli,
    millis_cutMilli]

theorem millis_le_of_notAfter (ht : t.isLeapSecond = false) (h : t.notAfter u = true) :
    t.millis ≤ u.millis := by
  have hnanos := nanos_lt ht
  rw [notAfter_iff] at h
  unfold millis
  omega

/-- From the next millisecond after an instant on the milliseconds are more, within a leap second too. -/
theorem millis_lt_of_plus_notAfter (ht : t.isLeapSecond = false)
    (h : (t.cutMilli.plus (.ofMillis 1)).notAfter u = true) : t.millis < u.millis := by
  have hcut := wholeMillis_cutMilli ht
  rw [plus_eq_ofNanos hcut.isLeapSecond, hcut.toNanos, millis_cutMilli] at h
  have hle := millis_le_of_notAfter (isLeapSecond_ofNanos _) h
  change (ofNanos (t.millis * 1000000 + 1 * 1000000)).millis ≤ _ at hle
  unfold ofNanos millis at hle
  dsimp only at hle
  unfold millis at *
  omega

/-- The milliseconds that are those of no instant. -/
theorem ofMillis?_eq_none_iff (ms : Int) :
    ofMillis? ms = none ↔ ms < minSeconds * 1000 ∨ maxSeconds * 1000 + 999 < ms := by
  have hrange : (ofMillis ms).inRange = true ↔ minSeconds * 1000 ≤ ms ∧ ms ≤ maxSeconds * 1000 + 999 := by
    rw [inRange_iff]
    unfold ofMillis ofNanos minSeconds maxSeconds
    dsimp only
    omega
  unfold ofMillis?
  split
  · rename_i h
    have hin := hrange.1 h
    refine iff_of_false (Option.some_ne_none _) ?_
    omega
  · rename_i h
    rw [hrange] at h
    exact iff_of_true rfl (by omega)

end Instant

namespace Document

variable {d : Document} {oid : ObjectId} {draft : Draft} {now : Instant}

/-- A document that was made of a draft is read back with the draft's expiry, cut to its millisecond. -/
theorem toRecord_ofDraft (hrange : draft.expiresAt.inRange = true)
    (hleap : draft.expiresAt.isLeapSecond = false) :
    (ofDraft draft).toRecord =
      .ok ⟨(ObjectId.ofRandom draft.random).text, draft.value, draft.expiresAt.cutMilli⟩ := by
  unfold toRecord ofDraft
  dsimp only
  rw [Instant.ofMillis?_millis_eq_cutMilli hleap hrange]

/-- A stored document is illegible exactly if its milliseconds are those of no instant. -/
theorem toRecord_eq_error_iff (h : d.id? = some oid) :
    d.toRecord = .error (.badRecord "expiresAt out of range") ↔
      d.expiresAt < Instant.minSeconds * 1000 ∨ Instant.maxSeconds * 1000 + 999 < d.expiresAt := by
  rw [← Instant.ofMillis?_eq_none_iff]
  unfold toRecord
  rw [h]
  cases Instant.ofMillis? d.expiresAt with
  | none => exact iff_of_true rfl rfl
  | some t => exact iff_of_false (fun h => by cases h) (Option.some_ne_none t)

theorem selects_expired (now : Instant) (d : Document) :
    (Filter.expired now).selects d = true ↔ d.expiresAt < now.millis :=
  decide_eq_true_iff

/-- No sweep takes a document up to the expiry that it was made with. -/
theorem selects_expired_of_notAfter (hnow : now.isLeapSecond = false)
    (h : now.notAfter draft.expiresAt = true) : (Filter.expired now).selects (ofDraft draft) = false := by
  have hle := Instant.millis_le_of_notAfter hnow h
  exact decide_eq_false (Int.not_lt.2 hle)

/-- A sweep leaves what its filter does not select. -/
theorem mem_sweep (now : Instant) (c : Collection) :
    d ∈ (store now .sweep c).2.documents ↔ d ∈ c.documents ∧ (Filter.expired now).selects d = false := by
  refine List.mem_filter.trans ?_
  rw [Bool.not_eq_true']

/-- What a store of documents is in after commands at their times. -/
def after (commands : List (Instant × Command)) (c : Collection) : Collection :=
  commands.foldl (fun c x => (store x.1 x.2 c).2) c

/-- A command that leaves a document there: it does not remove it by its name, and does not sweep after its
expiry, or within a leap second. -/
def Spares (oid : ObjectId) (expiresAt now : Instant) : Command → Prop
  | .remove id => ObjectId.ofText? id ≠ some oid
  | .sweep => now.isLeapSecond = false ∧ now.notAfter expiresAt = true
  | _ => True

/-- What is found is found still when something else was taken out. -/
theorem find?_eraseP {α : Type} {p q : α → Bool} (hother : ∀ x, p x = true → q x = false) (l : List α) :
    (l.eraseP q).find? p = l.find? p := by
  induction l with
  | nil => rfl
  | cons x l ih =>
    cases hq : q x with
    | true =>
      have hp : ¬p x = true := fun hp => Bool.false_ne_true ((hother x hp).symm.trans hq)
      rw [List.eraseP_cons_of_pos hq, List.find?_cons_of_neg hp]
    | false =>
      rw [List.eraseP_cons_of_neg (by rw [hq]; exact Bool.false_ne_true), List.find?_cons,
        List.find?_cons, ih]

/-- A document that is found is found after any command that spares it. -/
theorem find?_store {c : Collection}
    (h : c.find? (.named (ObjectId.ofRandom draft.random)) = some (ofDraft draft)) {q : Command}
    (hspares : Spares (ObjectId.ofRandom draft.random) draft.expiresAt now q) :
    (store now q c).2.find? (.named (ObjectId.ofRandom draft.random)) = some (ofDraft draft) := by
  cases q with
  | find id =>
    have hsame : (store now (.find id) c).2 = c := by
      simp only [store, command]
      cases readId id <;> rfl
    rw [hsame]
    exact h
  | insert other =>
    have hkept : (c.documents ++ [ofDraft other]).find? _ = some (ofDraft draft) :=
      (List.find?_append ..).trans (congrArg (Option.or · _) h)
    exact hkept
  | remove id =>
    simp only [store, command, readId]
    cases hid : ObjectId.ofText? id with
    | none => exact h
    | some other =>
      have hne : other ≠ ObjectId.ofRandom draft.random := fun heq => hspares (heq ▸ hid)
      have hother : ∀ x, Filter.selects (.named (ObjectId.ofRandom draft.random)) x = true →
          Filter.selects (.named other) x = false := fun x hx => by
        have hname : x.id? = some (ObjectId.ofRandom draft.random) := beq_iff_eq.1 hx
        refine beq_eq_false_iff_ne.2 fun heq => ?_
        exact hne (Option.some.inj (heq.symm.trans hname))
      exact (find?_eraseP hother c.documents).trans h
  | sweep =>
    obtain ⟨hnow, hle⟩ := hspares
    have hlive := selects_expired_of_notAfter hnow hle
    exact find?_filter_of_find? h (by rw [hlive, Bool.not_false])
  | close => exact h

theorem find?_after {c : Collection}
    (h : c.find? (.named (ObjectId.ofRandom draft.random)) = some (ofDraft draft))
    {commands : List (Instant × Command)}
    (hspares : ∀ x ∈ commands, Spares (ObjectId.ofRandom draft.random) draft.expiresAt x.1 x.2) :
    (after commands c).find? (.named (ObjectId.ofRandom draft.random)) = some (ofDraft draft) := by
  induction commands generalizing c with
  | nil => exact h
  | cons x commands ih =>
    obtain ⟨hx, hspares⟩ := List.forall_mem_cons.1 hspares
    exact ih (find?_store h hx) hspares

/-- A lookup of the name finds the record of the document. -/
theorem store_find_of_find? {c : Collection} (h : c.find? (.named oid) = some d) {id : String}
    (hid : ObjectId.ofText? id = some oid) (now : Instant) : (store now (.find id) c).1 = d.toRecord := by
  simp only [store, command, readId, hid, Dialogue.run, Collection.answer, Except.bind, h]
  rfl

/-- What a creation writes is read back with the expiry cut to its millisecond, by the creation and by every
later lookup, until the document is removed or swept after its expiry. A sweep takes exactly the documents
whose milliseconds are fewer than the clock's, which are those that expire before its millisecond; so it
takes none before its expiry, and each from the next millisecond on. Documents with milliseconds that
are those of no instant are illegible, and no others are. -/
theorem rounded_toward_past (draft : Draft) (hrange : draft.expiresAt.inRange = true)
    (hleap : draft.expiresAt.isLeapSecond = false) :
    let e := draft.expiresAt
    let oid := ObjectId.ofRandom draft.random
    let r : Record := ⟨oid.text, draft.value, e.cutMilli⟩
    (∀ c now, c.find? (.named oid) = none →
      (store now (.insert draft) c).1 = .ok r ∧
      ∀ later, (∀ x ∈ later, Spares oid e x.1 x.2) → ∀ id, ObjectId.ofText? id = some oid → ∀ now',
        (store now' (.find id) (after later (store now (.insert draft) c).2)).1 = .ok r) ∧
    (∀ now, ((Filter.expired now).selects (ofDraft draft) = true ↔ r.expiresAt.millis < now.millis) ∧
      (now.isLeapSecond = false →
        ((Filter.expired now).selects (ofDraft draft) = true ↔ r.expiresAt.before now.cutMilli = true)) ∧
      (now.isLeapSecond = false → now.notAfter e = true → ∀ c : Collection,
        ofDraft draft ∈ c.documents → ofDraft draft ∈ (store now .sweep c).2.documents) ∧
      ((r.expiresAt.plus (.ofMillis 1)).notAfter now = true → ∀ c : Collection,
        ofDraft draft ∉ (store now .sweep c).2.documents)) ∧
    ∀ d : Document, d.id?.isSome = true →
      (d.toRecord = .error (.badRecord "expiresAt out of range") ↔
        d.expiresAt < Instant.minSeconds * 1000 ∨ Instant.maxSeconds * 1000 + 999 < d.expiresAt) := by
  intro e oid r
  have hrecord : (ofDraft draft).toRecord = .ok r := toRecord_ofDraft hrange hleap
  refine ⟨fun c now hunused => ?_,
    fun now => ⟨?_, fun hnow => ?_, fun hnow hle c hmem => ?_, fun hlater c hmem => ?_⟩, fun d hd => ?_⟩
  · rw [insert_documents now hunused]
    refine ⟨hrecord, fun later hspares id hid now' => ?_⟩
    have hfirst : Collection.find? ⟨c.documents ++ [ofDraft draft]⟩ (.named oid) = some (ofDraft draft) :=
      find?_concat hunused (beq_self_eq_true _)
    rw [store_find_of_find? (find?_after hfirst hspares) hid]
    exact hrecord
  · rw [selects_expired, Instant.millis_cutMilli]
    rfl
  · rw [selects_expired, Instant.before_cutMilli_iff hleap hnow]
    rfl
  · exact (mem_sweep now c).2 ⟨hmem, selects_expired_of_notAfter hnow hle⟩
  · have hlt := Instant.millis_lt_of_plus_notAfter hleap hlater
    have hspared := ((mem_sweep now c).1 hmem).2
    rw [(selects_expired now (ofDraft draft)).2 hlt] at hspared
    cases hspared
  · obtain ⟨oid, hoid⟩ := Option.isSome_iff_exists.1 hd
    exact toRecord_eq_error_iff hoid

/-- Of an expiry in the last nanosecond of 1969 its millisecond is kept. A sweep in that very nanosecond
leaves the document, as the removal of another one does, and a sweep at the end of the year takes it. -/
theorem rounded_toward_past_before_1970 :
    let draft : Draft := ⟨"token", ⟨-1, 999999999⟩, 0⟩
    let oid := ObjectId.ofRandom 0
    let r : Record := ⟨oid.text, "token", draft.expiresAt.cutMilli⟩
    let created := store ⟨-2, 0⟩ (.insert draft) .empty
    let later : List (Instant × Command) := [(⟨-1, 999999999⟩, .sweep), (⟨-1, 999999999⟩, .remove "other")]
    created.1 = .ok r ∧ r.expiresAt = ⟨-1, 999000000⟩ ∧
    (∀ now, (store now (.find oid.text) (after later created.2)).1 = .ok r) ∧
    ofDraft draft ∉ (store ⟨0, 0⟩ .sweep created.2).2.documents := by
  intro draft oid r created later
  obtain ⟨hread, hsweep, _⟩ := rounded_toward_past draft (by decide) (by decide)
  obtain ⟨hcreated, hlater⟩ := hread .empty ⟨-2, 0⟩ rfl
  have hspares : ∀ x ∈ later, Spares oid draft.expiresAt x.1 x.2 := by
    refine List.forall_mem_cons.2 ⟨⟨by decide, by decide⟩, List.forall_mem_cons.2 ⟨?_, by simp⟩⟩
    show ObjectId.ofText? "other" ≠ some oid
    decide +kernel
  have hfound := hlater later hspares oid.text (ObjectId.ofText?_text_ofRandom 0)
  obtain ⟨_, _, _, hswept⟩ := hsweep ⟨0, 0⟩
  exact ⟨hcreated, by decide, hfound, hswept (by decide) created.2⟩

end Document

end BurnAfterRead
