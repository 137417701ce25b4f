import BurnAfterRead.Proofs.Service.Sequential
import BurnAfterRead.Proofs.Store.Memory
import BurnAfterRead.Proofs.Time.TextOrder
import BurnAfterRead.Relational.TextTable

/-!
# The table of texts as a list of records

Between two commands no transaction is open, and the rows are those of a list of records. Each
command does to the list what it does to the rows; a record is read back from its row because its
timestamp is.
-/

namespace BurnAfterRead.TextTable

/-- The table that holds some records. -/
def Table.ofRecords (rs : List Record) : Table := ⟨rs.map .ofRecord, none, false⟩

theorem Table.ofRecords_nil : Table.ofRecords [] = .empty := rfl

theorem toRecord?_ofRecord {r : Record} (h : r.expiresAt.WellFormed) :
    (TextRow.ofRecord r).toRecord? = some r := by
  unfold TextRow.toRecord? TextRow.ofRecord
  dsimp only
  rw [String.toList_ofList, Timestamp.readColumn?_write h]
  rfl

/-- Reading a record back from the table of a list. -/
theorem select_ofRecords {rs : List Record} (h : ∀ r ∈ rs, r.expiresAt.WellFormed) (id : String) :
    ((rs.map TextRow.ofRecord).find? (·.id == id)).map TextRow.toRecord? =
      (rs.find? (·.id == id)).map some := by
  rw [List.find?_map]
  change ((rs.find? (·.id == id)).map TextRow.ofRecord).map TextRow.toRecord? = _
  cases hfind : rs.find? (·.id == id) with
  | none => rfl
  | some r =>
    simp only [Option.map_some]
    rw [toRecord?_ofRecord (h r (List.mem_of_find?_eq_some hfind))]

theorem store_find {rs : List Record} (h : ∀ r ∈ rs, r.expiresAt.WellFormed) (now : Instant)
    (id : String) : store now (.find id) (.ofRecords rs) =
      ((match rs.find? (·.id == id) with
        | some r => .ok r
        | none => .error .secretNotFound), .ofRecords rs) := by
  have hselect := select_ofRecords h id
  simp only [store, command, Dialogue.run, Table.answer, Table.answerOpen, Table.ofRecords,
    Table.current, Option.getD_none, Bool.false_eq_true, if_false]
  cases hrow : (rs.map TextRow.ofRecord).find? (·.id == id) with
  | none =>
    rw [hrow] at hselect
    cases hfind : rs.find? (·.id == id) with
    | none => rfl
    | some r => rw [hfind] at hselect; cases hselect
  | some row =>
    rw [hrow] at hselect
    cases hfind : rs.find? (·.id == id) with
    | none => rw [hfind] at hselect; cases hselect
    | some r =>
      rw [hfind, Option.map_some, Option.map_some] at hselect
      simp only [Option.some.inj hselect]
      rfl

theorem any_ofRecords (rs : List Record) (id : String) :
    (rs.map TextRow.ofRecord).any (·.id == id) = rs.any (·.id == id) := by
  rw [List.any_map]
  rfl

section Insert

variable {r : Record} {now : Instant} {t t₁ t₂ t₃ : Table}

theorem run_insertAndSelect (hbegin : Table.answer now .begin t = (.ok (), t₁))
    (hinsert : Table.answer now (.insert (.ofRecord r)) t₁ = (.ok (), t₂))
    (hselect : Table.answer now (.select r.id) t₂ = (.ok r, t₂))
    (hcommit : Table.answer now .commit t₂ = (.ok (), t₃)) :
    (insertAndSelect r).run (Table.answer now) t = (.ok r, t₃) := by
  simp only [insertAndSelect, Dialogue.run, hbegin, hinsert, hselect, hcommit]
  rfl

theorem run_insertAndSelect_of_refused {f : Failure}
    (hbegin : Table.answer now .begin t = (.ok (), t₁))
    (hinsert : Table.answer now (.insert (.ofRecord r)) t₁ = (.error f, t₁))
    (hrollback : Table.answer now .rollback t₁ = (.ok (), t₃)) :
    (insertAndSelect r).run (Table.answer now) t = (.error f, t₃) := by
  simp only [insertAndSelect, abandon, Dialogue.run, hbegin, hinsert, hrollback]

end Insert

/-- A record whose identifier is in use is not stored. -/
theorem store_insert_of_used {rs : List Record} {draft : Draft} (now : Instant)
    (h : rs.any (·.id == draft.record.id) = true) :
    store now (.insert draft) (.ofRecords rs) =
      (.error (.storageUnavailable "identifier in use"), .ofRecords rs) := by
  rw [← any_ofRecords] at h
  exact run_insertAndSelect_of_refused (r := draft.record) rfl (if_pos h) rfl

theorem store_insert_of_fresh {rs : List Record} {draft : Draft} (now : Instant)
    (hdraft : draft.expiresAt.WellFormed)
    (h : rs.any (·.id == draft.record.id) = false) :
    store now (.insert draft) (.ofRecords rs) =
      (.ok draft.record, .ofRecords (rs ++ [draft.record])) := by
  have hused := any_ofRecords rs draft.record.id
  rw [h] at hused
  generalize hr : draft.record = r at hused
  have hexpiry : r.expiresAt = draft.expiresAt := by rw [← hr]; rfl
  have hfind : (rs.map TextRow.ofRecord ++ [TextRow.ofRecord r]).find? (·.id == r.id) =
      some (TextRow.ofRecord r) :=
    find?_concat (List.find?_eq_none.2 (List.any_eq_false.1 hused)) (beq_self_eq_true r.id)
  have hinsert : Table.answer now (.insert (.ofRecord r))
      ⟨rs.map .ofRecord, some (rs.map .ofRecord), false⟩ =
      (.ok (), ⟨rs.map .ofRecord, some (rs.map .ofRecord ++ [.ofRecord r]), false⟩) := by
    have hid : (TextRow.ofRecord r).id = r.id := rfl
    simp only [Table.answer, Table.answerOpen, Table.current, Table.setCurrent, Option.getD_some,
      hid, hused, Bool.false_eq_true, if_false]
  have hselect : Table.answer now (.select r.id)
      ⟨rs.map .ofRecord, some (rs.map .ofRecord ++ [.ofRecord r]), false⟩ =
      (.ok r, ⟨rs.map .ofRecord, some (rs.map .ofRecord ++ [.ofRecord r]), false⟩) := by
    simp only [Table.answer, Table.answerOpen, Table.current, Option.getD_some, Bool.false_eq_true,
      if_false, hfind]
    rw [toRecord?_ofRecord (by rw [hexpiry]; exact hdraft)]
  have hrun := run_insertAndSelect (t := .ofRecords rs) rfl hinsert hselect rfl
  rw [← hr] at hrun ⊢
  refine Eq.trans hrun ?_
  simp only [Table.ofRecords, Table.current, Option.getD_some, List.map_append, List.map_cons,
    List.map_nil]
  rfl

theorem store_remove (rs : List Record) (now : Instant) (id : String) :
    store now (.remove id) (.ofRecords rs) =
      (removedOne (rs.countP (·.id == id)), .ofRecords (rs.filter (·.id != id))) := by
  have hrows : (rs.map TextRow.ofRecord).filter (·.id != id) =
      (rs.filter (·.id != id)).map TextRow.ofRecord := by
    rw [List.filter_map]
    rfl
  simp only [store, command, Dialogue.run, Table.answer, Table.answerOpen, Table.ofRecords,
    Table.current, Option.getD_none, Bool.false_eq_true, if_false, Table.setCurrent, hrows,
    List.length_map]
  rw [← length_sub_length_filter]
  rfl

def keeping : Keeping store .empty fun random => (Uuid.ofRandom random).text where
  Keeps t rs := t = .ofRecords rs ∧ ∀ r ∈ rs, r.expiresAt.WellFormed
  identifier_ne := Uuid.text_ofRandom_ne
  keeps_empty := ⟨rfl, fun r hr => by cases hr⟩
  find := by
    rintro t rs now id ⟨rfl, hwell⟩ - -
    exact ⟨_, rs, .refl now _, ⟨rfl, hwell⟩, store_find hwell now id⟩
  insert := by
    rintro t rs now draft ⟨rfl, hwell⟩ - hlasting hfresh
    have hdraft := hlasting.whole.wellFormed hlasting.inRange
    have hused : rs.any (·.id == draft.record.id) = false :=
      List.any_eq_false.2 fun r hr heq => hfresh r hr (beq_iff_eq.1 heq)
    refine ⟨_, rs, .refl now _, ⟨rfl, fun r hr => ?_⟩, store_insert_of_fresh now hdraft hused⟩
    rcases List.mem_append.1 hr with hr | hr
    · exact hwell r hr
    · rw [List.mem_singleton.1 hr]
      exact hdraft
  remove := by
    rintro t rs now id ⟨rfl, hwell⟩ - -
    exact ⟨_, rs, .refl now _, ⟨rfl, fun r hr => hwell r (List.mem_filter.1 hr).1⟩,
      store_remove rs now id⟩

/-- Whether a sweep removes a record: it expires in an earlier second, or in a year after 9999. -/
def swept (now : Instant) (r : Record) : Bool :=
  r.expiresAt.seconds < now.seconds || 9999 < r.expiresAt.year

/-- In the years 0 to 9999 a sweep leaves the rows whose text does not come before the second's; in any other
year it leaves all. -/
theorem keep_eq (now : Instant) (rows : List TextRow) :
    Table.keep now rows = if 0 ≤ now.year ∧ now.year ≤ 9999 then
      rows.filter fun row => !decide (row.expiresAt.toList < Timestamp.write .column ⟨now.seconds, 0⟩)
      else rows := by
  have hsecond : Table.secondText? now = if 0 ≤ now.year ∧ now.year ≤ 9999 then
      some (Timestamp.write .column ⟨now.seconds, 0⟩) else none := rfl
  unfold Table.keep
  rw [hsecond]
  by_cases hnow : 0 ≤ now.year ∧ now.year ≤ 9999
  · rw [if_pos hnow, if_pos hnow]
  · rw [if_neg hnow, if_neg hnow]

theorem decide_lt_second {r : Record} (h : r.expiresAt.WellFormed) {now : Instant}
    (hnow : 0 ≤ now.year ∧ now.year ≤ 9999) :
    decide ((TextRow.ofRecord r).expiresAt.toList < Timestamp.write .column ⟨now.seconds, 0⟩) =
      swept now r := by
  simp only [TextRow.ofRecord, String.toList_ofList, Timestamp.write_lt_second_iff h hnow, swept,
    Bool.decide_or]

/-- A sweep removes the records that expire in earlier seconds, and those of years after 9999. -/
theorem store_sweep {rs : List Record} (h : ∀ r ∈ rs, r.expiresAt.WellFormed) {now : Instant}
    (hnow : 0 ≤ now.year ∧ now.year ≤ 9999) :
    store now .sweep (.ofRecords rs) =
      (removedSome (rs.countP (swept now)), .ofRecords (rs.filter fun r => !swept now r)) := by
  have hrows : Table.keep now (rs.map .ofRecord) = (rs.filter fun r => !swept now r).map .ofRecord := by
    rw [keep_eq, if_pos hnow, List.filter_map]
    refine congrArg (List.map TextRow.ofRecord) (List.filter_congr fun r hr => ?_)
    rw [Function.comp_apply, decide_lt_second (h r hr) hnow]
  simp only [store, command, Dialogue.run, Table.answer, Table.answerOpen, Table.ofRecords,
    Table.current, Option.getD_none, Bool.false_eq_true, if_false, Table.setCurrent, hrows,
    List.length_map]
  rw [length_sub_length_filter]
  rfl

/-- What is swept has expired, but for the years after 9999. -/
theorem isExpired_of_swept {now : Instant} {r : Record} (h : swept now r = true)
    (hyear : r.expiresAt.year ≤ 9999) : r.isExpired now = true := by
  unfold swept at h
  rw [Bool.or_eq_true, decide_eq_true_iff, decide_eq_true_iff] at h
  unfold Record.isExpired
  rw [Instant.notAfter_iff]
  omega

def shelving : Shelving store .empty (fun random => (Uuid.ofRandom random).text)
    (fun t => t.year ≤ 9999) Record where
  Keeps t rs := t = .ofRecords rs ∧ (∀ r ∈ rs, r.expiresAt.WellFormed ∧ r.expiresAt.year ≤ 9999) ∧
    (rs.map (·.id)).Nodup
  names id r := r.id == id
  read := .ok
  shelve := Draft.record
  sweeps := swept
  keeps_empty := ⟨Table.ofRecords_nil.symm, fun r hr => (by cases hr), List.nodup_nil⟩
  names_shelve := Memory.text_eq_of_record
  unique := by
    rintro t rs id ⟨-, -, nodup⟩ a ha b hb hida hidb
    exact Memory.eq_of_id_beq nodup ha hb hida hidb
  find := by
    rintro t rs ⟨rfl, hrs, -⟩ now id
    rw [store_find (fun r hr => (hrs r hr).1) now id]
    cases rs.find? (·.id == id) <;> rfl
  insert := by
    rintro t rs ⟨rfl, hrs, nodup⟩ draft hdraft hyear hfresh now
    have hunused : rs.any (·.id == draft.record.id) = false := by
      rw [List.any_eq_false]
      intro r hr
      rw [Bool.not_eq_true]
      exact hfresh r hr
    refine ⟨_, ⟨rfl, fun r hr => ?_, Memory.nodup_append nodup hfresh⟩,
      store_insert_of_fresh now hdraft hunused⟩
    rcases List.mem_append.1 hr with hr | hr
    · exact hrs r hr
    · rw [List.mem_singleton.1 hr]
      exact ⟨hdraft, hyear⟩
  remove := by
    rintro t rs ⟨rfl, hrs, nodup⟩ now id
    exact ⟨_, ⟨rfl, fun r hr => hrs r (List.mem_filter.1 hr).1, Memory.nodup_filter nodup _⟩,
      store_remove rs now id⟩
  sweep := by
    rintro t rs now ⟨rfl, hrs, nodup⟩ hnow
    rw [store_sweep (fun r hr => (hrs r hr).1) hnow.year]
    exact ⟨rfl, fun r hr => hrs r (List.mem_filter.1 hr).1, Memory.nodup_filter nodup _⟩
  expired_of_sweeps := by
    rintro t rs now ⟨-, hrs, -⟩ - r hr hswept
    exact ⟨r, rfl, isExpired_of_swept hswept (hrs r hr).2⟩

theorem swept_eq (now : Instant) (r : Record) :
    swept now r = (r.expiresAt.before ⟨now.seconds, 0⟩ || decide (9999 < r.expiresAt.year)) := by
  unfold swept Instant.before
  simp

/-- Stores one record after the other. -/
def insertAll : List (Instant × Draft) → Table → Table
  | [], t => t
  | (now, draft) :: rest, t => insertAll rest (store now (.insert draft) t).2

theorem insertAll_ofRecords {drafts : List (Instant × Draft)}
    (h : ∀ p ∈ drafts, p.2.expiresAt.WellFormed) (rs : List Record) :
    ∃ rs', insertAll drafts (.ofRecords rs) = .ofRecords (rs ++ rs') ∧
      (∀ r ∈ rs', ∃ p ∈ drafts, r = p.2.record) ∧
      (((rs ++ drafts.map fun p => p.2.record).map (·.id)).Nodup →
        rs' = drafts.map fun p => p.2.record) := by
  induction drafts generalizing rs with
  | nil => exact ⟨[], by rw [List.append_nil]; rfl, by simp, fun _ => rfl⟩
  | cons p rest ih =>
    obtain ⟨now, draft⟩ := p
    have hrest : ∀ p ∈ rest, p.2.expiresAt.WellFormed := fun p hp => h p (List.mem_cons_of_mem _ hp)
    rw [insertAll]
    cases hused : rs.any (·.id == draft.record.id) with
    | true =>
      obtain ⟨rs', heq, hmem, -⟩ := ih hrest rs
      rw [store_insert_of_used now hused]
      refine ⟨rs', heq, fun r hr => ?_, fun nodup => ?_⟩
      · obtain ⟨p, hp, rfl⟩ := hmem r hr
        exact ⟨p, List.mem_cons_of_mem _ hp, rfl⟩
      · obtain ⟨r, hr, hid⟩ := List.any_eq_true.1 hused
        rw [List.map_append, List.nodup_append] at nodup
        exact absurd (beq_iff_eq.1 hid)
          (nodup.2.2 r.id (List.mem_map_of_mem hr) _ (List.mem_map_of_mem List.mem_cons_self))
    | false =>
      obtain ⟨rs', heq, hmem, hnodup⟩ := ih hrest (rs ++ [draft.record])
      rw [store_insert_of_fresh now (h _ List.mem_cons_self) hused]
      refine ⟨draft.record :: rs', ?_, fun r hr => ?_, fun nodup => ?_⟩
      · rw [heq, List.append_assoc, List.singleton_append]
      · rcases List.mem_cons.1 hr with rfl | hr
        · exact ⟨_, List.mem_cons_self, rfl⟩
        · obtain ⟨p, hp, rfl⟩ := hmem r hr
          exact ⟨p, List.mem_cons_of_mem _ hp, rfl⟩
      · rw [List.map_cons, hnodup]
        rw [List.append_assoc, List.singleton_append]
        exact nodup

/-- Whatever was stored, at whatever times: a sweep in the years 0 to 9999 removes exactly the records
that expire before the current second or in a year after 9999, and tells their number. -/
theorem sweep_inserted (drafts : List (Instant × Draft)) (h : ∀ p ∈ drafts, p.2.expiresAt.WellFormed)
    {now : Instant} (hnow : 0 ≤ now.year ∧ now.year ≤ 9999) :
    ∃ rs, insertAll drafts .empty = .ofRecords rs ∧
      (∀ r ∈ rs, ∃ p ∈ drafts, r = p.2.record) ∧
      ((drafts.map fun p => p.2.record.id).Nodup → rs = drafts.map fun p => p.2.record) ∧
      store now .sweep (insertAll drafts .empty) =
        (removedSome (rs.countP fun r =>
            r.expiresAt.before ⟨now.seconds, 0⟩ || decide (9999 < r.expiresAt.year)),
          .ofRecords (rs.filter fun r =>
            !(r.expiresAt.before ⟨now.seconds, 0⟩ || decide (9999 < r.expiresAt.year)))) := by
  obtain ⟨rs, heq, hmem, hnodup⟩ := insertAll_ofRecords h []
  rw [Table.ofRecords_nil, List.nil_append] at heq
  refine ⟨rs, heq, hmem, fun nodup => hnodup ?_, ?_⟩
  · rw [List.nil_append, List.map_map]
    exact nodup
  · have hwell : ∀ r ∈ rs, r.expiresAt.WellFormed := by
      intro r hr
      obtain ⟨p, hp, rfl⟩ := hmem r hr
      exact h p hp
    rw [heq, store_sweep hwell hnow]
    simp only [← swept_eq]
    rfl

/-- Of a record that expired long ago, one that expires in 2030, and one that expires in 10000, a sweep
in 2026 leaves the second. -/
theorem sweep_inserted_in_2026 :
    store ⟨1767225600, 0⟩ .sweep (insertAll
      [(⟨1767225600, 0⟩, ⟨"", ⟨-1, 999999999⟩, 0⟩), (⟨1767225600, 0⟩, ⟨"", ⟨1893456000, 0⟩, 1⟩),
        (⟨1767225600, 0⟩, ⟨"", ⟨253402300800, 0⟩, 2⟩)] .empty) =
      ((.ok (2 : Nat) : Except Failure Nat), .ofRecords [Draft.record ⟨"", ⟨1893456000, 0⟩, 1⟩]) := by
  obtain ⟨rs, -, -, hrs, hsweep⟩ := sweep_inserted
    [(⟨1767225600, 0⟩, ⟨"", ⟨-1, 999999999⟩, 0⟩), (⟨1767225600, 0⟩, ⟨"", ⟨1893456000, 0⟩, 1⟩),
      (⟨1767225600, 0⟩, ⟨"", ⟨253402300800, 0⟩, 2⟩)] (by decide)
    (show 0 ≤ (⟨1767225600, 0⟩ : Instant).year ∧ (⟨1767225600, 0⟩ : Instant).year ≤ 9999 by decide)
  rw [hsweep, hrs (by decide)]
  rfl

/-- A secret whose lifetime leads past the year 9999 is live, but the next sweep removes it, and its reader
is told that there is none. -/
theorem sweep_removes_live :
    let s : Service := ⟨"service key", ⟨0⟩⟩
    let now : Instant := ⟨1767225600, 0⟩
    let chance : Chance := ⟨Vector.replicate 12 0, 0⟩
    let wanted : Secret := { value := "x", ttl := some (.ofMillis 252979200000000) }
    let expiresAt : Instant := ⟨254746425600, 0⟩
    expiresAt.year = 10042 ∧ expiresAt.notAfter now = false ∧
      (s.performAll store [(now, .create chance wanted), (now, .deleteExpired),
        (now, .get chance.identifier none)] .empty).1 =
        [.created (.ok { id := chance.identifier, expiresAt := some expiresAt }), .swept (.ok 1),
          .redeemed (.error .secretNotFound)] := by
  intro s now chance wanted expiresAt
  refine ⟨by decide, by decide, ?_⟩
  have hend : now.plus? (.ofMillis 252979200000000) = some expiresAt := by decide
  have haccept : s.accept wanted now = .ok expiresAt := by
    rw [Service.accept, Service.checkValue_eq_ok_iff.2 (by decide)]
    change Service.expiryAfter (.ofMillis 252979200000000) now = .ok expiresAt
    rw [Service.expiryAfter, hend]
  obtain ⟨d, hdraft, hexpiry⟩ := Service.exists_draft chance haccept
  obtain ⟨-, hrandom, -, -⟩ := Service.draft_eq_ok hdraft
  have hid : d.record.id = chance.identifier := by
    rw [Draft.record, hrandom, Chance.identifier]
  have hexpires : d.record.expiresAt = expiresAt := hexpiry
  have hwell : ∀ r ∈ [d.record], r.expiresAt.WellFormed := by
    rw [List.forall_mem_singleton, hexpires]
    decide
  have hcreate : s.perform store now (.create chance wanted) .empty =
      (.created (.ok { id := chance.identifier, expiresAt := some expiresAt }), .ofRecords [d.record]) := by
    rw [Service.perform_create, Service.run_create_eq, hdraft, ← Table.ofRecords_nil]
    dsimp only
    rw [store_insert_of_fresh now (hwell _ List.mem_cons_self) rfl, ← hid, ← hexpires]
    rfl
  have hsweep : s.perform store now .deleteExpired (.ofRecords [d.record]) = (.swept (.ok 1), .empty) := by
    have hswept : swept now d.record = true := by
      rw [swept, hexpires]
      decide
    have hgone : store now .sweep (.ofRecords [d.record]) =
        ((.ok (1 : Nat) : Except Failure Nat), .empty) := by
      rw [store_sweep hwell (by decide), List.countP_singleton, if_pos hswept,
        List.filter_cons_of_neg (by simp [hswept])]
      rfl
    unfold Service.perform
    simp only [Operation.call, Dialogue.run_andThen, Dialogue.run, Service.run_deleteExpired, hgone]
  have hget : (s.perform store now (.get chance.identifier none) .empty).1 =
      .redeemed (.error .secretNotFound) := by
    have hmissing : (store now (.find chance.identifier) .empty).1 = .error .secretNotFound := rfl
    rw [Service.perform_get, Service.get, Service.run_take_of_missing s none _ hmissing]
  simp only [Service.performAll, hcreate, hsweep, hget]

/-- A row goes by the identifier of its draft. -/
theorem goesBy_ofRecord (id : String) (row : TextRow) (d : Draft) (h : row = .ofRecord d.record) :
    (row.id == id) = true ↔ id = (Uuid.ofRandom d.random).text := by
  rw [h, beq_iff_eq, eq_comm]
  rfl

/-- What a lookup makes of a row. -/
def readRow (row : TextRow) : Except Failure Record :=
  match row.toRecord? with
  | some r => .ok r
  | none => .error (.storageUnavailable "not a time")

theorem readRow_error {row : TextRow} {f : Failure} (h : readRow row = .error f) :
    f ≠ .secretNotFound ∧ f ≠ .decryptionFailed := by
  unfold readRow at h
  split at h
  · cases h
  · rw [← Except.error.inj h]
    exact ⟨by simp, by simp⟩

theorem find_rows (rows : List TextRow) (now : Instant) (id : String) :
    store now (.find id) ⟨rows, none, false⟩ =
      (((rows.find? (·.id == id)).map readRow).getD (.error .secretNotFound), ⟨rows, none, false⟩) := by
  simp only [store, command, Dialogue.run, Table.answer, Table.answerOpen, Table.current,
    Option.getD_none, Bool.false_eq_true, if_false]
  cases rows.find? (·.id == id) with
  | none => rfl
  | some row =>
    simp only [Option.map_some, Option.getD_some, readRow]
    cases row.toRecord? <;> rfl

theorem insert_rows {rows : List TextRow} {draft : Draft} (now : Instant)
    (hunused : rows.find? (·.id == draft.record.id) = none) :
    store now (.insert draft) ⟨rows, none, false⟩ =
      (readRow (.ofRecord draft.record),
        ⟨match (TextRow.ofRecord draft.record).toRecord? with
          | some _ => rows ++ [.ofRecord draft.record]
          | none => rows, none, false⟩) := by
  generalize hr : draft.record = r at hunused ⊢
  have hnone : (rows.any fun row => row.id == (TextRow.ofRecord r).id) = false := by
    rw [List.any_eq_false]
    exact List.find?_eq_none.1 hunused
  have hfind : (rows ++ [TextRow.ofRecord r]).find? (·.id == r.id) = some (.ofRecord r) :=
    find?_concat hunused (beq_self_eq_true r.id)
  change (insertAndSelect draft.record).run (Table.answer now) _ = _
  rw [hr]
  simp only [insertAndSelect, abandon, Dialogue.run, Table.answer, Table.answerOpen, Table.current,
    Table.setCurrent, Option.getD_some, Bool.false_eq_true, if_false, hnone, hfind,
    readRow]
  cases (TextRow.ofRecord r).toRecord? <;> rfl

def custody : Custody store .empty (fun random => (Uuid.ofRandom random).text)
    (fun id random => id = (Uuid.ofRandom random).text) where
  Holds t P := t.open? = none ∧ t.isClosed = false ∧
    KeptFor (fun row d => row = TextRow.ofRecord d.record) t.rows P
  read d := readRow (.ofRecord d.record)
  denotes_iff := Memory.uuid_denotes_iff
  holds_empty P := ⟨rfl, rfl, .nil P⟩
  mono := fun ⟨hopen, hclosed, h⟩ hPQ => ⟨hopen, hclosed, h.mono hPQ⟩
  find := by
    rintro ⟨rows, -, -⟩ P ⟨rfl, rfl, h⟩ now id
    rw [find_rows]
    refine ⟨⟨rfl, rfl, h⟩, ?_⟩
    rcases h.find? (goesBy_ofRecord id) with ⟨hnone, hleft⟩ | ⟨row, d, hsome, hfor, hd, hid⟩
    · rw [hnone]
      exact Or.inl ⟨rfl, rfl, rfl, hleft⟩
    · rw [hsome]
      exact Or.inr ⟨d, hd, hid, congrArg readRow hfor⟩
  insert := by
    rintro ⟨rows, -, -⟩ P ⟨rfl, rfl, h⟩ now draft hfresh
    have hunused := h.find?_eq_none (goesBy_ofRecord draft.record.id)
      fun d hd hid => hfresh d hd hid.symm
    rw [insert_rows now hunused]
    unfold readRow
    cases hread : (TextRow.ofRecord draft.record).toRecord? with
    | none => exact ⟨⟨rfl, rfl, h.mono fun _ => Or.inl⟩, fun r hr => by cases hr⟩
    | some x =>
      refine ⟨⟨rfl, rfl, h.concat rfl⟩, fun r hr => ⟨?_, fun _ => hr⟩⟩
      obtain rfl := Except.ok.inj hr
      obtain ⟨t, -, rfl⟩ := Option.map_eq_some_iff.1 hread
      rfl
  remove := by
    rintro ⟨rows, -, -⟩ P ⟨rfl, rfl, h⟩ now id
    exact ⟨rfl, rfl, h.filter_not (goesBy_ofRecord id)⟩
  sweep := by
    rintro ⟨rows, -, -⟩ P ⟨rfl, rfl, h⟩ now
    refine ⟨rfl, rfl, h.subset fun row hrow => ?_⟩
    change row ∈ Table.keep now rows at hrow
    unfold Table.keep at hrow
    split at hrow
    · exact List.mem_of_mem_filter hrow
    · exact hrow
  read_error := readRow_error

end BurnAfterRead.TextTable
