import BurnAfterRead.Proofs.Concurrency.Drafts
import BurnAfterRead.Proofs.Store.Custody

/-!
# What a store holds was asked for

In a run over a store that makes nothing up, all that the store holds are records of drafts that calls
have asked it to keep, and a draft whose command is still adrift is not among them. `Confined` says so of
drafts with a property; it is kept as long as new drafts have the property too. If all identifiers are
fresh, it carries two facts through a run: what a lookup finds under an identifier is always the record
of the same draft, and once there is no record under an identifier that was in use, there is none for
ever (`Run.vacant`).
-/

namespace BurnAfterRead.Concurrency

open Dialogue Service

/-- The command that an event is about. -/
def Event.command? : Event → Option Command
  | served _ _ c _ | failed _ c _ | settled _ c => some c
  | started _ | read _ _ => none

theorem draft?_served (i : Nat) (now : Instant) (c : Command) (reply : c.Reply) :
    (Event.served i now c reply).draft? = c.draft? := by
  cases c <;> rfl

theorem draft?_failed (i : Nat) (c : Command) (f : Failure) : (Event.failed i c f).draft? = c.draft? := by
  cases c <;> rfl

theorem eq_insert_iff {c : Command} {d : Draft} : c = .insert d ↔ c.draft? = some d := by
  cases c <;> simp [Command.draft?]

namespace Scene

variable {σ : Type} {store : Store σ} {empty st : σ} {identifier : BitVec 128 → String}
  {Denotes : String → BitVec 128 → Prop} {s : Service} {u v w : Scene σ}
  {trace before after : List Event} {Q : Draft → Prop} {id : String}

/-- No identifier is drawn for two drafts of a trace. -/
def Distinct (identifier : BitVec 128 → String) (trace : List Event) : Prop :=
  ((drafts trace).map fun d => identifier d.random).Nodup

namespace Distinct

theorem front (h : Distinct identifier (before ++ after)) : Distinct identifier before := by
  unfold Distinct at h ⊢
  rw [drafts_append, List.map_append] at h
  exact (List.nodup_append.1 h).1

theorem eq (h : Distinct identifier trace) {d d' : Draft} (hd : d ∈ drafts trace)
    (hd' : d' ∈ drafts trace) (hid : identifier d.random = identifier d'.random) : d = d' :=
  List.inj_on_of_nodup_map h hd hd' hid

/-- Later drafts have other identifiers. -/
theorem ne (h : Distinct identifier (before ++ after)) {d d' : Draft} (hd : d ∈ drafts before)
    (hd' : d' ∈ drafts after) : identifier d.random ≠ identifier d'.random := by
  unfold Distinct at h
  rw [drafts_append, List.map_append] at h
  exact (List.nodup_append.1 h).2.2 _ (List.mem_map_of_mem hd) _ (List.mem_map_of_mem hd')

/-- A new draft has another identifier than those before it. -/
theorem fresh {e : Event} (h : Distinct identifier (trace ++ [e])) {d : Draft} (hd : e.draft? = some d) :
    ∀ d' ∈ drafts trace, identifier d'.random ≠ identifier d.random :=
  fun _ hd' => h.ne hd' (List.mem_filterMap.2 ⟨e, List.mem_singleton.2 rfl, hd⟩)

end Distinct

/-- No call closes the store, so no command adrift does. -/
theorem Run.not_close (run : Run store s (quiet st) trace w) :
    (∀ e ∈ trace, e.command? ≠ some .close) ∧ .close ∉ w.adrift := by
  induction run with
  | refl => exact ⟨fun e he => (by cases he), fun h => (by cases h)⟩
  | @tail v w trace e run step ih =>
    obtain ⟨htrace, hadrift⟩ := ih
    suffices h : e.command? ≠ some .close ∧ .close ∉ w.adrift by
      refine ⟨fun x hx => ?_, h.2⟩
      rcases List.mem_append.1 hx with hx | hx
      · exact htrace x hx
      · rw [List.mem_singleton.1 hx]
        exact h.1
    cases step with
    | start op => exact ⟨by simp [Event.command?], hadrift⟩
    | read now h => exact ⟨by simp [Event.command?], hadrift⟩
    | serve now h =>
      have hc := Operation.asked_ne_close (run.path h)
      exact ⟨by simpa [Event.command?] using hc, hadrift⟩
    | fail f h =>
      have hc := Operation.asked_ne_close (run.path h)
      refine ⟨by simpa [Event.command?] using hc, fun hclose => ?_⟩
      rcases List.mem_cons.1 hclose with hclose | hclose
      · exact hc hclose.symm
      · exact hadrift hclose
    | settle now h =>
      refine ⟨fun hclose => ?_, fun hclose => hadrift (List.mem_of_mem_erase hclose)⟩
      obtain rfl := Option.some.inj hclose
      exact hadrift h

/-- All that a scene holds, and all that is adrift, was asked for and has a property; what is adrift
is not held yet, and comes into effect once. -/
structure Confined (K : Custody store empty identifier Denotes) (trace : List Event)
    (Q : Draft → Prop) (w : Scene σ) : Prop where
  asked : ∀ d, .insert d ∈ w.adrift → d ∈ drafts trace ∧ Q d
  once : ∀ d, w.adrift.count (.insert d) ≤ 1
  held : K.Holds w.state fun d => d ∈ drafts trace ∧ .insert d ∉ w.adrift ∧ Q d

variable {K : Custody store empty identifier Denotes}

theorem confined_quiet (Q : Draft → Prop) : Confined K [] Q (quiet empty) :=
  ⟨fun d hd => (by cases hd), fun d => Nat.zero_le 1, K.holds_empty _⟩

namespace Confined

variable {e : Event} {c : Command} {courses : List Course}

/-- An event that concerns no command. -/
theorem idle (h : Confined K trace Q v) (e : Event) (courses : List Course) :
    Confined K (trace ++ [e]) Q ⟨v.state, courses, v.adrift⟩ where
  asked d hd := ⟨mem_drafts_snoc.2 (Or.inl (h.asked d hd).1), (h.asked d hd).2⟩
  once := h.once
  held := K.mono h.held fun _ hd => ⟨mem_drafts_snoc.2 (Or.inl hd.1), hd.2⟩

theorem serve (h : Confined K trace Q v) (hopen : c ≠ .close) (he : e.draft? = c.draft?)
    (distinct : Distinct identifier (trace ++ [e])) (hQ : ∀ d, c.draft? = some d → Q d)
    (now : Instant) (courses : List Course) :
    Confined K (trace ++ [e]) Q ⟨(store now c v.state).2, courses, v.adrift⟩ := by
  have fresh : ∀ d, c.draft? = some d → ∀ d' ∈ drafts trace, identifier d'.random ≠ identifier d.random :=
    fun d hd => distinct.fresh (he.trans hd)
  have hstore := K.holds_store h.held now hopen fun draft hdraft d hd => fresh draft hdraft d hd.1
  refine ⟨(h.idle e courses).asked, h.once, K.mono hstore fun d hd => ?_⟩
  rcases hd with hd | hd
  · exact ⟨mem_drafts_snoc.2 (Or.inl hd.1), hd.2⟩
  · refine ⟨mem_drafts_snoc.2 (Or.inr (he.trans hd)), fun hadrift => ?_, hQ d hd⟩
    exact fresh d hd d (h.asked d hadrift).1 rfl

theorem fail (h : Confined K trace Q v) (he : e.draft? = c.draft?)
    (distinct : Distinct identifier (trace ++ [e])) (hQ : ∀ d, c.draft? = some d → Q d)
    (courses : List Course) : Confined K (trace ++ [e]) Q ⟨v.state, courses, c :: v.adrift⟩ := by
  have fresh : ∀ d, c.draft? = some d → d ∉ drafts trace := fun d hd hmem =>
    distinct.fresh (he.trans hd) d hmem rfl
  have hmem : ∀ {d}, .insert d ∈ c :: v.adrift → c.draft? = some d ∨ .insert d ∈ v.adrift := by
    intro d hd
    rcases List.mem_cons.1 hd with hd | hd
    · exact Or.inl (eq_insert_iff.1 hd.symm)
    · exact Or.inr hd
  refine ⟨fun d hd => ?_, fun d => ?_, K.mono h.held fun d hd => ?_⟩
  · rcases hmem hd with hd | hd
    · exact ⟨mem_drafts_snoc.2 (Or.inr (he.trans hd)), hQ d hd⟩
    · exact (h.idle e courses).asked d hd
  · change (c :: v.adrift).count (.insert d) ≤ 1
    by_cases hd : c.draft? = some d
    · have hnone : v.adrift.count (.insert d) = 0 :=
        List.count_eq_zero.2 fun hadrift => fresh d hd (h.asked d hadrift).1
      have hcount : (c :: v.adrift).count (.insert d) = 1 := by
        rw [eq_insert_iff.2 hd, List.count_cons_self, hnone]
      exact Nat.le_of_eq hcount
    · rw [List.count_cons_of_ne fun heq => hd (eq_insert_iff.1 heq)]
      exact h.once d
  · refine ⟨mem_drafts_snoc.2 (Or.inl hd.1), fun hadrift => ?_, hd.2.2⟩
    rcases hmem hadrift with hdraft | hadrift
    · exact fresh d hdraft hd.1
    · exact hd.2.1 hadrift

theorem settle (h : Confined K trace Q v) (hopen : c ≠ .close)
    (distinct : Distinct identifier (trace ++ [e])) (hc : c ∈ v.adrift) (now : Instant) :
    Confined K (trace ++ [e]) Q ⟨(store now c v.state).2, v.courses, v.adrift.erase c⟩ := by
  have hfresh : ∀ draft, c.draft? = some draft → ∀ d, d ∈ drafts trace ∧ .insert d ∉ v.adrift ∧ Q d →
      identifier d.random ≠ identifier draft.random := by
    intro draft hdraft d hd hid
    obtain rfl := eq_insert_iff.2 hdraft
    obtain rfl := distinct.front.eq hd.1 (h.asked draft hc).1 hid
    exact hd.2.1 hc
  have hidle := h.idle e v.courses
  refine ⟨fun d hd => hidle.asked d (List.mem_of_mem_erase hd), fun d => ?_,
    K.mono (K.holds_store h.held now hopen hfresh) fun d hd => ?_⟩
  · exact Nat.le_trans (List.erase_sublist.count_le _) (h.once d)
  · rcases hd with hd | hd
    · exact ⟨mem_drafts_snoc.2 (Or.inl hd.1), fun hadrift => hd.2.1 (List.mem_of_mem_erase hadrift), hd.2.2⟩
    · -- The command comes into effect now, and was adrift only once.
      obtain rfl := eq_insert_iff.2 hd
      refine ⟨(hidle.asked d hc).1, fun hadrift => ?_, (h.asked d hc).2⟩
      have hcount := List.count_pos_iff.2 hadrift
      rw [List.count_erase_self] at hcount
      have := h.once d
      omega

/-- Each step keeps a scene confined, if new drafts have the property. -/
theorem step (h : Confined K trace Q v) (step : Step store s v e w) (hopen : e.command? ≠ some .close)
    (distinct : Distinct identifier (trace ++ [e])) (hQ : ∀ d, e.draft? = some d → Q d) :
    Confined K (trace ++ [e]) Q w := by
  cases step with
  | start op => exact h.idle _ _
  | read now hc => exact h.idle _ _
  | @serve i op c next now hc =>
    have he := draft?_served i now c (store now c v.state).1
    exact h.serve (fun hclose => hopen (congrArg some hclose)) he distinct (he ▸ hQ) now _
  | @fail i op c next f hc =>
    have he := draft?_failed i c f
    exact h.fail he distinct (he ▸ hQ) _
  | settle now hc => exact h.settle (fun hclose => hopen (congrArg some hclose)) distinct hc now

end Confined

/-- There is no record of an identifier, and none is on its way. -/
def Vacant (K : Custody store empty identifier Denotes) (trace : List Event) (id : String)
    (w : Scene σ) : Prop :=
  Confined K trace (fun d => ¬Denotes id d.random) w

/-- It does not matter how an identifier is written. -/
theorem Vacant.congr (h : Vacant K trace id w) {a : BitVec 128} (hid : Denotes id a) {id' : String}
    (hid' : Denotes id' a) : Vacant K trace id' w := by
  have hsame : ∀ d, ¬Denotes id d → ¬Denotes id' d := fun d hd hd' =>
    hd ((K.denotes_iff hid d).2 ((K.denotes_iff hid' d).1 hd'))
  exact ⟨fun d hd => ⟨(h.asked d hd).1, hsame _ (h.asked d hd).2⟩, h.once,
    K.mono h.held fun d hd => ⟨hd.1, hd.2.1, hsame _ hd.2.2⟩⟩

/-- A draft was asked for, and its command is not adrift. -/
structure Landed (trace : List Event) (d : Draft) (w : Scene σ) : Prop where
  asked : d ∈ drafts trace
  ashore : .insert d ∉ w.adrift

/-- Where the draft of an identifier has landed, nothing under this identifier is on its way. -/
theorem Confined.vacant (h : Confined K trace (fun _ => True) w) (distinct : Distinct identifier trace)
    {d : Draft} (landed : Landed trace d w) {id : String} (hid : Denotes id d.random)
    (hgone : K.Holds w.state fun d =>
      (d ∈ drafts trace ∧ .insert d ∉ w.adrift ∧ True) ∧ ¬Denotes id d.random) :
    Vacant K trace id w := by
  refine ⟨fun d' hd' => ⟨(h.asked d' hd').1, fun hid' => ?_⟩, h.once, K.mono hgone fun d' hd' => ?_⟩
  · obtain rfl := distinct.eq (h.asked d' hd').1 landed.asked ((K.denotes_iff hid _).1 hid')
    exact landed.ashore hd'
  · exact ⟨hd'.1.1, hd'.1.2.1, hd'.2⟩

/-- What the store does when it answers a command, and whom it answers. -/
theorem Step.served_eq {i : Nat} {now : Instant} {c : Command} {reply : c.Reply}
    (step : Step store s v (.served i now c reply) w) :
    (∃ op, ∃ next : c.Reply → Call Outcome, v.courses[i]? = some ⟨op, .ask (.store c) next⟩) ∧
      reply = (store now c v.state).1 ∧ w.state = (store now c v.state).2 ∧ w.adrift = v.adrift := by
  cases step with
  | serve now h => exact ⟨⟨_, _, h⟩, rfl, rfl, rfl⟩

namespace Run

/-- A run keeps a scene confined, if its drafts have the property. -/
theorem confined (run : Run store s (quiet st) before v) (run' : Run store s v after w)
    (distinct : Distinct identifier (before ++ after)) (h : Confined K before Q v)
    (hQ : ∀ d ∈ drafts after, Q d) : Confined K (before ++ after) Q w := by
  induction run' with
  | refl => rwa [List.append_nil]
  | @tail v' w after e run' step ih =>
    rw [← List.append_assoc] at distinct ⊢
    have hclose := ((run.append run').tail step).not_close.1 e (by simp)
    refine (ih distinct.front fun d hd => hQ d ?_).step step hclose distinct fun d hd => hQ d ?_
    · exact mem_drafts_snoc.2 (Or.inl hd)
    · exact mem_drafts_snoc.2 (Or.inr hd)

theorem sound (K : Custody store empty identifier Denotes) (run : Run store s (quiet empty) trace w)
    (distinct : Distinct identifier trace) : Confined K trace (fun _ => True) w :=
  (Run.refl (quiet empty)).confined run distinct (confined_quiet _) fun _ _ => trivial

theorem landed (run : Run store s v after w) (distinct : Distinct identifier (before ++ after))
    {d : Draft} (h : Landed before d v) : Landed (before ++ after) d w := by
  induction run with
  | refl => rwa [List.append_nil]
  | @tail v' w after e run step ih =>
    rw [← List.append_assoc] at distinct ⊢
    obtain ⟨asked, ashore⟩ := ih distinct.front
    refine ⟨mem_drafts_snoc.2 (Or.inl asked), ?_⟩
    cases step with
    | start op => exact ashore
    | read now hc => exact ashore
    | serve now hc => exact ashore
    | @fail i op c next f hc =>
      intro hadrift
      rcases List.mem_cons.1 hadrift with rfl | hadrift
      · exact distinct.fresh (e := .failed i (.insert d) f) rfl d asked rfl
      · exact ashore hadrift
    | settle now hc => exact fun hadrift => ashore (List.mem_of_mem_erase hadrift)

/-- Once there is no record of an identifier that was in use, there is none for ever. -/
theorem vacant (run : Run store s (quiet st) before v) (run' : Run store s v after w)
    (distinct : Distinct identifier (before ++ after)) {d : Draft} (hd : d ∈ drafts before)
    {id : String} (hid : Denotes id d.random) (h : Vacant K before id v) :
    Vacant K (before ++ after) id w := by
  refine run.confined run' distinct h fun d' hd' hid' => ?_
  exact distinct.ne hd hd' ((K.denotes_iff hid' _).1 hid)

/-- What a lookup found is the record of a draft that has landed. -/
theorem found (K : Custody store empty identifier Denotes) (run : Run store s (quiet empty) trace w)
    (distinct : Distinct identifier trace) {i : Nat} {now : Instant} {id : String} {r : Record}
    (h : .served i now (.find id) (.ok r) ∈ trace) :
    ∃ d, Landed trace d w ∧ Denotes id d.random ∧ K.read d = .ok r := by
  obtain ⟨before, after, rfl⟩ := List.append_of_mem h
  obtain ⟨v, v', hbefore, step, hafter⟩ := run.split
  have hsound := hbefore.sound K distinct.front
  obtain ⟨-, hreply, -, hadrift⟩ := step.served_eq
  rcases (K.find hsound.held now id).2 with ⟨hmiss, -⟩ | ⟨d, hd, hid, hread⟩
  · rw [← hreply] at hmiss
    cases hmiss
  · refine ⟨d, ?_, hid, (hreply.trans hread).symm⟩
    rw [List.append_cons] at distinct ⊢
    refine hafter.landed distinct ⟨mem_drafts_snoc.2 (Or.inl hd.1), ?_⟩
    rw [hadrift]
    exact hd.2.1

/-- The draft of a creation that has returned has landed. -/
theorem issued (K : Custody store empty identifier Denotes) (run : Run store s (quiet empty) trace w)
    (distinct : Distinct identifier trace) {k : Nat} {chance : Chance} {wanted created : Secret}
    (h : w.Returned k (.create chance wanted) (.created (.ok created))) :
    ∃ d r, Landed trace d w ∧ Drafted s chance wanted d ∧ created = shell r ∧ Denotes r.id d.random ∧
      (r.expiresAt.WellFormed → K.read d = .ok r) := by
  obtain ⟨d, r, now, drafted, hcreated, hserved⟩ := run.stored h
  obtain ⟨before, after, rfl⟩ := List.append_of_mem hserved
  obtain ⟨v, v', hbefore, step, hafter⟩ := run.split
  have hsound := hbefore.sound K distinct.front
  obtain ⟨-, hreply, -, hadrift⟩ := step.served_eq
  rw [List.append_cons] at distinct ⊢
  have hfresh := distinct.front.fresh (d := d) rfl
  obtain ⟨hid, hread⟩ := (K.insert hsound.held now d fun d' hd' => hfresh d' hd'.1).2 r hreply.symm
  refine ⟨d, r, hafter.landed distinct ⟨mem_drafts_snoc.2 (Or.inr rfl), ?_⟩, drafted, hcreated, hid, hread⟩
  rw [hadrift]
  exact fun hmem => hfresh d (hsound.asked d hmem).1 rfl

/-- After the removal of a record, there is none. -/
theorem vacant_of_removed (K : Custody store empty identifier Denotes)
    (run : Run store s (quiet empty) trace w) (distinct : Distinct identifier trace) {i : Nat}
    {now : Instant} {id : String} {reply : Except Failure Unit}
    (h : .served i now (.remove id) reply ∈ trace) :
    ∃ d ∈ drafts trace, Denotes id d.random ∧ Vacant K trace id w := by
  obtain ⟨before, after, rfl⟩ := List.append_of_mem h
  obtain ⟨v, v', hbefore, step, hafter⟩ := run.split
  have hsound := hbefore.sound K distinct.front
  obtain ⟨⟨op, next, hc⟩, -, hstate, hadrift⟩ := step.served_eq
  -- Whoever removes a record has found it before.
  obtain ⟨r, t, hl⟩ := Operation.found_before_removal (hbefore.path hc)
  have hfind : (⟨.store (.find id), (.ok r : (Command.find id).Reply)⟩ : Exchange) ∈ exchanges i before := by
    rw [hl]
    exact List.mem_cons_self
  obtain ⟨t', hfound⟩ := exists_served_of_ok hfind
  obtain ⟨d, landed, hid, -⟩ := hbefore.found K distinct.front hfound
  rw [List.append_cons] at distinct ⊢
  have hrun := hbefore.tail step
  have landed' := ((Run.refl v).tail step).landed distinct.front landed
  refine ⟨d, mem_drafts_append_left landed'.asked _, hid, ?_⟩
  refine hrun.vacant hafter distinct landed'.asked hid ?_
  refine (hrun.sound K distinct.front).vacant distinct.front landed' hid ?_
  rw [hstate, hadrift]
  refine K.mono (K.remove hsound.held now id) fun d' hd' => ⟨⟨?_, hd'.1.2⟩, hd'.2⟩
  exact mem_drafts_snoc.2 (Or.inl hd'.1.1)

/-- After a lookup that missed a draft that had landed, there is no record of it. -/
theorem vacant_of_missed (K : Custody store empty identifier Denotes)
    (run : Run store s (quiet empty) before v) (run' : Run store s v after w)
    (distinct : Distinct identifier (before ++ after)) {d : Draft} (landed : Landed before d v)
    {i : Nat} {now : Instant} {id : String} (hid : Denotes id d.random)
    (h : .served i now (.find id) (.error .secretNotFound) ∈ after) : Vacant K (before ++ after) id w := by
  obtain ⟨front, back, rfl⟩ := List.append_of_mem h
  obtain ⟨u, u', hfront, step, hback⟩ := run'.split
  rw [List.append_cons, ← List.append_assoc, ← List.append_assoc] at distinct ⊢
  have upto := run.append hfront
  have hsound := upto.sound K distinct.front.front
  obtain ⟨-, hreply, hstate, hadrift⟩ := step.served_eq
  have landed' := ((Run.refl u).tail step).landed distinct.front (hfront.landed distinct.front.front landed)
  refine (upto.tail step).vacant hback distinct landed'.asked hid ?_
  refine ((upto.tail step).sound K distinct.front).vacant distinct.front landed' hid ?_
  rw [hstate, hadrift]
  rcases (K.find hsound.held now id).2 with ⟨-, hgone⟩ | ⟨d', -, -, hread⟩
  · exact K.mono hgone fun d' hd' => ⟨⟨mem_drafts_snoc.2 (Or.inl hd'.1.1), hd'.1.2⟩, hd'.2⟩
  · exact absurd rfl (K.read_error (hread.symm.trans hreply.symm)).1

/-- Where there is no record of an identifier that was in use, no lookup finds one. -/
theorem not_found_of_vacant (run : Run store s (quiet empty) before v) (run' : Run store s v after w)
    (distinct : Distinct identifier (before ++ after)) {d : Draft} (hd : d ∈ drafts before)
    {id : String} (hid : Denotes id d.random) (h : Vacant K before id v) {i : Nat} {now : Instant}
    {r : Record} : .served i now (.find id) (.ok r) ∉ after := by
  intro hfound
  obtain ⟨front, back, rfl⟩ := List.append_of_mem hfound
  obtain ⟨u, u', hfront, step, -⟩ := run'.split
  rw [List.append_cons, ← List.append_assoc, ← List.append_assoc] at distinct
  obtain ⟨-, hreply, -, -⟩ := step.served_eq
  have hvacant := run.vacant hfront distinct.front.front hd hid h
  rcases (K.find hvacant.held now id).2 with ⟨hmiss, -⟩ | ⟨d', hd', hid', -⟩
  · rw [← hreply] at hmiss
    cases hmiss
  · exact hd'.2.2 hid'

end Run

end Scene

end BurnAfterRead.Concurrency
