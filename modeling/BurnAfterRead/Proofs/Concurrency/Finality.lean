import BurnAfterRead.Proofs.Concurrency.Confinement
import BurnAfterRead.Proofs.Store.Memory
import BurnAfterRead.Proofs.Time.Millis

/-!
# Not found is final

A secret that was created is spent when there is no record of it left, or when a call has found its
record expired; the record of a spent secret may still be there, for its removal may fail. A call that
is told that there is no secret, or that takes one away, leaves it spent. As no identifier is drawn
twice and no call reads an earlier time than the calls before it, a spent secret stays so, and later calls
can no longer tell whether they have the right key.
-/

namespace BurnAfterRead.Concurrency

open Dialogue Service

/-- The time that a call reads off its clock. -/
def Event.reading? : Event → Option Instant
  | read _ now => some now
  | _ => none

/-- The times that calls have read. -/
def readings (trace : List Event) : List Instant := trace.filterMap Event.reading?

theorem readings_append (a b : List Event) : readings (a ++ b) = readings a ++ readings b :=
  List.filterMap_append

theorem mem_readings_of_exchange {i : Nat} {now : Instant} {trace : List Event}
    (h : (⟨.now, now⟩ : Exchange) ∈ exchanges i trace) : now ∈ readings trace :=
  List.mem_filterMap.2 ⟨_, exists_read_of_mem h, rfl⟩

/-- No call reads an earlier time than a call before it. -/
def Forward (trace : List Event) : Prop := (readings trace).Pairwise fun t u => t.notAfter u = true

/-- The clock may stand still, and then go on to a later time. -/
theorem forward_append {a b : List Event} {t u : Instant} (ha : ∀ x ∈ a, ∀ now, x.time? = some now → now = t)
    (hb : ∀ x ∈ b, ∀ now, x.time? = some now → now = u) (htu : t.notAfter u = true) :
    Forward (a ++ b) := by
  have times : ∀ {trace : List Event} {t now : Instant},
      (∀ x ∈ trace, ∀ now, x.time? = some now → now = t) → now ∈ readings trace → now = t := by
    intro trace t now h hmem
    obtain ⟨x, hx, hreading⟩ := List.mem_filterMap.1 hmem
    cases x with
    | read => exact h _ hx now hreading
    | _ => cases hreading
  unfold Forward
  rw [readings_append, List.pairwise_append]
  refine ⟨List.pairwise_of_forall_mem_list fun x hx y hy => ?_,
    List.pairwise_of_forall_mem_list fun x hx y hy => ?_, fun x hx y hy => ?_⟩
  · rw [times ha hx, times ha hy, Instant.notAfter_refl]
  · rw [times hb hx, times hb hy, Instant.notAfter_refl]
  · rw [times ha hx, times hb hy, htu]

/-- A command that fails does not tell what only a store that has looked can know, that there is no
secret, nor what no store can know, that a key is wrong. -/
def Event.IsHonest : Event → Prop
  | failed _ _ f => f ≠ .secretNotFound ∧ f ≠ .decryptionFailed
  | _ => True

theorem Event.isHonest_of_not_fault {e : Event} (h : ¬ e.IsFault) : e.IsHonest := by
  cases e with
  | failed => exact absurd trivial h
  | _ => trivial

namespace Scene

variable {σ : Type} {store : Store σ} {empty : σ} {identifier : BitVec 128 → String}
  {Denotes : String → BitVec 128 → Prop} {K : Custody store empty identifier Denotes} {s : Service}
  {u v w : Scene σ} {trace before after : List Event} {d : Draft} {i : Nat} {op : Operation}
  {o : Outcome} {id : String} {passphrase : Option String}

/-- The secret of a draft is gone for good: there is no record of it and none on its way, or a call has
found that the record has expired. -/
def Spent (K : Custody store empty identifier Denotes) (trace : List Event) (d : Draft) (w : Scene σ) :
    Prop :=
  d ∈ drafts trace ∧
    ((∀ id, Denotes id d.random → Vacant K trace id w) ∨
      ∃ r, K.read d = .ok r ∧ ∃ t ∈ readings trace, r.isExpired t = true)

theorem Vacant.spent (h : Vacant K trace id w) (hd : d ∈ drafts trace) (hid : Denotes id d.random) :
    Spent K trace d w :=
  ⟨hd, Or.inl fun _ hid' => h.congr hid hid'⟩

/-- What a store has told honestly about a secret or a key, it has told after it had looked. -/
theorem served_of_error {c : Command} {f : Failure} (honest : ∀ e ∈ trace, e.IsHonest)
    (hf : f = .secretNotFound ∨ f = .decryptionFailed)
    (h : (⟨.store c, (.error f : c.Reply)⟩ : Exchange) ∈ exchanges i trace) :
    ∃ now, .served i now c (.error f) ∈ trace := by
  rcases exists_event_of_mem h with hserved | ⟨g, hg, hfailed⟩
  · exact hserved
  · have hreply : f = g := by cases c <;> exact Except.error.inj hg
    subst hreply
    obtain ⟨hmissing, hopening⟩ := honest _ hfailed
    exact (hf.elim hmissing hopening).elim

namespace Run

variable (K)

/-- A record that was found is that of the draft with the identifier. -/
theorem read_of_found (run : Run store s (quiet empty) trace w) (distinct : Distinct identifier trace)
    (hd : d ∈ drafts trace) (hid : Denotes id d.random) {r : Record}
    (h : (⟨.store (.find id), (.ok r : (Command.find id).Reply)⟩ : Exchange) ∈ exchanges i trace) :
    K.read d = .ok r := by
  obtain ⟨now, hserved⟩ := exists_served_of_ok h
  obtain ⟨d', landed, hid', hread⟩ := run.found K distinct hserved
  rwa [distinct.eq hd landed.asked ((K.denotes_iff hid' _).1 hid)]

/-- A call on a secret that was there leaves it spent, if the call takes it or is told that there is
none. -/
theorem spent_of_answered (run : Run store s (quiet empty) before v) (run' : Run store s v after w)
    (distinct : Distinct identifier (before ++ after)) (honest : ∀ e ∈ before ++ after, e.IsHonest)
    (landed : Landed before d v) (hid : Denotes id d.random) (takes : op.Takes id passphrase)
    (pending : ∀ op o, ¬v.Returned i op o) (returned : w.Returned i op o)
    (answered : o.Succeeds ∨ o.failure? = some .secretNotFound) : Spent K (before ++ after) d w := by
  have whole := run.append run'
  have hd := (run'.landed distinct landed).asked
  rcases answered with ok | hmissing
  · obtain ⟨now, hserved⟩ := whole.removed returned takes ok
    obtain ⟨-, -, -, hvacant⟩ := whole.vacant_of_removed K distinct hserved
    exact hvacant.spent hd hid
  obtain ⟨a, taking, ⟨-, -, ok, -⟩ | ⟨f, ha, hf⟩⟩ := whole.taking returned takes
  · cases ok.symm.trans hmissing
  obtain rfl := Option.some.inj (hf.symm.trans hmissing)
  generalize hl : exchanges i (before ++ after) = l at taking
  cases taking with
  | missing f =>
    obtain rfl := Except.error.inj ha
    have hlast := run.last_after run' returned pending (hl.trans (List.nil_append _).symm)
    obtain ⟨now, hserved⟩ :=
      served_of_error (fun e he => honest e (List.mem_append_right _ he)) (Or.inl rfl) hlast
    exact (run.vacant_of_missed K run' distinct landed hid hserved).spent hd hid
  | @expired r now reply hexpired =>
    have hread := whole.read_of_found K distinct hd hid (r := r) (by rw [hl]; exact List.mem_cons_self)
    have hclock : now ∈ readings (before ++ after) := mem_readings_of_exchange (i := i) (by rw [hl]; simp)
    exact ⟨hd, Or.inr ⟨r, hread, now, hclock, hexpired⟩⟩
  | refused hlive hopen =>
    obtain rfl := Except.error.inj ha
    cases Repository.eq_of_reveal_error hopen
  | beaten f hlive hopen =>
    obtain rfl := Except.error.inj ha
    obtain ⟨now, hserved⟩ := served_of_error (c := .remove id) (i := i) honest (Or.inl rfl) (by rw [hl]; simp)
    obtain ⟨-, -, -, hvacant⟩ := whole.vacant_of_removed K distinct hserved
    exact hvacant.spent hd hid
  | taken => cases ha

/-- A lookup does not fail as if a key were wrong. -/
theorem find_error (K : Custody store empty identifier Denotes) (run : Run store s (quiet empty) trace w)
    (distinct : Distinct identifier trace) {now : Instant} {f : Failure}
    (h : .served i now (.find id) (.error f) ∈ trace) : f ≠ .decryptionFailed := by
  obtain ⟨before, after, rfl⟩ := List.append_of_mem h
  obtain ⟨v, v', hbefore, step, -⟩ := run.split
  obtain ⟨-, hreply, -, -⟩ := step.served_eq
  rcases (K.find (hbefore.sound K distinct.front).held now id).2 with ⟨hmiss, -⟩ | ⟨d, -, -, hread⟩
  · rw [Except.error.inj (hreply.trans hmiss)]
    simp
  · exact (K.read_error (hread.symm.trans hreply.symm)).2

/-- Where a record of a spent secret is found, it has expired. -/
theorem expired_of_spent (run : Run store s (quiet empty) before v) (run' : Run store s v after w)
    (distinct : Distinct identifier (before ++ after)) (forward : Forward (before ++ after))
    (spent : Spent K before d v) (hid : Denotes id d.random) {r : Record} {now : Instant}
    (hfind : (⟨.store (.find id), (.ok r : (Command.find id).Reply)⟩ : Exchange) ∈ exchanges i after)
    (hnow : (⟨.now, now⟩ : Exchange) ∈ exchanges i after) : r.isExpired now = true := by
  obtain ⟨hd, hvacant | ⟨r', hread, t, ht, hexpired⟩⟩ := spent
  · obtain ⟨t, hserved⟩ := exists_served_of_ok hfind
    exact absurd hserved (run.not_found_of_vacant run' distinct hd hid (hvacant id hid))
  · have hread' : K.read d = .ok r := by
      refine (run.append run').read_of_found K distinct (mem_drafts_append_left hd _) hid (i := i) ?_
      rw [exchanges_append]
      exact List.mem_append_right _ hfind
    obtain rfl := Except.ok.inj (hread.symm.trans hread')
    unfold Forward at forward
    rw [readings_append] at forward
    exact Instant.notAfter_trans hexpired
      ((List.pairwise_append.1 forward).2.2 t ht now (mem_readings_of_exchange hnow))

/-- A later call on a spent secret is told neither that it has the right key nor that it has a wrong
one. -/
theorem failed_of_spent (run : Run store s (quiet empty) before v) (run' : Run store s v after w)
    (distinct : Distinct identifier (before ++ after)) (honest : ∀ e ∈ after, e.IsHonest)
    (forward : Forward (before ++ after)) (spent : Spent K before d v) (hid : Denotes id d.random)
    (takes : op.Takes id passphrase) (later : v.courses[i]? = none) (returned : w.Returned i op o) :
    ∃ f, o.failure? = some f ∧ f ≠ .decryptionFailed := by
  have whole := run.append run'
  obtain ⟨a, taking, hanswer⟩ := whole.taking returned takes
  have hexchanges : exchanges i (before ++ after) = exchanges i after := by
    rw [exchanges_append, (run.path_or_idle i).2 later, List.nil_append]
  rw [hexchanges] at taking
  have hfails : ∃ f, a = .error f ∧ f ≠ .decryptionFailed := by
    rcases taking.lookup with ⟨f, hl, ha⟩ | ⟨r, now, rest, hl, ha⟩
    · refine ⟨f, ha, ?_⟩
      rintro rfl
      obtain ⟨now, hserved⟩ := served_of_error (c := .find id) (i := i) honest (Or.inr rfl)
        (by rw [hl]; exact List.mem_cons_self)
      exact whole.find_error K distinct (List.mem_append_right _ hserved) rfl
    · refine ⟨_, ha ?_, by simp⟩
      exact run.expired_of_spent K run' distinct forward spent hid (i := i) (by rw [hl]; simp)
        (by rw [hl]; simp)
  obtain ⟨f, rfl, hf⟩ := hfails
  rcases hanswer with ⟨secret, ha, -⟩ | ⟨g, hg, ho⟩
  · cases ha
  · exact ⟨g, ho, Except.error.inj hg ▸ hf⟩

end Run

/-- Not found is final. Calls on one store interleave in every way, commands may fail and take effect
later, and the clock of the calls never goes back. Once a call on an identifier that was issued has
taken the secret, or was told that there is none, no call on it that begins later takes the secret or is
told that its key is wrong. -/
theorem not_found_final (K : Custody store empty identifier Denotes) {between : List Event}
    (run : Run store s (quiet empty) before u) (run' : Run store s u between v)
    (run'' : Run store s v after w) (fresh : w.Fresh identifier)
    (honest : ∀ e ∈ before ++ between ++ after, e.IsHonest)
    (forward : Forward (before ++ between ++ after)) {k : Nat} {chance : Chance} {wanted created : Secret}
    (issued : u.Returned k (.create chance wanted) (.created (.ok created))) :
    Denotes created.id chance.random ∧
      ∀ (i : Nat) (op : Operation) (o : Outcome) (id : String) (passphrase : Option String),
        Denotes id chance.random → op.Takes id passphrase → (∀ op o, ¬u.Returned i op o) →
        v.Returned i op o → (o.Succeeds ∨ o.failure? = some .secretNotFound) →
        ∀ (j : Nat) (op' : Operation) (o' : Outcome) (id' : String) (passphrase' : Option String),
          Denotes id' chance.random → op'.Takes id' passphrase' → v.courses[j]? = none →
          w.Returned j op' o' → ¬o'.Succeeds ∧ o'.failure? ≠ some .decryptionFailed := by
  have distinct : Distinct identifier (before ++ between ++ after) :=
    ((run.append run').append run'').nodup_drafts fresh
  obtain ⟨d, r, landed, drafted, rfl, hid, -⟩ := run.issued K distinct.front.front issued
  rw [← drafted.random]
  refine ⟨hid, fun i op o id passphrase hid takes pending returned answered => ?_⟩
  have spent := run.spent_of_answered K run' distinct.front
    (fun e he => honest e (List.mem_append_left _ he)) landed hid takes pending returned answered
  intro j op' o' id' passphrase' hid' takes' later returned'
  obtain ⟨f, ho, hf⟩ := (run.append run').failed_of_spent K run'' distinct
    (fun e he => honest e (List.mem_append_right _ he)) forward spent hid' takes' later returned'
  refine ⟨fun ok => ?_, fun hdecryption => hf ?_⟩
  · cases ho.symm.trans ok
  · exact Option.some.inj (ho.symm.trans hdecryption)

/-- A record that has expired but could not be removed: it is still there, and those who have its
passphrase can no longer tell. -/
theorem not_found_final_of_expired :
    ∃ (v w : Scene Memory) (id : String) (o : Outcome),
      v.Returned 1 (.get id none) (.redeemed (.error .secretNotFound)) ∧ (v.state.find? id).isSome ∧
      w.Returned 2 (.delete id (some "sesame")) o ∧
      ¬o.Succeeds ∧ o.failure? ≠ some .decryptionFailed := by
  let s : Service := ⟨"service key", ⟨0⟩⟩
  let chance : Chance := ⟨Vector.replicate 12 0, 0⟩
  let wanted : Secret :=
    { value := "attack at dawn", passphrase := some "sesame", expiresAt := some ⟨100, 0⟩ }
  have haccept : s.accept wanted ⟨50, 0⟩ = .ok ⟨100, 0⟩ :=
    accept_eq_ok_iff.2 ⟨checkValue_eq_ok_iff.2 (by decide), rfl⟩
  obtain ⟨⟨value, _, random⟩, hdraft, rfl⟩ := exists_draft chance haccept
  let r : Record := Draft.record ⟨value, ⟨100, 0⟩, random⟩
  let issued : Course := ⟨.create chance wanted, .done (.created (.ok (shell r)))⟩
  let get : Operation := .get r.id none
  let delete : Operation := .delete r.id (some "sesame")
  let u : Scene Memory := ⟨Memory.empty.insert r, [issued], []⟩
  have hstored : Memory.store ⟨50, 0⟩ (.insert ⟨value, ⟨100, 0⟩, random⟩) .empty = (.ok r, u.state) := rfl
  obtain ⟨before, run, hbefore⟩ := Run.create_alone hdraft hstored
  have hsome : u.state.find? r.id = some r := Memory.find?_insert_self _ r
  have hfind : Memory.store ⟨100, 0⟩ (.find r.id) u.state = (.ok r, u.state) := by
    simp only [Memory.store, hsome]
  -- The reader without the passphrase: the removal of the record fails.
  let v : Scene Memory :=
    ⟨u.state, [issued, ⟨get, .done (.redeemed (.error .secretNotFound))⟩], [.remove r.id]⟩
  let between : List Event := [.started get, .served 1 ⟨100, 0⟩ (.find r.id) (.ok r), .read 1 ⟨100, 0⟩,
    .failed 1 (.remove r.id) .timeout]
  have run' : Run Memory.store s u between v := by
    have started : Run Memory.store s u [.started get] ⟨u.state, [issued, ⟨get, get.call s⟩], []⟩ :=
      (Run.refl u).tail (.start u get)
    have found := started.tail (.serve_of_eq (i := 1) rfl hfind)
    have expired := found.tail (.read (i := 1) ⟨100, 0⟩ rfl)
    have failed := expired.tail (.fail (i := 1) .timeout rfl)
    exact failed
  -- The owner of the passphrase comes later.
  let missed : Course := ⟨get, .done (.redeemed (.error .secretNotFound))⟩
  obtain ⟨after, run'', hafter⟩ := Run.alone Memory.store s ⟨100, 0⟩ (i := 2)
    (v := ⟨u.state, [issued, missed, ⟨delete, delete.call s⟩], [.remove r.id]⟩) rfl
  generalize (delete.call s).run (Memory.store.answer ⟨100, 0⟩) u.state = p at run''
  obtain ⟨o, m⟩ := p
  let w : Scene Memory := ⟨m, [issued, missed, ⟨delete, .done o⟩], [.remove r.id]⟩
  have run'' : Run Memory.store s v ([.started delete] ++ after) w :=
    ((Run.refl v).tail (.start v delete)).append run''
  have fresh : w.Fresh fun random => (Uuid.ofRandom random).text := by
    refine fresh_of_creator (k := 0) fun i chance' wanted' rest h => ?_
    rcases i with _ | _ | _ | i
    · rfl
    · exact absurd (congrArg Course.operation (Option.some.inj h)) (by simp [missed, get])
    · exact absurd (congrArg Course.operation (Option.some.inj h)) (by simp [delete])
    · cases h
  have late : ∀ e ∈ between ++ ([.started delete] ++ after),
      e.IsHonest ∧ ∀ t, e.time? = some t → t = ⟨100, 0⟩ := by
    intro e he
    simp only [between, List.mem_append, List.mem_cons, List.not_mem_nil, or_false] at he
    rcases he with (rfl | rfl | rfl | rfl) | rfl | he
    · exact ⟨trivial, fun t ht => by cases ht⟩
    · exact ⟨trivial, fun t ht => (Option.some.inj ht).symm⟩
    · exact ⟨trivial, fun t ht => (Option.some.inj ht).symm⟩
    · exact ⟨⟨by simp, by simp⟩, fun t ht => by cases ht⟩
    · exact ⟨trivial, fun t ht => by cases ht⟩
    · exact ⟨Event.isHonest_of_not_fault (hafter e he).1, (hafter e he).2⟩
  have honest : ∀ e ∈ before ++ between ++ ([.started delete] ++ after), e.IsHonest := by
    intro e he
    rw [List.append_assoc] at he
    rcases List.mem_append.1 he with he | he
    · exact Event.isHonest_of_not_fault (hbefore e he).1
    · exact (late e he).1
  have forward : Forward (before ++ between ++ ([.started delete] ++ after)) := by
    rw [List.append_assoc]
    exact forward_append (fun e he => (hbefore e he).2) (fun e he => (late e he).2) (by decide)
  obtain ⟨hid, final⟩ := not_found_final Memory.custody run run' run'' fresh honest forward (k := 0) rfl
  refine ⟨v, w, r.id, o, rfl, by rw [hsome]; rfl, rfl, ?_⟩
  refine final 1 get _ r.id none hid (Or.inl rfl) (fun op o h => ?_) rfl (Or.inr rfl)
    2 delete o r.id (some "sesame") hid (Or.inr rfl) rfl rfl
  exact absurd h (by simp [Returned])

end Scene

end BurnAfterRead.Concurrency
