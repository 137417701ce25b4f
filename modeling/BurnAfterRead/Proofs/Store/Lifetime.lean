import BurnAfterRead.Proofs.Service.Sequential
import BurnAfterRead.Proofs.Store.KeyValue
import BurnAfterRead.Proofs.Time.Spans

/-!
# A key lives as long as its record

The key-value server is told for how many milliseconds a key has to live: the span from the creation to
the expiry, cut to milliseconds, and one at least. On a server that keeps to that, the record is found
until the last millisecond before its expiry, and from its expiry on no one is given it, whether the key
is gone or not; and the key goes no later than the record, or after one millisecond if that had expired
already. Spans from leap seconds and to them can be a second off, and so is the life of such a key.
-/

namespace BurnAfterRead

namespace Repository

/-- A lookup that has the store for itself gives the record that the store finds, unless it has expired. -/
theorem run_get {σ : Type} (store : Store σ) (now : Instant) (id key : String) (st : σ) :
    ((get id key).run (store.answer now) st).1 =
      match (store now (.find id) st).1 with
      | .error f => .error f
      | .ok r => if r.isExpired now then .error .secretNotFound else reveal r key := by
  unfold get
  simp only [Dialogue.run, Store.answer]
  cases (store now (.find id) st).1 with
  | error f => rfl
  | ok r =>
    cases hexpired : Record.isExpired r now with
    | true => simp only [Dialogue.run, Store.answer, hexpired, if_true]
    | false => simp only [Dialogue.run, Store.answer, hexpired, Bool.false_eq_true, if_false]

end Repository

namespace Payload

variable {r : Record} {now : Instant}

theorem one_le_lifetime (r : Record) (now : Instant) : 1 ≤ lifetime r now := by
  unfold lifetime
  omega

theorem lifetime_le_maxInt64 (hr : r.expiresAt.WellFormed) (hnow : now.WellFormed) :
    lifetime r now ≤ Text.maxInt64 := by
  have hspan := Instant.natAbs_since_le hr hnow
  have hone : 1 ≤ Text.maxInt64 := by decide
  have hmillis : (r.expiresAt.since now).millis.natAbs ≤ Text.maxInt64 := by
    unfold Span.millis
    rw [Int.natAbs_tdiv]
    exact Nat.div_le_of_le_mul (Nat.mul_comm _ _ ▸ hspan)
  unfold lifetime
  omega

/-- A lifetime is one millisecond, or no longer than what the record has left. -/
theorem lifetime_cases (r : Record) (now : Instant) :
    lifetime r now = 1 ∨
      (Span.ofMillis (lifetime r now)).nanos ≤ (r.expiresAt.since now).nanos := by
  have hmillis := (r.expiresAt.since now).millis_cases
  unfold lifetime Span.ofMillis
  dsimp only
  omega

/-- A lifetime is less than a millisecond shorter than what the record has left. -/
theorem since_lt_lifetime (r : Record) (now : Instant) :
    (r.expiresAt.since now).nanos - 1000000 < (Span.ofMillis (lifetime r now)).nanos := by
  have hmillis := (r.expiresAt.since now).millis_cases
  unfold lifetime Span.ofMillis
  dsimp only
  omega

end Payload

namespace KeyValue

variable {σ : Type}

/-- How a server answers a request at a time, in a state of its own. -/
abbrev Server (σ : Type) : Type := Instant → (q : Request) → σ → q.Answer × σ

/-- A store on a server. -/
def storeOn (server : Server σ) : Store σ := fun now c s => (command now c).run (server now) s

/-- The state in which requests leave a server. -/
def after (server : Server σ) (requests : List (Instant × Request)) (s : σ) : σ :=
  requests.foldl (fun s x => (server x.1 x.2 s).2) s

/-- A request that neither sets a key nor deletes it. -/
def Request.Spares (key : String) : Request → Prop
  | get _ => True
  | set other _ _ => other ≠ key
  | delete other => other ≠ key

instance (key : String) : DecidablePred (Request.Spares key)
  | .get _ => inferInstanceAs (Decidable True)
  | .set other _ _ => inferInstanceAs (Decidable (other ≠ key))
  | .delete other => inferInstanceAs (Decidable (other ≠ key))

/-- Requests between two times that spare a key, each at a time that the server's clock shows. -/
def Undisturbed (Shown : Instant → Prop) (key : String) (c t : Instant)
    (between : List (Instant × Request)) : Prop :=
  ∀ x ∈ between, Shown x.1 ∧ c.notAfter x.1 = true ∧ x.1.notAfter t = true ∧ x.2.Spares key

theorem undisturbed_nil {Shown : Instant → Prop} {key : String} {c t : Instant} :
    Undisturbed Shown key c t [] :=
  fun _ h => absurd h List.not_mem_nil

/-- A server takes every key, and a key lives on it for exactly the milliseconds that it was set for,
whatever else is asked meanwhile. Both are told for the times that the server's clock shows. -/
structure KeepsTime (server : Server σ) (Shown : Instant → Prop) : Prop where
  set : ∀ {c}, Shown c → ∀ key text lifetime s,
    (server c (.set key text lifetime) s).1 = (.ok () : Except Failure Unit)
  get : ∀ {c t}, Shown c → Shown t → c.notAfter t = true → ∀ key text (lifetime : Nat) s between,
    Undisturbed Shown key c t between →
    (server t (.get key) (after server between (server c (.set key text lifetime) s).2)).1 =
      (.ok (if t.before (c.plus (.ofMillis lifetime)) then some text else none) :
        Except Failure (Option String))

section Keys

variable {t : Instant} {e : Entry} {keys : Keys}

/-- The key was set once and not deleted since, so that it is there at `t` if it lives then. -/
structure Entry.Alone (e : Entry) (t : Instant) (keys : Keys) : Prop where
  only : ∀ x ∈ keys.entries, x.key = e.key → x = e
  there : Keys.Entry.isLive t e = true → e ∈ keys.entries

namespace Entry.Alone

theorem put (t : Instant) (e : Entry) (keys : Keys) : e.Alone t (keys.put e) := by
  refine ⟨fun x hx hkey => ?_, fun _ => List.mem_append_right _ List.mem_cons_self⟩
  rcases List.mem_append.1 hx with hx | hx
  · exact absurd hkey (bne_iff_ne.1 (List.mem_filter.1 hx).2)
  · exact List.mem_singleton.1 hx

theorem live (h : e.Alone t keys) {now : Instant} (hnow : now.millis ≤ t.millis) :
    e.Alone t (keys.live now) := by
  refine ⟨fun x hx => h.only x (List.mem_filter.1 hx).1, fun hlive => ?_⟩
  refine List.mem_filter.2 ⟨h.there hlive, ?_⟩
  unfold Keys.Entry.isLive at hlive ⊢
  split at hlive
  · exact decide_eq_true (Int.lt_of_le_of_lt hnow (of_decide_eq_true hlive))
  · rfl

theorem erase (h : e.Alone t keys) {key : String} (hne : key ≠ e.key) : e.Alone t (keys.erase key) :=
  ⟨fun x hx => h.only x (List.mem_filter.1 hx).1,
    fun hlive => List.mem_filter.2 ⟨h.there hlive, bne_iff_ne.2 (Ne.symm hne)⟩⟩

theorem put_other (h : e.Alone t keys) {other : Entry} (hne : other.key ≠ e.key) :
    e.Alone t (keys.put other) := by
  refine ⟨fun x hx hkey => ?_, fun hlive => List.mem_append_left _ ((h.erase hne).there hlive)⟩
  rcases List.mem_append.1 hx with hx | hx
  · exact (h.erase hne).only x hx hkey
  · rw [List.mem_singleton.1 hx] at hkey
    exact absurd hkey hne

/-- A request that spares the key leaves it as it is. -/
theorem answer (h : e.Alone t keys) {now : Instant} (hnow : now.millis ≤ t.millis) {q : Request}
    (hspares : q.Spares e.key) : e.Alone t (Keys.answer now q keys).2 := by
  cases q with
  | get key => exact h.live hnow
  | set key text lifetime => exact (h.live hnow).put_other hspares
  | delete key => exact (h.live hnow).erase hspares

/-- So do any number of requests that come before `t`. -/
theorem after (h : e.Alone t keys) {between : List (Instant × Request)}
    (hbetween : ∀ x ∈ between, x.1.millis ≤ t.millis ∧ x.2.Spares e.key) :
    e.Alone t (after Keys.answer between keys) := by
  induction between generalizing keys with
  | nil => exact h
  | cons x between ih =>
    obtain ⟨hx, hbetween⟩ := List.forall_mem_cons.1 hbetween
    exact ih (h.answer hx.1 hx.2) hbetween

/-- The key is found at `t` exactly if it lives then. -/
theorem find?_live (h : e.Alone t keys) :
    (keys.live t).find? e.key = if Keys.Entry.isLive t e then some e else none := by
  cases hfind : (keys.live t).find? e.key with
  | none =>
    have habsent := List.find?_eq_none.1 hfind
    have hdead : ¬Keys.Entry.isLive t e = true := fun hlive =>
      habsent e (List.mem_filter.2 ⟨h.there hlive, hlive⟩) (beq_self_eq_true e.key)
    rw [if_neg hdead]
  | some x =>
    have hfound : (keys.live t).entries.find? (·.key == e.key) = some x := hfind
    have hkey := List.find?_some hfound
    obtain ⟨hx, hlive⟩ := List.mem_filter.1 (List.mem_of_find?_eq_some hfind)
    obtain rfl := h.only x hx (beq_iff_eq.1 hkey)
    rw [if_pos hlive]

end Entry.Alone

/-- A key is dropped when its milliseconds are over. -/
theorem isLive_iff_before {c : Instant} (hc : c.WholeMillis) (ht : t.WholeMillis) (key text : String)
    (lifetime : Nat) : Keys.Entry.isLive t ⟨key, text, some (c.millis + lifetime)⟩ = true ↔
      t.before (c.plus (.ofMillis lifetime)) = true := by
  have hplus := Instant.plus_eq_ofNanos hc.isLeapSecond (.ofMillis lifetime)
  rw [hplus, Instant.before_iff_toNanos ht.isLeapSecond (Instant.isLeapSecond_ofNanos _),
    Instant.toNanos_ofNanos, ht.toNanos, hc.toNanos]
  refine decide_eq_true_iff.trans ?_
  change _ ↔ _ < _ + (lifetime : Int) * 1000000
  omega

/-- A server keeps time with its keys, if its clock shows whole milliseconds. -/
theorem keepsTime_keys : KeepsTime Keys.answer Instant.WholeMillis where
  set _ _ _ _ _ := rfl
  get := by
    intro c t hc ht _ key text lifetime keys between hbetween
    let e : Entry := ⟨key, text, some (c.millis + lifetime)⟩
    have halone : e.Alone t ((keys.live c).put e) := .put t e _
    have hafter := halone.after fun x hx =>
      ⟨((hbetween x hx).1.notAfter_iff_millis ht).1 (hbetween x hx).2.2.1, (hbetween x hx).2.2.2⟩
    have hlive : Keys.Entry.isLive t e = true ↔ t.before (c.plus (.ofMillis lifetime)) = true :=
      isLive_iff_before hc ht key text lifetime
    refine (congrArg (fun found => (.ok (found.map Entry.text) : Except Failure (Option String)))
      hafter.find?_live).trans ?_
    simp only [hlive]
    split <;> rfl

end Keys

section Timed

/-- Keys on a clock that shows every time: the text of each, and when it ends. -/
def Timed : Type := String → Option (String × Instant)

namespace Timed

def empty : Timed := fun _ => none

/-- The text of a key, until the key ends. -/
def text? (held : Timed) (now : Instant) (key : String) : Option String :=
  (held key).bind fun (text, ends) => if now.before ends then some text else none

/-- The answer of a server that keeps such keys. -/
def answer (now : Instant) : (q : Request) → Timed → q.Answer × Timed
  | .get key, held => (.ok (held.text? now key), held)
  | .set key text lifetime, held =>
    (.ok (), fun other =>
      if other = key then some (text, now.plus (.ofMillis lifetime)) else held other)
  | .delete key, held =>
    (.ok (if (held.text? now key).isSome then 1 else 0), fun other =>
      if other = key then none else held other)

theorem answer_of_spares {key : String} {q : Request} (h : q.Spares key) (now : Instant)
    (held : Timed) : (answer now q held).2 key = held key := by
  cases q with
  | get other => rfl
  | set other text lifetime => exact if_neg (Ne.symm h)
  | delete other => exact if_neg (Ne.symm h)

theorem after_of_spares {key : String} {between : List (Instant × Request)}
    (h : ∀ x ∈ between, x.2.Spares key) (held : Timed) :
    after answer between held key = held key := by
  induction between generalizing held with
  | nil => rfl
  | cons x between ih =>
    obtain ⟨hx, hbetween⟩ := List.forall_mem_cons.1 h
    exact (ih hbetween _).trans (answer_of_spares hx x.1 held)

end Timed

theorem keepsTime_timed : KeepsTime Timed.answer fun _ => True where
  set _ _ _ _ _ := rfl
  get := by
    intro c t _ _ _ key text lifetime held between hbetween
    have hkept := Timed.after_of_spares (fun x hx => (hbetween x hx).2.2.2)
      (Timed.answer c (.set key text lifetime) held).2
    have hset : (Timed.answer c (.set key text lifetime) held).2 key =
        some (text, c.plus (.ofMillis lifetime)) := if_pos rfl
    exact congrArg (fun found : Option (String × Instant) => (.ok (found.bind fun (text, ends) =>
      if t.before ends then some text else none) : Except Failure (Option String))) (hkept.trans hset)

end Timed

section Life

variable {server : Server σ} {Shown : Instant → Prop} {draft : Draft} {c t : Instant}

/-- When the key of a draft ends that is stored at a time. -/
def ends (draft : Draft) (c : Instant) : Instant :=
  c.plus (.ofMillis (Payload.lifetime draft.record c))

theorem storeOn_insert (hserver : KeepsTime server Shown) (hc : Shown c) (draft : Draft) (s : σ) :
    storeOn server c (.insert draft) s = (.ok draft.record,
      (server c (.set draft.record.id (Payload.write draft.record)
        (Payload.lifetime draft.record c)) s).2) := by
  simp only [storeOn, command, Dialogue.run, hserver.set hc]
  rfl

theorem storeOn_find (hserver : KeepsTime server Shown) (hc : Shown c) (ht : Shown t)
    (hle : c.notAfter t = true) (he : draft.expiresAt.WellFormed) (s : σ)
    {between : List (Instant × Request)} (hbetween : Undisturbed Shown draft.record.id c t between) :
    (storeOn server t (.find draft.record.id)
      (after server between (storeOn server c (.insert draft) s).2)).1 =
        if t.before (ends draft c) then .ok draft.record else .error .secretNotFound := by
  have hget := hserver.get hc ht hle _ (Payload.write draft.record)
    (Payload.lifetime draft.record c) s between hbetween
  have hdecode : Payload.decode (some (Payload.write draft.record)) = .ok draft.record :=
    Payload.decode_write he
  rw [storeOn_insert hserver hc]
  simp only [storeOn, command, Dialogue.run]
  rw [hget, ← ends]
  cases t.before (ends draft c) with
  | true =>
    simp only [if_true, Except.bind, hdecode]
    rfl
  | false => rfl

/-- A reader is given the record until its key ends or the record has expired. -/
theorem run_get_after (hserver : KeepsTime server Shown) (draft : Draft) (hc : Shown c) (ht : Shown t)
    (hle : c.notAfter t = true) (he : draft.expiresAt.WellFormed) (s : σ)
    {between : List (Instant × Request)} (hbetween : Undisturbed Shown draft.record.id c t between)
    (key : String) :
    ((Repository.get draft.record.id key).run ((storeOn server).answer t)
      (after server between (storeOn server c (.insert draft) s).2)).1 =
        if t.before (ends draft c) = true ∧ t.before draft.expiresAt = true then
          Repository.reveal draft.record key
        else .error .secretNotFound := by
  rw [Repository.run_get, storeOn_find hserver hc ht hle he s hbetween]
  have hexpired : draft.record.isExpired t = !t.before draft.expiresAt := rfl
  cases t.before (ends draft c) with
  | true =>
    simp only [if_true, hexpired, true_and]
    cases t.before draft.expiresAt <;> rfl
  | false => simp only [Bool.false_eq_true, if_false, false_and]

/-- A key lives until the last millisecond before the expiry of its record. -/
theorem before_ends (he : draft.expiresAt.isLeapSecond = false) (hc : c.isLeapSecond = false)
    (h : t.before (draft.expiresAt.plus (.ofMillis (-1))) = true) : t.before (ends draft c) = true := by
  have hlife := Payload.since_lt_lifetime draft.record c
  have hspan := Instant.since_nanos he hc
  refine Instant.before_of_before_of_notAfter h ?_
  rw [ends, Instant.plus_eq_ofNanos he, Instant.plus_eq_ofNanos hc, Instant.ofNanos_notAfter_ofNanos]
  change _ + -1000000 ≤ _
  change (draft.expiresAt.since c).nanos - 1000000 < _ at hlife
  omega

/-- A key ends with its record, or after a millisecond. -/
theorem not_before_ends (he : draft.expiresAt.isLeapSecond = false)
    (hexpired : draft.expiresAt.notAfter t = true) (hlater : (c.plus (.ofMillis 1)).notAfter t = true) :
    t.before (ends draft c) = false := by
  rw [Instant.before_eq_false_iff, ends]
  rcases Payload.lifetime_cases draft.record c with hone | hlife
  · rw [hone]
    exact hlater
  · have hone := Payload.one_le_lifetime draft.record c
    refine Instant.notAfter_trans (Instant.plus_notAfter he ?_ hlife) hexpired
    change 0 < (Payload.lifetime draft.record c : Int) * 1000000
    omega

/-- Whatever else the server is asked meanwhile, from its expiry on a record is given to no one, whether its
key is gone or not. Outside leap seconds it is found until the last millisecond before its expiry, and its
key outlives neither the record nor, if that had expired already, the millisecond of the creation. -/
theorem lives_with_record (hserver : KeepsTime server Shown) (draft : Draft)
    (he : draft.expiresAt.WellFormed) (hc : c.WellFormed) (hshown : Shown c) (s : σ) :
    let e := draft.expiresAt
    let r := draft.record
    let created := storeOn server c (.insert draft) s
    (e.since c).nanos.natAbs ≤ Text.maxInt64 * Duration.nanosPerMilli ∧
    1 ≤ Payload.lifetime r c ∧ Payload.lifetime r c ≤ Text.maxInt64 ∧
    created.1 = .ok r ∧
    ∀ t between, Shown t → c.notAfter t = true → Undisturbed Shown r.id c t between →
      let held := after server between created.2
      let answer key := ((Repository.get r.id key).run ((storeOn server).answer t) held).1
      (e.notAfter t = true → ∀ key, answer key = .error .secretNotFound) ∧
      (e.isLeapSecond = false → c.isLeapSecond = false → t.before (e.plus (.ofMillis (-1))) = true →
        ∀ key, answer key = Repository.reveal r key) ∧
      (e.isLeapSecond = false → e.notAfter t = true → (c.plus (.ofMillis 1)).notAfter t = true →
        (server t (.get r.id) held).1 = (.ok none : Except Failure (Option String))) := by
  intro e r created
  refine ⟨Instant.natAbs_since_le he hc, Payload.one_le_lifetime r c,
    Payload.lifetime_le_maxInt64 he hc, congrArg Prod.fst (storeOn_insert hserver hshown draft s), ?_⟩
  intro t between ht hle hbetween held answer
  have hanswer : ∀ key, answer key = _ := run_get_after hserver draft hshown ht hle he s hbetween
  refine ⟨fun hexpired key => ?_, fun heleap hcleap hearly key => ?_, fun heleap hexpired hlater => ?_⟩
  · have hgone : t.before e = false := Instant.before_eq_false_iff.2 hexpired
    rw [hanswer, if_neg fun h => Bool.false_ne_true (hgone.symm.trans h.2)]
  · rw [hanswer, if_pos ⟨before_ends heleap hcleap hearly,
      Instant.before_of_before_plus heleap (by decide) hearly⟩]
  · have hend := not_before_ends heleap hexpired hlater
    have hget := hserver.get hshown ht hle r.id (Payload.write r) (Payload.lifetime r c) s between hbetween
    have hcreated := congrArg Prod.snd (storeOn_insert hserver hshown draft s)
    rw [← hcreated, ← ends, hend] at hget
    exact hget

/-- A record that is stored before 1970, half a millisecond less than two seconds before its expiry. Its key
lives for 1999 milliseconds, whatever is done to another key. -/
theorem lives_with_record_before_1970 :
    let draft : Draft := ⟨"token", ⟨-2, 999500000⟩, 0⟩
    let r := draft.record
    let created := store ⟨-3, 0⟩ (.insert draft) .empty
    let between : List (Instant × Request) :=
      [(⟨-3, 0⟩, .set "other" "text" 1), (⟨-2, 0⟩, .get r.id), (⟨-2, 0⟩, .delete "other")]
    let held := after Keys.answer between created.2
    let answer t key := ((Repository.get r.id key).run (store.answer t) held).1
    created.1 = .ok r ∧ Payload.lifetime r ⟨-3, 0⟩ = 1999 ∧
    (∀ key, answer ⟨-2, 998000000⟩ key = Repository.reveal r key) ∧
    (∀ key, answer ⟨-1, 0⟩ key = .error .secretNotFound) ∧
    (Keys.answer ⟨-1, 0⟩ (.get r.id) held).1 = (.ok none : Except Failure (Option String)) := by
  intro draft r created between held answer
  obtain ⟨-, -, -, hcreated, hlater⟩ := lives_with_record keepsTime_keys draft (c := ⟨-3, 0⟩)
    (by decide) (by decide) (by decide) Keys.empty
  have hbefore : Undisturbed Instant.WholeMillis r.id ⟨-3, 0⟩ ⟨-2, 998000000⟩ between := by
    unfold Undisturbed
    decide +kernel
  have hafter : Undisturbed Instant.WholeMillis r.id ⟨-3, 0⟩ ⟨-1, 0⟩ between := by
    unfold Undisturbed
    decide +kernel
  obtain ⟨-, hfound, -⟩ := hlater ⟨-2, 998000000⟩ between (by decide) (by decide) hbefore
  obtain ⟨hexpired, -, hgone⟩ := hlater ⟨-1, 0⟩ between (by decide) (by decide) hafter
  exact ⟨hcreated, by decide +kernel, hfound (by decide) (by decide) (by decide), hexpired (by decide),
    hgone (by decide) (by decide) (by decide)⟩

/-- Spans to leap seconds and from them can be a second off. The key of a record that expires at 12:30:60.5
of the next day is gone at 12:30:59.8. A key that was set at such a time is gone half a second before its
record expires at noon of the next day. And the key of a record that expires within the leap second at the
end of 2016 is still there in 2017. -/
theorem leap_seconds_off :
    let draft (e : Instant) : Draft := ⟨"token", e, 0⟩
    let early : Instant := ⟨1767357059, 1500000000⟩
    let next : Instant := ⟨1767355200, 0⟩
    let late : Instant := ⟨1483228799, 1500000000⟩
    ((⟨1767357059, 800000000⟩ : Instant).before (early.plus (.ofMillis (-1))) = true ∧
      ((Repository.get (draft early).record.id "key").run (store.answer ⟨1767357059, 800000000⟩)
        (store ⟨1767308400, 0⟩ (.insert (draft early)) .empty).2).1 = .error .secretNotFound) ∧
    ((⟨1767355199, 500000000⟩ : Instant).before (next.plus (.ofMillis (-1))) = true ∧
      ((Repository.get (draft next).record.id "key").run
        ((storeOn Timed.answer).answer ⟨1767355199, 500000000⟩)
        (storeOn Timed.answer ⟨1767270659, 1500000000⟩ (.insert (draft next)) .empty).2).1 =
          .error .secretNotFound) ∧
    (late.notAfter ⟨1483228800, 200000000⟩ = true ∧
      ((⟨1483228799, 0⟩ : Instant).plus (.ofMillis 1)).notAfter ⟨1483228800, 200000000⟩ = true ∧
      (Keys.answer ⟨1483228800, 200000000⟩ (.get (draft late).record.id)
        (store ⟨1483228799, 0⟩ (.insert (draft late)) .empty).2).1 =
          (.ok (some (Payload.write (draft late).record)) : Except Failure (Option String))) := by
  intro draft early next late
  refine ⟨⟨by decide, ?_⟩, ⟨by decide, ?_⟩, by decide, by decide, ?_⟩
  · have hget := run_get_after keepsTime_keys (draft early) (c := ⟨1767308400, 0⟩)
      (t := ⟨1767357059, 800000000⟩) (by decide) (by decide) (by decide) (by decide) .empty
      undisturbed_nil "key"
    rw [if_neg (by decide)] at hget
    exact hget
  · have hget := run_get_after keepsTime_timed (draft next) (c := ⟨1767270659, 1500000000⟩)
      (t := ⟨1767355199, 500000000⟩) trivial trivial (by decide) (by decide) .empty
      undisturbed_nil "key"
    rw [if_neg (by decide)] at hget
    exact hget
  · have hget := keepsTime_keys.get (c := ⟨1483228799, 0⟩) (t := ⟨1483228800, 200000000⟩) (by decide)
      (by decide) (by decide) (draft late).record.id (Payload.write (draft late).record)
      (Payload.lifetime (draft late).record ⟨1483228799, 0⟩) .empty [] undisturbed_nil
    rw [if_pos (by decide)] at hget
    exact hget

end Life

end KeyValue

end BurnAfterRead
