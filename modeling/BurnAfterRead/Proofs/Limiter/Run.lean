import BurnAfterRead.Limiter.Basic
import Mathlib.Data.List.Nodup

/-!
# Runs of a limiter

A limiter is asked about clients and told to drop the idle ones, in any order and at any times. What
it knows of one client is that client's bucket, and nothing that others do reaches it: two limiters
that hold the same bucket of a client stay that way, whoever else asks one of them.
-/

namespace BurnAfterRead

namespace Limiter

/-- What a limiter is called for. -/
inductive Event where
  /-- A client asks for leave. -/
  | check (key : String)
  /-- The clients that were idle for too long are dropped. -/
  | evict
  deriving DecidableEq, Repr

namespace Event

/-- Whether an event may matter to a client: its own checks may, and evictions. -/
def concerns (key : String) : Event → Bool
  | check other => other == key
  | evict => true

def isCheck : Event → Bool
  | check _ => true
  | evict => false

end Event

variable {α : Type}

/-- Whether the limiter holds a bucket of a client. -/
def tracks (l : Limiter α) (key : String) : Bool := (l.bucket? key).isSome

/-- Each client has one bucket. -/
def Distinct (l : Limiter α) : Prop := (l.buckets.map (·.1)).Nodup

/-! ## What one event does to a bucket -/

theorem distinct_new (rate : α) (burst : Nat) (ttl : Duration) : (new rate burst ttl).Distinct :=
  List.nodup_nil

/-- A bucket stays in its place; a new one goes to the end. -/
theorem keys_put (key : String) (b : Bucket α) (bs : List (String × Bucket α)) :
    (put key b bs).map (·.1) =
      if key ∈ bs.map (·.1) then bs.map (·.1) else bs.map (·.1) ++ [key] := by
  induction bs with
  | nil => simp [put]
  | cons e bs ih =>
    obtain ⟨k, old⟩ := e
    by_cases hk : k = key
    · simp [put, hk]
    · simp only [put, hk, if_false, List.map_cons, ih, List.mem_cons, Ne.symm hk, false_or]
      split <;> rfl

theorem nodup_keys_put (key : String) (b : Bucket α) {bs : List (String × Bucket α)}
    (h : (bs.map (·.1)).Nodup) : ((put key b bs).map (·.1)).Nodup := by
  rw [keys_put]
  split
  · exact h
  · rename_i hnew
    rw [List.nodup_append]
    refine ⟨h, List.nodup_singleton key, fun k hk other hother heq => ?_⟩
    rw [heq, List.mem_singleton.1 hother] at hk
    exact hnew hk

/-- Where each client has one bucket, what is found among selected buckets is what is found among all
of them, if that is selected. -/
theorem lookup_filter {bs : List (String × Bucket α)} (h : (bs.map (·.1)).Nodup)
    (p : Bucket α → Bool) (key : String) :
    (bs.filter fun e => p e.2).lookup key = (bs.lookup key).filter p := by
  induction bs with
  | nil => rfl
  | cons e bs ih =>
    obtain ⟨k, b⟩ := e
    obtain ⟨hout, hrest⟩ := List.nodup_cons.1 h
    by_cases hk : key = k
    · subst hk
      have habsent : bs.lookup key = none := by
        rw [List.lookup_eq_none_iff]
        intro e he
        rw [bne_iff_ne]
        rintro rfl
        exact hout (List.mem_map.2 ⟨e, he, rfl⟩)
      cases hb : p b with
      | true => simp only [List.filter_cons, hb, if_true, List.lookup_cons_self, Option.filter_some]
      | false =>
        simp only [List.filter_cons, hb, Bool.false_eq_true, if_false, List.lookup_cons_self, ih hrest,
          habsent, Option.filter_some, Option.filter_none]
    · have hk' : (key == k) = false := beq_false_of_ne hk
      cases hb : p b with
      | true => simp only [List.filter_cons, hb, if_true, List.lookup_cons, hk', ih hrest]
      | false =>
        simp only [List.filter_cons, hb, Bool.false_eq_true, if_false, List.lookup_cons, hk', ih hrest]

theorem Distinct.evict {l : Limiter α} (h : l.Distinct) (now : Int) : (l.evict now).Distinct :=
  List.Nodup.sublist (List.Sublist.map _ List.filter_sublist) h

theorem bucket?_evict {l : Limiter α} (h : l.Distinct) (now : Int) (key : String) :
    (l.evict now).bucket? key =
      (l.bucket? key).filter fun b => (now - b.lastSeen).toNat ≤ l.ttl.nanos :=
  lookup_filter h (fun b => (now - b.lastSeen).toNat ≤ l.ttl.nanos) key

@[simp] theorem rate_evict (l : Limiter α) (now : Int) : (l.evict now).rate = l.rate := rfl
@[simp] theorem burst_evict (l : Limiter α) (now : Int) : (l.evict now).burst = l.burst := rfl
@[simp] theorem ttl_evict (l : Limiter α) (now : Int) : (l.evict now).ttl = l.ttl := rfl

variable [TokenNumber α]

section Check

variable (l : Limiter α) (key : String) (now : Int)

/-- The bucket that a check finds: the client's own, or a full one. -/
def bucketAt : Bucket α := (l.bucket? key).getD (Bucket.full l.burst now)

theorem answer_check : (l.check key now).1 = ((l.bucketAt key now).check l.rate l.burst now).1 := rfl

theorem bucket?_check_self :
    (l.check key now).2.bucket? key = some ((l.bucketAt key now).check l.rate l.burst now).2 :=
  lookup_put_self key _ l.buckets

variable {key} in
theorem bucket?_check_of_ne {other : String} (h : other ≠ key) :
    (l.check key now).2.bucket? other = l.bucket? other :=
  lookup_put_of_ne _ l.buckets h

@[simp] theorem rate_check : (l.check key now).2.rate = l.rate := rfl
@[simp] theorem burst_check : (l.check key now).2.burst = l.burst := rfl
@[simp] theorem ttl_check : (l.check key now).2.ttl = l.ttl := rfl

variable {l} in
theorem Distinct.check (h : l.Distinct) : (l.check key now).2.Distinct := nodup_keys_put key _ h

end Check

/-! ## Runs -/

/-- What some events lead to: what the clients were told, in order, and the limiter that is left. -/
def run (l : Limiter α) : List (Int × Event) → List (String × Admission) × Limiter α
  | [] => ([], l)
  | (now, .check key) :: rest =>
    let (admission, l) := l.check key now
    let (told, l) := run l rest
    ((key, admission) :: told, l)
  | (now, .evict) :: rest => run (l.evict now) rest

section Run

variable (l : Limiter α) (now : Int) (rest : List (Int × Event))

@[simp] theorem run_nil : l.run [] = ([], l) := rfl

@[simp] theorem run_check (key : String) :
    l.run ((now, .check key) :: rest) =
      ((key, (l.check key now).1) :: ((l.check key now).2.run rest).1,
        ((l.check key now).2.run rest).2) := rfl

@[simp] theorem run_evict : l.run ((now, .evict) :: rest) = (l.evict now).run rest := rfl

end Run

/-- A client that does not ask keeps its bucket as it is, unless the bucket is dropped. -/
theorem bucket?_run_of_quiet {l : Limiter α} (h : l.Distinct) {key : String}
    {events : List (Int × Event)} (hquiet : ∀ e ∈ events, e.2 ≠ .check key) :
    (l.run events).2.bucket? key = l.bucket? key ∨ (l.run events).2.bucket? key = none := by
  induction events generalizing l with
  | nil => exact Or.inl rfl
  | cons event rest ih =>
    obtain ⟨now, event⟩ := event
    have hrest : ∀ e ∈ rest, e.2 ≠ .check key := fun e he => hquiet e (List.mem_cons_of_mem _ he)
    cases event with
    | check client =>
      have hclient : key ≠ client := by
        rintro rfl
        exact hquiet _ List.mem_cons_self rfl
      have hthen := ih (h.check client now) hrest
      rwa [bucket?_check_of_ne l now hclient] at hthen
    | evict =>
      have hthen := ih (h.evict now) hrest
      rw [bucket?_evict h] at hthen
      cases hheld : l.bucket? key with
      | none => simpa [hheld] using hthen
      | some b =>
        rw [hheld, Option.filter_some] at hthen
        split at hthen
        · exact hthen
        · exact Or.inr (or_self_iff.1 hthen)

theorem Distinct.run {l : Limiter α} (h : l.Distinct) (events : List (Int × Event)) :
    (l.run events).2.Distinct := by
  induction events generalizing l with
  | nil => exact h
  | cons event rest ih =>
    obtain ⟨now, event⟩ := event
    cases event with
    | check client => exact ih (h.check client now)
    | evict => exact ih (h.evict now)

theorem run_append_left (l : Limiter α) (events more : List (Int × Event)) :
    (l.run (events ++ more)).2 = ((l.run events).2.run more).2 := by
  induction events generalizing l with
  | nil => rfl
  | cons event rest ih =>
    obtain ⟨now, event⟩ := event
    cases event with
    | check client => exact ih (l.check client now).2
    | evict => exact ih (l.evict now)

/-- The rate, the size of the buckets and the idle time stay what they were set to. -/
theorem rules_run (l : Limiter α) (events : List (Int × Event)) :
    (l.run events).2.rate = l.rate ∧ (l.run events).2.burst = l.burst ∧
      (l.run events).2.ttl = l.ttl := by
  induction events generalizing l with
  | nil => exact ⟨rfl, rfl, rfl⟩
  | cons event rest ih =>
    obtain ⟨now, event⟩ := event
    cases event with
    | check client => exact ih (l.check client now).2
    | evict => exact ih (l.evict now)

/-! ## Clients do not meet -/

/-- Two limiters with the same rules that hold the same bucket of one client, or both none. -/
structure AlikeFor (key : String) (l l' : Limiter α) : Prop where
  rate : l.rate = l'.rate
  burst : l.burst = l'.burst
  ttl : l.ttl = l'.ttl
  bucket : l.bucket? key = l'.bucket? key
  distinct : l.Distinct
  distinct' : l'.Distinct

namespace AlikeFor

variable {key : String} {l l' : Limiter α}

theorem bucketAt (h : AlikeFor key l l') (now : Int) : l.bucketAt key now = l'.bucketAt key now := by
  rw [Limiter.bucketAt, Limiter.bucketAt, h.bucket, h.burst]

/-- The client itself is told the same by both. -/
theorem answer_eq (h : AlikeFor key l l') (now : Int) : (l.check key now).1 = (l'.check key now).1 := by
  rw [answer_check, answer_check, h.bucketAt, h.rate, h.burst]

theorem check (h : AlikeFor key l l') (now : Int) :
    AlikeFor key (l.check key now).2 (l'.check key now).2 where
  rate := h.rate
  burst := h.burst
  ttl := h.ttl
  bucket := by rw [bucket?_check_self, bucket?_check_self, h.bucketAt, h.rate, h.burst]
  distinct := h.distinct.check key now
  distinct' := h.distinct'.check key now

/-- A check of another client makes no difference. -/
theorem other (h : AlikeFor key l l') {client : String} (hne : client ≠ key) (now : Int) :
    AlikeFor key (l.check client now).2 l' where
  rate := h.rate
  burst := h.burst
  ttl := h.ttl
  bucket := by rw [bucket?_check_of_ne l now hne.symm, h.bucket]
  distinct := h.distinct.check client now
  distinct' := h.distinct'

omit [TokenNumber α] in
theorem evict (h : AlikeFor key l l') (now : Int) : AlikeFor key (l.evict now) (l'.evict now) where
  rate := h.rate
  burst := h.burst
  ttl := h.ttl
  bucket := by rw [bucket?_evict h.distinct, bucket?_evict h.distinct', h.bucket, h.ttl]
  distinct := h.distinct.evict now
  distinct' := h.distinct'.evict now

/-- A run goes for a client as the run without the checks of others does. -/
theorem run (h : AlikeFor key l l') (events : List (Int × Event)) :
    (l.run events).1.filter (·.1 == key) = (l'.run (events.filter (·.2.concerns key))).1 ∧
      AlikeFor key (l.run events).2 (l'.run (events.filter (·.2.concerns key))).2 := by
  induction events generalizing l l' with
  | nil => exact ⟨rfl, h⟩
  | cons event rest ih =>
    obtain ⟨now, event⟩ := event
    cases event with
    | evict => exact ih (h.evict now)
    | check client =>
      by_cases hclient : client = key
      · subst hclient
        obtain ⟨htold, hleft⟩ := ih (h.check now)
        rw [List.filter_cons_of_pos (by simp [Event.concerns]), run_check, run_check,
          List.filter_cons_of_pos (by simp), htold, h.answer_eq now]
        exact ⟨rfl, hleft⟩
      · rw [List.filter_cons_of_neg (by simpa [Event.concerns] using hclient), run_check,
          List.filter_cons_of_neg (by simpa using hclient)]
        exact ih (h.other hclient now)

end AlikeFor

/-- What other clients ask makes no difference to a client: not to what it is told, and after no event
to whether it is tracked. -/
theorem clients_independent (rate : α) (burst : Nat) (ttl : Duration) (key : String)
    (events : List (Int × Event)) :
    let l := new rate burst ttl
    (l.run events).1.filter (·.1 == key) = (l.run (events.filter (·.2.concerns key))).1 ∧
      ∀ n, (l.run (events.take n)).2.tracks key =
        (l.run ((events.take n).filter (·.2.concerns key))).2.tracks key := by
  intro l
  have halike : AlikeFor key l l :=
    ⟨rfl, rfl, rfl, rfl, distinct_new rate burst ttl, distinct_new rate burst ttl⟩
  refine ⟨(halike.run events).1, fun n => ?_⟩
  exact congrArg Option.isSome (halike.run (events.take n)).2.bucket

end Limiter

end BurnAfterRead
