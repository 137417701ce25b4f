import BurnAfterRead.Proofs.Limiter.Exact
import BurnAfterRead.Proofs.Limiter.Run
import Mathlib.Tactic.IntervalCases

/-!
# The envelope of a token bucket

What a bucket lets pass lies within an envelope: in any stretch of requests, the burst size and what
the rate adds from the first to the last of them. It is the tightest one, as a client that keeps within
it is never turned away.
-/

namespace BurnAfterRead

namespace Bucket

section Run

variable {α : Type} [TokenNumber α]

/-- What requests at some times lead to. -/
def checkAll (rate : α) (burst : Nat) : List Int → Bucket α → List Admission × Bucket α
  | [], b => ([], b)
  | now :: rest, b =>
    let (answer, b) := b.check rate burst now
    let (answers, b) := checkAll rate burst rest b
    (answer :: answers, b)

variable (rate : α) (burst : Nat)

@[simp] theorem checkAll_nil (b : Bucket α) : b.checkAll rate burst [] = ([], b) := rfl

@[simp] theorem checkAll_cons (now : Int) (rest : List Int) (b : Bucket α) :
    b.checkAll rate burst (now :: rest) =
      ((b.check rate burst now).1 :: ((b.check rate burst now).2.checkAll rate burst rest).1,
        ((b.check rate burst now).2.checkAll rate burst rest).2) := rfl

/-- The answers from one request on are those of a run that begins there. -/
theorem drop_checkAll (times : List Int) (n : Nat) (b : Bucket α) :
    (b.checkAll rate burst times).1.drop n =
      ((b.checkAll rate burst (times.take n)).2.checkAll rate burst (times.drop n)).1 := by
  induction times generalizing n b with
  | nil => simp
  | cons now rest ih =>
    cases n with
    | zero => rfl
    | succ n => simpa using ih n (b.check rate burst now).2

/-- The answers up to one request do not depend on what follows. -/
theorem take_checkAll (times : List Int) (n : Nat) (b : Bucket α) :
    (b.checkAll rate burst times).1.take n = (b.checkAll rate burst (times.take n)).1 := by
  induction times generalizing n b with
  | nil => simp
  | cons now rest ih =>
    cases n with
    | zero => rfl
    | succ n => simpa using ih n (b.check rate burst now).2

end Run

variable {rate : ℚ} {burst : Nat} {b : Bucket ℚ}

theorem Sound.checkAll (h : b.Sound burst) (hrate : 0 ≤ rate) (times : List Int) :
    (b.checkAll rate burst times).2.Sound burst := by
  induction times generalizing b with
  | nil => exact h
  | cons now rest ih => exact ih (h.check hrate now)

/-- What requests take, and what is left after them, was left before them or added meanwhile. -/
theorem count_add_tokens_le (hrate : 0 ≤ rate) {times : List Int} {last : Int}
    (ordered : (b.lastRefill :: times).Pairwise (· ≤ ·)) (hlast : ∀ t ∈ b.lastRefill :: times, t ≤ last) :
    ((b.checkAll rate burst times).1.count .admitted : ℚ) + (b.checkAll rate burst times).2.tokens ≤
      b.tokens + rate * seconds (last - b.lastRefill) := by
  induction times generalizing b with
  | nil =>
    have hadded : 0 ≤ rate * seconds (last - b.lastRefill) :=
      mul_nonneg hrate (seconds_nonneg (by have := hlast b.lastRefill List.mem_cons_self; omega))
    simpa using hadded
  | cons now rest ih =>
    have hnow : b.lastRefill ≤ now := (List.pairwise_cons.1 ordered).1 now List.mem_cons_self
    have hrefill := lastRefill_check rate burst now b
    have hrest := @ih (b.check rate burst now).2
    rw [hrefill] at hrest
    have hrest := hrest (List.pairwise_cons.1 ordered).2 fun t ht => hlast t (List.mem_cons_of_mem _ ht)
    have hfound : b.found rate burst now ≤ b.tokens + rate * seconds (now - b.lastRefill) := by
      rw [found_eq rate burst hnow]
      exact min_le_left _ _
    have htaken := taken_add_left rate burst now b
    have hsplit := seconds_add b.lastRefill now last
    rw [checkAll_cons, ← List.singleton_append, List.count_append]
    push_cast
    rw [← hsplit, mul_add]
    linarith

/-- Of requests one after the other no more are admitted than a full bucket has tokens and the rate adds
meanwhile, however full the bucket was before. -/
theorem Sound.count_admitted_le (h : b.Sound burst) (hrate : 0 ≤ rate) {first last : Int} {rest : List Int}
    (ordered : (first :: rest).Pairwise (· ≤ ·)) (hlast : ∀ t ∈ first :: rest, t ≤ last) :
    ((b.checkAll rate burst (first :: rest)).1.count .admitted : ℚ) ≤
      burst + rate * seconds (last - first) := by
  have hrefill := lastRefill_check rate burst first b
  have hrest := @count_add_tokens_le rate burst (b.check rate burst first).2 hrate rest last
  rw [hrefill] at hrest
  have hrest := hrest ordered hlast
  have hleft := ((h.check hrate first).checkAll hrate rest).nonneg
  have htaken := taken_add_left rate burst first b
  have hfound : b.found rate burst first ≤ burst := min_le_right _ _
  rw [checkAll_cons, ← List.singleton_append, List.count_append]
  push_cast
  linarith

/-- The last request of a stretch is the latest. -/
theorem le_of_mem_stretch {times : List Int} (ordered : times.Pairwise (· ≤ ·)) {i j : Nat}
    (hj : j < times.length) : ∀ t ∈ (times.drop i).take (j + 1 - i), t ≤ times[j] := by
  intro t ht
  obtain ⟨k, hk, rfl⟩ := List.mem_iff_getElem.1 ht
  simp only [List.length_take, List.length_drop] at hk
  simp only [List.getElem_take, List.getElem_drop]
  rcases Nat.lt_or_ge (i + k) j with hlt | hge
  · exact List.pairwise_iff_getElem.1 ordered (i + k) j (by omega) hj hlt
  · have heq : i + k = j := by omega
    simp only [heq, le_refl]

/-- The same of any stretch of the requests of a run. -/
theorem Sound.count_extract_le (h : b.Sound burst) (hrate : 0 ≤ rate) {times : List Int}
    (ordered : times.Pairwise (· ≤ ·)) {i j : Nat} {s t : Int} (hij : i ≤ j) (hs : times[i]? = some s)
    (ht : times[j]? = some t) :
    (((b.checkAll rate burst times).1.extract i (j + 1)).count .admitted : ℚ) ≤
      burst + rate * seconds (t - s) := by
  obtain ⟨hi, rfl⟩ := List.getElem?_eq_some_iff.1 hs
  obtain ⟨hj, rfl⟩ := List.getElem?_eq_some_iff.1 ht
  have hstretch : (times.drop i).take (j + 1 - i) =
      times[i] :: (times.drop (i + 1)).take (j - i) := by
    rw [List.drop_eq_getElem_cons hi, Nat.succ_sub hij, List.take_succ_cons]
  have hsub : ((times.drop i).take (j + 1 - i)).Sublist times :=
    (List.take_sublist _ _).trans (List.drop_sublist _ _)
  have hlast : ∀ u ∈ (times.drop i).take (j + 1 - i), u ≤ times[j] := le_of_mem_stretch ordered hj
  rw [List.extract_eq_take_drop, drop_checkAll, take_checkAll, hstretch]
  rw [hstretch] at hsub hlast
  exact (h.checkAll hrate _).count_admitted_le hrate (ordered.sublist hsub) hlast

/-- Requests at some times get by with what there is at one time and what the rate adds from then on. -/
def Affords (rate tokens : ℚ) (since : Int) (times : List Int) : Prop :=
  ∀ n t, times[n]? = some t → ((n + 1 : ℕ) : ℚ) ≤ tokens + rate * seconds (t - since)

/-- A client that gets by with what its bucket holds, and from each of its requests on with a full bucket,
is never turned away. -/
theorem admitted_of_affords {times : List Int} (ordered : (b.lastRefill :: times).Pairwise (· ≤ ·))
    (hheld : Affords rate b.tokens b.lastRefill times)
    (hfull : ∀ n t, times[n]? = some t → Affords rate burst t (times.drop n)) :
    ∀ answer ∈ (b.checkAll rate burst times).1, answer = .admitted := by
  induction times generalizing b with
  | nil => simp
  | cons now rest ih =>
    have hnow : b.lastRefill ≤ now := (List.pairwise_cons.1 ordered).1 now List.mem_cons_self
    have hfound := found_eq rate burst hnow
    have hone : 1 ≤ b.found rate burst now := by
      have hheld := hheld 0 now rfl
      have hfull := hfull 0 now rfl 0 now rfl
      rw [seconds_self_sub] at hfull
      rw [hfound]
      exact le_min (by simpa using hheld) (by simpa using hfull)
    rw [checkAll_cons, check_of_found hone]
    intro answer hanswer
    rcases List.mem_cons.1 hanswer with rfl | hanswer
    · rfl
    refine ih (List.pairwise_cons.1 ordered).2 (fun n t ht => ?_) (fun n t ht => hfull (n + 1) t ht) answer
      hanswer
    -- All that was added since the last request has stayed in the bucket, or else it is full now.
    have hheld := hheld (n + 1) t ht
    have hfull := hfull 0 now rfl (n + 1) t ht
    have hsplit := seconds_add b.lastRefill now t
    push_cast at hheld hfull ⊢
    rw [← hsplit, mul_add] at hheld
    rw [hfound]
    rcases min_choice (b.tokens + rate * seconds (now - b.lastRefill)) (burst : ℚ) with hmin | hmin
    · rw [hmin]
      linarith
    · rw [hmin]
      linarith

end Bucket

namespace Limiter

/-- Checks of one client. -/
def checksOf (key : String) (times : List Int) : List (Int × Event) :=
  times.map fun now => (now, .check key)

section Run

variable {α : Type} [TokenNumber α]

/-- The checks of a client go as the bucket does that the first of them finds. -/
theorem run_checksOf (l : Limiter α) (key : String) (first : Int) (rest : List Int) :
    (l.run (checksOf key (first :: rest))).1.map (·.2) =
        ((l.bucketAt key first).checkAll l.rate l.burst (first :: rest)).1 ∧
      (l.run (checksOf key (first :: rest))).2.bucket? key =
        some ((l.bucketAt key first).checkAll l.rate l.burst (first :: rest)).2 := by
  induction rest generalizing l first with
  | nil => exact ⟨rfl, l.bucket?_check_self key first⟩
  | cons next rest ih =>
    have hnext : (l.check key first).2.bucketAt key next =
        ((l.bucketAt key first).check l.rate l.burst first).2 := by
      rw [bucketAt, bucket?_check_self, Option.getD_some]
    obtain ⟨htold, hbucket⟩ := ih (l.check key first).2 next
    rw [hnext] at htold hbucket
    refine ⟨?_, hbucket⟩
    rw [checksOf, List.map_cons, run_check, List.map_cons, Bucket.checkAll_cons, answer_check]
    exact congrArg _ htold

end Run

/-- A client that asks for the first time has a full bucket. From then on its bucket holds between
nothing and the burst size. Of any stretch of its requests no more are admitted than the burst size and
what the rate adds from the first to the last of them; and if no stretch has more requests than that,
all of them are admitted. -/
theorem token_envelope (l : Limiter ℚ) (hrate : 0 ≤ l.rate) (key : String) (hnew : l.bucket? key = none)
    (times : List Int) (ordered : times.Pairwise (· ≤ ·)) :
    let answers := (l.run (checksOf key times)).1.map (·.2)
    (∀ n, 0 < n → n ≤ times.length → ∃ b, (l.run (checksOf key (times.take n))).2.bucket? key = some b ∧
      0 ≤ b.tokens ∧ b.tokens ≤ l.burst) ∧
    (∀ i j s t, i ≤ j → times[i]? = some s → times[j]? = some t →
      ((answers.extract i (j + 1)).count .admitted : ℚ) ≤ l.burst + l.rate * seconds (t - s)) ∧
    ((∀ i j s t, i ≤ j → times[i]? = some s → times[j]? = some t →
        ((j + 1 - i : ℕ) : ℚ) ≤ l.burst + l.rate * seconds (t - s)) →
      ∀ answer ∈ answers, answer = .admitted) := by
  intro answers
  cases times with
  | nil =>
    refine ⟨fun n hpos hle => ?_, fun i j s t _ hs => ?_, fun _ answer hanswer => ?_⟩
    · exact absurd hle (Nat.not_le.2 hpos)
    · simp at hs
    · exact absurd hanswer List.not_mem_nil
  | cons first rest =>
    have hat : l.bucketAt key first = Bucket.full l.burst first := by rw [bucketAt, hnew, Option.getD_none]
    have hsound : (Bucket.full l.burst first : Bucket ℚ).Sound l.burst := Bucket.Sound.full l.burst first
    have hanswers : answers = ((Bucket.full l.burst first).checkAll l.rate l.burst (first :: rest)).1 := by
      rw [← hat]
      exact (l.run_checksOf key first rest).1
    refine ⟨fun n hpos _ => ?_, fun i j s t hij hs ht => ?_, fun hspaced => ?_⟩
    · obtain ⟨m, rfl⟩ := Nat.exists_eq_succ_of_ne_zero (Nat.ne_of_gt hpos)
      have hbucket := (l.run_checksOf key first (rest.take m)).2
      rw [hat] at hbucket
      have hafter := hsound.checkAll hrate (first :: rest.take m)
      exact ⟨_, hbucket, hafter.nonneg, hafter.le_burst⟩
    · rw [hanswers]
      exact hsound.count_extract_le hrate ordered hij hs ht
    · have hfull : ∀ n t, (first :: rest)[n]? = some t →
          Bucket.Affords l.rate l.burst t ((first :: rest).drop n) := by
        intro n t ht m u hu
        rw [List.getElem?_drop] at hu
        have hwindow := hspaced n (n + m) t u (Nat.le_add_right n m) ht hu
        rwa [show n + m + 1 - n = m + 1 by omega] at hwindow
      rw [hanswers]
      refine Bucket.admitted_of_affords (List.pairwise_cons.2 ⟨fun t ht => ?_, ordered⟩) (hfull 0 first rfl)
        hfull
      change first ≤ t
      rcases List.mem_cons.1 ht with rfl | ht
      · exact le_refl t
      · exact (List.pairwise_cons.1 ordered).1 t ht

/-- A client with two tokens, and another one every two seconds, that spends each as soon as it is there. -/
theorem token_envelope_of_thrifty_client :
    let l : Limiter ℚ := new (1 / 2) 2 defaultTtl
    let times : List Int := [0, 0, 2000000000, 6000000000, 6000000000]
    let answers := (l.run (checksOf "192.0.2.60" times)).1.map (·.2)
    (∃ b, (l.run (checksOf "192.0.2.60" [0, 0, 2000000000])).2.bucket? "192.0.2.60" = some b ∧
      0 ≤ b.tokens ∧ b.tokens ≤ (2 : ℕ)) ∧
    ((answers.extract 1 5).count .admitted : ℚ) ≤ (2 : ℕ) + 1 / 2 * seconds (6000000000 - 0) ∧
    ∀ answer ∈ answers, answer = .admitted := by
  intro l times answers
  obtain ⟨hholds, hatMost, hspaced⟩ := token_envelope l (by norm_num [l, new]) "192.0.2.60" rfl times
    (by decide)
  refine ⟨hholds 3 (by decide) (by decide), hatMost 1 4 0 6000000000 (by decide) rfl rfl,
    hspaced fun i j s t hij hs ht => ?_⟩
  obtain ⟨hj, rfl⟩ := List.getElem?_eq_some_iff.1 ht
  obtain ⟨hi, rfl⟩ := List.getElem?_eq_some_iff.1 hs
  have hj : j < 5 := hj
  interval_cases j <;> interval_cases i <;> norm_num [times, seconds, l, new]

end Limiter

end BurnAfterRead
