import BurnAfterRead.Limiter.Arithmetic
import BurnAfterRead.Time.Duration

/-!
# Rate limiting

Each client has a bucket of tokens that fills up at a steady rate up to the burst size; a request
takes a token or is told how long to wait for one. Buckets that were idle for too long are dropped,
so that the number of tracked clients stays bounded. Time is read on a clock that counts
nanoseconds; a stamp that lies before an earlier one counts as no time passed.
-/

namespace BurnAfterRead

/-- A client's tokens, when they were last topped up, and when the client was last seen. -/
structure Bucket (α : Type) where
  tokens : α
  lastRefill : Int
  lastSeen : Int
  deriving Repr

/-- Buckets of the tracked clients, under a common rate and burst size. -/
structure Limiter (α : Type) where
  /-- Tokens per second. -/
  rate : α
  /-- The capacity of a bucket. -/
  burst : Nat
  /-- How long a client may be idle before its bucket is dropped. -/
  ttl : Duration
  buckets : List (String × Bucket α)

/-- Whether a request may pass; if not, the seconds until it would. -/
inductive Admission where
  | admitted
  | rejected (retryAfter : Nat)
  deriving DecidableEq, Repr

namespace Bucket

variable {α : Type} [TokenNumber α]

/-- A full bucket. -/
def full (burst : Nat) (now : Int) : Bucket α := ⟨TokenNumber.ofTokens burst, now, now⟩

/-- Adds the tokens of the time since the last top-up, up to the burst size. -/
def refill (rate : α) (burst : Nat) (now : Int) (b : Bucket α) : Bucket α :=
  let elapsed : α := TokenNumber.ofNanos (now - b.lastRefill).toNat
  let tokens := TokenNumber.min (TokenNumber.add b.tokens (TokenNumber.mul elapsed rate))
    (TokenNumber.ofTokens burst)
  ⟨tokens, now, now⟩

/-- Takes a token if there is one. -/
def take (rate : α) (b : Bucket α) : Admission × Bucket α :=
  let one : α := TokenNumber.ofTokens 1
  if TokenNumber.atMost one b.tokens then
    (.admitted, { b with tokens := TokenNumber.sub b.tokens one })
  else if TokenNumber.isPositive rate then
    (.rejected (TokenNumber.ceilSeconds (TokenNumber.div (TokenNumber.sub one b.tokens) rate)), b)
  else (.rejected endlessWait, b)

/-- One request at `now`. -/
def check (rate : α) (burst : Nat) (now : Int) (b : Bucket α) : Admission × Bucket α :=
  (b.refill rate burst now).take rate

end Bucket

namespace Limiter

/-- The idle time of a limiter that is not told one. -/
def defaultTtl : Duration := .ofSeconds 300

def new {α : Type} (rate : α) (burst : Nat) (ttl : Duration) : Limiter α := ⟨rate, burst, ttl, []⟩

/-- One token per second, three at a time. -/
def standard : Limiter Float := new 1.0 3 defaultTtl

variable {α : Type}

/-- The number of tracked clients. -/
def size (l : Limiter α) : Nat := l.buckets.length

/-- The bucket of a client. -/
def bucket? (l : Limiter α) (key : String) : Option (Bucket α) := l.buckets.lookup key

/-- Sets the bucket of a client. -/
def put (key : String) (b : Bucket α) : List (String × Bucket α) → List (String × Bucket α)
  | [] => [(key, b)]
  | (k, old) :: rest => if k = key then (k, b) :: rest else (k, old) :: put key b rest

/-- One request of a client at `now`: a client seen for the first time starts with a full bucket. -/
def check [TokenNumber α] (l : Limiter α) (key : String) (now : Int) : Admission × Limiter α :=
  let before := (l.bucket? key).getD (Bucket.full l.burst now)
  let (admission, after) := before.check l.rate l.burst now
  (admission, { l with buckets := put key after l.buckets })

/-- Drops the buckets that were idle for longer than the limiter's idle time. -/
def evict (l : Limiter α) (now : Int) : Limiter α :=
  { l with buckets := l.buckets.filter fun p => (now - p.2.lastSeen).toNat ≤ l.ttl.nanos }

/-- The number of buckets that an eviction drops. -/
def evicted (l : Limiter α) (now : Int) : Nat := l.size - (l.evict now).size

theorem lookup_put_self (key : String) (b : Bucket α) (bs : List (String × Bucket α)) :
    (put key b bs).lookup key = some b := by
  induction bs with
  | nil => simp [put]
  | cons p bs ih =>
    obtain ⟨k, old⟩ := p
    by_cases h : k = key
    · simp [put, h]
    · have h' : (key == k) = false := by simpa using fun e => h e.symm
      simp [put, h, List.lookup_cons, h', ih]

theorem lookup_put_of_ne {key other : String} (b : Bucket α) (bs : List (String × Bucket α))
    (h : other ≠ key) : (put key b bs).lookup other = bs.lookup other := by
  induction bs with
  | nil =>
    have h' : (other == key) = false := by simpa using h
    simp [put, List.lookup_cons, h']
  | cons p bs ih =>
    obtain ⟨k, old⟩ := p
    by_cases hk : k = key
    · have h' : (other == key) = false := by simpa using h
      simp [put, hk, List.lookup_cons, h']
    · simp only [put, hk, if_false, List.lookup_cons]
      split <;> simp_all

end Limiter

end BurnAfterRead
