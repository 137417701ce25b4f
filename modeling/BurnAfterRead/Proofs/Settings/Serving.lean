import BurnAfterRead.Proofs.Dialogue.Path
import BurnAfterRead.Proofs.Time.TextOrder
import BurnAfterRead.Startup

/-!
# What valid settings lead to

The check of the settings asks of the default lifetime only that it is not zero. Whether it leads to a
point in time is found out when the service is made, and by then the store has been opened. It does so
exactly if a lifetime that begins now ends within the range of instants; if not, the start ends there.
-/

namespace BurnAfterRead

/-- A lifetime that begins at `now` ends within the range of instants. A leap second counts as the second
that it is written as. -/
def Duration.EndsInRange (ttl : Duration) (now : Instant) : Prop :=
  now.seconds * 1000000000 + (now.nanos % 1000000000 : Nat) + ttl.nanos <
    (Instant.maxSeconds + 1) * 1000000000

instance (ttl : Duration) (now : Instant) : Decidable (ttl.EndsInRange now) :=
  inferInstanceAs (Decidable (_ < _))

namespace Instant

theorem inRange_ofNanos_iff (n : Int) :
    (ofNanos n).inRange = true ↔
      minSeconds * 1000000000 ≤ n ∧ n < (maxSeconds + 1) * 1000000000 := by
  rw [inRange_iff]
  unfold ofNanos minSeconds maxSeconds
  dsimp only
  omega

/-- A lifetime leads to an instant exactly if it ends in range. -/
theorem inRange_plus_iff {now : Instant} (h : now.WellFormed) (ttl : Duration) :
    (now.plus ⟨ttl.nanos⟩).inRange = true ↔ ttl.EndsInRange now := by
  obtain ⟨hlow, hhigh⟩ := inRange_iff.1 h.inRange
  have hnanos := h.nanos
  have hseconds : (ttl.nanos : Int).tdiv 1000000000 = ((ttl.nanos / 1000000000 : Nat) : Int) := rfl
  have hrest : (ttl.nanos : Int).tmod 1000000000 = ((ttl.nanos % 1000000000 : Nat) : Int) := rfl
  unfold plus Duration.EndsInRange isLeapSecond
  dsimp only
  rw [hseconds, hrest]
  by_cases hleap : 1000000000 ≤ now.nanos
  · rw [if_pos (decide_eq_true hleap)]
    split
    · rw [inRange_ofNanos_iff]
      unfold minSeconds maxSeconds
      omega
    · -- the lifetime ends within the leap second, which is in range
      rw [if_neg (by omega)]
      refine iff_of_true h.inRange ?_
      unfold maxSeconds
      omega
  · rw [if_neg (by simpa using hleap), inRange_ofNanos_iff]
    unfold toNanos minSeconds maxSeconds
    omega

/-- Where a lifetime leads that is added to a time. -/
theorem plus?_lifetime {now : Instant} (h : now.WellFormed) (ttl : Duration) :
    now.plus? ⟨ttl.nanos⟩ = if ttl.EndsInRange now then some (now.plus ⟨ttl.nanos⟩) else none := by
  rw [plus?]
  simp only [inRange_plus_iff h]

end Instant

theorem Duration.eq_of_toSpan? {ttl : Duration} {span : Span} (h : ttl.toSpan? = some span) :
    span = ⟨ttl.nanos⟩ := by
  unfold toSpan? at h
  split at h
  · exact (Option.some.inj h).symm
  · cases h

/-- A lifetime that ends in range is short enough to be added at all. -/
theorem Duration.EndsInRange.toSpan? {ttl : Duration} {now : Instant} (h : ttl.EndsInRange now)
    (hnow : now.WellFormed) : ttl.toSpan? = some ⟨ttl.nanos⟩ := by
  have hlow := (Instant.inRange_iff.1 hnow.inRange).1
  unfold EndsInRange Instant.maxSeconds at h
  have hshort : ttl.nanos ≤ Text.maxInt64 * nanosPerMilli := by
    have hlimit : Text.maxInt64 * nanosPerMilli = 9223372036854775807000000 := by decide
    omega
  exact if_pos hshort

/-- A service is made of a key and a default lifetime exactly if the lifetime ends in range. -/
theorem Service.configured_eq {key : String} (hkey : key ≠ "") (ttl : Duration) {now : Instant}
    (hnow : now.WellFormed) :
    configured key ttl now =
      if ttl.EndsInRange now then .ok ⟨key, ⟨ttl.nanos⟩⟩
      else .error (.badConfiguration "default TTL is out of range") := by
  have hnew : new key = .ok ⟨key, ⟨standardTtl.nanos⟩⟩ := if_neg hkey
  rw [configured, hnew]
  change withDefaultTtl _ ttl now = _
  unfold withDefaultTtl
  by_cases hends : ttl.EndsInRange now
  · rw [hends.toSpan? hnow]
    dsimp only
    rw [Instant.plus?_lifetime hnow, if_pos hends, if_pos hends]
  · rw [if_neg hends]
    cases hspan : ttl.toSpan? with
    | none => rfl
    | some span =>
      obtain rfl := Duration.eq_of_toSpan? hspan
      dsimp only
      rw [Instant.plus?_lifetime hnow, if_neg hends]

namespace Settings

theorem key_ne_of_validate {s : Settings} (h : s.validate = .ok ()) : s.secrets.encryptionKey ≠ "" := by
  intro hempty
  rw [validate, if_pos hempty] at h
  cases h

/-- A start in which the store was opened and the time is told. -/
def opened (target : Connection.Target) (now : Instant) : List (Dialogue.Exchange StartupStep.Answer) :=
  [⟨.openStore target, .ok ()⟩, ⟨.now, now⟩]

/-- Of valid settings the store is opened first. Then the service is made for the time that is told: with it
the start goes on to listen, without it the start has failed. -/
theorem path_start {s : Settings} (hvalid : s.validate = .ok ()) {user : String}
    {target : Connection.Target} (htarget : Connection.Target.ofSettings user s.database = .ok target)
    (now : Instant) :
    ∃ rest, Dialogue.Path (s.start user) (opened target now) rest ∧
      (∀ service, Service.configured s.secrets.encryptionKey s.secrets.defaultTtl now = .ok service →
        ∃ next, rest = .ask (.listen s.server.host s.server.port) next) ∧
      ∀ f, Service.configured s.secrets.encryptionKey s.secrets.defaultTtl now = .error f →
        rest = .done (.error f) := by
  have hsettled : (s.validate.bind fun _ => Connection.Target.ofSettings user s.database) = .ok target := by
    rw [hvalid]
    exact htarget
  rw [start, hsettled]
  refine ⟨_, .cons (.cons (.nil _)), fun service hmade => ?_, fun f hfailed => ?_⟩
  · rw [hmade]
    exact ⟨_, rfl⟩
  · rw [hfailed]

/-- Valid settings, at any time: if the default lifetime ends in range when it begins now, the service is
made and the start goes on to listen. If not, there is no service, and the start fails for it although
the settings were found valid, with the store opened already. -/
theorem served_iff_endsInRange (s : Settings) (hvalid : s.validate = .ok ()) (now : Instant)
    (hnow : now.WellFormed) :
    (s.secrets.defaultTtl.EndsInRange now →
      Service.configured s.secrets.encryptionKey s.secrets.defaultTtl now =
        .ok ⟨s.secrets.encryptionKey, ⟨s.secrets.defaultTtl.nanos⟩⟩ ∧
      ∀ user target, Connection.Target.ofSettings user s.database = .ok target →
        ∃ next, Dialogue.Path (s.start user) (opened target now)
          (.ask (.listen s.server.host s.server.port) next)) ∧
    (¬ s.secrets.defaultTtl.EndsInRange now →
      Service.configured s.secrets.encryptionKey s.secrets.defaultTtl now =
        .error (.badConfiguration "default TTL is out of range") ∧
      ∀ user target, Connection.Target.ofSettings user s.database = .ok target →
        Dialogue.Path (s.start user) (opened target now)
          (.done (.error (.badConfiguration "default TTL is out of range")))) := by
  have hmade := Service.configured_eq (key_ne_of_validate hvalid) s.secrets.defaultTtl hnow
  refine ⟨fun hends => ?_, fun hends => ?_⟩
  · rw [if_pos hends] at hmade
    refine ⟨hmade, fun user target htarget => ?_⟩
    obtain ⟨rest, hpath, hlisten, -⟩ := path_start hvalid htarget now
    obtain ⟨next, rfl⟩ := hlisten _ hmade
    exact ⟨next, hpath⟩
  · rw [if_neg hends] at hmade
    refine ⟨hmade, fun user target htarget => ?_⟩
    obtain ⟨rest, hpath, -, hfailed⟩ := path_start hvalid htarget now
    rwa [hfailed _ hmade] at hpath

/-- Settings for a store in memory with a default lifetime and no limiter. -/
def lasting (ttl : Duration) : Settings where
  secrets := { encryptionKey := "k", defaultTtl := ttl }
  limiter := { rate := 1.0, enabled := false }

/-- 95 million days lead from 2026 to a year that there is. -/
theorem served_for_95_million_days :
    (lasting (.ofDays 95000000)).validate = .ok () ∧ (⟨1767225600, 0⟩ : Instant).WellFormed ∧
    Service.configured "k" (.ofDays 95000000) ⟨1767225600, 0⟩ =
      .ok ⟨"k", ⟨8208000000000000000000⟩⟩ ∧
    ∃ next, Dialogue.Path ((lasting (.ofDays 95000000)).start "root") (opened .memory ⟨1767225600, 0⟩)
      (.ask (.listen "0.0.0.0" 3000) next) := by
  have hvalid : (lasting (.ofDays 95000000)).validate = .ok () := rfl
  have hnow : (⟨1767225600, 0⟩ : Instant).WellFormed := by decide
  obtain ⟨hmade, hlisten⟩ := (served_iff_endsInRange _ hvalid _ hnow).1 (by decide)
  exact ⟨hvalid, hnow, hmade, hlisten "root" .memory rfl⟩

/-- 100 million days do not, yet the settings are found valid; the start fails once the store is open. -/
theorem valid_but_not_served :
    let now : Instant := ⟨1767225600, 0⟩
    (lasting (.ofDays 100000000)).validate = .ok () ∧ (0 ≤ now.year ∧ now.year ≤ 9999) ∧
    Service.configured "k" (.ofDays 100000000) now =
      .error (.badConfiguration "default TTL is out of range") ∧
    Dialogue.Path ((lasting (.ofDays 100000000)).start "root") (opened .memory now)
      (.done (.error (.badConfiguration "default TTL is out of range"))) :=
  ⟨rfl, by decide, rfl, .cons (.cons (.nil _))⟩

end Settings

end BurnAfterRead
