import BurnAfterRead.CommandLine.Program

/-!
# Settings in layers

Arguments lie over the settings of the file, and those over the defaults. A setting is what the uppermost
layer says that says anything of it, and no other setting makes a difference to it. Settings are no more
than the values that they have one by one, so what holds of the values holds of the layers: a layer that
is laid on twice counts once, and two layers of arguments are one, in which the upper one's come first.
-/

namespace BurnAfterRead

/-- The settings that can be overridden. -/
inductive Overridable where
  | host
  | port
  | encryptionKey
  | defaultTtl
  | timeout
  | cleanupInterval
  | driver
  | uri
  | address
  | database
  | username
  | password
  | table
  | file
  | inMemory
  | rate
  | burst
  deriving DecidableEq, Repr

/-- The settings that only the file can set. -/
structure FileOnly where
  tlsMode : Option String
  connectTimeout : Duration
  isLimited : Bool
  idleTime : Duration
  evictionInterval : Duration
  deriving DecidableEq, Repr

def Settings.fileOnly (s : Settings) : FileOnly where
  tlsMode := s.database.tlsMode
  connectTimeout := s.database.connectTimeout
  isLimited := s.limiter.enabled
  idleTime := s.limiter.ttl
  evictionInterval := s.limiter.cleanupInterval

namespace Overridable

/-- The values of a setting. Some of the settings need not be set to anything. -/
abbrev Value : Overridable → Type
  | host | encryptionKey | database | file => String
  | port | burst => Nat
  | defaultTtl | timeout | cleanupInterval => Duration
  | driver => Driver
  | uri | address | username | password | table => Option String
  | inMemory => Bool
  | rate => Float

def get : (f : Overridable) → Settings → f.Value
  | host, s => s.server.host
  | port, s => s.server.port
  | encryptionKey, s => s.secrets.encryptionKey
  | defaultTtl, s => s.secrets.defaultTtl
  | timeout, s => s.secrets.timeout
  | cleanupInterval, s => s.secrets.cleanupInterval
  | driver, s => s.database.driver
  | uri, s => s.database.uri
  | address, s => s.database.address
  | database, s => s.database.database
  | username, s => s.database.username
  | password, s => s.database.password
  | table, s => s.database.table
  | file, s => s.database.file
  | inMemory, s => s.database.inMemory
  | rate, s => s.limiter.rate
  | burst, s => s.limiter.burst

/-- What the arguments say of a setting. They can set it to something, but not to nothing. -/
def argument : (f : Overridable) → CommandLine.SettingArguments → Option f.Value
  | host, a => a.host
  | port, a => a.port
  | encryptionKey, a => a.encryptionKey
  | defaultTtl, a => a.defaultTtl
  | timeout, a => a.timeout
  | cleanupInterval, a => a.cleanupInterval
  | driver, a => a.driver
  | uri, a => a.databaseUri.map some
  | address, a => a.databaseAddress.map some
  | database, a => a.database
  | username, a => a.databaseUser.map some
  | password, a => a.databasePassword.map some
  | table, a => a.databaseTable.map some
  | file, a => a.databaseFile
  | inMemory, a => a.databaseInMemory
  | rate, a => a.rateLimitRate
  | burst, a => a.rateLimitBurst

/-- What overrides say of a setting. -/
def override? : (f : Overridable) → Overrides → Option f.Value
  | host, o => o.host
  | port, o => o.port
  | encryptionKey, o => o.encryptionKey
  | defaultTtl, o => o.defaultTtl
  | timeout, o => o.timeout
  | cleanupInterval, o => o.cleanupInterval
  | driver, o => o.driver
  | uri, o => o.databaseUri.map some
  | address, o => o.databaseAddress.map some
  | database, o => o.databaseName
  | username, o => o.databaseUser.map some
  | password, o => o.databasePassword.map some
  | table, o => o.databaseTable.map some
  | file, o => o.databaseFile
  | inMemory, o => o.databaseInMemory
  | rate, o => o.rate
  | burst, o => o.burst

end Overridable

/-- Overrides laid over others: what the upper ones do not give, the lower ones may. -/
def Overrides.over (upper lower : Overrides) : Overrides where
  host := upper.host.or lower.host
  port := upper.port.or lower.port
  encryptionKey := upper.encryptionKey.or lower.encryptionKey
  defaultTtl := upper.defaultTtl.or lower.defaultTtl
  timeout := upper.timeout.or lower.timeout
  cleanupInterval := upper.cleanupInterval.or lower.cleanupInterval
  driver := upper.driver.or lower.driver
  databaseUri := upper.databaseUri.or lower.databaseUri
  databaseAddress := upper.databaseAddress.or lower.databaseAddress
  databaseName := upper.databaseName.or lower.databaseName
  databaseUser := upper.databaseUser.or lower.databaseUser
  databasePassword := upper.databasePassword.or lower.databasePassword
  databaseTable := upper.databaseTable.or lower.databaseTable
  databaseFile := upper.databaseFile.or lower.databaseFile
  databaseInMemory := upper.databaseInMemory.or lower.databaseInMemory
  rate := upper.rate.or lower.rate
  burst := upper.burst.or lower.burst

/-! ## One setting -/

/-- A setting that need not be set stays as it is, unless something is given. -/
theorem orElse_eq_getD {α : Type} (given current : Option α) :
    (given <|> current) = (given.map some).getD current := by
  cases given <;> rfl

namespace Overridable

/-- The arguments override the settings that they are meant for. -/
theorem override?_overrides (f : Overridable) (a : CommandLine.SettingArguments) :
    f.override? a.overrides = f.argument a := by
  cases f <;> rfl

theorem get_apply (f : Overridable) (s : Settings) (o : Overrides) :
    f.get (s.apply o) = (f.override? o).getD (f.get s) := by
  cases f with
  | uri | address | username | password | table => exact orElse_eq_getD _ _
  | _ => rfl

theorem override?_over (f : Overridable) (upper lower : Overrides) :
    f.override? (upper.over lower) = (f.override? upper).or (f.override? lower) := by
  cases f with
  | uri | address | username | password | table => exact Option.map_or
  | _ => rfl

end Overridable

/-! ## All settings -/

namespace Settings

theorem fileOnly_apply (s : Settings) (o : Overrides) : (s.apply o).fileOnly = s.fileOnly := rfl

/-- Settings are no more than the values of those that can be overridden, and of those that cannot. -/
theorem eq_of_get {s t : Settings} (hget : ∀ f : Overridable, f.get s = f.get t)
    (hrest : s.fileOnly = t.fileOnly) : s = t := by
  obtain ⟨⟨_, _⟩, ⟨_, _, _, _⟩, ⟨_, _, _, _, _, _, _, _, _, _, _⟩, ⟨_, _, _, _, _⟩⟩ := s
  obtain ⟨⟨_, _⟩, ⟨_, _, _, _⟩, ⟨_, _, _, _, _, _, _, _, _, _, _⟩, ⟨_, _, _, _, _⟩⟩ := t
  simp only [fileOnly, FileOnly.mk.injEq] at hrest
  obtain ⟨htls, hconnect, henabled, hidle, hinterval⟩ := hrest
  simp only [Settings.mk.injEq, ServerSettings.mk.injEq, SecretSettings.mk.injEq,
    DatabaseSettings.mk.injEq, LimiterSettings.mk.injEq]
  exact ⟨⟨hget .host, hget .port⟩,
    ⟨hget .encryptionKey, hget .defaultTtl, hget .timeout, hget .cleanupInterval⟩,
    ⟨hget .driver, hget .uri, hget .address, hget .database, hget .username, hget .password, hget .table,
      htls, hget .file, hget .inMemory, hconnect⟩,
    henabled, hget .rate, hget .burst, hidle, hinterval⟩

/-- Two layers of overrides are one. -/
theorem apply_apply (s : Settings) (lower upper : Overrides) :
    (s.apply lower).apply upper = s.apply (upper.over lower) := by
  refine eq_of_get (fun f => ?_) rfl
  rw [f.get_apply, f.get_apply, f.get_apply, f.override?_over, Option.getD_or]

/-- The same overrides again change nothing. -/
theorem apply_again (s : Settings) (o : Overrides) : (s.apply o).apply o = s.apply o := by
  refine eq_of_get (fun f => ?_) rfl
  rw [f.get_apply, f.get_apply]
  cases f.override? o <;> rfl

end Settings

namespace CommandLine

/-- Settings with arguments laid over them: each setting that can be overridden is what the arguments say of
it, if they say anything, and otherwise what it was, and the settings that only the file can set stay. So it
is for whatever is loaded under a path; where nothing can be loaded, the arguments do not help. Hence
overrides that are laid on twice count once, and two layers of overrides are one, in which the upper one's
come first. -/
theorem layered_by_field :
    (∀ (s : Settings) (a : SettingArguments),
      (∀ f : Overridable, f.get (s.apply a.overrides) = (f.argument a).getD (f.get s)) ∧
        (s.apply a.overrides).fileOnly = s.fileOnly) ∧
    (∀ (path : String) (entry : SettingsFile.Entry) (a : SettingArguments),
      (∀ f : Overridable, (loadSettings path entry a).map f.get =
        (SettingsFile.load path entry).map fun s => (f.argument a).getD (f.get s)) ∧
      (loadSettings path entry a).map Settings.fileOnly =
        (SettingsFile.load path entry).map Settings.fileOnly) ∧
    (∀ (s : Settings) (o : Overrides), (s.apply o).apply o = s.apply o) ∧
    ∀ (s : Settings) (lower upper : Overrides),
      (s.apply lower).apply upper = s.apply (upper.over lower) ∧
        ∀ f : Overridable, f.override? (upper.over lower) = (f.override? upper).or (f.override? lower) := by
  have hget (s : Settings) (a : SettingArguments) (f : Overridable) :
      f.get (s.apply a.overrides) = (f.argument a).getD (f.get s) := by
    rw [f.get_apply, f.override?_overrides]
  refine ⟨fun s a => ⟨hget s a, s.fileOnly_apply _⟩, fun path entry a => ⟨fun f => ?_, ?_⟩,
    Settings.apply_again, fun s lower upper => ⟨s.apply_apply lower upper, fun f => f.override?_over _ _⟩⟩
  · unfold loadSettings
    cases SettingsFile.load path entry with
    | error failure => rfl
    | ok s => exact congrArg Except.ok (hget s a f)
  · unfold loadSettings
    cases SettingsFile.load path entry <;> rfl

end CommandLine

end BurnAfterRead
