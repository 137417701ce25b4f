import BurnAfterRead.Limiter.Basic
import BurnAfterRead.Settings.Driver
import BurnAfterRead.Time.Duration

/-!
# Settings

What the service can be told: where it listens, how secrets live, where they are kept, and how
often a client may call. Every setting has a default; only the encryption key has to be given.
-/

namespace BurnAfterRead

/-- Where the service listens. -/
structure ServerSettings where
  host : String := "0.0.0.0"
  port : Nat := 3000
  deriving Repr

/-- How secrets live. -/
structure SecretSettings where
  /-- The key of secrets without a passphrase. -/
  encryptionKey : String := ""
  /-- The lifetime of secrets that ask for none. -/
  defaultTtl : Duration := .ofDays 7
  /-- How long a storage call is waited for. -/
  timeout : Duration := .ofSeconds 10
  /-- How often expired secrets are removed. -/
  cleanupInterval : Duration := .ofSeconds 5
  deriving Repr

/-- Where secrets are kept: under a full address, or one that is put together from its parts. -/
structure DatabaseSettings where
  driver : Driver := .memory
  uri : Option String := none
  address : Option String := none
  database : String := "emberdrop"
  username : Option String := none
  password : Option String := none
  /-- The table or collection that holds the secrets. -/
  table : Option String := none
  tlsMode : Option String := none
  /-- The file of a database that is kept in one. -/
  file : String := "emberdrop.db"
  /-- Keep the database in memory instead. -/
  inMemory : Bool := false
  connectTimeout : Duration := .ofSeconds 10
  deriving Repr

/-- How often a client may call, in numbers of a type. -/
structure LimiterSettings (α : Type) where
  enabled : Bool := true
  /-- Tokens per second. -/
  rate : α
  /-- The size of a bucket. -/
  burst : Nat := 3
  /-- How long a client may be idle before its bucket is dropped. -/
  ttl : Duration := .ofSeconds 300
  cleanupInterval : Duration := .ofSeconds 10
  deriving Repr

structure Settings where
  server : ServerSettings := {}
  secrets : SecretSettings := {}
  database : DatabaseSettings := {}
  limiter : LimiterSettings Float := { rate := 1.0 }
  deriving Repr

/-- Settings from the command line or the environment; what is not given stays as it is. -/
structure Overrides where
  host : Option String := none
  port : Option Nat := none
  encryptionKey : Option String := none
  defaultTtl : Option Duration := none
  timeout : Option Duration := none
  cleanupInterval : Option Duration := none
  driver : Option Driver := none
  databaseUri : Option String := none
  databaseAddress : Option String := none
  databaseName : Option String := none
  databaseUser : Option String := none
  databasePassword : Option String := none
  databaseTable : Option String := none
  databaseFile : Option String := none
  databaseInMemory : Option Bool := none
  rate : Option Float := none
  burst : Option Nat := none
  deriving Repr

namespace LimiterSettings

variable {α : Type}

/-- The limiter of some settings. -/
def limiter (l : LimiterSettings α) : Limiter α := .new l.rate l.burst l.ttl

/-- What the limiter needs where it is used at all. -/
def check [TokenNumber α] (l : LimiterSettings α) : Except Failure Unit :=
  if !l.enabled then .ok ()
  else if l.cleanupInterval.isZero then
    .error (.badConfiguration "rate_limiter.cleanup_interval must be positive")
  else if !TokenNumber.isPositive l.rate then
    .error (.badConfiguration "rate_limiter.rate must be positive")
  else if l.burst = 0 then .error (.badConfiguration "rate_limiter.burst must be at least 1")
  else .ok ()

end LimiterSettings

namespace Settings

/-- The name of the settings file where none is named. -/
def fileName : String := "emberdrop.toml"

/-- The settings with overrides laid over them. -/
def apply (s : Settings) (o : Overrides) : Settings where
  server := ⟨o.host.getD s.server.host, o.port.getD s.server.port⟩
  secrets :=
    ⟨o.encryptionKey.getD s.secrets.encryptionKey, o.defaultTtl.getD s.secrets.defaultTtl,
      o.timeout.getD s.secrets.timeout, o.cleanupInterval.getD s.secrets.cleanupInterval⟩
  database :=
    { s.database with
      driver := o.driver.getD s.database.driver
      uri := o.databaseUri <|> s.database.uri
      address := o.databaseAddress <|> s.database.address
      database := o.databaseName.getD s.database.database
      username := o.databaseUser <|> s.database.username
      password := o.databasePassword <|> s.database.password
      table := o.databaseTable <|> s.database.table
      file := o.databaseFile.getD s.database.file
      inMemory := o.databaseInMemory.getD s.database.inMemory }
  limiter :=
    { s.limiter with
      rate := o.rate.getD s.limiter.rate
      burst := o.burst.getD s.limiter.burst }

/-- What a driver needs to find its database. -/
def checkTarget (db : DatabaseSettings) : Except Failure Unit :=
  match db.driver with
  | .memory => .ok ()
  | .sqlite =>
    if db.uri.isNone && !db.inMemory && db.file = "" then
      .error (.badConfiguration "sqlite needs database.file, database.in_memory, or database.uri")
    else .ok ()
  | driver =>
    if db.uri.isNone && db.address.isNone then
      .error (.badConfiguration (driver.name ++ " needs database.uri or database.address"))
    else .ok ()

/-- Checks the settings before anything is connected; the first fault counts. -/
def validate (s : Settings) : Except Failure Unit :=
  if s.secrets.encryptionKey = "" then
    .error (.badConfiguration
      "an encryption key is required (secrets.encryption_key or EMBERDROP_ENCRYPTION_KEY)")
  else if s.secrets.defaultTtl.isZero then
    .error (.badConfiguration "secrets.default_ttl must be positive")
  else if s.secrets.cleanupInterval.isZero then
    .error (.badConfiguration "secrets.cleanup_interval must be positive")
  else if s.secrets.timeout.isZero then
    .error (.badConfiguration "secrets.timeout must be positive")
  else if s.database.connectTimeout.isZero then
    .error (.badConfiguration "database.connect_timeout must be positive")
  else s.limiter.check.bind fun _ => checkTarget s.database

end Settings

end BurnAfterRead
