import BurnAfterRead.Decimal.Double
import BurnAfterRead.Settings.Basic

/-!
# Settings as data

The settings section by section, in the order of a settings file, each with its name and value.
Durations and rates are texts, as they are written in a file or shown.
-/

namespace BurnAfterRead.Settings

/-- The value of a setting. -/
inductive FieldValue where
  | text (value : String)
  | number (value : Nat)
  | truth (value : Bool)
  /-- A setting that is not set. -/
  | missing
  deriving DecidableEq, Repr

namespace FieldValue

def ofDuration (d : Duration) : FieldValue := text d.format

def ofText? : Option String → FieldValue
  | some value => text value
  | none => missing

end FieldValue

open FieldValue

/-- The sections, and the settings in each. -/
def fields (s : Settings) : List (String × List (String × FieldValue)) :=
  let db := s.database
  [("server", [("host", text s.server.host), ("port", number s.server.port)]),
    ("secrets",
      [("encryption_key", text s.secrets.encryptionKey),
        ("default_ttl", ofDuration s.secrets.defaultTtl),
        ("timeout", ofDuration s.secrets.timeout),
        ("cleanup_interval", ofDuration s.secrets.cleanupInterval)]),
    ("database",
      [("driver", text db.driver.name), ("uri", ofText? db.uri), ("address", ofText? db.address),
        ("database", text db.database), ("username", ofText? db.username),
        ("password", ofText? db.password), ("table", ofText? db.table),
        ("tls_mode", ofText? db.tlsMode), ("file", text db.file), ("in_memory", truth db.inMemory),
        ("connect_timeout", ofDuration db.connectTimeout)]),
    ("rate_limiter",
      [("enabled", truth s.limiter.enabled), ("rate", text (Decimal.format s.limiter.rate)),
        ("burst", number s.limiter.burst), ("ttl", ofDuration s.limiter.ttl),
        ("cleanup_interval", ofDuration s.limiter.cleanupInterval)])]

end BurnAfterRead.Settings
