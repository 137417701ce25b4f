import BurnAfterRead.Decimal.Double
import BurnAfterRead.Settings.Basic
import BurnAfterRead.Text.Diagnostic

/-!
# Showing settings

Settings as a table of names and values, and in diagnostics. Neither shows the encryption key, the
password or the address of the database, which may hold a password; they show whether it is set.
-/

namespace BurnAfterRead.Settings

/-- What stands for a credential. -/
def mask : String := "********"

/-- A credential in the table: whether it is set. -/
def masked (isSet : Bool) : String := if isSet then mask else "(not set)"

/-- A value in the table that may be missing. -/
def orDash (value : Option String) : String := value.getD "-"

/-- The settings by name. -/
def rows (s : Settings) : List (String × String) :=
  let db := s.database
  [("server.host", s.server.host),
    ("server.port", toString s.server.port),
    ("secrets.encryption_key", masked (s.secrets.encryptionKey != "")),
    ("secrets.default_ttl", s.secrets.defaultTtl.format),
    ("secrets.timeout", s.secrets.timeout.format),
    ("secrets.cleanup_interval", s.secrets.cleanupInterval.format),
    ("database.driver", db.driver.name),
    ("database.uri", masked db.uri.isSome),
    ("database.address", orDash db.address),
    ("database.database", db.database),
    ("database.username", orDash db.username),
    ("database.password", masked db.password.isSome),
    ("database.table", orDash db.table),
    ("database.tls_mode", orDash db.tlsMode),
    ("database.file", db.file),
    ("database.in_memory", toString db.inMemory),
    ("database.connect_timeout", db.connectTimeout.format),
    ("rate_limiter.enabled", toString s.limiter.enabled),
    ("rate_limiter.rate", Decimal.format s.limiter.rate),
    ("rate_limiter.burst", toString s.limiter.burst),
    ("rate_limiter.ttl", s.limiter.ttl.format),
    ("rate_limiter.cleanup_interval", s.limiter.cleanupInterval.format)]

/-- A credential in diagnostics; an empty one is shown as empty. -/
def redact (value : String) : String := if value = "" then "" else mask

open Diagnostic

/-- A text in diagnostics that may be missing. -/
def shownText (value : Option String) : String := optional (value.map quoted)

/-- A credential in diagnostics that may be missing. -/
def shownCredential (value : Option String) : String := shownText (value.map redact)

/-- The settings in diagnostics. -/
def diagnostic (s : Settings) : String :=
  let db := s.database
  record "Settings"
    [("server", record "ServerSettings"
        [("host", quoted s.server.host), ("port", toString s.server.port)]),
      ("secrets", record "SecretSettings"
        [("encryption_key", quoted (redact s.secrets.encryptionKey)),
          ("default_ttl", s.secrets.defaultTtl.diagnostic),
          ("timeout", s.secrets.timeout.diagnostic),
          ("cleanup_interval", s.secrets.cleanupInterval.diagnostic)]),
      ("database", record "DatabaseSettings"
        [("driver", db.driver.label),
          ("uri", shownCredential db.uri),
          ("address", shownText db.address),
          ("database", quoted db.database),
          ("username", shownText db.username),
          ("password", shownCredential db.password),
          ("table", shownText db.table),
          ("tls_mode", shownText db.tlsMode),
          ("file", quoted db.file),
          ("in_memory", toString db.inMemory),
          ("connect_timeout", db.connectTimeout.diagnostic)]),
      ("rate_limiter", record "RateLimiterSettings"
        [("enabled", toString s.limiter.enabled),
          ("rate", Decimal.diagnostic s.limiter.rate),
          ("burst", toString s.limiter.burst),
          ("ttl", s.limiter.ttl.diagnostic),
          ("cleanup_interval", s.limiter.cleanupInterval.diagnostic)])]

end BurnAfterRead.Settings
