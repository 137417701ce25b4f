import BurnAfterRead.Connection.Target
import BurnAfterRead.Http.Site

/-!
# Starting the service

The settings are checked, the store is opened, the service is made, and last of all requests are
listened for. The first step that fails ends the start; what comes after it is not tried.
-/

namespace BurnAfterRead

/-- What is asked of the outside while the service starts. -/
inductive StartupStep where
  | openStore (target : Connection.Target)
  | now
  | listen (host : String) (port : Nat)
  deriving DecidableEq, Repr

def StartupStep.Answer : StartupStep → Type
  | openStore _ => Except Failure Unit
  | now => Instant
  | listen _ _ => Except Failure Unit

/-- A service that listens. -/
structure Running where
  settings : Settings
  target : Connection.Target
  site : Http.Site Float

/-- The course of a start. -/
abbrev Startup (α : Type) : Type := Dialogue StartupStep StartupStep.Answer (Except Failure α)

/-- The limiter of some settings, if it is used. -/
def Settings.limiter? (s : Settings) : Option (Limiter Float) :=
  if s.limiter.enabled then some s.limiter.limiter else none

/-- Starts the service. -/
def Settings.start (systemUser : String) (s : Settings) : Startup Running :=
  match s.validate.bind fun _ => Connection.Target.ofSettings systemUser s.database with
  | .error f => .done (.error f)
  | .ok target => .ask (.openStore target) fun
    | .error f => .done (.error f)
    | .ok () => .ask .now fun (now : Instant) =>
      match Service.configured s.secrets.encryptionKey s.secrets.defaultTtl now with
      | .error f => .done (.error f)
      | .ok service => .ask (.listen s.server.host s.server.port) fun
        | .error f => .done (.error f)
        | .ok () => .done (.ok ⟨s, target, ⟨service, s.limiter?⟩⟩)

end BurnAfterRead
