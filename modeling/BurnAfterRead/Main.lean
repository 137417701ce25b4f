import BurnAfterRead.BackgroundTask
import BurnAfterRead.CommandLine.Log
import BurnAfterRead.CommandLine.Program
import BurnAfterRead.Startup
import BurnAfterRead.Store.Memory
import Std.Http

/-!
# The program

Reads the command line, the environment and the settings file, writes what a command gives, and
serves requests. It keeps secrets in memory; no client of another engine is part of it.
-/

namespace BurnAfterRead.Main

open Std.Async

/-! ## The outside -/

/-- The time of day. -/
def wallClock : IO Instant := do
  let now ← Std.Time.Timestamp.now
  return .ofNanos now.toNanosecondsSinceUnixEpoch.val

/-- A clock that is never set back. -/
def steadyClock : IO Int := do return Int.ofNat (← IO.monoNanosNow)

def drawBytes : IO Http.Draws := do
  return .ofBytes (← IO.getRandomBytes (.ofNat (Http.Draws.size Crypto.maxGeneratedLength))).data

/-- What there is under a path. -/
def entryAt (path : String) : IO SettingsFile.Entry := do
  try return .file (← IO.FS.readFile path)
  catch
    | .noFileOrDirectory .. => return .missing
    | _ => return .unreadable

/-- The variables that parameters look for. -/
def environment : IO (List (String × String)) := do
  let names := (CommandLine.settingParameters ++ CommandLine.globalParameters).filterMap (·.envName)
  names.filterMapM fun name => do return (← IO.getEnv name).map fun value => (name, value)

/-- A duration for timers, which count whole milliseconds and wait for at least one. -/
def pause (d : Duration) : Async Unit := sleep (.ofNat (max 1 d.millis))

/-! ## The service -/

/-- What the requests of a running service share. -/
structure Shared where
  memory : IO.Ref Memory
  site : IO.Ref (Http.Site Float)

/-- Answers what a call asks. -/
def Shared.answer (shared : Shared) : (q : Query) → IO q.Answer
  | .now => wallClock
  | .store c => do
    let now ← wallClock
    shared.memory.modifyGet fun m => Memory.store now c m

/-- Handles a request. -/
def Shared.handle (shared : Shared) (r : Http.Request) : IO Http.Response := do
  let draws ← drawBytes
  let now ← steadyClock
  let call ← shared.site.modifyGet fun site => site.handle now draws r
  call.runIn shared.answer

/-- Runs a background task until the program ends. -/
def keepUp (interval : Duration) (run : IO Unit) : Async Unit := do
  let mut task := BackgroundTask.start interval (← steadyClock)
  while true do
    pause interval
    task := task.step (BackgroundTask.Event.clock (← steadyClock) : BackgroundTask.Event Unit)
    if task.isRunning then
      run
      task := task.step (.finished () (← steadyClock))

/-! ## Connections -/

/-- The address of a client, without its port. -/
def peerOf (extensions : Std.Http.Extensions) : Option Http.IpAddress :=
  (extensions.get Std.Http.Server.RemoteAddr).bind fun peer =>
    Http.IpAddress.ofSocket? (toString peer).toList

/-- Reads a body up to its end, or until it is too long to be looked at. -/
def readBody (stream : Std.Http.Body.Stream) : Async (List UInt8) := do
  let mut bytes := ByteArray.empty
  while bytes.size ≤ Http.SecretRequest.maxBodySize do
    match ← stream.recv with
    | some chunk => bytes := bytes ++ chunk.data
    | none => break
  return bytes.toList

def requestOf (r : Std.Http.Request Std.Http.Body.Stream) : Async Http.Request := do
  let headers := r.line.headers.toList.map fun (name, value) =>
    (name.value, Crypto.utf8 value.value)
  let body ← readBody r.body
  return { Http.Request.on (toString r.line.method) (toString r.line.uri) with
    headers := headers
    body := body
    peer := peerOf r.extensions }

/-- A response as it is sent. -/
def sendable (r : Http.Response) : Async (Std.Http.Response Std.Http.Body.Any) := do
  let status := (Std.Http.Status.ofCode none (.ofNat r.status)).getD .internalServerError
  let start := Std.Http.Response.new.status status
  let builder := r.headers.foldl (fun builder (name, value) =>
    match Std.Http.Header.Name.ofString? name,
        (String.fromUTF8? ⟨value.toArray⟩).bind Std.Http.Header.Value.ofString? with
    | some name, some value => { builder with line :=
        { builder.line with headers := builder.line.headers.insert name value } }
    | _, _ => builder) start
  let full ← Std.Http.Body.Full.ofString r.body
  return builder.body (.ofBody full)

def Shared.handler (shared : Shared) : Std.Http.Server.StatelessHandler :=
  Std.Http.Server.Handler.ofFn fun r => do
    let request ← requestOf r
    sendable ((← shared.handle request).sent request.method)

/-- The place to listen at. -/
def placeOf? (host : String) (port : Nat) : Option Std.Net.SocketAddress :=
  let host := if host = "localhost" then "127.0.0.1" else host
  match Std.Net.IPv4Addr.ofString host with
  | some address => some (.v4 ⟨address, .ofNat port⟩)
  | none =>
    let bare := ((host.dropPrefix "[").toString.dropSuffix "]").toString
    (Std.Net.IPv6Addr.ofString bare).map fun address => .v6 ⟨address, .ofNat port⟩

/-- Answers what is asked while the service starts. -/
def answerStartup : (q : StartupStep) → IO q.Answer
  | .openStore target =>
    return if target = .memory then .ok ()
      else .error (.storageUnavailable ("no client for " ++ target.name ++ " is part of the program"))
  | .now => wallClock
  | .listen host port =>
    return if (placeOf? host port).isSome then .ok () else .error (.io ("cannot listen at " ++ host))

/-! ## Commands -/

def printAll (lines : List String) (print : String → IO Unit) : IO Unit := lines.forM print

/-- Writes the output of a command. -/
def finish (output : CommandLine.Output) : IO UInt32 := do
  printAll output.stdout IO.println
  printAll output.stderr IO.eprintln
  return .ofNat output.exitCode

/-- Waits for the signal to stop. -/
def waitForSignal : Async Unit := do
  let interrupt ← Signal.Waiter.mk .sigint false
  let terminate ← Signal.Waiter.mk .sigterm false
  discard <| Selectable.one #[
    .case interrupt.selector fun _ => pure (),
    .case terminate.selector fun _ => pure ()]

/-- Serves requests until a signal comes. -/
def listen (running : Running) (format : CommandLine.LogFormat) : Async Unit := do
  let settings := running.settings
  let some place := placeOf? settings.server.host settings.server.port
    | throw (.userError "not an address")
  let shared : Shared := ⟨← IO.mkRef .empty, ← IO.mkRef running.site⟩
  let server ← Std.Http.Server.serve place shared.handler
  background (keepUp settings.secrets.cleanupInterval
    (discard (Service.deleteExpired.runIn shared.answer)))
  if settings.limiter.enabled then
    background (keepUp settings.limiter.cleanupInterval do
      let now ← steadyClock
      shared.site.modify fun site => site.evict now)
  let entry : CommandLine.LogEntry :=
    { time := ← wallClock
      message := CommandLine.programName ++ " listening"
      fields := [("address", settings.server.host ++ ":" ++ toString settings.server.port),
        ("driver", running.target.name), ("rate_limited", toString settings.limiter.enabled)] }
  IO.eprintln (entry.line format)
  waitForSignal
  server.shutdownAndWait
  let closed : IO (Except Failure Unit) := Service.close.runIn shared.answer
  discard closed

/-- Starts the service and serves requests. -/
def serve (settings : Settings) (format : CommandLine.LogFormat) : IO UInt32 := do
  let user := (← IO.getEnv "USER").getD "postgres"
  match ← (settings.start user).runIn answerStartup with
  | .error f => finish (CommandLine.Output.fail {} f)
  | .ok running =>
    try
      (listen running format).block
      return 0
    catch error => finish (CommandLine.Output.fail {} (.io error.toString))

end BurnAfterRead.Main

open BurnAfterRead CommandLine in
def main (args : List String) : IO UInt32 := do
  let env ← Main.environment
  match Invocation.ofArguments (fun name => env.lookup name) args with
  | .error ending => Main.finish (ending.output fun name => env.lookup name)
  | .ok invocation =>
    let draws ← Main.drawBytes
    match invocation.run draws.letters (← Main.entryAt invocation.configPath) with
    | .ended output => Main.finish output
    | .serves settings => Main.serve settings invocation.logFormat
