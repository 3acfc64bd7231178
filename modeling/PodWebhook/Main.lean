import PodWebhook.Server.Run
import Std.Http.Server
import Std.Time

/-!
The program: it reads its arguments, environment and files, listens, and hands every request to the
server. It listens in plain HTTP; a certificate is loaded and checked, and then refused.
-/

namespace PodWebhook.Program

open Std.Async

def nanosecondsPerSecond : Int := 1000000000

def now : IO Timestamp := do
  let time ← Std.Time.Timestamp.now
  let count := time.toNanosecondsSinceUnixEpoch.val
  return ⟨count.fdiv nanosecondsPerSecond, (count.fmod nanosecondsPerSecond).toNat⟩

def report (logger : Logger) (events : List Event) : IO Unit := do
  let time ← now
  let output ← IO.getStdout
  for event in logger.select events do
    output.putStrLn (logger.line time.toMicrosecondText event)
  output.flush

def environment : IO Command.Environment :=
  Command.Setting.all.filterMapM fun setting => do
    return (← IO.getEnv setting.envVar).map fun value => (setting.envVar, value)

def readFile? (path : String) : IO (Option Bytes) := do
  try
    let content ← IO.FS.readBinFile path
    return some content.data.toList
  catch _ => return none

def kubeconfigPath : IO String := do
  match ← IO.getEnv "KUBECONFIG" with
  | some path => return path
  | none => return ((← IO.getEnv "HOME").getD "") ++ "/.kube/config"

def surroundings (config : Config) : IO Surroundings := do
  let kubeconfig ← readFile? (← kubeconfigPath)
  let paths := match config.tls with
    | some files => [files.cert, files.key]
    | none => []
  let files ← paths.mapM fun path => do return (path, ← readFile? path)
  return ⟨kubeconfig, fun path => (files.lookup path).join⟩

structure Site where
  server : Server
  host : String
  logger : Logger

def requestOf (head : Std.Http.Request.Head) (body : ByteArray) :
    Except Http.RequestError Http.Request :=
  let headers := head.headers.toList.map fun h => (h.1.value, Bytes.utf8 h.2.value)
  Http.Request.make (toString head.method) (toString head.uri) headers body.data.toList

def send (response : Http.Response) : Async (Std.Http.Response Std.Http.Body.Full) :=
  let status := (Std.Http.Status.ofCode none (UInt16.ofNat response.status)).getD .ok
  let headers := response.headers.filter fun h => h.1 != "content-length"
  let builder := headers.foldl (fun b h => (b.header? h.1 h.2).getD b)
    (Std.Http.Response.withStatus status)
  builder.fromBytes response.body.toUTF8

instance : Std.Http.Server.Handler Site where
  ResponseBody := Std.Http.Body.Full
  onRequest site request := do
    let body : ByteArray ← request.body.readAll
    match requestOf request.line body with
    | .error error => send (.ofText 400 error.message)
    | .ok request =>
      let response := site.server.respond site.host request
      report site.logger response.events
      send response.value

def socketAddress (address : Net.SocketAddress) : Std.Net.SocketAddress :=
  match address.ip with
  | .v4 o => .v4 ⟨⟨#v[o.a, o.b, o.c, o.d]⟩, address.port⟩
  | .v6 groups _ => .v6 ⟨⟨Vector.ofFn fun i => groups.getD i.val 0⟩, address.port⟩

def systemSignal : Signal → Std.Async.Signal
  | .interrupt => .sigint
  | .terminate => .sigterm

def awaitSignal? (logger : Logger) (signal : Signal) : IO (Option Std.Async.Signal.Waiter) := do
  try
    return some (← Std.Async.Signal.Waiter.mk (systemSignal signal) false)
  catch _ =>
    report logger [Server.cannotWait signal]
    return none

def listen (site : Site) : Async Unit := do
  let running ← Std.Http.Server.serve (socketAddress site.server.address) site
  let waiters ← [Signal.interrupt, Signal.terminate].filterMapM fun signal =>
    awaitSignal? site.logger signal
  let arrivals := waiters.map fun w => Selectable.case w.selector fun () => pure ()
  Selectable.one arrivals.toArray
  report site.logger [Server.stopping]
  running.shutdownAndWait

/-- Serves by a configuration; the result is the exit code. -/
def serve (config : Config) (logger : Logger) : IO UInt32 := do
  let started := Server.start config (← surroundings config)
  report logger started.events
  match started.value with
  | .error error =>
    IO.eprintln ("Error: " ++ error.message)
    return 1
  | .ok server =>
    if server.credentials.isSome then
      IO.eprintln "Error: this build cannot listen for HTTPS"
      return 1
    report logger [server.started]
    let host := (← IO.getEnv "HOSTNAME").getD "unknown"
    try
      (listen ⟨server, host, logger⟩).block
      return 0
    catch error =>
      IO.eprintln ("Error: " ++ toString error)
      return 1

end PodWebhook.Program

def main (arguments : List String) : IO UInt32 := do
  match PodWebhook.prepare arguments (← PodWebhook.Program.environment) with
  | .error outcome =>
    IO.print outcome.output
    if !outcome.errorOutput.isEmpty then IO.eprintln outcome.errorOutput
    return outcome.exitCode.toUInt32
  | .ok (config, logger) => PodWebhook.Program.serve config logger
