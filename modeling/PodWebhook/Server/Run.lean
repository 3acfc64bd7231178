import PodWebhook.Log.Logger
import PodWebhook.Server.Startup

/-!
A run of the program, from its arguments to its end. It prints what it is asked to print, refuses
what it cannot use, or serves until a signal tells it to stop. What comes from outside is handed to
it: arguments and environment, files, and how the system treats the server.
-/

namespace PodWebhook

inductive Signal where
  | interrupt
  | terminate
  deriving DecidableEq, Repr

namespace Signal

def name : Signal → String
  | interrupt => "SIGINT"
  | terminate => "SIGTERM"

end Signal

structure Treatment where
  busy : Bool
  refused : List Signal

structure Outcome where
  listened : Bool
  exitCode : UInt8
  /-- What is printed instead of a log. -/
  output : String
  errorOutput : String
  logger : Option Logger
  deriving DecidableEq, Repr

namespace Server

def serviceName : String := "pod-mutating-webhook"

def started (server : Server) : Event where
  level := .info
  target := target
  message := if server.credentials.isSome then "started HTTPS server" else "started HTTP server"
  fields := [("service", .text serviceName), ("address", .text server.address.toText)]

def cannotWait (signal : Signal) : Event where
  level := .warn
  target := target
  message := "cannot listen for " ++ signal.name
  fields := [("error", .text "Operation not permitted (os error 1)")]

def stopping : Event where
  level := .info
  target := target
  message := "shutting down"
  fields := []

def addressTaken : String := "Address already in use (os error 98)"

/-- Listens until a signal arrives that the server may wait for. -/
def run (server : Server) (treatment : Treatment) : Logged (Except String Unit) :=
  if treatment.busy then ⟨.error addressTaken, [server.started]⟩
  else
    ⟨.ok (), server.started :: treatment.refused.map cannotWait ++ [stopping]⟩

end Server

namespace Outcome

def printed (output : String) : Outcome := ⟨false, 0, output, "", none⟩

def misused (error : Command.UsageError) : Outcome := ⟨false, 2, "", error.message, none⟩

def failed (logger : Option Logger) (reason : String) : Outcome :=
  ⟨false, 1, "", "Error: " ++ reason, logger⟩

def served (logger : Logger) : Outcome := ⟨true, 0, "", "", some logger⟩

end Outcome

def Config.serve (config : Config) (around : Surroundings) (treatment : Treatment) :
    Logged (Except String Unit) :=
  let server := Server.start config around
  match server.value with
  | .error error => ⟨.error error.message, server.events⟩
  | .ok s =>
    let ran := s.run treatment
    ⟨ran.value, server.events ++ ran.events⟩

/-- The configuration and the log that arguments and environment ask for, or how the run ends
without them. -/
def prepare (arguments : List String) (environment : Command.Environment) :
    Except Outcome (Config × Logger) :=
  match Command.read arguments environment with
  | .error .help => .error (.printed (Command.helpText environment))
  | .error .version => .error (.printed Command.versionText)
  | .error (.error error) => .error (.misused error)
  | .ok given =>
    match Config.ofValues given.value with
    | .error error => .error (.failed none error.message)
    | .ok config =>
      match Logger.make config.logLevel config.logFormat (!config.noColor) with
      | .error error => .error (.failed none error.message)
      | .ok logger => .ok (config, logger)

def runProgram (arguments : List String) (environment : Command.Environment)
    (around : Surroundings) (treatment : Treatment) : Logged Outcome :=
  match prepare arguments environment with
  | .error outcome => Logged.quiet outcome
  | .ok (config, logger) =>
    let served := config.serve around treatment
    match served.value with
    | .ok () => ⟨.served logger, served.events⟩
    | .error reason => ⟨.failed (some logger) reason, served.events⟩

end PodWebhook
