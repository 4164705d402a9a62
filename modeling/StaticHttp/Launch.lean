import StaticHttp.Options.CommandLine
import StaticHttp.Server.Start

/-!
# Launching the program

What becomes of the program when it is started with a command line: it answers a request, refuses
its arguments, fails to start, or serves. The exit code says which.
-/

namespace StaticHttp

def versionText : String := "file_server 0.1.0"

def usageText : String :=
  "Usage: file_server [--host HOST] [-w|--workers N] [--queue-capacity N] [--log FILTER] " ++
    "DIRECTORY PORT"

/-- What the reason says to whoever called the program. -/
def Usage.message : Usage → String
  | .displayHelp => usageText
  | .displayVersion => versionText
  | .unknownArgument => "error: unexpected argument"
  | .argumentConflict => "error: argument given more than once"
  | .invalidValue => "error: a value is required"
  | .invalidUtf8 => "error: argument is not valid text"
  | .valueValidation => "error: invalid value"
  | .tooManyValues => "error: unexpected value"
  | .missingRequiredArgument => "error: required arguments were not provided"

/-- What the program comes to when it is started. -/
inductive Launch
  | refused (usage : Usage)
  | failed (config : Config) (failure : StartFailure)
  /-- The server started but cannot be told to stop, so that it is stopped at once. -/
  | unstoppable (config : Config) (error : IoError)
  | serving (config : Config) (started : Started)

/-- Starts the program; listening for the interrupt signal may fail. -/
def launch (arguments : List Bytes) (environment : Setting → Option Bytes)
    (surroundings : Surroundings) (signalError : Option IoError) : Launch :=
  match CommandLine.parse arguments environment with
  | .error usage => .refused usage
  | .ok config =>
    match config.start surroundings with
    | .error e => .failed config e
    | .ok started =>
      match signalError with
      | some e => .unstoppable config e
      | none => .serving config started

namespace Launch

/-- The exit code of a program that does not serve and is not brought down. -/
def exitCode? : Launch → Option Nat
  | refused usage => some usage.exitCode
  | failed _ (.error _) => some 1
  | failed _ (.fault e) => e.exitCode?
  | unstoppable .. => some 1
  | serving .. => none

/-- The lines that the program prints to standard output. -/
def output : Launch → List String
  | refused .displayHelp => [Usage.displayHelp.message]
  | refused .displayVersion => [Usage.displayVersion.message]
  | _ => []

/-- The lines that the program prints to standard error. -/
def complaint : Launch → List String
  | refused usage => if usage.exitCode = 0 then [] else [usage.message, usageText]
  | failed _ e => [e.message]
  | unstoppable _ e => [e.message]
  | serving .. => []

end Launch

/-- The exit code of a program that served. -/
def exitCodeOf : Except ServerError ServerReport → Nat
  | .ok _ => 0
  | .error _ => 1

end StaticHttp
