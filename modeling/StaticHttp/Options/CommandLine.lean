import StaticHttp.Options.Config
import StaticHttp.Options.Number

/-!
# Reading a command line

Two positional arguments and four options with a value make a configuration; the environment fills
in what is not given, and defaults what is given nowhere. Arguments are read from left to right. A
value is checked when it is complete, which for a value in an argument of its own is when the next
known argument is reached, so that an unknown argument is reported before it.
-/

namespace StaticHttp

/-- A setting of the configuration. -/
inductive Setting
  | serveDir
  | port
  | host
  | workers
  | queueCapacity
  | logFilter
  deriving DecidableEq, Repr

namespace Setting

/-- Every setting, in the order in which the environment is asked. -/
def all : List Setting := [serveDir, port, host, workers, queueCapacity, logFilter]

/-- The environment variable that fills a setting in. -/
def variableName : Setting → String
  | serveDir => "SERVE_DIR"
  | port => "HTTP_PORT"
  | host => "HTTP_HOST"
  | workers => "WORKERS"
  | queueCapacity => "QUEUE_CAPACITY"
  | logFilter => "RUST_LOG"

/-- The settings that are positional arguments, in order. -/
def positional : List Setting := [serveDir, port]

def ofLong? (name : Bytes) : Option Setting :=
  if name = Bytes.ofString "host" then some host
  else if name = Bytes.ofString "workers" then some workers
  else if name = Bytes.ofString "queue-capacity" then some queueCapacity
  else if name = Bytes.ofString "log" then some logFilter
  else none

end Setting

/-- Why a command line makes no configuration. Two of the reasons are requests. -/
inductive Usage
  | displayHelp
  | displayVersion
  | unknownArgument
  | argumentConflict
  | invalidValue
  | invalidUtf8
  | valueValidation
  | tooManyValues
  | missingRequiredArgument
  deriving DecidableEq, Repr

/-- The exit code that goes with the reason: a request that is fulfilled is a success. -/
def Usage.exitCode : Usage → Nat
  | .displayHelp | .displayVersion => 0
  | _ => 2

/-- The settings found so far. -/
structure Given where
  serveDir : Option Path := none
  port : Option UInt16 := none
  host : Option String := none
  workers : Option Nat := none
  queueCapacity : Option Nat := none
  logFilter : Option String := none
  deriving DecidableEq, Repr

namespace Given

def has (given : Given) : Setting → Bool
  | .serveDir => given.serveDir.isSome
  | .port => given.port.isSome
  | .host => given.host.isSome
  | .workers => given.workers.isSome
  | .queueCapacity => given.queueCapacity.isSome
  | .logFilter => given.logFilter.isSome

/-- The text of a value. -/
def textOf (value : Bytes) : Except Usage String :=
  match Utf8.toText? value with
  | some text => .ok text
  | none => .error .invalidUtf8

/-- The number of things that a value stands for. -/
def countOf (value : Bytes) : Except Usage Nat :=
  match textOf value with
  | .error e => .error e
  | .ok text =>
    match Number.unsigned? text with
    | some n => if n < UInt64.size then .ok n else .error .valueValidation
    | none => .error .valueValidation

/-- The port that a value stands for. -/
def portOf (value : Bytes) : Except Usage UInt16 :=
  match textOf value with
  | .error e => .error e
  | .ok text =>
    match Number.signed? text with
    | some n =>
      if 0 ≤ n ∧ n < UInt16.size then .ok (UInt16.ofNat n.toNat) else .error .valueValidation
    | none => .error .valueValidation

def enter (given : Given) (setting : Setting) (value : Bytes) : Except Usage Given :=
  match setting with
  | .serveDir => if value = [] then .error .invalidValue else .ok { given with serveDir := value }
  | .port => (portOf value).map fun n => { given with port := n }
  | .host => (textOf value).map fun s => { given with host := s }
  | .workers => (countOf value).map fun n => { given with workers := n }
  | .queueCapacity => (countOf value).map fun n => { given with queueCapacity := n }
  | .logFilter => (textOf value).map fun s => { given with logFilter := s }

/-- Enters the value of an argument, which may come only once and must have a value. -/
def complete (given : Given) (setting : Setting) (value : Option Bytes) : Except Usage Given :=
  match value with
  | none => .error .invalidValue
  | some value =>
    if given.has setting then .error .argumentConflict else given.enter setting value

end Given

namespace CommandLine

/-- The state of reading: what was found, a setting whose value is not complete yet, and the
positional arguments still to come. -/
structure Reading where
  given : Given := {}
  /-- A setting that was reached, with its value if that is known. -/
  pending : Option (Setting × Option Bytes) := none
  positional : List Setting := Setting.positional
  /-- Only positional arguments follow. -/
  escaped : Bool := false

/-- Completes the pending setting. -/
def Reading.settle (r : Reading) : Except Usage Reading :=
  match r.pending with
  | none => .ok r
  | some (setting, value) =>
    (r.given.complete setting value).map fun given => { r with given, pending := none }

def dash : UInt8 := 0x2D

/-- The sign between an option and its value. -/
def equals : UInt8 := 0x3D

/-- An option was reached, with its value if that is attached. -/
def Reading.option (r : Reading) (setting : Setting) (attached : Option Bytes) :
    Except Usage Reading :=
  match r.settle with
  | .error e => .error e
  | .ok r =>
    match attached with
    | none => .ok { r with pending := some (setting, none) }
    | some value => (r.given.complete setting (some value)).map fun given => { r with given }

/-- A request was reached; what is pending is checked first. -/
def Reading.request (r : Reading) (request : Usage) : Except Usage Reading :=
  match r.settle with
  | .error e => .error e
  | .ok _ => .error request

/-- Reads an argument that begins with two dashes, without them. -/
def Reading.long (r : Reading) (rest : Bytes) : Except Usage Reading :=
  let name := rest.takeWhile (· != equals)
  let attached := match rest.dropWhile (· != equals) with
    | [] => none
    | _ :: value => some value
  let flag (request : Usage) := if attached.isSome then .error .tooManyValues else r.request request
  if name = Bytes.ofString "help" then flag .displayHelp
  else if name = Bytes.ofString "version" then flag .displayVersion
  else
    match Setting.ofLong? name with
    | some setting => r.option setting attached
    | none => .error .unknownArgument

def letter (c : Char) : UInt8 := c.toNat.toUInt8

/-- Reads an argument that begins with one dash, without it. -/
def Reading.short (r : Reading) (rest : Bytes) : Except Usage Reading :=
  match rest with
  | [] => .ok r
  | b :: value =>
    if b = letter 'h' then r.request .displayHelp
    else if b = letter 'V' then r.request .displayVersion
    else if b = letter 'w' then
      r.option .workers (match value with
        | [] => none
        | first :: more => some (if first = equals then more else first :: more))
    else .error .unknownArgument

/-- Reads an argument that is no option: the value of the option before it, or a positional one. -/
def Reading.plain (r : Reading) (value : Bytes) : Except Usage Reading :=
  match r.pending, r.escaped with
  | some (setting, none), false => .ok { r with pending := some (setting, some value) }
  | _, _ =>
    match r.positional with
    | [] => .error .unknownArgument
    | setting :: positional =>
      match r.settle with
      | .error e => .error e
      | .ok r => .ok { r with pending := some (setting, some value), positional }

def Reading.argument (r : Reading) (arg : Bytes) : Except Usage Reading :=
  if r.escaped then r.plain arg
  else
    match arg with
    | a :: b :: rest =>
      if a = dash then
        if b = dash then
          if rest = [] then .ok { r with escaped := true } else r.long rest
        else r.short (b :: rest)
      else r.plain arg
    | _ => r.plain arg

/-- Fills a setting in from the environment, if it was not found before. -/
def fill (environment : Setting → Option Bytes) (given : Given) (setting : Setting) :
    Except Usage Given :=
  if given.has setting then .ok given
  else
    match environment setting with
    | none => .ok given
    | some value => given.enter setting value

/-- The configuration of the settings found, with defaults for the rest. -/
def config (given : Given) : Except Usage Config :=
  match given.serveDir, given.port with
  | some serveDir, some port =>
    let default : Config := {}
    .ok
      { serveDir
        port
        host := given.host.getD default.host
        workers := given.workers.getD default.workers
        queueCapacity := given.queueCapacity.getD default.queueCapacity
        logFilter := given.logFilter.getD default.logFilter }
  | _, _ => .error .missingRequiredArgument

/-- The configuration that a command line, without the program's name, stands for. -/
def parse (arguments : List Bytes) (environment : Setting → Option Bytes) : Except Usage Config :=
  match arguments.foldlM Reading.argument {} with
  | .error e => .error e
  | .ok r =>
    match r.settle with
    | .error e => .error e
    | .ok r =>
      match Setting.all.foldlM (fill environment) r.given with
      | .error e => .error e
      | .ok given => config given

end CommandLine

end StaticHttp
