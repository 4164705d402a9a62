/-!
# Input and output errors

An error of a read, a write, a look-up or a socket has a kind, which callers decide by, and a text,
which is only shown. Most come from the operating system, with its number in the text; the others
are known by their kind alone or carry a text of their own.
-/

namespace StaticHttp

/-- What sort of failure an input or output error is. -/
inductive IoKind
  | notFound
  | permissionDenied
  | connectionRefused
  | connectionReset
  | connectionAborted
  | addrInUse
  | addrNotAvailable
  | brokenPipe
  | notADirectory
  | isADirectory
  | filesystemLoop
  | wouldBlock
  | invalidInput
  | invalidFilename
  | timedOut
  | writeZero
  | interrupted
  | unexpectedEof
  | tooManyOpenFiles
  | uncategorized
  | other
  deriving DecidableEq, Repr

/-- The text of an error that is known by its kind alone. -/
def IoKind.text : IoKind → String
  | .notFound => "entity not found"
  | .permissionDenied => "permission denied"
  | .connectionRefused => "connection refused"
  | .connectionReset => "connection reset"
  | .connectionAborted => "connection aborted"
  | .addrInUse => "address in use"
  | .addrNotAvailable => "address not available"
  | .brokenPipe => "broken pipe"
  | .notADirectory => "not a directory"
  | .isADirectory => "is a directory"
  | .filesystemLoop => "filesystem loop or indirection limit (e.g. symlink loop)"
  | .wouldBlock => "operation would block"
  | .invalidInput => "invalid input parameter"
  | .invalidFilename => "invalid filename"
  | .timedOut => "timed out"
  | .writeZero => "write zero"
  | .interrupted => "operation interrupted"
  | .unexpectedEof => "unexpected end of file"
  | .tooManyOpenFiles => "too many open files"
  | .uncategorized => "uncategorized error"
  | .other => "other error"

/-- The errors that the operating system reports by number. -/
inductive SystemError
  | notFound
  | resourceUnavailable
  | noSuchDevice
  | notADirectory
  | isADirectory
  | invalidArgument
  | tooManyOpenFiles
  | nameTooLong
  | linkLoop
  | addressInUse
  | addressNotAvailable
  deriving DecidableEq, Repr

namespace SystemError

def code : SystemError → Nat
  | notFound => 2
  | resourceUnavailable => 11
  | noSuchDevice => 19
  | notADirectory => 20
  | isADirectory => 21
  | invalidArgument => 22
  | tooManyOpenFiles => 24
  | nameTooLong => 36
  | linkLoop => 40
  | addressInUse => 98
  | addressNotAvailable => 99

def description : SystemError → String
  | notFound => "No such file or directory"
  | resourceUnavailable => "Resource temporarily unavailable"
  | noSuchDevice => "No such device"
  | notADirectory => "Not a directory"
  | isADirectory => "Is a directory"
  | invalidArgument => "Invalid argument"
  | tooManyOpenFiles => "Too many open files"
  | nameTooLong => "File name too long"
  | linkLoop => "Too many levels of symbolic links"
  | addressInUse => "Address already in use"
  | addressNotAvailable => "Cannot assign requested address"

def kind : SystemError → IoKind
  | notFound => .notFound
  | resourceUnavailable => .wouldBlock
  | noSuchDevice => .uncategorized
  | notADirectory => .notADirectory
  | isADirectory => .isADirectory
  | invalidArgument => .invalidInput
  | tooManyOpenFiles => .tooManyOpenFiles
  | nameTooLong => .invalidFilename
  | linkLoop => .filesystemLoop
  | addressInUse => .addrInUse
  | addressNotAvailable => .addrNotAvailable

end SystemError

inductive IoError
  /-- Known by its kind alone. -/
  | plain (kind : IoKind)
  /-- With a text of its own. -/
  | custom (kind : IoKind) (text : String)
  /-- Reported by the operating system. -/
  | system (error : SystemError)
  deriving DecidableEq, Repr

namespace IoError

def kind : IoError → IoKind
  | plain k => k
  | custom k _ => k
  | system e => e.kind

def message : IoError → String
  | plain k => k.text
  | custom _ text => text
  | system e => e.description ++ " (os error " ++ toString e.code ++ ")"

/-- The error that only asks for another attempt. -/
def isInterrupted (e : IoError) : Bool := e.kind == .interrupted

/-- A path that no system call can take. -/
def nulInPath : IoError := .custom .invalidInput "file name contained an unexpected NUL byte"

/-- A connection that accepts nothing of a non-empty buffer. -/
def nothingWritten : IoError := .custom .writeZero "failed to write whole buffer"

end IoError

end StaticHttp
