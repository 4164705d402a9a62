import StaticHttp.Connection
import StaticHttp.Http.RequestLine

/-!
# Reading a request

The first read must bring the whole request line. If it filled the buffer, the rest of the request is
read and thrown away, until a read comes back short: a client may not listen before all of its
request is gone. `drain` ends because every full read leaves less to be read.
-/

namespace StaticHttp

/-- Why a connection gets no answer. -/
inductive RequestError
  | empty
  | malformed (reason : String)
  | io (error : IoError)
  deriving DecidableEq, Repr

def RequestError.message : RequestError → String
  | .empty => "empty request"
  | .malformed reason => "malformed request: " ++ reason
  | .io e => "I/O error: " ++ e.message

/-- Why serving a connection ends early. -/
inductive Abort
  | error (error : RequestError)
  /-- Because a read brought the server's thread down. -/
  | crash
  deriving DecidableEq, Repr

/-- The size of the buffer into which requests are read, and out of which files are sent. -/
def bufferSize : Nat := 512

/-- Reads on until a read does not fill the buffer. -/
def drain (c : Connection) : Except Abort Unit × Connection :=
  match h : c.readRetrying bufferSize with
  | (.crashed, c') => (.error .crash, c')
  | (.failed e, c') => (.error (.error (.io e)), c')
  | (.bytes bytes, c') =>
    if full : bytes.length < bufferSize then (.ok (), c')
    else
      have := Connection.pendingReads_readRetrying_lt h
        (Nat.lt_of_lt_of_le (by decide : 0 < bufferSize) (Nat.le_of_not_lt full))
      drain c'
termination_by Connection.pendingReads c.reads

/-- Reads a request and gives the path it asks for. -/
def readRequest (c : Connection) : Except Abort ResourcePath × Connection :=
  match c.readRetrying bufferSize with
  | (.crashed, c) => (.error .crash, c)
  | (.failed e, c) => (.error (.error (.io e)), c)
  | (.bytes [], c) => (.error (.error .empty), c)
  | (.bytes (b :: bs), c) =>
    match RequestLine.parse (b :: bs) with
    | .error fault => (.error (.error (.malformed fault.reason)), c)
    | .ok resource =>
      if (b :: bs).length < bufferSize then (.ok resource, c)
      else
        match drain c with
        | (.error a, c) => (.error a, c)
        | (.ok (), c) => (.ok resource, c)

end StaticHttp
