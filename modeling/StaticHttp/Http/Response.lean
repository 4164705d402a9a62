import StaticHttp.Http.Head
import StaticHttp.Http.Request

/-!
# Sending a response

The head is one buffer, the body follows in buffers of at most `bufferSize` bytes, and the connection
is flushed once at the end. The file is opened before the head is sent, never more is sent than the
head announces, and a file that ends too early is an error.
-/

namespace StaticHttp

def buffers (bs : Bytes) : List Bytes :=
  if _empty : bs = [] then []
  else bs.take bufferSize :: buffers (bs.drop bufferSize)
termination_by bs.length
decreasing_by
  have := List.length_pos_iff.mpr _empty
  simp only [List.length_drop, bufferSize]
  omega

/-- Sends buffers one after the other and counts their bytes. -/
def sendBuffers : List Bytes → Connection → Except IoError Nat × Connection
  | [], c => (.ok 0, c)
  | buffer :: rest, c =>
    match c.send buffer with
    | (.error e, c) => (.error e, c)
    | (.ok (), c) =>
      match sendBuffers rest c with
      | (.error e, c) => (.error e, c)
      | (.ok count, c) => (.ok (buffer.length + count), c)

/-- The error of a file that ends before its announced size. -/
def fileEnded (sent size : Nat) : IoError :=
  .custom .unexpectedEof
    ("file ended after " ++ toString sent ++ " of " ++ toString size ++ " bytes")

/-- Sends the first `size` bytes of an open file. -/
def sendBody (source : Source) (size : Nat) (c : Connection) : Except IoError Nat × Connection :=
  match source with
  | .directory => if size = 0 then (.ok 0, c) else (.error (.system .isADirectory), c)
  | .content bytes => sendBuffers (buffers (bytes.take size)) c

/-- Flushes after a response and gives its status and the size of its body. -/
def finish (status : Status) (sent : Nat) (c : Connection) :
    Except IoError (Status × Nat) × Connection :=
  match c.flush with
  | (.error e, c) => (.error e, c)
  | (.ok (), c) => (.ok (status, sent), c)

/-- Sends the response that belongs to an outcome; gives its status and the size of its body. -/
def respond (fs : FileSystem) (outcome : Outcome) (c : Connection) :
    Except IoError (Status × Nat) × Connection :=
  let head := Head.ofOutcome outcome
  match outcome with
  | .found path size _ =>
    match fs.openFile path with
    | .error e => (.error e, c)
    | .ok source =>
      match c.send head.toBytes with
      | (.error e, c) => (.error e, c)
      | (.ok (), c) =>
        match sendBody source size c with
        | (.error e, c) => (.error e, c)
        | (.ok sent, c) =>
          if sent = size then finish head.status sent c else (.error (fileEnded sent size), c)
  | .notFound | .unsupportedType =>
    match c.send head.toBytes with
    | (.error e, c) => (.error e, c)
    | (.ok (), c) => finish head.status 0 c

end StaticHttp
