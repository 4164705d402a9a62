import StaticHttp.Files.Path
import StaticHttp.Text.Utf8

/-!
# The request line

Of a request only the target counts: the text that begins at the first slash of the first line and
ends before the next space. Method and version are not looked at. A line without such a text is
malformed, in one of three ways.
-/

namespace StaticHttp

/-- The byte that ends the target on a request line. -/
def space : UInt8 := 0x20

def isLineEnd (b : UInt8) : Bool := b == 0x0D || b == 0x0A

/-- The byte can stand in a target: it is neither a space nor the end of a line. -/
def inTarget (b : UInt8) : Bool := b != space && !isLineEnd b

/-- A byte string that can be asked for: it begins with a slash, holds neither space nor line end,
and is a text. -/
def IsTarget (bs : Bytes) : Prop :=
  bs.head? = some Path.slash ∧ (∀ b ∈ bs, inTarget b = true) ∧ Utf8.isText bs = true

/-- The path that a client asks for. -/
structure ResourcePath where
  path : Path
  /-- It begins with a slash, holds neither space nor line end, and is a text. -/
  isTarget : IsTarget path

namespace RequestLine

inductive Fault
  | noPath
  | incomplete
  | notText
  deriving DecidableEq, Repr

def Fault.reason : Fault → String
  | .noPath => "no resource path on request line"
  | .incomplete => "request line incomplete"
  | .notText => "resource path is not UTF-8"

/-- The byte comes before the target: it is neither a slash nor the end of a line. -/
def beforeTarget (b : UInt8) : Bool := b != Path.slash && !isLineEnd b

theorem head?_takeWhile_inTarget (rest : Bytes) :
    ((Path.slash :: rest).takeWhile inTarget).head? = some Path.slash := rfl

theorem inTarget_of_mem_takeWhile {b : UInt8} {bs : Bytes} (h : b ∈ bs.takeWhile inTarget) :
    inTarget b = true := by
  induction bs with
  | nil => exact absurd h List.not_mem_nil
  | cons c rest ih =>
    rw [List.takeWhile_cons] at h
    split at h
    · next hc =>
      rcases List.mem_cons.mp h with rfl | h
      · exact hc
      · exact ih h
    · exact absurd h List.not_mem_nil

/-- The target of the first line of a request. -/
def parse (bs : Bytes) : Except Fault ResourcePath :=
  match bs.dropWhile beforeTarget with
  | [] => .error .noPath
  | first :: rest =>
    if slashed : first = Path.slash then
      let target := (first :: rest).takeWhile inTarget
      if ((first :: rest).dropWhile inTarget).head? = some space then
        if text : Utf8.isText target = true then
          .ok ⟨target, slashed ▸ head?_takeWhile_inTarget rest,
            fun _ h => inTarget_of_mem_takeWhile h, text⟩
        else .error .notText
      else .error .incomplete
    else .error .noPath

end RequestLine

end StaticHttp
