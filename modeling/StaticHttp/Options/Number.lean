import StaticHttp.Text.Utf8

/-!
# Numbers on a command line

A decimal number is an optional sign and at least one ASCII digit; leading zeros do not count.
-/

namespace StaticHttp.Number

def digit? (c : Char) : Option Nat := if c.isDigit then some (c.toNat - '0'.toNat) else none

/-- The value of a row of digits behind a number. -/
def digits? : Nat → List Char → Option Nat
  | value, [] => some value
  | value, c :: rest =>
    match digit? c with
    | some d => digits? (value * 10 + d) rest
    | none => none

/-- The value of a row of digits, of which there is at least one. -/
def natural? : List Char → Option Nat
  | [] => none
  | cs => digits? 0 cs

/-- The number that a text stands for, which may have a plus sign. -/
def unsigned? (text : String) : Option Nat :=
  match text.toList with
  | '+' :: rest => natural? rest
  | cs => natural? cs

/-- The number that a text stands for, which may have a sign. -/
def signed? (text : String) : Option Int :=
  match text.toList with
  | '+' :: rest => (natural? rest).map Int.ofNat
  | '-' :: rest => (natural? rest).map fun n => -Int.ofNat n
  | cs => (natural? cs).map Int.ofNat

end StaticHttp.Number
