import StaticHttp.Bytes

/-!
# UTF-8

Which byte strings are texts, and the readable form of one that is not. `isText` and `toText?` rest
on the standard library's notion of valid UTF-8, the encodings of lists of characters; `readable`
reads any byte string, with the replacement character for every maximal ill-formed part.
-/

namespace StaticHttp.Utf8

/-- The bytes are the encoding of a list of characters. -/
def isText (bs : Bytes) : Bool := ByteArray.validateUTF8 ⟨bs.toArray⟩

/-- The text that the bytes encode, if they encode one. -/
def toText? (bs : Bytes) : Option String := String.fromUTF8? ⟨bs.toArray⟩

/-- What a lead byte announces: how many bytes continue the sequence, and the range of the first
of them. The ranges leave out overlong forms, surrogates and values beyond the last character. -/
structure Lead where
  /-- The number of continuation bytes. -/
  more : Nat
  /-- The least second byte. -/
  low : UInt8
  /-- The greatest second byte. -/
  high : UInt8

/-- The sequence that a byte can begin. -/
def lead? (b : UInt8) : Option Lead :=
  if b < 0x80 then some ⟨0, 0x80, 0xBF⟩
  else if b < 0xC2 then none
  else if b < 0xE0 then some ⟨1, 0x80, 0xBF⟩
  else if b = 0xE0 then some ⟨2, 0xA0, 0xBF⟩
  else if b = 0xED then some ⟨2, 0x80, 0x9F⟩
  else if b < 0xF0 then some ⟨2, 0x80, 0xBF⟩
  else if b = 0xF0 then some ⟨3, 0x90, 0xBF⟩
  else if b < 0xF4 then some ⟨3, 0x80, 0xBF⟩
  else if b = 0xF4 then some ⟨3, 0x80, 0x8F⟩
  else none

/-- The continuation bytes at the front, at most `more` of them. -/
def continuation : Nat → UInt8 → UInt8 → Bytes → Bytes
  | more + 1, low, high, b :: rest =>
    if low ≤ b ∧ b ≤ high then b :: continuation more 0x80 0xBF rest else []
  | _, _, _, _ => []

/-- The character of a complete sequence. -/
def character (first : UInt8) (rest : Bytes) : Char :=
  let start := match rest.length with
    | 0 => first.toNat
    | 1 => first.toNat % 32
    | 2 => first.toNat % 16
    | _ => first.toNat % 8
  Char.ofNat (rest.foldl (fun value b => value * 64 + b.toNat % 64) start)

/-- The characters of a byte string of which `skip` bytes are already read. -/
def readableChars : Nat → Bytes → List Char
  | _, [] => []
  | skip + 1, _ :: rest => readableChars skip rest
  | 0, b :: rest =>
    match lead? b with
    | none => '\uFFFD' :: readableChars 0 rest
    | some lead =>
      let tail := continuation lead.more lead.low lead.high rest
      (if tail.length = lead.more then character b tail else '\uFFFD') ::
        readableChars tail.length rest

/-- The bytes as a text to be shown, whatever they are. -/
def readable (bs : Bytes) : String := String.ofList (readableChars 0 bs)

end StaticHttp.Utf8
