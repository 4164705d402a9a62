import StaticHttp.Options.Number
import StaticHttp.Text.Utf8

/-!
# Reading text back

What a reader of a text does: cut it at the first occurrence of a mark (`Bytes.cut?`) and into lines
(`Bytes.lines`), take bytes for characters (`Utf8.toText?`) and digits for numbers. What was put
together by a writer is taken apart again where the parts do not hold the first byte of the mark; an
ASCII byte stands in a text only for its own character, so that this can be told from the text
(`mem_toList_of_mem_ofString`).
-/

namespace StaticHttp

namespace Bytes

/-! ## Cutting -/

/-- What stands before the first occurrence of a mark, and what stands behind it. -/
def cut? (mark : Bytes) : Bytes → Option (Bytes × Bytes)
  | [] => none
  | b :: rest =>
    if mark <+: b :: rest then some ([], (b :: rest).drop mark.length)
    else (cut? mark rest).map fun (before, after) => (b :: before, after)

variable {mark bs before after : Bytes}

/-- Cutting loses nothing but the mark. -/
theorem eq_of_cut? (found : cut? mark bs = some (before, after)) :
    bs = before ++ (mark ++ after) := by
  induction bs generalizing before with
  | nil => cases found
  | cons b rest ih =>
    rw [cut?] at found
    split at found
    · next here =>
      cases found
      exact (List.prefix_iff_eq_append.mp here).symm
    · obtain ⟨⟨before, after⟩, found, same⟩ := Option.map_eq_some_iff.mp found
      cases same
      rw [List.cons_append, ← ih found]

theorem cut?_of_prefix (nonempty : mark ≠ []) (after : Bytes) :
    cut? mark (mark ++ after) = some ([], after) := by
  cases mark with
  | nil => exact absurd rfl nonempty
  | cons b mark =>
    have here : b :: mark <+: b :: (mark ++ after) := ⟨after, rfl⟩
    rw [List.cons_append, cut?, if_pos here, ← List.cons_append, List.drop_left]

/-- The mark is looked for behind a byte with which it does not begin. -/
theorem cut?_cons {b : UInt8} (absent : ¬ mark <+: b :: bs) :
    cut? mark (b :: bs) = (cut? mark bs).map fun (before, after) => (b :: before, after) := by
  rw [cut?, if_neg absent]

/-- The mark is looked for behind bytes none of which it begins with. -/
theorem cut?_append {first : UInt8} {piece : Bytes} (begins : mark.head? = some first)
    (clean : first ∉ piece) (bs : Bytes) :
    cut? mark (piece ++ bs) = (cut? mark bs).map fun (before, after) => (piece ++ before, after) := by
  induction piece with
  | nil => cases h : cut? mark bs <;> simp [h]
  | cons b piece ih =>
    rw [List.mem_cons, not_or] at clean
    have absent : ¬ mark <+: b :: (piece ++ bs) := by
      rintro ⟨behind, here⟩
      cases mark with
      | nil => cases begins
      | cons c mark => exact clean.1 (Option.some.inj begins ▸ (List.cons.inj here).1)
    rw [List.cons_append, cut?_cons absent, ih clean.2, Option.map_map]
    rfl

/-- A mark is found behind a piece that does not hold its first byte. -/
theorem cut?_append_mark {first : UInt8} {piece : Bytes} (begins : mark.head? = some first)
    (clean : first ∉ piece) (after : Bytes) :
    cut? mark (piece ++ (mark ++ after)) = some (piece, after) := by
  have nonempty : mark ≠ [] := by
    rintro rfl
    cases begins
  rw [cut?_append begins clean, cut?_of_prefix nonempty]
  simp

theorem cut?_eq_none {first : UInt8} {piece : Bytes} (begins : mark.head? = some first)
    (clean : first ∉ piece) : cut? mark piece = none := by
  have behind := cut?_append begins clean []
  rwa [List.append_nil] at behind

/-! ## Lines -/

/-- What ends a line. -/
def crlf : Bytes := [0x0D, 0x0A]

/-- The pieces between the ends of lines. -/
def lines (bs : Bytes) : List Bytes :=
  match _found : cut? crlf bs with
  | none => [bs]
  | some (line, rest) => line :: lines rest
termination_by bs.length
decreasing_by
  rw [eq_of_cut? _found]
  simp [crlf]
  omega

theorem lines_of_uncut (uncut : cut? crlf bs = none) : lines bs = [bs] := by
  rw [lines]
  split
  · rfl
  · next found => cases uncut.symm.trans found

theorem lines_of_cut (cut : cut? crlf bs = some (before, after)) :
    lines bs = before :: lines after := by
  rw [lines]
  split
  · next uncut => cases uncut.symm.trans cut
  · next found =>
    cases cut.symm.trans found
    rfl

/-- Lines without a return are told apart by the ends between them. -/
theorem lines_eq {line : Bytes} {others : List Bytes}
    (clean : ∀ l ∈ line :: others, 0x0D ∉ l) :
    lines (line ++ others.flatMap (crlf ++ ·)) = line :: others := by
  induction others generalizing line with
  | nil =>
    rw [List.flatMap_nil, List.append_nil]
    exact lines_of_uncut (cut?_eq_none rfl (clean line List.mem_cons_self))
  | cons next rest ih =>
    rw [List.flatMap_cons, List.append_assoc,
      lines_of_cut (cut?_append_mark rfl (clean line List.mem_cons_self) _),
      ih fun l mem => clean l (List.mem_cons_of_mem _ mem)]

/-! ## Characters -/

theorem ofString_append (s t : String) : ofString (s ++ t) = ofString s ++ ofString t := by
  simp [ofString]

/-- The bytes of a text are those of its characters. -/
theorem ofString_eq (text : String) : ofString text = text.toList.flatMap String.utf8EncodeChar := by
  rw [ofString, ← String.utf8Encode_toList, List.utf8Encode, List.data_toByteArray]

/-- A character is encoded by its own number, or by bytes none of which is ASCII. -/
theorem toNat_of_mem_utf8EncodeChar {b : UInt8} {c : Char} (mem : b ∈ String.utf8EncodeChar c) :
    b.toNat = c.toNat ∨ 128 ≤ b.toNat := by
  have value : c.val.toNat = c.toNat := rfl
  unfold String.utf8EncodeChar at mem
  extract_lets v at mem
  split at mem
  · obtain rfl := List.mem_singleton.mp mem
    rw [UInt8.toNat_ofNat']
    omega
  · refine .inr ?_
    repeat' split at mem
    all_goals
      simp only [List.mem_cons, List.not_mem_nil, or_false] at mem
      rcases mem with rfl | rfl | rfl | rfl <;> rw [UInt8.toNat_ofNat'] <;> omega

/-- An ASCII byte stands in a text for its own character alone. -/
theorem mem_toList_of_mem_ofString {c : Char} {text : String} (ascii : c.toNat < 128)
    (mem : UInt8.ofNat c.toNat ∈ ofString text) : c ∈ text.toList := by
  rw [ofString_eq, List.mem_flatMap] at mem
  obtain ⟨d, found, encoded⟩ := mem
  have byte : (UInt8.ofNat c.toNat).toNat = c.toNat :=
    UInt8.toNat_ofNat_of_lt' (Nat.lt_trans ascii (by decide))
  have same : c = d := by
    rcases toNat_of_mem_utf8EncodeChar encoded with own | above
    · exact Char.toNat_inj.mp (byte.symm.trans own)
    · omega
  exact same ▸ found

end Bytes

theorem Utf8.toText?_ofString (text : String) : toText? (Bytes.ofString text) = some text := by
  rw [toText?, Bytes.ofString, Array.toArray_toList, String.fromUTF8?, dif_pos text.isValidUTF8]
  rfl

/-! ## Numbers -/

namespace Number

theorem digits?_eq {cs : List Char} (digits : ∀ c ∈ cs, c.isDigit = true) (value : Nat) :
    digits? value cs = some (Nat.ofDigitChars 10 cs value) := by
  induction cs generalizing value with
  | nil => rfl
  | cons c rest ih =>
    rw [digits?, digit?, if_pos (digits c List.mem_cons_self), Nat.ofDigitChars_cons,
      Nat.mul_comm 10]
    exact ih (fun d mem => digits d (List.mem_cons_of_mem _ mem)) _

theorem isDigit_of_mem_toString {n : Nat} {c : Char} (mem : c ∈ (toString n).toList) :
    c.isDigit = true := by
  rw [Nat.toString_eq_repr, Nat.toList_repr] at mem
  exact Nat.isDigit_of_mem_toDigits (by decide) (by decide) mem

/-- A number is read back from its decimal digits. -/
theorem natural?_toString (n : Nat) : natural? (toString n).toList = some n := by
  have digits : ∀ c ∈ (toString n).toList, c.isDigit = true := fun _ => isDigit_of_mem_toString
  rw [Nat.toString_eq_repr, Nat.toList_repr] at digits ⊢
  cases h : Nat.toDigits 10 n with
  | nil => exact absurd h Nat.toDigits_ne_nil
  | cons c rest =>
    rw [natural?, ← h, digits?_eq digits, Nat.ofDigitChars_ten_toDigits]
    exact List.cons_ne_nil _ _

end Number

end StaticHttp
