import Mathlib.Tactic.SplitIfs
import FragmentEngine.Json.Reader
import FragmentEngine.Proofs.Hexadecimal
/-!
# Quoted texts read back

A text between its quotes reads back whatever follows: every escape is read as the character that was escaped, and no
character is half of a surrogate pair.
-/

namespace FragmentEngine.Json.Quoted

variable {c : Char} {rest : List Char}

/-- An escape by digits stands for the character of its number. -/
theorem hex_hexDigit {n : Nat} (h : n < 32) :
    hex? '0' '0' (Bytes.hexDigit (n / 16)) (Bytes.hexDigit (n % 16)) = some n := by
  have first := Bytes.hexValue_hexDigit (n / 16) (by omega)
  have second := Bytes.hexValue_hexDigit (n % 16) (by omega)
  have zero : Bytes.hexValue '0' = some 0 := by decide
  simp only [hex?, zero, first, second, Option.some.injEq]
  omega

/-- A character that needs no escape is read as itself. -/
theorem codes_plain (hquote : c ≠ '"') (hslash : c ≠ '\\') (hprintable : ¬c.toNat < 32) (rest : List Char) :
    codes? (c :: rest) = (codes? rest).map fun p => (c.toNat :: p.1, p.2) := by
  rw [codes?, if_neg hprintable]
  · cases codes? rest <;> rfl
  · exact hquote
  · intro a b d e tail h _
    exact hslash h
  · intro d tail h _
    exact hslash h

/-- A letter after a backslash is read as the character that it stands for. -/
theorem codes_letter {l : Char} (hletter : letter? l = some c) (hhex : l ≠ 'u') (rest : List Char) :
    codes? ('\\' :: l :: rest) = (codes? rest).map fun p => (c.toNat :: p.1, p.2) := by
  rw [codes?, hletter]
  · cases codes? rest <;> rfl
  · intro a b d e tail h _
    exact hhex h

theorem codes_hex (h : c.toNat < 32) (rest : List Char) :
    codes? (hexEscape c.toNat ++ rest) = (codes? rest).map fun p => (c.toNat :: p.1, p.2) := by
  simp only [hexEscape, List.cons_append, List.nil_append, codes?, hex_hexDigit h]
  cases codes? rest <;> rfl

/-- A character as it is written is read as itself, whatever follows. -/
theorem codes_writeChar (c : Char) (rest : List Char) :
    codes? (writeChar c ++ rest) = (codes? rest).map fun p => (c.toNat :: p.1, p.2) := by
  unfold writeChar
  split_ifs with hquote hslash hline hreturn htab hback hfeed hcontrol
  · exact codes_letter (by simp [letter?, hquote]) (by decide) rest
  · exact codes_letter (by simp [letter?, hslash]) (by decide) rest
  · exact codes_letter (by simp [letter?, hline]) (by decide) rest
  · exact codes_letter (by simp [letter?, hreturn]) (by decide) rest
  · exact codes_letter (by simp [letter?, htab]) (by decide) rest
  · exact codes_letter (by simp [letter?, hback]) (by decide) rest
  · exact codes_letter (by simp [letter?, hfeed]) (by decide) rest
  · exact codes_hex hcontrol rest
  · exact codes_plain hquote hslash hcontrol rest

theorem codes_write (cs rest : List Char) :
    codes? (cs.flatMap writeChar ++ '"' :: rest) = some (cs.map Char.toNat, rest) := by
  induction cs with
  | nil => rfl
  | cons c cs ih =>
    rw [List.flatMap_cons, List.append_assoc, codes_writeChar, ih]
    rfl

/-! ## Characters of codes -/

/-- No character has a code among the surrogates. -/
theorem scalar (c : Char) : c.toNat < 0xD800 ∨ 0xDFFF < c.toNat := by
  rcases c.valid with h | h
  · exact .inl h
  · exact .inr h.1

theorem not_isHigh (c : Char) : isHigh c.toNat = false := by
  have h := scalar c
  rw [isHigh, Bool.and_eq_false_iff, decide_eq_false_iff_not, decide_eq_false_iff_not]
  omega

theorem not_isLow (c : Char) : isLow c.toNat = false := by
  have h := scalar c
  rw [isLow, Bool.and_eq_false_iff, decide_eq_false_iff_not, decide_eq_false_iff_not]
  omega

theorem ofCodes_toNat (cs : List Char) : ofCodes? (cs.map Char.toNat) = some cs := by
  induction cs with
  | nil => rfl
  | cons c cs ih =>
    cases cs with
    | nil => simp [ofCodes?, not_isHigh, not_isLow]
    | cons c' cs => simp_all [ofCodes?, not_isHigh, not_isLow]

theorem write_append (t : String) (rest : List Char) :
    write t ++ rest = '"' :: (t.toList.flatMap writeChar ++ '"' :: rest) := by
  simp [write]

end Quoted

/-- A text between quotes is read as itself, whatever follows. -/
theorem quoted_written (t : String) (rest : List Char) :
    quoted? (t.toList.flatMap Quoted.writeChar ++ '"' :: rest) = some (some t, rest) := by
  unfold quoted?
  rw [Quoted.codes_write]
  simp [Quoted.ofCodes_toNat]

end FragmentEngine.Json
