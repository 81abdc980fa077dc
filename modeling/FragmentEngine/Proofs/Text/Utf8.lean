import FragmentEngine.Proofs.Outcome
import FragmentEngine.Text.Utf8
/-!
# UTF-8 reads back

Every text is recovered from its bytes: the four lengths of a character cover its code points without overlap,
and none of them writes an overlong form or a surrogate. Since reading refuses those, no other bytes give the text.
-/

namespace FragmentEngine.Text.Utf8

variable (pos : Nat) {n : Nat} (rest : List UInt8)

theorem toNat_ofNat (h : n < 256) : (UInt8.ofNat n).toNat = n := by
  rw [UInt8.toNat_ofNat']
  omega

theorem isTail_ofNat (h : n < 64) : isTail (UInt8.ofNat (0x80 + n)) = true := by
  unfold isTail
  rw [toNat_ofNat (by omega)]
  simp only [Bool.and_eq_true, decide_eq_true_eq]
  omega

/-! ## Reading one character -/

theorem decodeFrom_one (high : n < 0x80) :
    decodeFrom pos (UInt8.ofNat n :: rest) = (do return Char.ofNat n :: (← decodeFrom (pos + 1) rest)) := by
  rw [decodeFrom.eq_def]
  simp only
  rw [toNat_ofNat (by omega), if_pos high]

theorem decodeFrom_two (low : 0x80 ≤ n) (high : n < 0x800) :
    decodeFrom pos (UInt8.ofNat (0xC0 + n / 64) :: UInt8.ofNat (0x80 + n % 64) :: rest) =
      (do return Char.ofNat n :: (← decodeFrom (pos + 2) rest)) := by
  have first := toNat_ofNat (n := 0xC0 + n / 64) (by omega)
  have second := toNat_ofNat (n := 0x80 + n % 64) (by omega)
  have tail := isTail_ofNat (n := n % 64) (by omega)
  have value : (0xC0 + n / 64 - 0xC0) * 64 + (0x80 + n % 64 - 0x80) = n := by omega
  rw [decodeFrom.eq_def]
  simp only
  rw [first, second, tail, value, if_neg (by omega), if_neg (by omega), if_pos (by omega), if_pos rfl]

theorem decodeFrom_three (low : 0x800 ≤ n) (high : n < 0x10000) (scalar : n < 0xD800 ∨ 0xDFFF < n) :
    decodeFrom pos (UInt8.ofNat (0xE0 + n / 4096) :: UInt8.ofNat (0x80 + n / 64 % 64) ::
      UInt8.ofNat (0x80 + n % 64) :: rest) = (do return Char.ofNat n :: (← decodeFrom (pos + 3) rest)) := by
  have first := toNat_ofNat (n := 0xE0 + n / 4096) (by omega)
  have second := toNat_ofNat (n := 0x80 + n / 64 % 64) (by omega)
  have third := toNat_ofNat (n := 0x80 + n % 64) (by omega)
  have tail := isTail_ofNat (n := n % 64) (by omega)
  have fits : isSecondOfThree (UInt8.ofNat (0xE0 + n / 4096)) (UInt8.ofNat (0x80 + n / 64 % 64)) = true := by
    unfold isSecondOfThree
    rw [first, second]
    simp only [Bool.and_eq_true, decide_eq_true_eq]
    constructor <;> split <;> omega
  have value : (0xE0 + n / 4096 - 0xE0) * 4096 + (0x80 + n / 64 % 64 - 0x80) * 64 + (0x80 + n % 64 - 0x80) = n := by
    omega
  have short : 0xE0 + n / 4096 < 0xF0 := by omega
  rw [decodeFrom.eq_def]
  simp only
  rw [first, second, third, if_neg (by omega), if_neg (by omega), if_neg (by omega), fits, tail, value]
  simp only [short, if_true, Bool.not_true, Bool.false_eq_true, if_false]

theorem decodeFrom_four (low : 0x10000 ≤ n) (high : n < 0x110000) :
    decodeFrom pos (UInt8.ofNat (0xF0 + n / 262144) :: UInt8.ofNat (0x80 + n / 4096 % 64) ::
      UInt8.ofNat (0x80 + n / 64 % 64) :: UInt8.ofNat (0x80 + n % 64) :: rest) =
      (do return Char.ofNat n :: (← decodeFrom (pos + 4) rest)) := by
  have first := toNat_ofNat (n := 0xF0 + n / 262144) (by omega)
  have second := toNat_ofNat (n := 0x80 + n / 4096 % 64) (by omega)
  have third := toNat_ofNat (n := 0x80 + n / 64 % 64) (by omega)
  have fourth := toNat_ofNat (n := 0x80 + n % 64) (by omega)
  have tail := isTail_ofNat (n := n / 64 % 64) (by omega)
  have last := isTail_ofNat (n := n % 64) (by omega)
  have fits : isSecondOfFour (UInt8.ofNat (0xF0 + n / 262144)) (UInt8.ofNat (0x80 + n / 4096 % 64)) = true := by
    unfold isSecondOfFour
    rw [first, second]
    simp only [Bool.and_eq_true, decide_eq_true_eq]
    constructor <;> split <;> omega
  have value : (0xF0 + n / 262144 - 0xF0) * 262144 + (0x80 + n / 4096 % 64 - 0x80) * 4096 +
      (0x80 + n / 64 % 64 - 0x80) * 64 + (0x80 + n % 64 - 0x80) = n := by omega
  have long : ¬0xF0 + n / 262144 < 0xF0 := by omega
  rw [decodeFrom.eq_def]
  simp only
  rw [first, second, third, fourth, if_neg (by omega), if_neg (by omega), if_neg (by omega), fits, tail, last, value]
  simp only [long, if_false, Bool.not_true, Bool.false_eq_true]

/-- Reading the bytes of a character gives the character and goes on after them. -/
theorem decodeFrom_encodeChar (c : Char) :
    decodeFrom pos (encodeChar c ++ rest) =
      (do return c :: (← decodeFrom (pos + (encodeChar c).length) rest)) := by
  have valid : c.toNat < 0xD800 ∨ 0xDFFF < c.toNat ∧ c.toNat < 0x110000 := c.valid
  have back : Char.ofNat c.toNat = c := Char.ofNat_toNat c
  simp only [encodeChar]
  -- of the character only its number matters, and that it is a scalar value
  generalize c.toNat = n at valid back ⊢
  subst back
  split
  next one => exact decodeFrom_one pos rest one
  split
  next one two => exact decodeFrom_two pos rest (by omega) two
  split
  next one two three => exact decodeFrom_three pos rest (by omega) three (by omega)
  next one two three => exact decodeFrom_four pos rest (by omega) (by omega)

/-! ## Reading a text -/

theorem decodeFrom_encodeChars (cs : List Char) : decodeFrom pos (encodeChars cs) = .ok cs := by
  induction cs generalizing pos with
  | nil => rfl
  | cons c cs ih =>
    have head : encodeChars (c :: cs) = encodeChar c ++ encodeChars cs := List.flatMap_cons
    rw [head, decodeFrom_encodeChar, ih]
    rfl

theorem decode_encode (s : String) : decode (encode s) = .ok s := by
  unfold decode decodeChars encode
  rw [decodeFrom_encodeChars]
  simp [Except.map]

/-! ## Only the bytes of a text are read -/

section Reader

variable {a b c d : UInt8}

theorem toNat_char (h : n < 0xD800 ∨ 0xDFFF < n ∧ n < 0x110000) : (Char.ofNat n).toNat = n := by
  have valid : n.isValidChar := h
  rw [Char.ofNat, dif_pos valid]
  rfl

theorem byte_eq (h : n = b.toNat) : UInt8.ofNat n = b := by rw [h, UInt8.ofNat_toNat]

theorem isTail_iff : isTail b = true ↔ 0x80 ≤ b.toNat ∧ b.toNat ≤ 0xBF := by
  simp only [isTail, Bool.and_eq_true, decide_eq_true_eq]

theorem encodeChar_one (high : a.toNat < 0x80) : encodeChar (Char.ofNat a.toNat) = [a] := by
  simp only [encodeChar]
  rw [toNat_char (by omega), if_pos high, byte_eq rfl]

theorem encodeChar_two (low : ¬(a.toNat < 0xC2 ∨ 0xF4 < a.toNat)) (high : a.toNat < 0xE0) (hb : isTail b = true) :
    encodeChar (Char.ofNat ((a.toNat - 0xC0) * 64 + (b.toNat - 0x80))) = [a, b] := by
  rw [isTail_iff] at hb
  simp only [encodeChar]
  rw [toNat_char (by omega), if_neg (by omega), if_pos (by omega), byte_eq (b := a) (by omega),
    byte_eq (b := b) (by omega)]

theorem encodeChar_three (low : ¬a.toNat < 0xE0) (high : a.toNat < 0xF0) (hb : isSecondOfThree a b = true)
    (hc : isTail c = true) :
    encodeChar (Char.ofNat ((a.toNat - 0xE0) * 4096 + (b.toNat - 0x80) * 64 + (c.toNat - 0x80))) = [a, b, c] := by
  rw [isTail_iff] at hc
  simp only [isSecondOfThree, Bool.and_eq_true, decide_eq_true_eq] at hb
  obtain ⟨⟨tail, notOverlong⟩, ⟨_, notSurrogate⟩⟩ : (0x80 ≤ b.toNat ∧ (a.toNat = 0xE0 → 0xA0 ≤ b.toNat)) ∧
      b.toNat ≤ 0xBF ∧ (a.toNat = 0xED → b.toNat ≤ 0x9F) := by
    obtain ⟨least, most⟩ := hb
    split at least <;> split at most <;> omega
  simp only [encodeChar]
  rw [toNat_char (by omega), if_neg (by omega), if_neg (by omega), if_pos (by omega), byte_eq (b := a) (by omega),
    byte_eq (b := b) (by omega), byte_eq (b := c) (by omega)]

theorem encodeChar_four (low : ¬a.toNat < 0xF0) (high : ¬(a.toNat < 0xC2 ∨ 0xF4 < a.toNat))
    (hb : isSecondOfFour a b = true) (hc : isTail c = true) (hd : isTail d = true) :
    encodeChar (Char.ofNat ((a.toNat - 0xF0) * 262144 + (b.toNat - 0x80) * 4096 + (c.toNat - 0x80) * 64 +
      (d.toNat - 0x80))) = [a, b, c, d] := by
  rw [isTail_iff] at hc hd
  simp only [isSecondOfFour, Bool.and_eq_true, decide_eq_true_eq] at hb
  obtain ⟨⟨tail, notOverlong⟩, ⟨_, notPast⟩⟩ : (0x80 ≤ b.toNat ∧ (a.toNat = 0xF0 → 0x90 ≤ b.toNat)) ∧
      b.toNat ≤ 0xBF ∧ (a.toNat = 0xF4 → b.toNat ≤ 0x8F) := by
    obtain ⟨least, most⟩ := hb
    split at least <;> split at most <;> omega
  simp only [encodeChar]
  rw [toNat_char (by omega), if_neg (by omega), if_neg (by omega), if_neg (by omega), byte_eq (b := a) (by omega),
    byte_eq (b := b) (by omega), byte_eq (b := c) (by omega), byte_eq (b := d) (by omega)]

end Reader

theorem encodeChars_of_decodeFrom {pos : Nat} {bytes : List UInt8} {cs : List Char}
    (h : decodeFrom pos bytes = .ok cs) : encodeChars cs = bytes := by
  -- one character whose bytes are known, in front of others
  have step {pos : Nat} {front rest : List UInt8} {c : Char} {cs : List Char}
      (ih : ∀ {cs}, decodeFrom pos rest = .ok cs → encodeChars cs = rest) (hc : encodeChar c = front)
      (h : (do return c :: (← decodeFrom pos rest)) = Except.ok (ε := Invalid) cs) : encodeChars cs = front ++ rest := by
    obtain ⟨others, hothers, h⟩ := Outcome.bind_eq_ok.1 h
    cases h
    rw [← ih hothers, ← hc]
    rfl
  fun_induction decodeFrom pos bytes generalizing cs with
  | case1 =>
    cases h
    rfl
  | case2 pos a rest short ih => exact step ih (encodeChar_one short) h
  | case5 pos a _ first b rest short hb ih => exact step ih (encodeChar_two first short hb) h
  | case10 pos a _ first b long hb c rest hc short ih =>
    rw [if_pos short] at hb
    exact step ih (encodeChar_three long short (by simpa using hb) (by simpa using hc)) h
  | case13 pos a _ first b _ hb c hc long d rest hd ih =>
    rw [if_neg long] at hb
    exact step ih (encodeChar_four long first (by simpa using hb) (by simpa using hc) (by simpa using hd)) h
  -- the other cases are the refusals
  | _ => cases h

/-- A text is read from its own bytes only. -/
theorem encode_of_decode {bytes : List UInt8} {s : String} (h : decode bytes = .ok s) : encode s = bytes := by
  obtain ⟨cs, hcs, rfl⟩ := Outcome.map_eq_ok.1 h
  rw [encode, String.toList_ofList]
  exact encodeChars_of_decodeFrom hcs

end FragmentEngine.Text.Utf8
