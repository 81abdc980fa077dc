import Mathlib.Tactic.Tauto
import FragmentEngine.Bytes
/-!
# Hexadecimal texts

A text spells bytes by two digits for each of them. What is read is a text that spells bytes, except that a plus sign may
stand where the first digit of a byte is zero.
-/

namespace FragmentEngine.Bytes

/-- A hexadecimal digit of either case. -/
def IsHexDigit (c : Char) : Prop := ('0' ≤ c ∧ c ≤ '9') ∨ ('a' ≤ c ∧ c ≤ 'f') ∨ ('A' ≤ c ∧ c ≤ 'F')

instance (c : Char) : Decidable (IsHexDigit c) :=
  inferInstanceAs (Decidable (('0' ≤ c ∧ c ≤ '9') ∨ ('a' ≤ c ∧ c ≤ 'f') ∨ ('A' ≤ c ∧ c ≤ 'F')))

/-- The text consists of two digits for each byte, the high one first. -/
def Spells (cs : List Char) (bytes : Bytes) : Prop :=
  cs.map hexValue = bytes.flatMap fun b => [some (b.toNat / 16), some (b.toNat % 16)]

/-- The text with a zero for each plus sign that stands where the first digit of a byte is expected. -/
def plusAsZero : List Char → List Char
  | a :: b :: rest => (if a = '+' then '0' else a) :: b :: plusAsZero rest
  | cs => cs

variable {a b c : Char} {n : Nat} {cs rest : List Char} {bytes : Bytes}

/-! ## Digits -/

theorem hexValue_hexDigit : ∀ n < 16, hexValue (hexDigit n) = some n := by decide

theorem hexDigit_ne_plus : ∀ n < 16, hexDigit n ≠ '+' := by decide

theorem isHexDigit_iff : IsHexDigit c ↔ ∃ n, hexValue c = some n := by
  unfold IsHexDigit hexValue
  split
  · simp [*]
  · split
    · simp [*]
    · split <;> simp [*]

theorem hexValue_lt (h : hexValue c = some n) : n < 16 := by
  have hpoint {low high : Char} (hc : low ≤ c ∧ c ≤ high) : low.toNat ≤ c.toNat ∧ c.toNat ≤ high.toNat := hc
  unfold hexValue at h
  split at h
  · have hc : c.toNat ≤ '9'.toNat := (hpoint ‹_›).2
    cases h
    exact Nat.lt_of_le_of_lt (Nat.sub_le_sub_right hc 48) (by decide)
  split at h
  · have hc : c.toNat ≤ 'f'.toNat := (hpoint ‹_›).2
    cases h
    exact Nat.lt_of_le_of_lt (Nat.sub_le_sub_right hc 87) (by decide)
  split at h
  · have hc : c.toNat ≤ 'F'.toNat := (hpoint ‹_›).2
    cases h
    exact Nat.lt_of_le_of_lt (Nat.sub_le_sub_right hc 55) (by decide)
  · cases h

/-- Two numbers of four bits make a byte, and its halves are those numbers. -/
theorem ofNat_eq_iff {x y : Nat} (hx : x < 16) (hy : y < 16) (byte : UInt8) :
    UInt8.ofNat (16 * x + y) = byte ↔ x = byte.toNat / 16 ∧ y = byte.toNat % 16 := by
  have hbyte := byte.toNat_lt
  rw [← UInt8.toNat_inj, UInt8.toNat_ofNat']
  omega

theorem ofHexPair_eq_some {byte : UInt8} : ofHexPair a b = some byte ↔
    hexValue (if a = '+' then '0' else a) = some (byte.toNat / 16) ∧ hexValue b = some (byte.toNat % 16) := by
  unfold ofHexPair
  split
  · have hzero : hexValue '0' = some 0 := by decide
    rw [hzero, Option.map_eq_some_iff]
    constructor
    · rintro ⟨y, hy, h⟩
      have hbyte := (ofNat_eq_iff (by decide : 0 < 16) (hexValue_lt hy) byte).1 (by rwa [Nat.mul_zero, Nat.zero_add])
      rw [← hbyte.1, ← hbyte.2]
      exact ⟨rfl, hy⟩
    · rintro ⟨hx, hy⟩
      refine ⟨_, hy, ?_⟩
      have hbyte := (ofNat_eq_iff (by decide : 0 < 16) (hexValue_lt hy) byte).2 ⟨Option.some.inj hx, rfl⟩
      rwa [Nat.mul_zero, Nat.zero_add] at hbyte
  · split
    · rename_i x y hx hy
      rw [hx, hy, Option.some.injEq, ofNat_eq_iff (hexValue_lt hx) (hexValue_lt hy), Option.some.injEq, Option.some.injEq]
    · rename_i hnot
      exact ⟨nofun, fun h => absurd h.2 (hnot _ _ h.1)⟩

/-! ## Texts -/

theorem spells_nil : Spells [] bytes ↔ bytes = [] := by
  cases bytes <;> simp [Spells]

theorem not_spells_singleton : ¬Spells [a] bytes := by
  cases bytes <;> simp [Spells]

theorem spells_cons : Spells (a :: b :: rest) bytes ↔ ∃ byte others, bytes = byte :: others ∧
    (hexValue a = some (byte.toNat / 16) ∧ hexValue b = some (byte.toNat % 16)) ∧ Spells rest others := by
  cases bytes <;> simp [Spells, and_assoc]

theorem exists_byte_iff : (∃ byte : UInt8, hexValue a = some (byte.toNat / 16) ∧ hexValue b = some (byte.toNat % 16)) ↔
    IsHexDigit a ∧ IsHexDigit b := by
  rw [isHexDigit_iff, isHexDigit_iff]
  constructor
  · rintro ⟨byte, ha, hb⟩
    exact ⟨⟨_, ha⟩, ⟨_, hb⟩⟩
  · rintro ⟨⟨x, hx⟩, ⟨y, hy⟩⟩
    obtain ⟨high, low⟩ := (ofNat_eq_iff (hexValue_lt hx) (hexValue_lt hy) _).1 rfl
    exact ⟨_, hx.trans (congrArg some high), hy.trans (congrArg some low)⟩

/-- Bytes are spelled by texts of an even number of digits. -/
theorem exists_spells_iff (cs : List Char) : (∃ bytes, Spells cs bytes) ↔ cs.length % 2 = 0 ∧ ∀ c ∈ cs, IsHexDigit c :=
  match cs with
  | [] => ⟨fun _ => ⟨rfl, nofun⟩, fun _ => ⟨[], rfl⟩⟩
  | [_] => ⟨fun ⟨_, h⟩ => absurd h not_spells_singleton, nofun⟩
  | a :: b :: rest => by
    have hpair : (∃ bytes, Spells (a :: b :: rest) bytes) ↔
        (∃ byte : UInt8, hexValue a = some (byte.toNat / 16) ∧ hexValue b = some (byte.toNat % 16)) ∧
          ∃ others, Spells rest others := by
      simp only [spells_cons]
      constructor
      · rintro ⟨_, byte, others, -, hbyte, hothers⟩
        exact ⟨⟨byte, hbyte⟩, ⟨others, hothers⟩⟩
      · rintro ⟨⟨byte, hbyte⟩, ⟨others, hothers⟩⟩
        exact ⟨_, byte, others, rfl, hbyte, hothers⟩
    rw [hpair, exists_byte_iff, exists_spells_iff rest]
    simp only [List.length_cons, List.forall_mem_cons, Nat.add_assoc, Nat.reduceAdd, Nat.add_mod_right]
    tauto

/-! ## Texts that are read -/

theorem ofHex?_cons : ofHex? (a :: b :: rest) = some bytes ↔
    ∃ byte others, bytes = byte :: others ∧ ofHexPair a b = some byte ∧ ofHex? rest = some others := by
  rw [ofHex?]
  constructor
  · intro h
    split at h
    · cases h
      exact ⟨_, _, rfl, ‹_›, ‹_›⟩
    · cases h
  · rintro ⟨byte, others, rfl, hbyte, hothers⟩
    rw [hbyte, hothers]

/-- A text is read as the bytes that it spells once plus signs count as zeros. -/
theorem ofHex?_eq_some_iff {cs : List Char} {bytes : Bytes} :
    ofHex? cs = some bytes ↔ Spells (plusAsZero cs) bytes :=
  match cs with
  | [] => by
    show some [] = some bytes ↔ Spells [] bytes
    rw [spells_nil, Option.some.injEq, eq_comm]
  | [_] => ⟨nofun, fun h => absurd h not_spells_singleton⟩
  | a :: b :: rest => by
    rw [ofHex?_cons, plusAsZero, spells_cons]
    simp only [ofHexPair_eq_some, ofHex?_eq_some_iff]

theorem ofHex?_toHex (bytes : Bytes) : ofHex? (toHex bytes) = some bytes := by
  induction bytes with
  | nil => rfl
  | cons byte others ih =>
    have hbyte := byte.toNat_lt
    have hhigh : byte.toNat / 16 < 16 := by omega
    refine ofHex?_cons.2 ⟨byte, others, rfl, ofHexPair_eq_some.2 ⟨?_, ?_⟩, ih⟩
    · rw [if_neg (hexDigit_ne_plus _ hhigh), hexValue_hexDigit _ hhigh]
    · exact hexValue_hexDigit _ (Nat.mod_lt _ (by decide))

theorem plusAsZero_eq_self {cs : List Char} (h : ∀ i, cs[2 * i]? ≠ some '+') : plusAsZero cs = cs :=
  match cs with
  | [] => rfl
  | [_] => rfl
  | a :: b :: rest => by
    have hfirst : a ≠ '+' := fun ha => h 0 (congrArg some ha)
    have hrest : ∀ i, rest[2 * i]? ≠ some '+' := fun i => h (i + 1)
    rw [plusAsZero, if_neg hfirst, plusAsZero_eq_self hrest]

end FragmentEngine.Bytes
