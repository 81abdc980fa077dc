import FragmentEngine.Decimal.Numeral
import FragmentEngine.Proofs.Decimal.Whole
import FragmentEngine.Proofs.Text.Run
/-!
# Spelled numbers

The texts that are read as numbers: an optional sign, then the words for infinity and "not a number" in any case, or
digits with at most one point and an optional power of ten.
-/

namespace FragmentEngine.Decimal

/-! ## The texts of numbers -/

/-- One digit or more. -/
def IsDigits (cs : List Char) : Prop := cs ≠ [] ∧ ∀ c ∈ cs, c.isDigit = true

/-- A text of some kind after at most one sign. -/
inductive Signed (Body : List Char → Prop) : List Char → Prop
  | plain {cs : List Char} : Body cs → Signed Body cs
  | plus {cs : List Char} : Body cs → Signed Body ('+' :: cs)
  | minus {cs : List Char} : Body cs → Signed Body ('-' :: cs)

/-- Digits with at most one point, which stands before, among or behind them. -/
inductive Mantissa : List Char → Prop
  | whole {cs : List Char} : IsDigits cs → Mantissa cs
  | pointed {whole fraction : List Char} : IsDigits (whole ++ fraction) → Mantissa (whole ++ '.' :: fraction)

/-- A power of ten, or nothing. -/
inductive Power : List Char → Prop
  | none : Power []
  | marked {mark : Char} {exponent : List Char} :
      mark = 'e' ∨ mark = 'E' → Signed IsDigits exponent → Power (mark :: exponent)

/-- A number without its sign. -/
inductive Unsigned : List Char → Prop
  | word {cs : List Char} : cs.map Char.toLower ∈ ["inf".toList, "infinity".toList, "nan".toList] → Unsigned cs
  | numeral {mantissa power : List Char} : Mantissa mantissa → Power power → Unsigned (mantissa ++ power)

/-- The text spells a number. -/
def SpellsNumber (cs : List Char) : Prop := Signed Unsigned cs

variable {cs rest whole fraction : List Char}

/-! ## Signs -/

/-- The text starts with no sign. -/
def NoSign (cs : List Char) : Prop := ∀ c ∈ cs.head?, c ≠ '+' ∧ c ≠ '-'

/-- A reader that skips one sign reads the texts that it reads without a sign, after at most one. -/
theorem reads_iff_signed {B R : List Char → Prop} (hbody : ∀ cs, B cs → NoSign cs)
    (hminus : ∀ rest, R ('-' :: rest) ↔ B rest) (hplus : ∀ rest, R ('+' :: rest) ↔ B rest)
    (hplain : ∀ cs, NoSign cs → (R cs ↔ B cs)) : R cs ↔ Signed B cs := by
  constructor
  · intro h
    cases cs with
    | nil => exact .plain ((hplain [] nofun).1 h)
    | cons c rest =>
      by_cases hcplus : c = '+'
      · subst hcplus
        exact .plus ((hplus rest).1 h)
      by_cases hcminus : c = '-'
      · subst hcminus
        exact .minus ((hminus rest).1 h)
      · have hsign : NoSign (c :: rest) := by
          intro d hd
          cases hd
          exact ⟨hcplus, hcminus⟩
        exact .plain ((hplain _ hsign).1 h)
  · intro h
    cases h with
    | plain h => exact (hplain cs (hbody cs h)).2 h
    | plus h => exact (hplus _).2 h
    | minus h => exact (hminus _).2 h

theorem NoSign.append (h : NoSign cs) (hne : cs ≠ []) : NoSign (cs ++ rest) := by
  cases cs with
  | nil => exact absurd rfl hne
  | cons first _ =>
    intro c hc
    cases hc
    exact h first rfl

theorem IsDigits.noSign (h : IsDigits cs) : NoSign cs := by
  intro c hc
  have hdigit := h.2 c (List.mem_of_mem_head? hc)
  constructor
  all_goals
    rintro rfl
    exact absurd hdigit (by decide)

/-! ## Whole numbers -/

theorem isSome_natural?_iff : (natural? cs).isSome = true ↔ IsDigits cs := by
  unfold natural? IsDigits
  split <;> simp_all

theorem isSome_signed?_iff : (signed? cs).isSome = true ↔ Signed IsDigits cs := by
  refine reads_iff_signed (R := fun cs => (signed? cs).isSome = true) (fun cs h => h.noSign) (fun rest => ?_)
    (fun rest => ?_) fun cs hsign => ?_
  all_goals rw [← isSome_natural?_iff]
  · simp only [signed?]
    cases natural? rest <;> rfl
  · exact Bool.eq_iff_iff.1 Option.isSome_map
  · unfold signed? unsigned?
    split
    · exact absurd rfl (hsign '-' rfl).2
    split
    · exact absurd rfl (hsign '+' rfl).1
    · exact Bool.eq_iff_iff.1 Option.isSome_map

/-- What is read as a long is read as a number. -/
theorem spellsNumber_of_long? {n : Long} (h : long? cs = some n) : SpellsNumber cs := by
  obtain ⟨m, hm, -⟩ := Option.bind_eq_some_iff.1 h
  have hsigned : Signed IsDigits cs := isSome_signed?_iff.1 (by rw [hm]; rfl)
  have hunsigned {cs : List Char} (h : IsDigits cs) : Unsigned cs := by
    have hnumeral := Unsigned.numeral (.whole h) .none
    rwa [List.append_nil] at hnumeral
  cases hsigned with
  | plain hdigits => exact .plain (hunsigned hdigits)
  | plus hdigits => exact .plus (hunsigned hdigits)
  | minus hdigits => exact .minus (hunsigned hdigits)

/-! ## Numerals -/

theorem Power.head (h : Power cs) : ∀ c ∈ cs.head?, c.isDigit = false ∧ c ≠ '.' := by
  cases h with
  | none => nofun
  | marked hmark _ =>
    intro c hc
    cases hc
    rcases hmark with rfl | rfl <;> decide

/-- What follows the digits is read if it is a power of ten. -/
theorem isSome_power_iff {numeral : Numeral} {scaled : Int → Numeral} :
    (match rest with
      | [] => some numeral
      | c :: power => if c = 'e' ∨ c = 'E' then (exponent? power).map scaled else none).isSome = true ↔ Power rest := by
  cases rest with
  | nil => exact ⟨fun _ => .none, fun _ => rfl⟩
  | cons c power =>
    dsimp only
    split
    · rename_i hmark
      rw [Option.isSome_map, exponent?, isSome_signed?_iff]
      constructor
      · exact fun h => .marked hmark h
      · intro h
        cases h with
        | marked _ h => exact h
    · rename_i hmark
      constructor
      · nofun
      · intro h
        cases h with
        | marked h _ => exact absurd h hmark

/-- The digits behind a point at the front, and what follows them. -/
def fractionSpan (cs : List Char) : List Char × List Char :=
  match cs with
  | '.' :: after => (after.takeWhile Char.isDigit, after.dropWhile Char.isDigit)
  | _ => ([], cs)

theorem fractionSpan_of_ne_point (h : ∀ c ∈ cs.head?, c ≠ '.') : fractionSpan cs = ([], cs) := by
  unfold fractionSpan
  split
  · exact absurd rfl (h '.' rfl)
  · rfl

/-- Digits, on either side of the point, and a power of ten are what is read. -/
theorem isSome_ofDigits?_parts (hwhole : cs.takeWhile Char.isDigit = whole)
    (hfraction : fractionSpan (cs.dropWhile Char.isDigit) = (fraction, rest)) :
    (Numeral.ofDigits? cs).isSome = true ↔ whole ++ fraction ≠ [] ∧ Power rest := by
  -- the reader, with the digits behind the point given by `fractionSpan`
  have hread : Numeral.ofDigits? cs =
      let whole := cs.takeWhile Char.isDigit
      let parts := fractionSpan (cs.dropWhile Char.isDigit)
      let m := foldDigits 0 (whole ++ parts.1)
      if whole.isEmpty && parts.1.isEmpty then none
      else match parts.2 with
        | [] => some (.finite m (-(parts.1.length : Int)))
        | c :: power =>
          if c = 'e' ∨ c = 'E' then (exponent? power).map fun e => .finite m (e - parts.1.length) else none := rfl
  rw [hread, hwhole, hfraction]
  dsimp only
  split
  · rename_i hempty
    simp only [Bool.and_eq_true, List.isEmpty_iff] at hempty
    simp [hempty]
  · rename_i hne
    have hne : whole ++ fraction ≠ [] := by simpa [List.append_eq_nil_iff] using hne
    rw [isSome_power_iff]
    exact ⟨fun h => ⟨hne, h⟩, fun h => h.2⟩

/-- A numeral is a mantissa and a power of ten. -/
theorem isSome_ofDigits?_iff : (Numeral.ofDigits? cs).isSome = true ↔
    ∃ mantissa power, Mantissa mantissa ∧ Power power ∧ cs = mantissa ++ power := by
  constructor
  · intro h
    have hcs := (List.takeWhile_append_dropWhile (p := Char.isDigit) (l := cs)).symm
    have hwhole : ∀ c ∈ cs.takeWhile Char.isDigit, c.isDigit = true := fun c => List.mem_takeWhile_imp
    -- a mantissa has a point if one follows the first digits
    by_cases hpoint : ∃ after, cs.dropWhile Char.isDigit = '.' :: after
    · obtain ⟨after, hafter⟩ := hpoint
      have hspan : fractionSpan (cs.dropWhile Char.isDigit) =
          (after.takeWhile Char.isDigit, after.dropWhile Char.isDigit) := by
        rw [hafter]
        rfl
      obtain ⟨hne, hpower⟩ := (isSome_ofDigits?_parts rfl hspan).1 h
      refine ⟨_, _, .pointed ⟨hne, ?_⟩, hpower, ?_⟩
      · exact List.forall_mem_append.2 ⟨hwhole, fun c => List.mem_takeWhile_imp⟩
      · rw [List.append_assoc, List.cons_append, List.takeWhile_append_dropWhile, ← hafter, ← hcs]
    · have hspan : fractionSpan (cs.dropWhile Char.isDigit) = ([], cs.dropWhile Char.isDigit) := by
        refine fractionSpan_of_ne_point ?_
        rintro c hc rfl
        exact hpoint (List.head?_eq_some_iff.1 hc)
      obtain ⟨hne, hpower⟩ := (isSome_ofDigits?_parts rfl hspan).1 h
      rw [List.append_nil] at hne
      exact ⟨_, _, .whole ⟨hne, hwhole⟩, hpower, hcs⟩
  · rintro ⟨mantissa, power, hmantissa, hpower, rfl⟩
    have hend : ∀ c ∈ power.head?, c.isDigit = false := fun c hc => (hpower.head c hc).1
    cases hmantissa with
    | whole h =>
      have hspan : fractionSpan ((mantissa ++ power).dropWhile Char.isDigit) = ([], power) := by
        rw [Text.dropWhile_run h.2 hend]
        exact fractionSpan_of_ne_point fun c hc => (hpower.head c hc).2
      refine (isSome_ofDigits?_parts (Text.takeWhile_run h.2 hend) hspan).2 ⟨?_, hpower⟩
      rw [List.append_nil]
      exact h.1
    | @pointed whole fraction h =>
      obtain ⟨hwhole, hfraction⟩ := List.forall_mem_append.1 h.2
      have hpoint : ∀ c ∈ ('.' :: (fraction ++ power)).head?, c.isDigit = false := by
        intro c hc
        cases hc
        decide
      rw [List.append_assoc, List.cons_append]
      refine (isSome_ofDigits?_parts (Text.takeWhile_run hwhole hpoint) ?_).2 ⟨h.1, hpower⟩
      rw [Text.dropWhile_run hwhole hpoint, fractionSpan, Text.takeWhile_run hfraction hend,
        Text.dropWhile_run hfraction hend]

/-! ## Numbers -/

theorem isSome_read?_iff : (Numeral.read? cs).isSome = true ↔ Unsigned cs := by
  unfold Numeral.read?
  dsimp only
  split
  · rename_i h
    exact ⟨fun _ => .word (by rcases h with h | h <;> simp [h]), fun _ => rfl⟩
  split
  · rename_i h
    exact ⟨fun _ => .word (by simp [h]), fun _ => rfl⟩
  · rename_i hinfinite hnan
    rw [isSome_ofDigits?_iff]
    constructor
    · rintro ⟨mantissa, power, hmantissa, hpower, rfl⟩
      exact .numeral hmantissa hpower
    · intro h
      cases h with
      | word h =>
        simp only [List.mem_cons, List.not_mem_nil, or_false] at h
        rcases h with h | h | h
        · exact absurd (.inl h) hinfinite
        · exact absurd (.inr h) hinfinite
        · exact absurd h hnan
      | numeral hmantissa hpower => exact ⟨_, _, hmantissa, hpower, rfl⟩

theorem Unsigned.noSign (h : Unsigned cs) : NoSign cs := by
  cases h with
  | word h =>
    intro c hc
    obtain ⟨rest, rfl⟩ := List.head?_eq_some_iff.1 hc
    constructor
    all_goals
      rintro rfl
      simp at h
  | numeral hmantissa hpower =>
    cases hmantissa with
    | whole h => exact h.noSign.append h.1
    | @pointed whole fraction h =>
      cases whole with
      | nil =>
        intro c hc
        cases hc
        decide
      | cons first others =>
        intro c hc
        cases hc
        exact h.noSign first rfl

/-- The texts that are read as doubles. -/
theorem isSome_double?_iff : (double? cs).isSome = true ↔ SpellsNumber cs := by
  refine reads_iff_signed (R := fun cs => (double? cs).isSome = true) (fun cs h => h.noSign) (fun rest => ?_)
    (fun rest => ?_) fun cs hsign => ?_
  all_goals rw [← isSome_read?_iff]
  · exact Bool.eq_iff_iff.1 Option.isSome_map
  · exact Bool.eq_iff_iff.1 Option.isSome_map
  · unfold double?
    split
    · exact absurd rfl (hsign '-' rfl).2
    · exact absurd rfl (hsign '+' rfl).1
    · exact Bool.eq_iff_iff.1 Option.isSome_map

end FragmentEngine.Decimal
