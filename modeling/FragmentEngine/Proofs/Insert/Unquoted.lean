import FragmentEngine.Proofs.Decimal.Numeral
import FragmentEngine.Proofs.Insert.Row
/-!
# Unquoted texts

A text without quotes that is no placeholder is stored in a STRING or BLOB column as it stands, without the blanks
around it, unless it spells a number. Then it is a number, which these columns refuse.
-/

namespace FragmentEngine.Insert

variable {context : Context} {type : FieldType} {text : String}

/-- A text that is neither a placeholder nor in quotes. -/
structure Unquoted (text : String) : Prop where
  no_placeholder : Argument.placeholder? (Text.trim text.toList) = none
  no_quotes : Sections.isQuoted (Text.trim text.toList) = false

/-! ## Numbers -/

theorem valueOf_long (h : Unquoted text) {n : Long} (hlong : Decimal.long? (Text.trim text.toList) = some n) :
    valueOf context type text = .ok (.long n) := by
  simp only [valueOf, h.no_placeholder, h.no_quotes, hlong, Bool.false_eq_true, if_false]

theorem valueOf_double (h : Unquoted text) {x : Binary64} (hlong : Decimal.long? (Text.trim text.toList) = none)
    (hdouble : Decimal.double? (Text.trim text.toList) = some x) : valueOf context type text = .ok (.double x) := by
  simp only [valueOf, h.no_placeholder, h.no_quotes, hlong, hdouble, Bool.false_eq_true, if_false]

theorem encode_number {v : Value} (htype : type = .string ∨ type = .blob) (hv : v.isNumeric = true) :
    Cell.encode type v = .error (.exec (.typeMismatch v.kindName type)) := by
  cases v with
  | str _ | binary _ => cases hv
  | long n => rcases htype with rfl | rfl <;> rfl
  | double x => rcases htype with rfl | rfl <;> rfl

/-- The kind of the number that a text spells: a long if it is a whole number that a long holds. -/
def numberKind (cs : List Char) : String := if (Decimal.long? cs).isSome then "LONG" else "DOUBLE"

theorem cellOf_number (h : Unquoted text) (htype : type = .string ∨ type = .blob)
    (hnumber : Decimal.SpellsNumber (Text.trim text.toList)) :
    cellOf context type text = .error (.exec (.typeMismatch (numberKind (Text.trim text.toList)) type)) := by
  -- whole numbers are tried first, so the others are those that are not longs
  unfold cellOf numberKind
  cases hlong : Decimal.long? (Text.trim text.toList) with
  | some n =>
    rw [valueOf_long h hlong]
    exact encode_number htype rfl
  | none =>
    obtain ⟨x, hdouble⟩ := Option.isSome_iff_exists.1 (Decimal.isSome_double?_iff.2 hnumber)
    rw [valueOf_double h hlong hdouble]
    exact encode_number htype rfl

/-! ## Other texts -/

theorem valueOf_text (context : Context) (h : Unquoted text) (htype : type = .string ∨ type = .blob)
    (hnumber : ¬Decimal.SpellsNumber (Text.trim text.toList)) :
    valueOf context type text = .ok (.str (String.ofList (Text.trim text.toList))) := by
  have hlong : Decimal.long? (Text.trim text.toList) = none :=
    Option.eq_none_iff_forall_ne_some.2 fun n hn => hnumber (Decimal.spellsNumber_of_long? hn)
  have hdouble : Decimal.double? (Text.trim text.toList) = none :=
    Option.not_isSome_iff_eq_none.1 fun hsome => hnumber (Decimal.isSome_double?_iff.1 hsome)
  simp only [valueOf, h.no_placeholder, h.no_quotes, hlong, hdouble, Bool.false_eq_true, if_false]
  rcases htype with rfl | rfl <;> rfl

/-! ## Rows -/

variable {schema : Schema} {names values : List String} {column : Nat} {field : Field}

/-- An unquoted text in a STRING or BLOB column is stored as it stands, trimmed, exactly if it does not spell a number.
One that does is refused as a number. -/
theorem record_unquoted (hrow : RowWith context schema names values column field text) (htext : Unquoted text)
    (htype : field.type = .string ∨ field.type = .blob) :
    let t := Text.trim text.toList
    (¬Decimal.SpellsNumber t → ∃ r, record context schema names values = .ok r ∧
      (field.type = .string → r.value column .string = .ok (.str (String.ofList t))) ∧
      (field.type = .blob → r.cell column = .ok (Text.Utf8.encode (String.ofList t)))) ∧
    (Decimal.SpellsNumber t →
      record context schema names values = .error (.exec (.typeMismatch (numberKind t) field.type))) := by
  intro t
  refine ⟨fun hnumber => ?_, fun hnumber => hrow.record_error (cellOf_number htext htype hnumber)⟩
  have hvalue := valueOf_text context htext htype hnumber
  rcases htype with hstring | hblob
  · rw [hstring] at hvalue
    obtain ⟨r, hr, hread⟩ := hrow.record_string hstring hvalue
    exact ⟨r, hr, fun _ => hread, fun hblob => absurd (hstring.symm.trans hblob) (by decide)⟩
  · rw [hblob] at hvalue
    have hcell : cellOf context field.type text = .ok (Text.Utf8.encode (String.ofList t)) := by
      rw [hblob, cellOf, hvalue]
      rfl
    obtain ⟨r, hr, hplace⟩ := hrow.record_ok hcell
    exact ⟨r, hr, fun hstring => absurd (hstring.symm.trans hblob) (by decide), fun _ => hplace⟩

/-- A name with an apostrophe is stored, and a word that is read as a number is refused. -/
theorem record_unquoted_apostropheAndInfinity :
    let context : Context := ⟨.builtin, [], 0⟩
    let schema : Schema := ⟨[⟨"id", .long, true⟩, ⟨"name", .string, false⟩, ⟨"data", .blob, false⟩]⟩
    (∃ r, record context schema [] ["7", " O'Brien ", "x"] = .ok r ∧ r.value 1 .string = .ok (.str "O'Brien")) ∧
    record context schema schema.names ["7", "x", "-Inf"] = .error (.exec (.typeMismatch "DOUBLE" .blob)) := by
  intro context schema
  have hid : ∃ cell, cellOf context .long "7" = .ok cell := ⟨[7, 0, 0, 0, 0, 0, 0, 0], by decide +kernel⟩
  have hname : ∃ cell, cellOf context .string "x" = .ok cell := ⟨[120, 0], by decide +kernel⟩
  have hdata : ∃ cell, cellOf context .blob "x" = .ok cell := ⟨[120], by decide +kernel⟩
  have hstored : RowWith context schema [] ["7", " O'Brien ", "x"] 1 ⟨"name", .string, false⟩ " O'Brien " :=
    ⟨.inl rfl, rfl, rfl, rfl, List.forall_mem_cons.2 ⟨hid, List.forall_mem_singleton.2 hdata⟩⟩
  have hrefused : RowWith context schema schema.names ["7", "x", "-Inf"] 2 ⟨"data", .blob, false⟩ "-Inf" :=
    ⟨.inr rfl, rfl, rfl, rfl, List.forall_mem_cons.2 ⟨hid, List.forall_mem_singleton.2 hname⟩⟩
  have hword : ¬Decimal.SpellsNumber (Text.trim " O'Brien ".toList) := by
    rw [← Decimal.isSome_double?_iff]
    decide +kernel
  have hnumber : Decimal.SpellsNumber (Text.trim "-Inf".toList) := by
    rw [← Decimal.isSome_double?_iff]
    decide +kernel
  obtain ⟨r, hr, hread, -⟩ := (record_unquoted hstored ⟨by decide +kernel, by decide +kernel⟩ (.inl rfl)).1 hword
  refine ⟨⟨r, hr, hread rfl⟩, ?_⟩
  exact (record_unquoted hrefused ⟨by decide +kernel, by decide +kernel⟩ (.inr rfl)).2 hnumber

/-- The word for "not a number" is neither a placeholder nor in quotes, and is not stored. -/
theorem unquotedNan_refused :
    Unquoted "Nan" ∧ ¬∃ r, record ⟨.builtin, [], 0⟩ ⟨[⟨"s", .string, false⟩]⟩ [] ["Nan"] = .ok r := by
  refine ⟨⟨by decide +kernel, by decide +kernel⟩, ?_⟩
  have hrefused : record ⟨.builtin, [], 0⟩ ⟨[⟨"s", .string, false⟩]⟩ [] ["Nan"] =
      .error (.exec (.typeMismatch "DOUBLE" .string)) := by
    decide +kernel
  rw [hrefused]
  nofun

end FragmentEngine.Insert
