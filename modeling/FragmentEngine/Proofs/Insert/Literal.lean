import FragmentEngine.Proofs.Expr.WrittenTokens
import FragmentEngine.Proofs.Insert.Row
import FragmentEngine.Proofs.Request.Argument
/-!
# Literals as values

A string literal is one value of a query, whatever it contains. In an expression it stands for its text. As an inserted
value it loses the quotes around it only: the quotes that are doubled in it stay so.
-/

namespace FragmentEngine

variable {q : Char}

/-! ## Doubled quotes -/

namespace Lexer

theorem doubled_append (q : Char) (cs rest : List Char) : doubled q (cs ++ rest) = doubled q cs ++ doubled q rest :=
  List.flatMap_append

/-- A literal is a row of quoted sections, each up to the first of two quotes. -/
theorem closed_inQuotes {stop : Char} (hq : Sections.isQuote q = true) (cs : List Char) :
    Sections.Closed stop (inQuotes q cs) := by
  by_cases hmem : q ∈ cs
  · obtain ⟨before, after, rfl, hbefore⟩ := List.eq_append_cons_of_mem hmem
    have hsections : inQuotes q (before ++ q :: after) = q :: (before ++ q :: inQuotes q after) := by
      simp [inQuotes, doubled_append, doubled_quote, doubled_eq_self_iff.2 hbefore]
    -- the first of the two quotes ends a section, and the second opens the next one
    rw [hsections]
    exact .quoted hq hbefore (closed_inQuotes hq after)
  · rw [inQuotes, doubled_eq_self_iff.2 hmem]
    exact Sections.closed_quoted hq hmem
termination_by cs.length

theorem trim_inQuotes (hq : Sections.isQuote q = true) (cs : List Char) : Text.trim (inQuotes q cs) = inQuotes q cs :=
  Sections.trim_quoted hq _

end Lexer

/-- The string literal of a text, in quotes of one kind. -/
def Value.written (q : Char) (s : String) : String := String.ofList (Lexer.inQuotes q s.toList)

namespace Insert

/-! ## Three readers -/

/-- A query keeps a literal together, as its only value. -/
theorem requireList_written (hq : Sections.isQuote q = true) (s : String) :
    (do (← Params.parse (Params.text [("operation", "insert"), ("value", Value.written q s)])).requireList "value") =
      .ok [Value.written q s] := by
  have hne : Value.written q s ≠ "" := fun h => by simpa [Value.written, Lexer.inQuotes] using congrArg String.toList h
  have hvalue {stop : Char} : Sections.Closed stop (Value.written q s).toList ∧
      Text.trim (Value.written q s).toList = (Value.written q s).toList := by
    rw [Value.written, String.toList_ofList]
    exact ⟨Lexer.closed_inQuotes hq _, Lexer.trim_inQuotes hq _⟩
  have hparse : Params.parse (Params.text [("operation", "insert"), ("value", Value.written q s)]) =
      .ok ⟨[("operation", "insert"), ("value", Value.written q s)]⟩ := by
    have hkeys : ∀ key ∈ ["operation", "value"], key ∈ knownKeys := by decide
    have hnodup : ["operation", "value"].Nodup := by decide
    have hword : ∀ c ∈ "insert".toList, Params.isKeyChar c = true := List.all_eq_true.1 (by decide)
    have hoperation := Sections.closed_of_stands Sections.not_stands_semicolon fun c hc =>
      Sections.stands_of (by decide +kernel) (hword c hc)
    exact Params.parse_text hkeys hnodup
      (List.forall_mem_cons.2 ⟨hoperation, List.forall_mem_singleton.2 hvalue⟩)
  have hlist : Sections.list ("|".intercalate [Value.written q s]) = .ok [Value.written q s] :=
    Sections.list_intercalate (List.cons_ne_nil _ _) (List.forall_mem_singleton.2 hvalue)
  rw [hparse, Outcome.ok_bind, Params.requireList_of_lookup rfl hne]
  exact hlist

/-- A literal is one token, which stands for its text. -/
theorem tokens_literal (hq : Sections.isQuote q = true) (s : String) :
    Lexer.tokens (Value.written q s).toList = .ok [.string s, .endOfInput] := by
  have htokens := (Lexer.lexed_string hq s.toList).tokens
  rwa [String.ofList_toList, ← String.toList_ofList (l := Lexer.inQuotes q s.toList)] at htokens

theorem parse_written (hq : Sections.isQuote q = true) (s : String) :
    Expr.parse (Value.written q s) = .ok (.literal (.str s)) := by
  rw [Expr.parse_eq (tokens_literal hq s) (by simp)]
  rfl

/-- An inserted literal loses its outer quotes. -/
theorem valueOf_written (hq : Sections.isQuote q = true) (context : Context) (type : FieldType) (s : String) :
    valueOf context type (Value.written q s) = .ok (.str (String.ofList (Lexer.doubled q s.toList))) := by
  have htrim : Text.trim (Value.written q s).toList = Lexer.inQuotes q s.toList := by
    rw [Value.written, String.toList_ofList, Lexer.trim_inQuotes hq]
  have hplaceholder : Argument.placeholder? (Lexer.inQuotes q s.toList) = none := by
    rcases Sections.eq_of_isQuote hq with rfl | rfl <;> rfl
  have hquoted : Sections.isQuoted (Lexer.inQuotes q s.toList) = true := by
    simp [Sections.isQuoted, Lexer.inQuotes, hq]
  have hinner : Sections.unquote (Lexer.inQuotes q s.toList) = Lexer.doubled q s.toList := Sections.unquote_quoted hq _
  simp only [valueOf, htrim, hplaceholder, hquoted, hinner, if_true]

/-! ## Agreement -/

variable {context : Context} {schema : Schema} {names values : List String} {column : Nat} {field : Field}

/-- A literal is split off whole from its query. In an expression it stands for its text; inserted into a STRING column
it is stored with the quotes in it doubled. The two agree exactly if there are no such quotes. -/
theorem record_literal (hq : Sections.isQuote q = true) {s : String}
    (hrow : RowWith context schema names values column field (Value.written q s)) (htype : field.type = .string) :
    (do (← Params.parse (Params.text [("operation", "insert"), ("value", Value.written q s)])).requireList "value") =
      .ok [Value.written q s] ∧
    Lexer.tokens (Value.written q s).toList = .ok [.string s, .endOfInput] ∧
    Expr.parse (Value.written q s) = .ok (.literal (.str s)) ∧
    ∃ r, record context schema names values = .ok r ∧
      r.value column .string = .ok (.str (String.ofList (Lexer.doubled q s.toList))) ∧
      (r.value column .string = .ok (.str s) ↔ q ∉ s.toList) := by
  obtain ⟨r, hr, hread⟩ := hrow.record_string htype (valueOf_written hq context .string s)
  refine ⟨requireList_written hq s, tokens_literal hq s, parse_written hq s, r, hr, hread, ?_⟩
  rw [hread, ← Lexer.doubled_eq_self_iff]
  constructor
  · intro h
    have hstored : String.ofList (Lexer.doubled q s.toList) = s := Value.str.inj (Except.ok.inj h)
    rw [← String.toList_inj, String.toList_ofList] at hstored
    exact hstored
  · intro h
    rw [h, String.ofList_toList]

/-- A literal with an apostrophe and double quotes in it, next to a number. -/
theorem record_literal_bothQuotes :
    let literal := "'it''s \"so\"'"
    Expr.parse literal = .ok (.literal (.str "it's \"so\"")) ∧
      ∃ r, record ⟨.builtin, [], 0⟩ ⟨[⟨"id", .long, true⟩, ⟨"name", .string, false⟩]⟩ [] ["7", literal] = .ok r ∧
        r.value 1 .string = .ok (.str "it''s \"so\"") := by
  intro literal
  have hwritten : Value.written '\'' "it's \"so\"" = literal := by decide +kernel
  have hid : ∃ cell, cellOf ⟨.builtin, [], 0⟩ .long "7" = .ok cell := ⟨[7, 0, 0, 0, 0, 0, 0, 0], by decide +kernel⟩
  have hrow : RowWith ⟨.builtin, [], 0⟩ ⟨[⟨"id", .long, true⟩, ⟨"name", .string, false⟩]⟩ [] ["7", literal] 1
      ⟨"name", .string, false⟩ (Value.written '\'' "it's \"so\"") :=
    ⟨.inl rfl, rfl, rfl, congrArg some hwritten.symm, List.forall_mem_singleton.2 hid⟩
  obtain ⟨-, -, hparse, r, hr, hread, -⟩ := record_literal (by decide) hrow rfl
  rw [hwritten] at hparse
  exact ⟨hparse, r, hr, hread⟩

/-- What is stored of a literal with an apostrophe is not its text. -/
theorem literalApostrophe_stays_doubled :
    Expr.parse "'it''s'" = .ok (.literal (.str "it's")) ∧
      ¬∃ r, record ⟨.builtin, [], 0⟩ ⟨[⟨"s", .string, false⟩]⟩ [] ["'it''s'"] = .ok r ∧
        r.value 0 .string = .ok (.str "it's") := by
  refine ⟨by decide +kernel, ?_⟩
  have hstored : record ⟨.builtin, [], 0⟩ ⟨[⟨"s", .string, false⟩]⟩ [] ["'it''s'"] =
      .ok ⟨[[105, 116, 39, 39, 115, 0]]⟩ := by
    decide +kernel
  have hread : (⟨[[105, 116, 39, 39, 115, 0]]⟩ : Record).value 0 .string ≠ .ok (.str "it's") := by decide +kernel
  rintro ⟨r, hr, h⟩
  rw [hstored] at hr
  cases hr
  exact hread h

end Insert

end FragmentEngine
