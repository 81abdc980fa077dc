import FragmentEngine.Request.Sections
/-!
# Closed values

A value is closed if every quote in it belongs to a section that ends. The front that is read of a text is closed,
and where a closed value stands at the front, all of it is read.
-/

namespace FragmentEngine.Sections

/-- Made of closed quoted sections and of characters other than `stop` and the quotes. -/
inductive Closed (stop : Char) : List Char → Prop
  | nil : Closed stop []
  | plain {c : Char} {rest : List Char} :
      c ≠ stop → isQuote c = false → Closed stop rest → Closed stop (c :: rest)
  | quoted {q : Char} {inner rest : List Char} :
      isQuote q = true → q ∉ inner → Closed stop rest → Closed stop (q :: (inner ++ q :: rest))

variable {stop q : Char} {cs inner rest : List Char}

theorem eq_of_isQuote (h : isQuote q = true) : q = '\'' ∨ q = '"' := by simpa [isQuote] using h

theorem ne_of_isQuote (hstop : isQuote stop = false) (hquote : isQuote q = true) : q ≠ stop := by
  rintro rfl
  rw [hstop] at hquote
  cases hquote

/-- What has neither quotes nor `stop` in it is closed. -/
theorem Closed.of_plain (h : ∀ c ∈ cs, c ≠ stop ∧ isQuote c = false) : Closed stop cs := by
  induction cs with
  | nil => exact .nil
  | cons c rest ih =>
    obtain ⟨hc, hrest⟩ := List.forall_mem_cons.1 h
    exact .plain hc.1 hc.2 (ih hrest)

theorem Closed.append (hcs : Closed stop cs) (hrest : Closed stop rest) : Closed stop (cs ++ rest) := by
  induction hcs with
  | nil => exact hrest
  | plain hc hquote _ ih => exact .plain hc hquote ih
  | quoted hquote hinner _ ih =>
    rw [List.cons_append, List.append_assoc, List.cons_append]
    exact .quoted hquote hinner ih

/-- A quoted text is closed if the quote does not occur in it. -/
theorem closed_quoted (hquote : isQuote q = true) (hinner : q ∉ inner) :
    Closed stop (q :: (inner ++ [q])) := .quoted hquote hinner .nil

/-- Inside quotes everything up to the next one is read. -/
theorem span_inside (stop : Char) (hinner : q ∉ inner) (rest : List Char) :
    span stop (some q) (inner ++ q :: rest) = (inner ++ q :: (span stop none rest).1, (span stop none rest).2) := by
  induction inner with
  | nil => simp [span]
  | cons c inner ih =>
    rw [List.mem_cons, not_or] at hinner
    simp [span, Ne.symm hinner.1, ih hinner.2]

theorem span_plain (hstop : q ≠ stop) (hquote : isQuote q = false) (rest : List Char) :
    span stop none (q :: rest) = (q :: (span stop none rest).1, (span stop none rest).2) := by
  simp [span, hstop, hquote]

theorem span_quoted (hstop : q ≠ stop) (hquote : isQuote q = true) (hinner : q ∉ inner) (rest : List Char) :
    span stop none (q :: (inner ++ q :: rest)) =
      (q :: (inner ++ q :: (span stop none rest).1), (span stop none rest).2) := by
  rw [span]
  simp [hstop, hquote, span_inside stop hinner]

/-- A closed value at the front is read, and reading goes on behind it. -/
theorem Closed.span_append (hstop : isQuote stop = false) (h : Closed stop cs) (rest : List Char) :
    span stop none (cs ++ rest) = (cs ++ (span stop none rest).1, (span stop none rest).2) := by
  induction h with
  | nil => rfl
  | plain hc hquote _ ih =>
    rw [List.cons_append, span_plain hc hquote, ih]
    rfl
  | quoted hquote hinner _ ih =>
    simp only [List.cons_append, List.append_assoc]
    rw [span_quoted (ne_of_isQuote hstop hquote) hquote hinner, ih]

/-- What is read of a text is closed, and it ends with the text, at `stop` or at a quote without a partner. -/
theorem closed_span (stop : Char) (cs : List Char) : Closed stop (span stop none cs).1 ∧
    ∀ c rest, (span stop none cs).2 = c :: rest → c = stop ∨ (isQuote c = true ∧ c ∉ rest) := by
  match cs with
  | [] => exact ⟨.nil, nofun⟩
  | c :: rest =>
    by_cases hstop : c = stop
    · simpa [span, hstop] using Closed.nil
    cases hquote : isQuote c with
    | false =>
      obtain ⟨closed, ends⟩ := closed_span stop rest
      rw [span_plain hstop hquote]
      exact ⟨.plain hstop hquote closed, ends⟩
    | true =>
      by_cases hpartner : c ∈ rest
      · obtain ⟨inner, back, rfl, hinner⟩ := List.eq_append_cons_of_mem hpartner
        obtain ⟨closed, ends⟩ := closed_span stop back
        rw [span_quoted hstop hquote hinner]
        exact ⟨.quoted hquote hinner closed, ends⟩
      · simpa [span, hpartner, hquote] using Closed.nil
termination_by cs.length

end FragmentEngine.Sections
