import Mathlib.Algebra.GroupWithZero.Nat
import Mathlib.Algebra.Ring.Int.Defs
import FragmentEngine.Json.Printer
import FragmentEngine.Proofs.Json.Number
import FragmentEngine.Proofs.Json.Quoted
/-!
# Documents read back

A document whose numbers are whole and fit 64 bits is read back from its text, with whatever blanks it is written.
Twice the length of the text is always enough steps.
-/

namespace FragmentEngine.Json

open Decimal

/-- A document that reads back: all its numbers are whole and fit 64 bits. -/
inductive Plain : Json → Prop
  | null : Plain .null
  | bool (b : Bool) : Plain (.bool b)
  | int {n : Int} (low : -(2 ^ 63) ≤ n) (high : n < 2 ^ 64) : Plain (.int n)
  | string (t : String) : Plain (.string t)
  | array {items : List Json} (h : ∀ j ∈ items, Plain j) : Plain (.array items)
  | object {members : List (String × Json)} (h : ∀ m ∈ members, Plain m.2) : Plain (.object members)

/-- Blanks that may stand between the parts of a document. -/
def Blank (cs : List Char) : Prop := ∀ c ∈ cs, isSpace c = true

/-- Nothing but blanks is written between the parts. -/
structure Spacing.IsBlank (s : Spacing) : Prop where
  lineBreak : ∀ depth, Blank (s.lineBreak depth)
  afterColon : Blank s.afterColon

theorem Spacing.isBlank_indented : Spacing.indented.IsBlank where
  lineBreak depth c hc := by
    rcases List.mem_cons.1 hc with rfl | hc
    · rfl
    · rw [List.eq_of_mem_replicate hc]
      rfl
  afterColon c hc := by
    rw [List.mem_singleton.1 hc]
    rfl

theorem skip_blank {blank : List Char} (h : Blank blank) (cs : List Char) : skip (blank ++ cs) = skip cs :=
  List.dropWhile_append_of_pos h

theorem value_skip {blank : List Char} (h : Blank blank) (n : Nat) (cs : List Char) :
    value n (blank ++ cs) = value n cs := by
  cases n with
  | zero => rw [value, value]
  | succ n => rw [value, value, skip_blank h]

theorem skip_cons {c : Char} (h : isSpace c = false) (cs : List Char) : skip (c :: cs) = c :: cs := by
  simp [skip, h]

/-! ## What follows a number -/

theorem ends_nil : Literal.Ends [] := nofun

/-- Blanks and the marks between parts do not go on with a number. -/
theorem ends_cons {c : Char} (h : isSpace c = true ∨ c = ',' ∨ c = ']' ∨ c = '\x7d') (rest : List Char) :
    Literal.Ends (c :: rest) := by
  rintro _ ⟨⟩
  unfold isSpace at h
  simp only [Bool.or_eq_true, beq_iff_eq] at h
  rcases h with (((rfl | rfl) | rfl) | rfl) | rfl | rfl | rfl <;> decide

theorem ends_blank {blank : List Char} (h : Blank blank) {rest : List Char} (hrest : Literal.Ends rest) :
    Literal.Ends (blank ++ rest) := by
  cases blank with
  | nil => exact hrest
  | cons c cs => exact ends_cons (.inl (h c List.mem_cons_self)) _

/-! ## Reading what was written -/

/-- The text of a document in any place reads as the document. -/
def ReadsBack (s : Spacing) (j : Json) : Prop := ∀ (depth n : Nat) (blank rest : List Char), Blank blank →
  Literal.Ends rest → 2 * (write s depth j).length ≤ n →
  value n (blank ++ (write s depth j ++ rest)) = some (j, rest)

theorem digit_not_space {d : Char} (h : d.isDigit = true) : isSpace d = false ∧ d ≠ ']' ∧ d ≠ '"' ∧ d ≠ '[' ∧
    d ≠ '\x7b' ∧ d ≠ 'n' ∧ d ≠ 't' ∧ d ≠ 'f' ∧ d ≠ '-' := by
  refine ⟨?_, ?_, ?_, ?_, ?_, ?_, ?_, ?_, ?_⟩
  · rw [isSpace, Bool.eq_false_iff]
    intro hspace
    simp only [Bool.or_eq_true, beq_iff_eq] at hspace
    rcases hspace with ((rfl | rfl) | rfl) | rfl <;> exact absurd h (by decide)
  all_goals
    rintro rfl
    exact absurd h (by decide)

/-- The first character of a document is no blank and ends no array. -/
theorem write_head (s : Spacing) (depth : Nat) {j : Json} (h : Plain j) :
    ∃ c cs, write s depth j = c :: cs ∧ isSpace c = false ∧ c ≠ ']' := by
  cases h with
  | null => exact ⟨'n', _, rfl, rfl, by decide⟩
  | bool b => cases b <;> exact ⟨_, _, rfl, rfl, by decide⟩
  | string t => exact ⟨'"', _, rfl, rfl, by decide⟩
  | int low high =>
    rename_i n
    rw [write]
    split
    · exact ⟨'-', _, rfl, rfl, by decide⟩
    · obtain ⟨d, ds, hdigits, hd⟩ := digits_head n.natAbs
      obtain ⟨hspace, hclose, -⟩ := digit_not_space hd
      exact ⟨d, ds, hdigits, hspace, hclose⟩
  | array h =>
    rename_i items
    cases items with
    | nil => exact ⟨'[', _, rfl, rfl, by decide⟩
    | cons j js =>
      rw [write]
      exact ⟨'[', _, rfl, rfl, by decide⟩
  | object h =>
    rename_i members
    cases members with
    | nil => exact ⟨'\x7b', _, rfl, rfl, by decide⟩
    | cons m ms =>
      rw [write]
      exact ⟨'\x7b', _, rfl, rfl, by decide⟩

/-- A document takes at least one step. -/
theorem exists_step {s : Spacing} {depth n : Nat} {j : Json} (h : Plain j) (hn : 2 * (write s depth j).length ≤ n) :
    ∃ k, n = k + 1 := by
  obtain ⟨c, cs, hwrite, -⟩ := write_head s depth h
  rw [hwrite, List.length_cons] at hn
  exact ⟨n - 1, by omega⟩

/-- Members whose names have a value make an object. -/
theorem ofMembers_named (ms : List (String × Json)) : ofMembers (ms.map fun m => (some m.1, m.2)) = .object ms := by
  have hnames : (ms.map fun m => (some m.1, m.2)).mapM (fun m => m.1.map (·, m.2)) = some ms := by
    induction ms with
    | nil => rfl
    | cons m ms ih =>
      rw [List.map_cons, List.mapM_cons, ih]
      rfl
  unfold ofMembers
  split
  · rename_i members h
    cases hnames.symm.trans h
    rfl
  · rename_i h
    cases hnames.symm.trans h

section

variable {s : Spacing} (hs : s.IsBlank)

include hs

theorem items_write (depth : Nat) (rest : List Char) {n : Nat} {blank close : List Char} {j : Json} {js : List Json}
    (h : ∀ x ∈ j :: js, ReadsBack s x) (hblank : Blank blank) (hclose : Blank close)
    (hn : 2 * (write s depth j ++ writeItems s depth js).length < n) :
    items n (blank ++ (write s depth j ++ (writeItems s depth js ++ (close ++ ']' :: rest)))) =
      some (j :: js, rest) := by
  have hfirst := h j List.mem_cons_self
  rw [List.length_append] at hn
  induction js generalizing j n blank with
  | nil =>
    obtain ⟨n, rfl⟩ : ∃ k, n = k + 1 := ⟨n - 1, by omega⟩
    have hends : Literal.Ends (close ++ ']' :: rest) := ends_blank hclose (ends_cons (by simp) rest)
    rw [writeItems, List.nil_append, items, hfirst depth n blank _ hblank hends (by omega)]
    simp only [skip_blank hclose, skip_cons (c := ']') rfl]
  | cons k ks ih =>
    obtain ⟨n, rfl⟩ : ∃ k, n = k + 1 := ⟨n - 1, by omega⟩
    simp only [writeItems, List.cons_append, List.append_assoc, List.length_cons, List.length_append] at hn ⊢
    have hothers := ih (n := n) (fun x hx => h x (List.mem_cons_of_mem j hx)) (hs.lineBreak depth) (by omega)
      (h k (by simp))
    rw [items, hfirst depth n blank _ hblank (ends_cons (by simp) _) (by omega)]
    simp only [skip_cons (c := ',') rfl, hothers, Option.map_some]

theorem members_write (depth : Nat) (rest : List Char) {n : Nat} {blank close : List Char} {m : String × Json}
    {ms : List (String × Json)}
    (h : ∀ x ∈ m :: ms, ReadsBack s x.2) (hblank : Blank blank) (hclose : Blank close)
    (hn : 2 * (Quoted.write m.1 ++ ':' :: s.afterColon ++ write s depth m.2 ++ writeMembers s depth ms).length < n) :
    members n (blank ++ (Quoted.write m.1 ++ (':' :: (s.afterColon ++ (write s depth m.2 ++
      (writeMembers s depth ms ++ (close ++ '\x7d' :: rest))))))) =
        some ((m :: ms).map fun x => (some x.1, x.2), rest) := by
  have hfirst := h m List.mem_cons_self
  simp only [List.length_append, List.length_cons] at hn
  induction ms generalizing m n blank with
  | nil =>
    obtain ⟨n, rfl⟩ : ∃ k, n = k + 1 := ⟨n - 1, by omega⟩
    have hends : Literal.Ends (close ++ '\x7d' :: rest) := ends_blank hclose (ends_cons (by simp) rest)
    rw [writeMembers, List.nil_append, members, skip_blank hblank, Quoted.write_append, skip_cons rfl]
    simp only [quoted_written, skip_cons (c := ':') rfl, hfirst depth n _ _ hs.afterColon hends (by omega),
      skip_blank hclose, skip_cons (c := '\x7d') rfl]
    rfl
  | cons k ks ih =>
    obtain ⟨n, rfl⟩ : ∃ k, n = k + 1 := ⟨n - 1, by omega⟩
    obtain ⟨name, j⟩ := k
    simp only [writeMembers, List.cons_append, List.append_assoc, List.length_cons, List.length_append] at hn ⊢
    have hothers := ih (n := n) (m := (name, j)) (fun x hx => h x (List.mem_cons_of_mem m hx)) (hs.lineBreak depth)
      (h (name, j) (by simp)) (by simp only; omega)
    rw [members, skip_blank hblank, Quoted.write_append, skip_cons rfl]
    simp only [quoted_written, skip_cons (c := ':') rfl,
      hfirst depth n _ _ hs.afterColon (ends_cons (c := ',') (by simp) _) (by omega), skip_cons (c := ',') rfl, hothers]
    rfl

theorem readsBack_array {items : List Json} (h : ∀ x ∈ items, Plain x) (ih : ∀ x ∈ items, ReadsBack s x) :
    ReadsBack s (.array items) := by
  intro depth n blank rest hblank hrest hn
  obtain ⟨n, rfl⟩ := exists_step (.array h) hn
  rw [value_skip hblank]
  cases items with
  | nil => rfl
  | cons j js =>
    simp only [write, List.cons_append, List.append_assoc, List.length_cons, List.length_append] at hn ⊢
    have hitems := items_write hs (depth + 1) rest (n := n) ih (hs.lineBreak (depth + 1))
      (hs.lineBreak depth) (by rw [List.length_append]; omega)
    -- The first item does not close the array.
    obtain ⟨c, cs, hwrite, hspace, hbracket⟩ := write_head s (depth + 1) (h j List.mem_cons_self)
    rw [value, skip_cons rfl]
    simp only [skip_blank (hs.lineBreak (depth + 1))]
    split
    · rename_i tail heq
      rw [hwrite, List.cons_append, skip_cons hspace] at heq
      cases heq
      exact absurd rfl hbracket
    · rw [List.nil_append, hitems]
      rfl

theorem readsBack_object {ms : List (String × Json)} (h : ∀ m ∈ ms, Plain m.2) (ih : ∀ m ∈ ms, ReadsBack s m.2) :
    ReadsBack s (.object ms) := by
  intro depth n blank rest hblank hrest hn
  obtain ⟨n, rfl⟩ := exists_step (.object h) hn
  rw [value_skip hblank]
  cases ms with
  | nil => rfl
  | cons m ms =>
    obtain ⟨name, j⟩ := m
    simp only [write, List.cons_append, List.append_assoc, List.length_cons, List.length_append] at hn ⊢
    have hmembers := members_write hs (depth + 1) rest (n := n) (m := (name, j)) ih
      (hs.lineBreak (depth + 1)) (hs.lineBreak depth) (by simp only [List.length_append, List.length_cons]; omega)
    rw [value, skip_cons rfl]
    simp only [skip_blank (hs.lineBreak (depth + 1))]
    split
    · rename_i tail heq
      rw [Quoted.write_append, skip_cons rfl] at heq
      cases heq
    · rw [List.nil_append, hmembers, Option.map_some, ofMembers_named]

omit hs in
theorem value_number {n : Nat} {c : Char} {cs : List Char} (hspace : isSpace c = false) (hquote : c ≠ '"')
    (harray : c ≠ '[') (hobject : c ≠ '\x7b') (hnull : c ≠ 'n') (htrue : c ≠ 't') (hfalse : c ≠ 'f') :
    value (n + 1) (c :: cs) = (Literal.read? (c :: cs)).map fun p => (p.1.toJson, p.2) := by
  rw [value, skip_cons hspace]
  split <;> simp_all

omit hs in
theorem readsBack_int {i : Int} (low : -(2 ^ 63) ≤ i) (high : i < 2 ^ 64) : ReadsBack s (.int i) := by
  intro depth n blank rest hblank hrest hn
  have hlow : Nat.pow 2 63 = 9223372036854775808 := rfl
  have hhigh : Nat.pow 2 64 = 18446744073709551616 := rfl
  obtain ⟨d, ds, hdigits, hd⟩ := digits_head i.natAbs
  obtain ⟨n, rfl⟩ := exists_step (.int low high) hn
  rw [value_skip hblank, write]
  by_cases hneg : i < 0
  · rw [if_pos hneg, List.cons_append, value_number rfl (by decide) (by decide) (by decide) (by decide) (by decide)
      (by decide), Literal.read_negative _ hrest, Option.map_some, Literal.toJson_negative (by omega) (by omega)]
    have hi : -(i.natAbs : Int) = i := by omega
    rw [hi]
  · obtain ⟨hspace, -, hquote, harray, hobject, hnull, htrue, hfalse, -⟩ := digit_not_space hd
    have hread := Literal.read_digits i.natAbs hrest
    have hi : (i.natAbs : Int) = i := by omega
    rw [if_neg hneg]
    rw [hdigits, List.cons_append] at hread ⊢
    rw [value_number hspace hquote harray hobject hnull htrue hfalse, hread, Option.map_some, ← hdigits,
      Literal.toJson_digits (by omega), hi]

/-- A plain document is read back, and its parts within it. -/
theorem readsBack_of_plain {j : Json} (h : Plain j) : ReadsBack s j := by
  induction h with
  | null =>
    intro depth n blank rest hblank hrest hn
    obtain ⟨n, rfl⟩ := exists_step .null hn
    rw [value_skip hblank]
    rfl
  | bool b =>
    intro depth n blank rest hblank hrest hn
    obtain ⟨n, rfl⟩ := exists_step (.bool b) hn
    rw [value_skip hblank]
    cases b <;> rfl
  | int low high => exact readsBack_int low high
  | string t =>
    intro depth n blank rest hblank hrest hn
    obtain ⟨n, rfl⟩ := exists_step (.string t) hn
    rw [value_skip hblank, write, Quoted.write_append, value, skip_cons rfl]
    simp only [quoted_written]
    rfl
  | array h ih => exact readsBack_array hs h ih
  | object h ih => exact readsBack_object hs h ih

/-- The text of a plain document has the document as its value. -/
theorem parse_write {j : Json} (h : Plain j) : parse (write s 0 j) = some j := by
  have hread := readsBack_of_plain hs h 0 (2 * (write s 0 j).length + 2) [] [] nofun ends_nil (by omega)
  rw [List.nil_append, List.append_nil] at hread
  unfold parse
  rw [hread]
  rfl

end

/-- An indented document is read back. -/
theorem parse_indented {j : Json} (h : Plain j) : parse j.indented.toList = some j := by
  unfold indented
  rw [String.toList_ofList]
  exact parse_write Spacing.isBlank_indented h

end FragmentEngine.Json
