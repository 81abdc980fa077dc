import FragmentEngine.Text.Blank
/-!
# Splitting text

Cutting a text at a character: once, at the last place, everywhere, or into lines and words. The cuts
themselves are dropped and everything else is kept in order.
-/

namespace FragmentEngine.Text

/-- The parts before and after the first `sep`. -/
def splitOnce (sep : Char) : List Char → Option (List Char × List Char)
  | [] => none
  | c :: rest =>
    if c = sep then some ([], rest)
    else (splitOnce sep rest).map fun (a, b) => (c :: a, b)

/-- The parts before and after the last `sep`. -/
def splitLast (sep : Char) : List Char → Option (List Char × List Char)
  | [] => none
  | c :: rest =>
    match splitLast sep rest with
    | some (a, b) => some (c :: a, b)
    | none => if c = sep then some ([], rest) else none

/-- The maximal runs without a character of `p`, in order, empty ones included. -/
def splitAll (p : Char → Bool) : List Char → List (List Char)
  | [] => [[]]
  | c :: rest =>
    if p c then [] :: splitAll p rest
    else match splitAll p rest with
      | [] => [[c]]
      | part :: parts => (c :: part) :: parts

/-- The words between blanks. -/
def words (cs : List Char) : List (List Char) := (splitAll isBlank cs).filter (!·.isEmpty)

/-- The line without the carriage return that ends it. -/
def dropCarriageReturn (line : List Char) : List Char :=
  match line.reverse with
  | '\r' :: rest => rest.reverse
  | _ => line

/-- The lines of a text. Each line feed ends one, with the carriage return before it, and what follows
the last line feed is a line if it is not empty. -/
def lines : List Char → List (List Char)
  | cs =>
    let parts := splitAll (· == '\n') cs
    let last := parts.getLast?.getD []
    parts.dropLast.map dropCarriageReturn ++ if last.isEmpty then [] else [last]

theorem splitOnce_nil (sep : Char) : splitOnce sep [] = none := rfl

theorem splitOnce_eq_none {sep : Char} {cs : List Char} (h : sep ∉ cs) : splitOnce sep cs = none := by
  induction cs with
  | nil => rfl
  | cons c rest ih =>
    rw [List.mem_cons, not_or] at h
    rw [splitOnce, if_neg (Ne.symm h.1), ih h.2]
    rfl

/-- The first separator is the one before which there is none. -/
theorem splitOnce_append {sep : Char} {cs rest : List Char} (h : sep ∉ cs) :
    splitOnce sep (cs ++ sep :: rest) = some (cs, rest) := by
  induction cs with
  | nil => simp [splitOnce]
  | cons c cs ih =>
    rw [List.mem_cons, not_or] at h
    simp [splitOnce, Ne.symm h.1, ih h.2]

theorem splitLast_eq_none {sep : Char} {cs : List Char} (h : sep ∉ cs) : splitLast sep cs = none := by
  induction cs with
  | nil => rfl
  | cons c rest ih =>
    rw [List.mem_cons, not_or] at h
    rw [splitLast, ih h.2]
    exact if_neg (Ne.symm h.1)

/-- The last separator is the one behind which there is none. -/
theorem splitLast_append {sep : Char} {cs rest : List Char} (h : sep ∉ rest) :
    splitLast sep (cs ++ sep :: rest) = some (cs, rest) := by
  induction cs with
  | nil =>
    rw [List.nil_append, splitLast, splitLast_eq_none h]
    exact if_pos rfl
  | cons c cs ih => rw [List.cons_append, splitLast, ih]

theorem splitAll_ne_nil (p : Char → Bool) (cs : List Char) : splitAll p cs ≠ [] := by
  cases cs with
  | nil => simp [splitAll]
  | cons c rest =>
    simp only [splitAll]
    split
    · simp
    · split <;> simp

example : lines "a\r\n\nb\r".toList = ["a".toList, [], "b\r".toList] := by decide +kernel

example : splitLast '.' "a.b.c".toList = some ("a.b".toList, "c".toList) := by decide +kernel

end FragmentEngine.Text
