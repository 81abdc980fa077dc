import FragmentEngine.Text.Boundaries
/-!
# Blank characters

The characters with the property White_Space, and trimming them from the ends of a text.
-/

namespace FragmentEngine.Text

/-- The boundaries of White_Space. -/
def blankBoundaries : List Nat :=
  [9, 14, 32, 33, 133, 134, 160, 161, 5760, 5761, 8192, 8203, 8232, 8234, 8239, 8240, 8287, 8288, 12288,
   12289]

/-- A blank separates words and is trimmed from the ends of a text. -/
def isBlank (c : Char) : Bool := within blankBoundaries c.toNat

/-- The text without the characters at its end that satisfy `p`. -/
def dropEnd (p : Char → Bool) (cs : List Char) : List Char := (cs.reverse.dropWhile p).reverse

/-- The text without the blanks at both ends. -/
def trim (cs : List Char) : List Char := dropEnd isBlank (cs.dropWhile isBlank)

/-- `trim` on strings. -/
def trimmed (s : String) : String := String.ofList (trim s.toList)

theorem trim_nil : trim [] = [] := rfl

example : [' ', '\t', '\n', '\r', '\x0b', '\x0c', '\u00a0', '\u3000'].all isBlank = true := by decide

example : ['\u200b', '_', 'a', '\x00'].any isBlank = false := by decide

end FragmentEngine.Text
