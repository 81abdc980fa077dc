import FragmentEngine.Engine.Result
/-!
# Results as tables

Rows drawn between rules. A column is as wide as the longest of its name and values in bytes; names are
centred and values stand on the right, counted in characters. A column that is too wide for text to be padded
to it cannot be drawn.
-/

namespace FragmentEngine.Table

def blanks (n : Nat) : String := String.ofList (List.replicate n ' ')

/-- The text in the middle of `width` characters, one more blank after it than before if need be. -/
def centred (width : Nat) (text : String) : String :=
  let free := width - text.length
  blanks (free / 2) ++ text ++ blanks (free - free / 2)

/-- The text at the end of `width` characters. -/
def rightAligned (width : Nat) (text : String) : String := blanks (width - text.length) ++ text

/-- The widths that fit a row as well. -/
def widen : List Nat → List String → List Nat
  | w :: ws, text :: texts => max w text.utf8ByteSize :: widen ws texts
  | ws, _ => ws

/-- The widths of the columns. -/
def widths (names : List String) (rows : List (List String)) : List Nat :=
  rows.foldl widen (names.map String.utf8ByteSize)

/-- A rule between the rows. -/
def rule (widths : List Nat) : String :=
  let line := "+".intercalate (widths.map fun w => String.ofList (List.replicate (w + 2) '-'))
  s!"+{line}+\n"

/-- A row of cells between bars. -/
def row (align : Nat → String → String) (widths : List Nat) (texts : List String) : String :=
  let line := "|".intercalate ((texts.zip widths).map fun (text, w) => s!" {align w text} ")
  s!"|{line}|\n"

/-- The table of named columns, with a count of its rows below. -/
def text (names : List String) (rows : List (List String)) : String :=
  let ws := widths names rows
  let body := String.join (rows.map (row rightAligned ws))
  let closing := if rows.isEmpty then "" else rule ws
  s!"{rule ws}{row centred ws names}{rule ws}{body}{closing}{rows.length} row(s) returned\n"

/-- The greatest width to which text is padded: a width has 16 bits. -/
def maxWidth : Nat := 65535

/-- The table, if no column is too wide. -/
def render (names : List String) (rows : List (List String)) : Except Error String :=
  if (widths names rows).all (· ≤ maxWidth) then .ok (text names rows) else .error .overflow

end FragmentEngine.Table
