import FragmentEngine.Decimal.Layout
/-!
# Tokens

The words of the expression language, each with the text it is shown by.
-/

namespace FragmentEngine

inductive Token where
  | and
  | or
  | not
  | mod
  | identifier (name : String)
  /-- A positional argument such as `?2`. -/
  | placeholder (position : Nat)
  | integer (n : Long)
  | float (x : Binary64)
  | string (text : String)
  | plus
  | minus
  | asterisk
  | slash
  | percent
  | eq
  | ne
  | lt
  | gt
  | le
  | ge
  | leftParen
  | rightParen
  | comma
  | dot
  | endOfInput
  deriving DecidableEq

namespace Token

/-- The token as shown in messages. -/
def display : Token → String
  | .and => "AND"
  | .or => "OR"
  | .not => "NOT"
  | .mod => "MOD"
  | .identifier name => name
  | .placeholder n => s!"?{n}"
  | .integer n => toString n.toInt
  | .float x => Decimal.display x
  | .string text => s!"'{text}'"
  | .plus => "+"
  | .minus => "-"
  | .asterisk => "*"
  | .slash => "/"
  | .percent => "%"
  | .eq => "="
  | .ne => "<>"
  | .lt => "<"
  | .gt => ">"
  | .le => "<="
  | .ge => ">="
  | .leftParen => "("
  | .rightParen => ")"
  | .comma => ","
  | .dot => "."
  | .endOfInput => "end of input"

/-- The keyword spelled by a word, in any case. -/
def keyword? (word : List Char) : Option Token :=
  match word.map Char.toUpper with
  | ['A', 'N', 'D'] => some .and
  | ['O', 'R'] => some .or
  | ['N', 'O', 'T'] => some .not
  | ['M', 'O', 'D'] => some .mod
  | _ => none

end Token

end FragmentEngine
