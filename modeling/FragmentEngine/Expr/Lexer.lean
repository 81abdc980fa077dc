import FragmentEngine.Decimal.Numeral
import FragmentEngine.Error
import FragmentEngine.Text.Letter
/-!
# Lexer

Cutting the text of an expression into tokens. Blanks separate tokens and are dropped; every other character
belongs to exactly one token. Positions count characters from the start of the text.
-/

namespace FragmentEngine

namespace Lexer

/-- A character that may start a name. -/
def startsName (c : Char) : Bool := Text.isLetter c || c == '_'

/-- A character that may stand in a name. -/
def continuesName (c : Char) : Bool := Text.isLetter c || Text.isNumeric c || c == '_'

/-- The text up to the closing quote, in which a doubled quote stands for one, and the number of characters
read. -/
def quoted (quote : Char) : List Char → Option (List Char × Nat)
  | [] => none
  | [c] => if c = quote then some ([], 1) else none
  | c :: d :: rest =>
    if c ≠ quote then (quoted quote (d :: rest)).map fun (text, n) => (c :: text, n + 1)
    else if d = quote then (quoted quote rest).map fun (text, n) => (quote :: text, n + 2)
    else some ([], 1)

/-- The characters of a number and whether it is a float. A point belongs to it if a digit follows and neither
a point nor an exponent came before; an exponent mark takes a sign along. -/
def numberSpan (isFloat : Bool) : List Char → List Char × Bool
  | [] => ([], isFloat)
  | [c] =>
    if c.isDigit then ([c], isFloat)
    else if c = 'e' ∨ c = 'E' then ([c], true)
    else ([], isFloat)
  | c :: d :: rest =>
    if c.isDigit then
      let (span, float) := numberSpan isFloat (d :: rest)
      (c :: span, float)
    else if c = '.' ∧ isFloat = false then
      if d.isDigit then
        let (span, float) := numberSpan true (d :: rest)
        (c :: span, float)
      else ([], isFloat)
    else if c = 'e' ∨ c = 'E' then
      if d = '+' ∨ d = '-' then
        let (span, float) := numberSpan true rest
        (c :: d :: span, float)
      else
        let (span, float) := numberSpan true (d :: rest)
        (c :: span, float)
    else ([], isFloat)

/-- The token of a number's characters. -/
def number? (span : List Char) (isFloat : Bool) : Option Token :=
  if isFloat then (Decimal.double? span).map .float else (Decimal.long? span).map .integer

/-- The token of a name's characters: a keyword or an identifier. -/
def word (span : List Char) : Token := (Token.keyword? span).getD (.identifier (String.ofList span))

/-- The token that starts with `c` at position `pos`, and how many characters of `rest` it takes along. -/
def lexeme (pos : Nat) (c : Char) (rest : List Char) : Except ParseError (Token × Nat) :=
  match c with
  | '(' => .ok (.leftParen, 0)
  | ')' => .ok (.rightParen, 0)
  | ',' => .ok (.comma, 0)
  | '.' => .ok (.dot, 0)
  | '+' => .ok (.plus, 0)
  | '-' => .ok (.minus, 0)
  | '*' => .ok (.asterisk, 0)
  | '/' => .ok (.slash, 0)
  | '%' => .ok (.percent, 0)
  | '=' => .ok (.eq, 0)
  | '<' =>
    match rest with
    | '=' :: _ => .ok (.le, 1)
    | '>' :: _ => .ok (.ne, 1)
    | _ => .ok (.lt, 0)
  | '>' =>
    match rest with
    | '=' :: _ => .ok (.ge, 1)
    | _ => .ok (.gt, 0)
  | '!' =>
    match rest with
    | '=' :: _ => .ok (.ne, 1)
    | _ => .error (.unexpectedCharacter '!' (pos + 1))
  | '?' =>
    let digits := rest.takeWhile Char.isDigit
    match (Decimal.count? digits).filter (0 < ·) with
    | some n => .ok (.placeholder n, digits.length)
    | none => .error (.invalidNumber pos)
  | _ =>
    if c = '\'' ∨ c = '"' then
      match quoted c rest with
      | some (text, n) => .ok (.string (String.ofList text), n)
      | none => .error (.unterminatedString pos)
    else if c.isDigit then
      let (span, isFloat) := numberSpan false (c :: rest)
      match number? span isFloat with
      | some t => .ok (t, span.length - 1)
      | none => .error (.invalidNumber pos)
    else if startsName c then
      let span := c :: rest.takeWhile continuesName
      .ok (word span, span.length - 1)
    else .error (.unexpectedCharacter c pos)

/-- The tokens of the characters from position `pos` on, of which the first `skip` belong to a token already
read. -/
def tokensFrom (pos : Nat) : Nat → List Char → Except ParseError (List Token)
  | _, [] => .ok [.endOfInput]
  | skip + 1, _ :: rest => tokensFrom (pos + 1) skip rest
  | 0, c :: rest =>
    if Text.isBlank c then tokensFrom (pos + 1) 0 rest
    else do
      let (token, more) ← lexeme pos c rest
      return token :: (← tokensFrom (pos + 1) more rest)

/-- The tokens of a text, ended by the end of input. -/
def tokens (cs : List Char) : Except ParseError (List Token) := tokensFrom 0 0 cs

theorem tokens_nil : tokens [] = .ok [.endOfInput] := rfl

example : tokens "f.v >= ?2 -- 1.5e+1.x 'it''s'".toList = .ok
    [.identifier "f", .dot, .identifier "v", .ge, .placeholder 2, .minus, .minus, .float ⟨0x402E000000000000⟩,
      .dot, .identifier "x", .string "it's", .endOfInput] := by rfl

example : tokens "a !b".toList = .error (.unexpectedCharacter '!' 3) := by rfl

end Lexer

end FragmentEngine
