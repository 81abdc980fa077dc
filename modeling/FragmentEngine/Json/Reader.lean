import FragmentEngine.Json.Number
import FragmentEngine.Json.Quoted
/-!
# Reading JSON

The document that a text spells. Blanks may stand around every part, and nothing else may follow the
document.
-/

namespace FragmentEngine.Json

/-- The blanks that JSON allows between its parts. -/
def isSpace (c : Char) : Bool := c == ' ' || c == '\n' || c == '\t' || c == '\r'

def skip (cs : List Char) : List Char := cs.dropWhile isSpace

/-- Reads a text after its opening quote; it is absent if it has no value. -/
def quoted? (cs : List Char) : Option (Option String × List Char) :=
  (Quoted.codes? cs).map fun (codes, rest) => ((Quoted.ofCodes? codes).map String.ofList, rest)

/-- The object of named members; one name without a value spoils it. -/
def ofMembers (members : List (Option String × Json)) : Json :=
  match members.mapM fun (name, j) => name.map (·, j) with
  | some members => .object members
  | none => .unreadable

mutual

/-- Reads a document at the front of a text, in at most the given number of steps. -/
def value : Nat → List Char → Option (Json × List Char)
  | 0, _ => none
  | n + 1, cs =>
    match skip cs with
    | 'n' :: 'u' :: 'l' :: 'l' :: rest => some (.null, rest)
    | 't' :: 'r' :: 'u' :: 'e' :: rest => some (.bool true, rest)
    | 'f' :: 'a' :: 'l' :: 's' :: 'e' :: rest => some (.bool false, rest)
    | '"' :: rest => (quoted? rest).map fun (s, rest) => ((s.map string).getD .unreadable, rest)
    | '[' :: rest =>
      match skip rest with
      | ']' :: rest => some (.array [], rest)
      | _ => (items n rest).map fun (js, rest) => (.array js, rest)
    | '\x7b' :: rest =>
      match skip rest with
      | '\x7d' :: rest => some (.object [], rest)
      | _ => (members n rest).map fun (ms, rest) => (ofMembers ms, rest)
    | cs => (Literal.read? cs).map fun (l, rest) => (l.toJson, rest)

/-- Reads the items of an array up to its end. -/
def items : Nat → List Char → Option (List Json × List Char)
  | 0, _ => none
  | n + 1, cs =>
    match value n cs with
    | none => none
    | some (j, rest) =>
      match skip rest with
      | ',' :: rest => (items n rest).map fun (js, rest) => (j :: js, rest)
      | ']' :: rest => some ([j], rest)
      | _ => none

/-- Reads the members of an object up to its end. -/
def members : Nat → List Char → Option (List (Option String × Json) × List Char)
  | 0, _ => none
  | n + 1, cs =>
    match skip cs with
    | '"' :: rest =>
      match quoted? rest with
      | none => none
      | some (name, rest) =>
        match skip rest with
        | ':' :: rest =>
          match value n rest with
          | none => none
          | some (j, rest) =>
            match skip rest with
            | ',' :: rest => (members n rest).map fun (ms, rest) => ((name, j) :: ms, rest)
            | '\x7d' :: rest => some ([(name, j)], rest)
            | _ => none
        | _ => none
    | _ => none

end

/-- The document of a text. Every step but the entry into a container takes in a character, so twice the
length of the text is enough steps. -/
def parse (text : List Char) : Option Json :=
  match value (2 * text.length + 2) text with
  | some (j, rest) => if (skip rest).isEmpty then some j else none
  | none => none

end FragmentEngine.Json
