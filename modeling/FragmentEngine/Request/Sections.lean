import FragmentEngine.Error
import FragmentEngine.Text.Split
/-!
# Quoted sections

Values in which quoted sections are kept whole: a separator inside quotes does not separate. A section runs
from a quote to the next one of the same kind, and a quote without a partner ends what can be read.
-/

namespace FragmentEngine.Sections

def isQuote (c : Char) : Bool := c == '\'' || c == '"'

/-- The longest front of the text that is made of closed quoted sections and of characters other than quotes
and `stop`, and the rest. `inside` is the quote that is open. -/
def span (stop : Char) (inside : Option Char) : List Char → List Char × List Char
  | [] => ([], [])
  | c :: rest =>
    match inside with
    | some q =>
      let (front, back) := span stop (if c = q then none else some q) rest
      (c :: front, back)
    | none =>
      if c = stop ∨ (isQuote c ∧ c ∉ rest) then ([], c :: rest)
      else
        let (front, back) := span stop (if isQuote c then some c else none) rest
        (c :: front, back)

theorem span_append (stop : Char) (inside : Option Char) (cs : List Char) :
    (span stop inside cs).1 ++ (span stop inside cs).2 = cs := by
  induction cs generalizing inside with
  | nil => rfl
  | cons c rest ih =>
    cases inside with
    | some q => simp [span, ih]
    | none =>
      simp only [span]
      split
      · rfl
      · simp [ih]

theorem length_span_le (stop : Char) (inside : Option Char) (cs : List Char) :
    (span stop inside cs).2.length ≤ cs.length := by
  have := congrArg List.length (span_append stop inside cs)
  simp only [List.length_append] at this
  omega

/-- The entries between the bars outside quotes. Fails with what follows the last entry if that is a quote
without a partner. -/
def entries (cs : List Char) : Except (List Char) (List (List Char)) :=
  match _span : span '|' none cs with
  | (entry, []) => .ok [entry]
  | (entry, c :: more) =>
    if c = '|' then (entries more).map (entry :: ·) else .error (c :: more)
termination_by cs.length
decreasing_by
  have := length_span_le '|' none cs
  rw [_span] at this
  simp only [List.length_cons] at this
  omega

/-- The trimmed entries of a list. -/
def list (text : String) : Except Error (List String) :=
  match entries text.toList with
  | .ok parts => .ok (parts.map fun part => String.ofList (Text.trim part))
  | .error rest => .error (.parse (.malformedList text rest))

/-- Whether a trimmed text starts and ends with the same quote. -/
def isQuoted (cs : List Char) : Bool :=
  match cs with
  | q :: rest => isQuote q && rest.getLast? == some q
  | [] => false

/-- The trimmed text without the quotes around it. -/
def unquote (cs : List Char) : List Char :=
  let t := Text.trim cs
  if isQuoted t then t.tail.dropLast else t

example : (entries "a|'b|c' |".toList).toOption = some ["a".toList, "'b|c' ".toList, []] := by decide +kernel

end FragmentEngine.Sections
