import FragmentEngine.Bytes
/-!
# Texts in JSON

Texts between double quotes. Quotes, backslashes and control characters are escaped; any character may be
written by one or two groups of four hexadecimal digits.
-/

namespace FragmentEngine.Json.Quoted

/-! ## Writing -/

/-- The escape of a character below 32 that has no letter. -/
def hexEscape (n : Nat) : List Char :=
  ['\\', 'u', '0', '0', Bytes.hexDigit (n / 16), Bytes.hexDigit (n % 16)]

/-- A character as it stands between the quotes. -/
def writeChar (c : Char) : List Char :=
  if c = '"' then ['\\', '"']
  else if c = '\\' then ['\\', '\\']
  else if c = '\n' then ['\\', 'n']
  else if c = '\r' then ['\\', 'r']
  else if c = '\t' then ['\\', 't']
  else if c = '\x08' then ['\\', 'b']
  else if c = '\x0c' then ['\\', 'f']
  else if c.toNat < 32 then hexEscape c.toNat
  else [c]

/-- A text with its quotes. -/
def write (s : String) : List Char := '"' :: s.toList.flatMap writeChar ++ ['"']

/-! ## Reading -/

/-- The character that a letter after a backslash stands for. -/
def letter? (c : Char) : Option Char :=
  if c = '"' ∨ c = '\\' ∨ c = '/' then some c
  else if c = 'n' then some '\n'
  else if c = 'r' then some '\r'
  else if c = 't' then some '\t'
  else if c = 'b' then some '\x08'
  else if c = 'f' then some '\x0c'
  else none

/-- The number spelled by four hexadecimal digits. -/
def hex? (a b c d : Char) : Option Nat :=
  match Bytes.hexValue a, Bytes.hexValue b, Bytes.hexValue c, Bytes.hexValue d with
  | some a, some b, some c, some d => some (a * 4096 + b * 256 + c * 16 + d)
  | _, _, _, _ => none

/-- The code points up to the closing quote, halves of surrogate pairs among them, and what follows it. -/
def codes? : List Char → Option (List Nat × List Char)
  | [] => none
  | '"' :: rest => some ([], rest)
  | '\\' :: 'u' :: a :: b :: c :: d :: rest =>
    match hex? a b c d, codes? rest with
    | some n, some (codes, rest) => some (n :: codes, rest)
    | _, _ => none
  | '\\' :: c :: rest =>
    match letter? c, codes? rest with
    | some c, some (codes, rest) => some (c.toNat :: codes, rest)
    | _, _ => none
  | c :: rest =>
    if c.toNat < 32 then none
    else match codes? rest with
      | some (codes, rest) => some (c.toNat :: codes, rest)
      | none => none

def isHigh (n : Nat) : Bool := 0xD800 ≤ n && n < 0xDC00

def isLow (n : Nat) : Bool := 0xDC00 ≤ n && n < 0xE000

/-- The characters of code points in which surrogates come in pairs. -/
def ofCodes? : List Nat → Option (List Char)
  | [] => some []
  | [n] => if isHigh n || isLow n then none else some [Char.ofNat n]
  | n :: m :: rest =>
    if isLow n then none
    else if isHigh n then
      if isLow m then (ofCodes? rest).map (Char.ofNat (0x10000 + (n - 0xD800) * 0x400 + (m - 0xDC00)) :: ·)
      else none
    else (ofCodes? (m :: rest)).map (Char.ofNat n :: ·)

example : (codes? "a\\ud83d\\ude00\\n\"x".toList).bind (fun p => ofCodes? p.1) = some "a😀\n".toList := by
  decide +kernel

example : (codes? "\\ud83d\"".toList).bind (fun p => ofCodes? p.1) = none := by decide +kernel

end FragmentEngine.Json.Quoted
