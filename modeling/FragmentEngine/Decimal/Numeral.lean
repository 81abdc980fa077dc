import FragmentEngine.Decimal.Whole
import FragmentEngine.Binary64
/-!
# Numerals

Reading a number with a point and an exponent. A numeral is an optional sign, then digits with at most one
point among or beside them and an optional power of ten, or the words `inf`, `infinity` and `nan` in any case.
-/

namespace FragmentEngine.Decimal

/-- What the characters after the sign stand for. -/
inductive Numeral where
  /-- The number `m * 10 ^ e`. -/
  | finite (m : Nat) (e : Int)
  | infinite
  | nan
  deriving DecidableEq

/-- Reads an exponent: digits after an optional sign. -/
def exponent? (cs : List Char) : Option Int := signed? cs

/-- Reads digits with a point and an exponent. -/
def Numeral.ofDigits? (cs : List Char) : Option Numeral :=
  let whole := cs.takeWhile Char.isDigit
  let rest := cs.dropWhile Char.isDigit
  let (fraction, rest) := match rest with
    | '.' :: after => (after.takeWhile Char.isDigit, after.dropWhile Char.isDigit)
    | _ => ([], rest)
  if whole.isEmpty && fraction.isEmpty then none
  else
    let m := foldDigits 0 (whole ++ fraction)
    match rest with
    | [] => some (.finite m (-(fraction.length : Int)))
    | c :: power =>
      if c = 'e' ∨ c = 'E' then
        (exponent? power).map fun e => .finite m (e - fraction.length)
      else none

/-- Reads what follows the sign. -/
def Numeral.read? (cs : List Char) : Option Numeral :=
  let word := cs.map Char.toLower
  if word = ['i', 'n', 'f'] ∨ word = ['i', 'n', 'f', 'i', 'n', 'i', 't', 'y'] then some .infinite
  else if word = ['n', 'a', 'n'] then some .nan
  else Numeral.ofDigits? cs

/-- The nearest number to a numeral. -/
def Numeral.toBinary64 : Numeral → Binary64
  | .finite m e => Binary64.ofScientific m e
  | .infinite => Binary64.infinity
  | .nan => Binary64.nan

/-- Reads a double. -/
def double? (cs : List Char) : Option Binary64 :=
  match cs with
  | '-' :: rest => (Numeral.read? rest).map fun n => n.toBinary64.neg
  | '+' :: rest => (Numeral.read? rest).map Numeral.toBinary64
  | _ => (Numeral.read? cs).map Numeral.toBinary64

example : double? "-.5e1".toList = some ⟨0xC014000000000000⟩ ∧ double? "5.".toList = some ⟨0x4014000000000000⟩ := by
  decide +kernel

example : double? ".".toList = none ∧ double? "1e".toList = none ∧ double? "+-1".toList = none := by decide +kernel

example : double? "1e400".toList = some Binary64.infinity ∧ double? "Inf".toList = some Binary64.infinity := by
  decide +kernel

end FragmentEngine.Decimal
