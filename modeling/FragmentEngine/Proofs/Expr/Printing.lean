import FragmentEngine.Expr.Parser
import FragmentEngine.Text.Split
/-!
# Printed expressions

The tokens of a tree with no more parentheses than its operators need, and how deep the parser nests on them.

Levels count from the loosest: 0 `OR`, 1 `AND`, 2 `NOT`, 3 comparisons, 4 `+ -`, 5 `* / MOD`, 6 signs, and 7 for
literals, names, calls and parentheses.
-/

namespace FragmentEngine

namespace BinaryOp

def level : BinaryOp → Nat
  | .or => 0
  | .and => 1
  | .eq | .ne | .lt | .gt | .le | .ge => 3
  | .add | .sub => 4
  | .mul | .div | .mod => 5

/-- The loosest level a left operand has without parentheses. Comparisons do not chain. -/
def leftLevel (op : BinaryOp) : Nat := if op.isComparison then op.level + 1 else op.level

/-- The loosest level a right operand has without parentheses: operators group from the left. -/
def rightLevel (op : BinaryOp) : Nat := op.level + 1

def token : BinaryOp → Token
  | .mul => .asterisk
  | .div => .slash
  | .add => .plus
  | .sub => .minus
  | .mod => .mod
  | .eq => .eq
  | .ne => .ne
  | .lt => .lt
  | .gt => .gt
  | .le => .le
  | .ge => .ge
  | .and => .and
  | .or => .or

theorem level_le (op : BinaryOp) : op.level ≤ 5 := by cases op <;> decide

/-- Only comparisons do not chain. -/
theorem level_of_isComparison {op : BinaryOp} (h : op.isComparison = true) : op.level = 3 := by
  cases op <;> first | rfl | contradiction

end BinaryOp

namespace Token

/-- A name as the lexer reads it: a letter or an underscore, then letters, digits and underscores, and no
keyword. -/
def isName (s : String) : Bool :=
  match s.toList with
  | [] => false
  | c :: rest => Lexer.startsName c && rest.all Lexer.continuesName && (keyword? (c :: rest)).isNone

theorem isName_head {s : String} (h : isName s = true) :
    ∃ c rest, s.toList = c :: rest ∧ Lexer.startsName c = true := by
  unfold isName at h
  split at h
  · cases h
  next c rest chars =>
    simp only [Bool.and_eq_true] at h
    exact ⟨c, rest, chars, h.1.1⟩

/-- The parts of a dotted name. -/
def path : List (List Char) → List Token
  | [] => []
  | part :: rest =>
    .identifier (String.ofList part) :: rest.flatMap fun part => [.dot, .identifier (String.ofList part)]

/-- A placeholder for a name with a question mark, else the parts of the name. -/
def ofVariable (name : String) : List Token :=
  match name.toList with
  | '?' :: digits => [.placeholder (Nat.ofDigitChars 10 digits 0)]
  | cs => path (Text.splitAll (· == '.') cs)

theorem ofVariable_placeholder (n : Nat) : ofVariable s!"?{n}" = [.placeholder n] := by
  have chars : (s!"?{n}").toList = '?' :: Nat.toDigits 10 n := by
    rw [String.toList_append, Nat.toString_eq_ofList_toDigits, String.toList_ofList]
    rfl
  simp only [ofVariable, chars, Nat.ofDigitChars_ten_toDigits]

theorem ofVariable_path {parts : List String} (nonempty : parts ≠ []) (names : ∀ part ∈ parts, isName part = true) :
    ofVariable (".".intercalate parts) = path (Text.splitAll (· == '.') (".".intercalate parts).toList) := by
  obtain ⟨part, others, rfl⟩ := List.exists_cons_of_ne_nil nonempty
  obtain ⟨c, rest, chars, starts⟩ := isName_head (names part List.mem_cons_self)
  have first : ∃ tail, (".".intercalate (part :: others)).toList = c :: tail := by
    rw [String.toList_intercalate]
    cases others <;> simp [List.intercalate, chars]
  unfold ofVariable
  split
  next digits head =>
    obtain ⟨tail, first⟩ := first
    rw [head] at first
    cases first
    exact absurd starts (by decide)
  next => rfl

/-- A negative long is a minus sign and its absolute value; bytes cannot be written. -/
def ofLiteral : Value → List Token
  | .long n => if n < 0 then [.minus, .integer (-n)] else [.integer n]
  | .double x => [.float x]
  | .str s => [.string s]
  | .binary _ => []

/-- The tokens of an operand of a level, in parentheses where a tighter one is required. -/
def enclosed (required level : Nat) (ts : List Token) : List Token :=
  if level < required then .leftParen :: (ts ++ [.rightParen]) else ts

end Token

namespace Expr

/-- The level of the outermost operator. -/
def level : Expr → Nat
  | .binary _ op _ => op.level
  | .unary .not _ => 2
  | .unary .neg _ => 6
  | .literal (.long n) => if n < 0 then 6 else 7
  | _ => 7

theorem level_le (e : Expr) : e.level ≤ 7 := by
  cases e with
  | literal v =>
    cases v with
    | long n =>
      simp only [level]
      split <;> omega
    | _ => exact Nat.le_refl 7
  | binary _ op _ => exact Nat.le_trans op.level_le (by omega)
  | unary op _ => cases op <;> simp [level]
  | _ => exact Nat.le_refl 7

mutual

def tokens : Expr → List Token
  | .literal v => Token.ofLiteral v
  | .variable name => Token.ofVariable name
  | .call f args => .identifier f :: .leftParen :: (tokensAll args ++ [.rightParen])
  | .binary l op r =>
    Token.enclosed op.leftLevel l.level (tokens l) ++ op.token :: Token.enclosed op.rightLevel r.level (tokens r)
  | .unary .not e => .not :: Token.enclosed 2 e.level (tokens e)
  | .unary .neg e => .minus :: Token.enclosed 6 e.level (tokens e)

/-- Arguments, separated by commas. -/
def tokensAll : List Expr → List Token
  | [] => []
  | [e] => tokens e
  | e :: rest => tokens e ++ .comma :: tokensAll rest

end

def IsNumber : Expr → Prop
  | .literal (.long _) | .literal (.double _) => True
  | _ => False

/-- The trees that an expression text can stand for. -/
inductive Printable : Expr → Prop where
  | long {n : Long} (bounded : -Long.greatest ≤ n.toInt) : Printable (.literal (.long n))
  | double (x : Binary64) : Printable (.literal (.double x))
  | str (s : String) : Printable (.literal (.str s))
  | placeholder {n : Nat} (positive : 0 < n) : Printable (.variable s!"?{n}")
  | path {parts : List String} (nonempty : parts ≠ []) (names : ∀ part ∈ parts, Token.isName part = true) :
    Printable (.variable (".".intercalate parts))
  | call (f : String) {args : List Expr} (printable : ∀ e ∈ args, Printable e) : Printable (.call f args)
  | binary {l r : Expr} (op : BinaryOp) (left : Printable l) (right : Printable r) : Printable (.binary l op r)
  | not {e : Expr} (operand : Printable e) : Printable (.unary .not e)
  /-- A number under a minus sign is the negative number. -/
  | neg {e : Expr} (operand : Printable e) (plain : ¬e.IsNumber) : Printable (.unary .neg e)

theorem Printable.name {s : String} (h : Token.isName s = true) : Printable (.variable s) := by
  have single : ∀ part ∈ [s], Token.isName part = true := by
    intro part mem
    rwa [List.mem_singleton.1 mem]
  exact .path (List.cons_ne_nil s []) single

/-! ## Nesting -/

/-- The number of operators that a chain has on its left side, the outermost included. -/
def chainLength : Expr → Nat
  | .binary l op _ => if op.isComparison then 0 else (if l.level = op.level then chainLength l else 0) + 1
  | _ => 0

/-- Parentheses nest one level deeper. -/
def enclosedNesting (required level nesting : Nat) : Nat := if level < required then nesting + 1 else nesting

mutual

/-- How many levels the parser nests on the tokens of a tree. A right operand in a chain stands as deep as the
chain is long up to it. -/
def nesting : Expr → Nat
  | .literal (.long n) => if n < 0 then 1 else 0
  | .literal _ | .variable _ => 0
  | .call _ args => nestingAll args
  | .binary l op r =>
    max (enclosedNesting op.leftLevel l.level (nesting l))
      (chainLength (.binary l op r) + enclosedNesting op.rightLevel r.level (nesting r))
  | .unary .not e => enclosedNesting 2 e.level (nesting e) + 1
  | .unary .neg e => enclosedNesting 6 e.level (nesting e) + 1

/-- Each argument nests one level deeper than its call. -/
def nestingAll : List Expr → Nat
  | [] => 0
  | e :: rest => max (nesting e + 1) (nestingAll rest)

end

/-! ## Every level takes a token -/

theorem length_le_enclosed (required level : Nat) (ts : List Token) :
    ts.length ≤ (Token.enclosed required level ts).length := by
  unfold Token.enclosed
  split
  · simp only [List.length_cons, List.length_append]
    omega
  · exact Nat.le_refl _

theorem enclosedNesting_le {n : Nat} {ts : List Token} (le : n ≤ ts.length) (required level : Nat) :
    enclosedNesting required level n ≤ (Token.enclosed required level ts).length := by
  unfold enclosedNesting Token.enclosed
  split
  · simp only [List.length_cons, List.length_append]
    omega
  · exact le

theorem chainLength_le : ∀ e : Expr, e.chainLength ≤ e.tokens.length
  | .binary l op r => by
    have left := chainLength_le l
    have enclosed := length_le_enclosed op.leftLevel l.level l.tokens
    simp only [chainLength, tokens, List.length_append, List.length_cons]
    split
    · omega
    · split <;> omega
  | .literal _ | .variable _ | .call _ _ | .unary _ _ => Nat.zero_le _

mutual

theorem nesting_le : ∀ e : Expr, e.nesting ≤ e.tokens.length
  | .literal v => by
    cases v with
    | long n =>
      simp only [nesting, tokens, Token.ofLiteral]
      split <;> simp
    | _ => exact Nat.zero_le _
  | .variable _ => Nat.zero_le _
  | .call f args => by
    have inner := nestingAll_le args
    simp only [nesting, tokens, List.length_cons, List.length_append]
    omega
  | .binary l op r => by
    have left := enclosedNesting_le (nesting_le l) op.leftLevel l.level
    have right := enclosedNesting_le (nesting_le r) op.rightLevel r.level
    have chain := chainLength_le l
    have enclosed := length_le_enclosed op.leftLevel l.level l.tokens
    simp only [nesting, chainLength, tokens, List.length_append, List.length_cons]
    split
    · omega
    · split <;> omega
  | .unary .not e => by
    have operand := enclosedNesting_le (nesting_le e) 2 e.level
    simp only [nesting, tokens, List.length_cons]
    omega
  | .unary .neg e => by
    have operand := enclosedNesting_le (nesting_le e) 6 e.level
    simp only [nesting, tokens, List.length_cons]
    omega

theorem nestingAll_le : ∀ args : List Expr, nestingAll args ≤ (tokensAll args).length + 1
  | [] => Nat.zero_le _
  | [e] => by
    have first := nesting_le e
    simp only [nestingAll, tokensAll]
    omega
  | e :: e' :: rest => by
    have first := nesting_le e
    have others := nestingAll_le (e' :: rest)
    rw [nestingAll]
    simp only [tokensAll, List.length_append, List.length_cons] at others ⊢
    omega

end

end Expr

end FragmentEngine
