import FragmentEngine.Expr.Basic
import FragmentEngine.Expr.Lexer
/-!
# Parser

Expressions from tokens, by levels of precedence: `OR`, `AND`, `NOT`, comparisons, `+ -`, `* / MOD %`, unary
minus. Every level of nesting and every operator of a chain counts against one limit, so no tree is deeper than
the limit allows.

The levels call each other only one nesting level further in. They are therefore written over the parsers of
the level below, and `levels n` ties `n` of them together; a parse that starts `n` levels under the limit
never gets to the bottom. They are written for every monad with a cursor and errors, and run in `Parse`.
-/

namespace FragmentEngine

/-- The deepest nesting that is accepted. -/
def maxDepth : Nat := 256

/-- Where a parse stands: the tokens to come and the nesting so far. -/
structure Cursor where
  rest : List Token
  depth : Nat
  deriving DecidableEq

abbrev Parse := StateT Cursor (Except Error)

namespace Parse

variable {m : Type → Type} [Monad m] [MonadStateOf Cursor m] [MonadExceptOf Error m] {α : Type}

/-- The next token. -/
def current : m Token := return (← get).rest.headD .endOfInput

/-- Steps over the next token. -/
def advance : m Unit := modify fun c => { c with rest := c.rest.tail }

/-- Refuses the next token. -/
def refuse (expected : Expected) : m α := do
  throw (.parse (.unexpectedToken expected (← current)))

/-- Steps over the given token. -/
def expect (t : Token) : m Unit := do
  if (← current) = t then advance else refuse (.token t)

/-- Counts one more level of nesting. -/
def descend : m Unit := do
  let c ← get
  if c.depth < maxDepth then set { c with depth := c.depth + 1 }
  else throw (.parse (.nestedTooDeeply maxDepth))

/-- Counts one level of nesting less. The count has no sign, so there is nothing below zero. -/
def ascend : m Unit := do
  let c ← get
  if c.depth = 0 then throw .overflow
  else set { c with depth := c.depth - 1 }

/-- Runs a parser one level of nesting further in. -/
def nested (p : m α) : m α := do
  descend
  let x ← p
  ascend
  return x

/-- Further operators and operands after `left`. The depth stays raised, so a chain has at most `maxDepth`
operators and `bound` is never used up. -/
def chainTail (op? : Token → Option BinaryOp) (operand : m Expr) : Nat → Expr → m Expr
  | 0, left => return left
  | bound + 1, left => do
    match op? (← current) with
    | none => return left
    | some op =>
      advance
      descend
      let right ← operand
      chainTail op? operand bound (.binary left op right)

/-- Operands joined by operators, grouped from the left. Each operator counts as a level until the chain
ends. -/
def chain (op? : Token → Option BinaryOp) (operand : m Expr) : m Expr := do
  let left ← operand
  let base := (← get).depth
  let e ← chainTail op? operand (maxDepth + 1) left
  modify fun c => { c with depth := base }
  return e

/-! ## Operators of each level -/

def orOp? : Token → Option BinaryOp
  | .or => some .or
  | _ => none

def andOp? : Token → Option BinaryOp
  | .and => some .and
  | _ => none

def comparisonOp? : Token → Option BinaryOp
  | .eq => some .eq
  | .ne => some .ne
  | .lt => some .lt
  | .gt => some .gt
  | .le => some .le
  | .ge => some .ge
  | _ => none

def additiveOp? : Token → Option BinaryOp
  | .plus => some .add
  | .minus => some .sub
  | _ => none

def multiplicativeOp? : Token → Option BinaryOp
  | .asterisk => some .mul
  | .slash => some .div
  | .mod | .percent => some .mod
  | _ => none

/-- The negation of a parsed operand; a number is negated itself. -/
def negated : Expr → Expr
  | .literal (.long n) => .literal (.long (-n))
  | .literal (.double x) => .literal (.double x.neg)
  | e => .unary .neg e

/-! ## Levels -/

/-- The parsers that are called one level of nesting further in. -/
structure Inner (m : Type → Type) where
  expression : m Expr
  negation : m Expr
  signed : m Expr

/-- The parts of a dotted name after its first. -/
def dotted (name : String) : List Token → Except Error (String × List Token)
  | .dot :: .identifier part :: rest => dotted (name ++ "." ++ part) rest
  | .dot :: rest => .error (.parse (.unexpectedToken .identifier (rest.headD .endOfInput)))
  | rest => .ok (name, rest)

/-- The arguments of a call up to the closing parenthesis; `bound` exceeds their number. -/
def arguments (inner : Inner m) : Nat → m (List Expr)
  | 0 => return []
  | bound + 1 => do
    let e ← nested inner.expression
    if (← current) = .comma then
      advance
      return e :: (← arguments inner bound)
    else return [e]

/-- The arguments of a call, at least one. -/
def argumentList (inner : Inner m) : m (List Expr) := do arguments inner ((← get).rest.length + 1)

/-- The dotted name that starts with `name`. -/
def path (name : String) : m String := do
  let c ← get
  let (full, rest) ← MonadExcept.ofExcept (dotted name c.rest)
  set { c with rest := rest }
  return full

/-- A call or a dotted name that starts with `name`. -/
def named (inner : Inner m) (name : String) : m Expr := do
  if (← current) = .leftParen then
    advance
    let args ← if (← current) = .rightParen then pure [] else argumentList inner
    expect .rightParen
    return .call name args
  else return .variable (← path name)

/-- A literal, a placeholder, a name, a call or an expression in parentheses. -/
def primary (inner : Inner m) : m Expr := do
  match ← current with
  | .integer n => advance; return .literal (.long n)
  | .float x => advance; return .literal (.double x)
  | .string text => advance; return .literal (.str text)
  | .placeholder n => advance; return .variable s!"?{n}"
  | .leftParen =>
    advance
    let e ← nested inner.expression
    expect .rightParen
    return e
  | .identifier name =>
    advance
    named inner name
  | _ => refuse .expression

/-- A primary expression under signs. A plus sign means nothing. -/
def signed (inner : Inner m) : m Expr := do
  match ← current with
  | .minus =>
    advance
    return negated (← nested inner.signed)
  | .plus =>
    advance
    nested inner.signed
  | _ => primary inner

def multiplicative (inner : Inner m) : m Expr := chain multiplicativeOp? (signed inner)

def additive (inner : Inner m) : m Expr := chain additiveOp? (multiplicative inner)

/-- At most one comparison; they do not chain. -/
def comparison (inner : Inner m) : m Expr := do
  let left ← additive inner
  match comparisonOp? (← current) with
  | none => return left
  | some op =>
    advance
    let right ← additive inner
    return .binary left op right

def negation (inner : Inner m) : m Expr := do
  if (← current) = .not then
    advance
    return .unary .not (← nested inner.negation)
  else comparison inner

def conjunction (inner : Inner m) : m Expr := chain andOp? (negation inner)

def disjunction (inner : Inner m) : m Expr := chain orOp? (conjunction inner)

/-- The parsers that may go `n` levels further in. -/
def levels : Nat → Inner m
  | 0 =>
    let stop : m Expr := throw (.parse (.nestedTooDeeply maxDepth))
    ⟨stop, stop, stop⟩
  | n + 1 => ⟨disjunction (levels n), negation (levels n), signed (levels n)⟩

/-- One expression that takes all tokens. -/
def whole : m Expr := do
  let e ← disjunction (levels maxDepth)
  if (← current) = .endOfInput then return e else refuse .endOfExpression

end Parse

/-- The expression of a list of tokens. -/
def Expr.ofTokens (tokens : List Token) : Except Error Expr := StateT.run' (Parse.whole : Parse Expr) ⟨tokens, 0⟩

/-- The expression written by a text. -/
def Expr.parse (text : String) : Except Error Expr := do
  if (Text.trim text.toList).isEmpty then throw (.missing "expression")
  let tokens ← (Lexer.tokens text.toList).mapError .parse
  Expr.ofTokens tokens

example : (Expr.parse "-1 + - a.b * f(2, 'x')").toOption = some
    (.binary (.literal (.long (-1))) .add (.binary (.unary .neg (.variable "a.b")) .mul
      (.call "f" [.literal (.long 2), .literal (.str "x")]))) := by decide +kernel

end FragmentEngine
