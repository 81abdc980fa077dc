import Mathlib.Order.Bounds.Basic
import Mathlib.Tactic.Ring
import FragmentEngine.Proofs.Expr.Invariant
import FragmentEngine.Proofs.Expr.Lexing
import FragmentEngine.Proofs.Expr.RoundTrip
/-!
# Depth of parsed trees

The limit on nesting bounds the calls with arguments, the unary operators and the operators passed to the right on
every path of a parsed tree. Operators passed to the left are not counted: a chain gives its count back when it
ends, and the tree read so far becomes the first operand of what follows. Nor is a call without arguments. The
exact bound for all of them is far above the limit.
-/

namespace FragmentEngine

/-- What a path from the root of a tree to a leaf passes. A call without arguments is a leaf. -/
inductive Step where
  | call
  | emptyCall
  | unary
  | comparison
  /-- To the left operand of an operator other than a comparison. -/
  | left
  | right
  deriving DecidableEq

namespace Step

/-- Calls, unary operators, and binary operators other than comparisons. -/
def isCounted (s : Step) : Bool := s != .comparison

/-- The steps for which the parser takes a level of nesting. -/
def isCharged : Step → Bool
  | .call | .unary | .right => true
  | _ => false

/-- The steps that count and take no level. -/
def isFree : Step → Bool
  | .emptyCall | .left => true
  | _ => false

theorem countP_isCounted (p : List Step) : p.countP isCounted = p.countP isCharged + p.countP isFree := by
  induction p with
  | nil => rfl
  | cons s p ih => cases s <;> simp [List.countP_cons, isCounted, isCharged, isFree, ih] <;> omega

end Step

namespace Expr

mutual

/-- The paths from the root to the leaves. -/
def paths : Expr → List (List Step)
  | .literal _ | .variable _ => [[]]
  | .call _ [] => [[.emptyCall]]
  | .call _ (e :: rest) => (paths e ++ pathsAll rest).map (.call :: ·)
  | .binary l op r =>
    if op.isComparison then (paths l ++ paths r).map (.comparison :: ·)
    else (paths l).map (.left :: ·) ++ (paths r).map (.right :: ·)
  | .unary _ e => (paths e).map (.unary :: ·)

def pathsAll : List Expr → List (List Step)
  | [] => []
  | e :: rest => paths e ++ pathsAll rest

end

/-- At most `n` such steps are on any path. -/
def AtMost (count : Step → Bool) (n : Nat) (e : Expr) : Prop := ∀ p ∈ e.paths, p.countP count ≤ n

namespace AtMost

variable {count : Step → Bool} {m n : Nat} {l r e : Expr} {op : BinaryOp}

theorem mono (h : e.AtMost count m) (le : m ≤ n) : e.AtMost count n := fun p mem => (h p mem).trans le

theorem literal (v : Value) : (Expr.literal v).AtMost count n := by
  intro p mem
  rw [List.mem_singleton.1 mem]
  exact Nat.zero_le _

theorem name (s : String) : (Expr.variable s).AtMost count n := by
  intro p mem
  rw [List.mem_singleton.1 mem]
  exact Nat.zero_le _

theorem call (f : String) {args : List Expr} (nonempty : args ≠ []) (h : ∀ e ∈ args, e.AtMost count n) :
    (Expr.call f args).AtMost count (n + 1) := by
  have all : ∀ args : List Expr, (∀ e ∈ args, e.AtMost count n) → ∀ p ∈ pathsAll args, p.countP count ≤ n := by
    intro args
    induction args with
    | nil => exact fun _ p mem => absurd mem List.not_mem_nil
    | cons e rest ih =>
      intro h p mem
      rcases List.mem_append.1 mem with mem | mem
      · exact h e List.mem_cons_self p mem
      · exact ih (fun e' mem' => h e' (List.mem_cons_of_mem _ mem')) p mem
  obtain ⟨e, rest, rfl⟩ := List.exists_cons_of_ne_nil nonempty
  intro p mem
  obtain ⟨q, tail, rfl⟩ := List.mem_map.1 (show p ∈ (pathsAll (e :: rest)).map (.call :: ·) from mem)
  have le := all (e :: rest) h q tail
  rw [List.countP_cons]
  split <;> omega

theorem unary (op : UnaryOp) (h : e.AtMost count n) : (Expr.unary op e).AtMost count (n + 1) := by
  intro p mem
  obtain ⟨q, tail, rfl⟩ := List.mem_map.1 mem
  have le := h q tail
  rw [List.countP_cons]
  split <;> omega

theorem comparison (compares : op.isComparison = true) (free : count .comparison = false) (hl : l.AtMost count n)
    (hr : r.AtMost count n) : (Expr.binary l op r).AtMost count n := by
  intro p mem
  rw [paths, if_pos compares] at mem
  obtain ⟨q, tail, rfl⟩ := List.mem_map.1 mem
  rw [List.countP_cons_of_neg (by simp [free])]
  rcases List.mem_append.1 tail with tail | tail
  · exact hl q tail
  · exact hr q tail

theorem binary (chains : op.isComparison = false) (hl : ∀ p ∈ l.paths, (Step.left :: p).countP count ≤ n)
    (hr : ∀ p ∈ r.paths, (Step.right :: p).countP count ≤ n) : (Expr.binary l op r).AtMost count n := by
  intro p mem
  rw [paths, chains, if_neg Bool.false_ne_true, List.mem_append] at mem
  rcases mem with mem | mem
  · obtain ⟨q, tail, rfl⟩ := List.mem_map.1 mem
    exact hl q tail
  · obtain ⟨q, tail, rfl⟩ := List.mem_map.1 mem
    exact hr q tail

theorem negated (h : e.AtMost count n) : (Parse.negated e).AtMost count (n + 1) := by
  unfold Parse.negated
  split
  · exact .literal _
  · exact .literal _
  · exact .unary .neg h

end AtMost

theorem atMost_emptyCall (f : String) (count : Step → Bool) : (call f []).AtMost count (count .emptyCall).toNat := by
  intro p mem
  rw [List.mem_singleton.1 mem]
  cases h : count .emptyCall <;> simp [h]

end Expr

/-! ## The limit bounds what it counts -/

namespace Parse

theorem preserved_charged {ts : List Token} :
    Preserved ts (fun _ d e => e.AtMost Step.isCharged (maxDepth - d))
      (fun _ d _ e => e.AtMost Step.isCharged (maxDepth - d)) where
  integer _ n _ := .literal (.long n)
  float _ x _ := .literal (.double x)
  string _ s _ := .literal (.str s)
  placeholder _ _ _ := .name _
  path _ _ _ _ := .name _
  call d f args h := by
    cases args with
    | nil => exact (Expr.atMost_emptyCall f Step.isCharged).mono (Nat.zero_le _)
    | cons e rest =>
      have room := (h e List.mem_cons_self).1
      refine (Expr.AtMost.call f (List.cons_ne_nil e rest) fun e' mem => (h e' mem).2).mono ?_
      omega
  parens d e room h := h.mono (by omega)
  plus d e room h := h.mono (by omega)
  minus d e room h := h.negated.mono (by omega)
  single _ _ h := h
  comparison _ _ _ _ compares hl hr := .comparison compares rfl hl hr
  plain _ _ h := h
  not d e room h := (h.unary .not).mono (by omega)
  first _ _ _ _ h := h
  more l d k op e r _ chains room hl hr := by
    refine .binary chains (fun p mem => ?_) (fun p mem => ?_)
    · rw [List.countP_cons_of_neg (by decide)]
      exact hl p mem
    · have le := hr p mem
      rw [List.countP_cons_of_pos (by decide)]
      omega
  whole _ _ _ _ _ _ h := h

end Parse

/-! ## The exact bound -/

namespace Expr

/-- The greatest depth of an operand that is read with `room` levels left: a call, whose argument has one level
less and four chains. -/
def operandDepth : Nat → Nat
  | 0 => 1
  | room + 1 => operandDepth room + 4 * room + 1

theorem operandDepth_mono {a b : Nat} (le : a ≤ b) : operandDepth a ≤ operandDepth b := by
  induction le with
  | refl => exact Nat.le_refl _
  | step _ ih =>
    simp only [operandDepth]
    omega

/-- The depth of four chains around an operand. -/
theorem operandDepth_add (room : Nat) : operandDepth room + 4 * room = (2 * room + 1) * (room + 1) := by
  induction room with
  | zero => rfl
  | succ room ih =>
    rw [operandDepth, ih]
    ring

/-- The number of chains from a level inwards. -/
def chainsWithin : Nat → Nat
  | 0 => 4
  | 1 => 3
  | 2 | 3 | 4 => 2
  | 5 => 1
  | _ => 0

theorem chainsWithin_of_chains {l : Nat} (h : Parse.Chains l) : chainsWithin l = chainsWithin (l + 1) + 1 := by
  rcases h with rfl | rfl | rfl | rfl <;> rfl

end Expr

namespace Parse

open FragmentEngine.Expr

/-- The greatest depth of a tree that is read at a level with some room. -/
def depthBound (l room : Nat) : Nat := operandDepth room + chainsWithin l * room

theorem depthBound_mono (l : Nat) {a b : Nat} (le : a ≤ b) : depthBound l a ≤ depthBound l b :=
  Nat.add_le_add (operandDepth_mono le) (Nat.mul_le_mul_left _ le)

/-- An operand has room for an expression one level further in and a call around it. -/
theorem depthBound_deeper {d : Nat} (room : d < maxDepth) :
    depthBound 0 (maxDepth - (d + 1)) + 1 = depthBound 6 (maxDepth - d) := by
  rw [show maxDepth - d = maxDepth - (d + 1) + 1 by omega]
  simp only [depthBound, chainsWithin, operandDepth]
  omega

/-- The operand of a sign or a negation is read at the same level. -/
theorem depthBound_nested {d : Nat} (room : d < maxDepth) (l : Nat) :
    depthBound l (maxDepth - (d + 1)) + 1 ≤ depthBound l (maxDepth - d) := by
  rw [show maxDepth - d = maxDepth - (d + 1) + 1 by omega]
  have chains := Nat.mul_le_mul_left (chainsWithin l) (Nat.le_add_right (maxDepth - (d + 1)) 1)
  simp only [depthBound, operandDepth]
  omega

theorem preserved_counted {ts : List Token} :
    Preserved ts (fun l d e => e.AtMost Step.isCounted (depthBound l (maxDepth - d)))
      (fun l d k e => e.AtMost Step.isCounted (depthBound (l + 1) (maxDepth - d) + k)) where
  integer _ n _ := .literal (.long n)
  float _ x _ := .literal (.double x)
  string _ s _ := .literal (.str s)
  placeholder _ _ _ := .name _
  path _ _ _ _ := .name _
  call d f args h := by
    cases args with
    | nil =>
      refine (atMost_emptyCall f Step.isCounted).mono ?_
      exact depthBound_mono 6 (Nat.zero_le (maxDepth - d))
    | cons e rest =>
      have room := (h e List.mem_cons_self).1
      exact (Expr.AtMost.call f (List.cons_ne_nil e rest) fun e' mem => (h e' mem).2).mono (depthBound_deeper room).le
  parens d e room h := h.mono (by have := depthBound_deeper room; omega)
  plus d e room h := h.mono (depthBound_mono 6 (by omega))
  minus d e room h := h.negated.mono (depthBound_nested room 6)
  single _ _ h := h
  comparison _ _ _ _ compares hl hr := .comparison compares rfl hl hr
  plain _ _ h := h
  not d e room h := (h.unary .not).mono (depthBound_nested room 2)
  first _ _ _ _ h := h
  more l d k op e r _ chains room hl hr := by
    -- to the left one more of the chain's own operators, to the right an operand with less room
    refine .binary chains (fun p mem => ?_) (fun p mem => ?_)
    · have le := hl p mem
      rw [List.countP_cons_of_pos (by decide)]
      omega
    · have le := hr p mem
      have smaller := depthBound_mono (l + 1) (show maxDepth - (d + k + 1) ≤ maxDepth - d by omega)
      rw [List.countP_cons_of_pos (by decide)]
      omega
  whole l d k e chains fits h := by
    -- the chain has at most as many operators as there is room, and one chain more is within its level
    refine h.mono ?_
    rw [depthBound, depthBound, chainsWithin_of_chains chains, Nat.add_one_mul]
    omega

end Parse

/-! ## Stacked chains -/

namespace Expr

/-- `k` operators behind an expression. -/
def joined (op : BinaryOp) : Nat → Expr → Expr
  | 0, e => e
  | k + 1, e => .binary (joined op k e) op (.variable "x")

/-- Chains of `k` operators of every level around an operand. -/
def stacked (k : Nat) (e : Expr) : Expr := joined .or k (joined .and k (joined .add k (joined .mul k e)))

/-- An operand as deep as `room` levels allow. -/
def deepest : Nat → Expr
  | 0 => .call "f" []
  | room + 1 => .call "f" [stacked room (deepest room)]

section Joined

variable {op : BinaryOp} {e : Expr}

theorem path_joined (chains : op.isComparison = false) {p : List Step} (mem : p ∈ e.paths) (k : Nat) :
    List.replicate k .left ++ p ∈ (joined op k e).paths := by
  induction k with
  | zero => exact mem
  | succ k ih =>
    rw [joined, paths, chains, if_neg Bool.false_ne_true, List.mem_append]
    exact .inl (List.mem_map_of_mem ih)

theorem level_joined (tighter : op.level < e.level) (k : Nat) : op.level ≤ (joined op k e).level := by
  cases k with
  | zero => exact Nat.le_of_lt tighter
  | succ k => exact Nat.le_refl _

theorem chainLength_joined (counted : op.isComparison = false) (tighter : op.level < e.level) (k : Nat) :
    (joined op (k + 1) e).chainLength = k + 1 := by
  induction k with
  | zero =>
    have ne : e.level ≠ op.level := by omega
    simp [joined, chainLength, counted, ne]
  | succ k ih =>
    rw [joined, chainLength, ih]
    simp [joined, level, counted]

/-- No operand of such a chain is in parentheses. -/
theorem plain_operands (counted : op.isComparison = false) (tighter : op.level < e.level) (k : Nat) :
    ¬(joined op k e).level < op.leftLevel ∧ ¬(Expr.variable "x").level < op.rightLevel := by
  have left := level_joined tighter k
  have right := op.level_le
  have name : (Expr.variable "x").level = 7 := rfl
  simp only [BinaryOp.leftLevel, BinaryOp.rightLevel, counted, Bool.false_eq_true, if_false, name]
  omega

theorem nesting_joined (counted : op.isComparison = false) (tighter : op.level < e.level) (k : Nat) :
    (joined op k e).nesting = max e.nesting k := by
  induction k with
  | zero => rw [Nat.max_zero, joined]
  | succ k ih =>
    obtain ⟨left, right⟩ := plain_operands counted tighter k
    have length := chainLength_joined counted tighter k
    rw [joined] at length ⊢
    simp only [nesting, enclosedNesting, if_neg left, if_neg right, length, ih]
    omega

theorem tokens_joined (counted : op.isComparison = false) (tighter : op.level < e.level) (k : Nat) :
    (joined op k e).tokens = e.tokens ++ (List.replicate k [op.token, .identifier "x"]).flatten := by
  induction k with
  | zero => simp [joined]
  | succ k ih =>
    obtain ⟨left, right⟩ := plain_operands counted tighter k
    have name : (Expr.variable "x").tokens = [.identifier "x"] := rfl
    rw [joined, tokens, Token.enclosed, Token.enclosed, if_neg left, if_neg right, ih, name]
    simp [List.replicate_succ']

theorem printable_joined (h : e.Printable) (k : Nat) : (joined op k e).Printable := by
  induction k with
  | zero => exact h
  | succ k ih => exact .binary op ih (.name (by decide))

end Joined

end Expr

namespace Lexer

theorem spelled_op (op : BinaryOp) : Spelled op.token := by
  cases op <;> exact .of_lexeme rfl rfl fun _ _ => rfl

theorem spelled_call {t : Token} (h : t ∈ [.identifier "f", .identifier "x", .leftParen, .rightParen]) : Spelled t := by
  simp only [List.mem_cons, List.not_mem_nil, or_false] at h
  rcases h with rfl | rfl | rfl | rfl <;> exact .of_lexeme rfl rfl fun _ _ => rfl

end Lexer

namespace Expr

/-- Trees whose written tokens are read as the tree with `room` levels of nesting. -/
structure Readable (room : Nat) (e : Expr) : Prop where
  printable : e.Printable
  spelled : ∀ t ∈ e.tokens, Lexer.Spelled t
  fits : e.nesting ≤ room

namespace Readable

variable {e : Expr} {room : Nat}

theorem variable_x : (Expr.variable "x").Readable room where
  printable := .name (by decide)
  spelled := by
    intro t mem
    have name : (Expr.variable "x").tokens = [.identifier "x"] := rfl
    rw [name, List.mem_singleton] at mem
    exact Lexer.spelled_call (by simp [mem])
  fits := Nat.zero_le _

theorem joined (h : e.Readable room) {op : BinaryOp} (counted : op.isComparison = false) (tighter : op.level < e.level)
    {k : Nat} (le : k ≤ room) : (joined op k e).Readable room where
  printable := printable_joined h.printable k
  spelled := by
    intro t mem
    rw [tokens_joined counted tighter, List.mem_append, List.mem_flatten] at mem
    rcases mem with mem | ⟨ts, replica, mem⟩
    · exact h.spelled t mem
    · rw [List.eq_of_mem_replicate replica] at mem
      rcases List.mem_pair.1 mem with rfl | rfl
      · exact Lexer.spelled_op op
      · exact Lexer.spelled_call (by simp)
  fits := by
    rw [nesting_joined counted tighter]
    exact Nat.max_le.2 ⟨h.fits, le⟩

theorem call (h : e.Readable room) : (Expr.call "f" [e]).Readable (room + 1) where
  printable := .call "f" fun a mem => by
    rw [List.mem_singleton.1 mem]
    exact h.printable
  spelled := by
    intro t mem
    simp only [tokens, tokensAll, List.mem_cons, List.mem_append, List.not_mem_nil, or_false] at mem
    rcases mem with rfl | rfl | mem | rfl
    · exact Lexer.spelled_call (by simp)
    · exact Lexer.spelled_call (by simp)
    · exact h.spelled t mem
    · exact Lexer.spelled_call (by simp)
  fits := by
    have inside := h.fits
    simp only [nesting, nestingAll]
    omega

theorem parse (h : e.Readable maxDepth) : Expr.parse (String.ofList (Lexer.spell e.tokens)) = .ok e := by
  obtain ⟨t, rest, head, _⟩ := (Parse.readsBack_of_printable h.printable).own.starts
  have lexed : Lexer.tokens (String.ofList (Lexer.spell e.tokens)).toList = .ok (e.tokens ++ [.endOfInput]) := by
    rw [String.toList_ofList]
    exact Lexer.tokens_spell h.spelled
  rw [parse_eq lexed (by simp [head]), ofTokens_eq h.printable, if_pos h.fits]

end Readable

section Stacked

variable {e : Expr} {room : Nat}

theorem countP_lefts (k : Nat) : (List.replicate k Step.left).countP Step.isCounted = k := by
  rw [List.countP_replicate]
  rfl

theorem path_stacked {p : List Step} (mem : p ∈ e.paths) (k : Nat) :
    ∃ q ∈ (stacked k e).paths, q.countP Step.isCounted = p.countP Step.isCounted + 4 * k := by
  refine ⟨_, path_joined rfl (path_joined rfl (path_joined rfl (path_joined rfl mem k) k) k) k, ?_⟩
  simp only [List.countP_append, countP_lefts]
  omega

theorem Readable.stacked (h : e.Readable room) (operand : BinaryOp.mul.level < e.level) {k : Nat} (le : k ≤ room) :
    (stacked k e).Readable room := by
  have products : BinaryOp.add.level < (Expr.joined .mul k e).level := level_joined operand k
  have sums : BinaryOp.and.level < (Expr.joined .add k (Expr.joined .mul k e)).level :=
    Nat.lt_of_lt_of_le (by decide) (level_joined products k)
  have conjunctions : BinaryOp.or.level < (Expr.joined .and k (Expr.joined .add k (Expr.joined .mul k e))).level :=
    level_joined sums k
  exact (((h.joined rfl operand le).joined rfl products le).joined rfl sums le).joined rfl conjunctions le

theorem tighter_deepest (room : Nat) : BinaryOp.mul.level < (deepest room).level := by
  cases room with
  | zero => decide
  | succ room => exact (by decide : BinaryOp.mul.level < 7)

theorem path_deepest (room : Nat) : ∃ p ∈ (deepest room).paths, p.countP Step.isCounted = operandDepth room := by
  induction room with
  | zero => exact ⟨_, List.mem_singleton_self _, rfl⟩
  | succ room ih =>
    obtain ⟨p, mem, deep⟩ := ih
    obtain ⟨q, mem', count⟩ := path_stacked mem room
    refine ⟨.call :: q, ?_, ?_⟩
    · rw [deepest, paths, pathsAll, List.append_nil]
      exact List.mem_map_of_mem mem'
    · rw [List.countP_cons_of_pos (by decide), count, deep, operandDepth]

theorem readable_deepest (room : Nat) : (deepest room).Readable room := by
  induction room with
  | zero =>
    refine ⟨.call "f" (by simp), fun t mem => ?_, Nat.le_refl _⟩
    simp only [deepest, tokens, tokensAll, List.nil_append] at mem
    exact Lexer.spelled_call (by grind)
  | succ room ih => exact (ih.stacked (tighter_deepest room) (Nat.le_refl _)).call

end Stacked

theorem counted_le {ts : List Token} {e : Expr} (read : ofTokens ts = .ok e) {p : List Step} (mem : p ∈ e.paths) :
    p.countP Step.isCounted ≤ (2 * maxDepth + 1) * (maxDepth + 1) := by
  have counted := Parse.preserved_counted.ofTokens read p mem
  rwa [Nat.sub_zero, Parse.depthBound, chainsWithin, operandDepth_add] at counted

theorem spell_joined {op : BinaryOp} {e : Expr} (counted : op.isComparison = false) (tighter : op.level < e.level)
    (k : Nat) : Lexer.spell (joined op k e).tokens =
      Lexer.spell e.tokens ++ (List.replicate k (Lexer.spell [op.token, .identifier "x"])).flatten := by
  have replicas : Lexer.spell (List.replicate k [op.token, .identifier "x"]).flatten =
      (List.replicate k (Lexer.spell [op.token, .identifier "x"])).flatten := by
    induction k with
    | zero => rfl
    | succ k ih => simp only [List.replicate_succ, List.flatten_cons, Lexer.spell_append, ih]
  rw [tokens_joined counted tighter, Lexer.spell_append, replicas]

/-- 129 multiplications and, behind them, 128 additions. The additions begin to count where the multiplications
began. -/
def twoChains : String :=
  String.ofList (['x', ' '] ++ (List.replicate 129 ['*', ' ', 'x', ' ']).flatten ++
    (List.replicate 128 ['+', ' ', 'x', ' ']).flatten)

/-- The products are the first summand. -/
def sumOfProducts : Expr := joined .add 128 (joined .mul 129 (.variable "x"))

theorem parse_twoChains : parse twoChains = .ok sumOfProducts := by
  have operand : BinaryOp.mul.level < (Expr.variable "x").level := by decide
  have products : BinaryOp.add.level < (joined .mul 129 (.variable "x")).level := level_joined operand 129
  have readable : sumOfProducts.Readable maxDepth :=
    (Readable.variable_x.joined rfl operand (by decide)).joined rfl products (by decide)
  have parsed := readable.parse
  rw [sumOfProducts, spell_joined rfl products, spell_joined rfl operand] at parsed
  exact parsed

theorem path_sumOfProducts : List.replicate 257 .left ∈ sumOfProducts.paths := by
  have first : [] ∈ (Expr.variable "x").paths := List.mem_singleton_self _
  have products : List.replicate 129 .left ++ [] ∈ (joined .mul 129 (.variable "x")).paths := path_joined rfl first 129
  have sums : List.replicate 128 .left ++ (List.replicate 129 .left ++ []) ∈ sumOfProducts.paths :=
    path_joined rfl products 128
  rwa [List.append_nil, List.replicate_append_replicate] at sums

/-- On every path of a parsed tree the steps that take a level of nesting stay within the limit. All that count
do so exactly if the others have room beside them; in any case there is a bound. -/
theorem steps_of_parse {text : String} {e : Expr} (h : parse text = .ok e) {p : List Step} (mem : p ∈ e.paths) :
    p.countP Step.isCharged ≤ maxDepth ∧
    (p.countP Step.isCounted ≤ maxDepth ↔ p.countP Step.isFree ≤ maxDepth - p.countP Step.isCharged) ∧
    p.countP Step.isCounted ≤ (2 * maxDepth + 1) * (maxDepth + 1) := by
  obtain ⟨ts, _, read⟩ := ofTokens_of_parse h
  have charged := Parse.preserved_charged.ofTokens read p mem
  have sum := Step.countP_isCounted p
  rw [Nat.sub_zero] at charged
  exact ⟨charged, by omega, counted_le read mem⟩

theorem steps_of_parse_twoChains :
    parse twoChains = .ok sumOfProducts ∧ List.replicate 257 .left ∈ sumOfProducts.paths ∧
      (List.replicate 257 Step.left).countP Step.isCharged ≤ maxDepth ∧
      ((List.replicate 257 Step.left).countP Step.isCounted ≤ maxDepth ↔
        (List.replicate 257 Step.left).countP Step.isFree ≤
          maxDepth - (List.replicate 257 Step.left).countP Step.isCharged) ∧
      (List.replicate 257 Step.left).countP Step.isCounted ≤ (2 * maxDepth + 1) * (maxDepth + 1) :=
  ⟨parse_twoChains, path_sumOfProducts, steps_of_parse parse_twoChains path_sumOfProducts⟩

/-- No operator on this path takes a level, and there are more of them than levels. -/
theorem maxDepth_lt_twoChains :
    ∃ e, parse twoChains = .ok e ∧ ∃ p ∈ e.paths, maxDepth < p.countP Step.isCounted := by
  refine ⟨sumOfProducts, parse_twoChains, _, path_sumOfProducts, ?_⟩
  rw [countP_lefts]
  decide

/-- Four chains of the greatest length stacked at every level attain the bound. -/
theorem isGreatest_counted :
    IsGreatest {n | ∃ text e, parse text = .ok e ∧ ∃ p ∈ e.paths, p.countP Step.isCounted = n}
      ((2 * maxDepth + 1) * (maxDepth + 1)) := by
  constructor
  · have readable : (stacked maxDepth (deepest maxDepth)).Readable maxDepth :=
      (readable_deepest maxDepth).stacked (tighter_deepest maxDepth) (Nat.le_refl _)
    obtain ⟨p, mem, deep⟩ := path_deepest maxDepth
    obtain ⟨q, mem', count⟩ := path_stacked mem maxDepth
    exact ⟨_, _, readable.parse, q, mem', by rw [count, deep, operandDepth_add]⟩
  · rintro n ⟨text, e, parsed, p, mem, rfl⟩
    obtain ⟨_, _, read⟩ := ofTokens_of_parse parsed
    exact counted_le read mem

end Expr

end FragmentEngine
