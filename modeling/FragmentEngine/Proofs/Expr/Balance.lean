import FragmentEngine.Proofs.Expr.Lookahead
import FragmentEngine.Proofs.Expr.Watched
/-!
# Balanced nesting

Every level returns to the nesting it starts with and stays at or above it on the way. An argument therefore starts one
level further in than its call wherever it stands among the others, and a call has room for any number of arguments that
have room for themselves.
-/

namespace FragmentEngine.Parse

open Outcome

variable {d n : Nat}

/-! ## Arguments -/

/-- Tokens are an expression on their own, at nesting `d` and up to the token that follows. -/
def Alone (d : Nat) (ts : List Token) (follows : Token) (e : Expr) : Prop :=
  ∃ c, (disjunction (levels maxDepth) : Parse Expr).run ⟨ts ++ [follows], d⟩ = .ok (e, c) ∧ c.rest = [follows]

/-- The arguments of a call with commas between them and a parenthesis behind the last one, each of which is an
expression on its own. -/
inductive Arguments (d : Nat) : List Token → List Expr → Prop where
  | last {ts : List Token} {e : Expr} (alone : Alone d ts .rightParen e) : Arguments d (ts ++ [.rightParen]) [e]
  | more {ts others : List Token} {e : Expr} {es : List Expr} (alone : Alone d ts .comma e)
      (rest : Arguments d others es) : Arguments d (ts ++ .comma :: others) (e :: es)

/-- What is an expression on its own is one in front of anything. -/
theorem Alone.run_nested {ts : List Token} {follows : Token} {e : Expr} (h : Alone (d + 1) ts follows e)
    (room : d < maxDepth) (enough : maxDepth ≤ n + d) (after : List Token) :
    (nested (levels n).expression : Parse Expr).run ⟨ts ++ follows :: after, d⟩ = .ok (e, ⟨follows :: after, d⟩) := by
  obtain ⟨c, alone, stops⟩ := h
  obtain ⟨n, rfl⟩ : ∃ k, n = k + 1 := ⟨n - 1, by omega⟩
  have carries : Carries (d + 1) (disjunction (levels maxDepth)) (disjunction (levels n)) :=
    Carries.correspondence.disjunction room (Carries.correspondence.levels (by omega) (by omega))
  have here := carries.carried alone (show c.rest = [] ++ follows :: [] from stops) after
  rw [Parse.run_nested, if_pos room]
  exact bind_eq_ok.2 ⟨_, here, rfl⟩

theorem Arguments.run {ts : List Token} {es : List Expr} (h : Arguments (d + 1) ts es) (room : d < maxDepth)
    (enough : maxDepth ≤ n + d) (after : List Token) : ∀ bound, es.length ≤ bound →
      (arguments (levels n) bound : Parse (List Expr)).run ⟨ts ++ after, d⟩ = .ok (es, ⟨.rightParen :: after, d⟩) := by
  induction h with
  | last alone =>
    intro bound many
    obtain ⟨bound, rfl⟩ := Nat.exists_eq_add_one_of_ne_zero (Nat.ne_of_gt many)
    rw [run_arguments_succ, List.append_assoc]
    exact bind_eq_ok.2 ⟨_, alone.run_nested room enough after, rfl⟩
  | @more _ others _ _ alone _ ih =>
    intro bound many
    obtain ⟨bound, rfl⟩ := Nat.exists_eq_add_one_of_ne_zero (Nat.ne_of_gt (Nat.lt_of_le_of_lt (Nat.zero_le _) many))
    rw [run_arguments_succ, List.append_assoc]
    refine bind_eq_ok.2 ⟨_, alone.run_nested room enough (others ++ after), ?_⟩
    exact bind_eq_ok.2 ⟨_, ih bound (Nat.le_of_succ_le_succ many), rfl⟩

/-- There are no more arguments than tokens. -/
theorem Arguments.length_le {ts : List Token} {es : List Expr} (h : Arguments d ts es) : es.length ≤ ts.length := by
  induction h with
  | last => simp
  | more _ _ ih =>
    simp only [List.length_append, List.length_cons]
    omega

theorem run_disjunction_rightParen (inner : Inner Parse) (after : List Token) (d : Nat) :
    (disjunction inner).run ⟨.rightParen :: after, d⟩ =
      .error (.parse (.unexpectedToken .expression .rightParen)) := rfl

/-- Arguments do not start with the parenthesis behind them. -/
theorem Alone.opens {ts : List Token} {follows : Token} {e : Expr} (h : Alone d ts follows e) (after : List Token) :
    (ts ++ follows :: after).headD .endOfInput ≠ .rightParen := by
  obtain ⟨c, alone, -⟩ := h
  intro closed
  rw [head_append_cons ts after []] at closed
  cases whole : ts ++ [follows] with
  | nil => simp at whole
  | cons t rest =>
    rw [whole, List.headD_cons] at closed
    rw [whole, closed, run_disjunction_rightParen] at alone
    cases alone

theorem Arguments.opens {ts : List Token} {es : List Expr} (h : Arguments d ts es) (after : List Token) :
    (ts ++ after).headD .endOfInput ≠ .rightParen := by
  cases h with
  | last alone =>
    rw [List.append_assoc]
    exact alone.opens after
  | more alone =>
    rw [List.append_assoc]
    exact alone.opens _

/-! ## Levels -/

/-- The arguments of a call are read up to the parenthesis behind them. -/
theorem Arguments.run_argumentList {ts : List Token} {es : List Expr} (h : Arguments (d + 1) ts es)
    (room : d < maxDepth) (enough : maxDepth ≤ n + d) (after : List Token) :
    (argumentList (levels n) : Parse (List Expr)).run ⟨ts ++ after, d⟩ = .ok (es, ⟨.rightParen :: after, d⟩) := by
  have few := h.length_le
  refine h.run room enough after _ ?_
  rw [List.length_append]
  omega

theorem Arguments.run_call {ts : List Token} {es : List Expr} (h : Arguments (d + 1) ts es) (room : d < maxDepth)
    (enough : maxDepth ≤ n + d) (name : String) (after : List Token) :
    (primary (levels n) : Parse Expr).run ⟨.identifier name :: .leftParen :: (ts ++ after), d⟩ =
      .ok (.call name es, ⟨after, d⟩) := by
  rw [run_primary_identifier, run_named_arguments _ _ (h.opens after), h.run_argumentList room enough after, ok_bind,
    run_expect]
  rfl

/-- Every level, and so the list of arguments, goes from nesting `d` on a way over nestings of at least `d`, on which it
does not step back, and returns to `d` if it succeeds. A call is read whole if there is one more level for its arguments
and each of them is an expression on its own there, however many there are. -/
theorem levels_balanced (low : d ≤ maxDepth) (enough : maxDepth ≤ n + d) :
    (∀ l ts, Tracks d ⟨ts, d⟩ (atLevel l (levels n)) (atLevel l (levels n)) fun _ c => c.depth = d) ∧
    (∀ ts, Tracks d ⟨ts, d⟩ (argumentList (levels n)) (argumentList (levels n)) fun _ c => c.depth = d) ∧
    (d < maxDepth → ∀ name after,
      (primary (levels n) : Parse Expr).run ⟨.identifier name :: .leftParen :: .rightParen :: after, d⟩ =
        .ok (.call name [], ⟨after, d⟩) ∧
      ∀ ts es, Arguments (d + 1) ts es →
        (primary (levels n) : Parse Expr).run ⟨.identifier name :: .leftParen :: (ts ++ after), d⟩ =
          .ok (.call name es, ⟨after, d⟩)) := by
  have given : (levels n : Inner Parse).Corresponds Keeps d (levels n : Inner Watched) :=
    Keeps.correspondence.levels enough enough
  refine ⟨fun l ts => Keeps.correspondence.atLevel low given l _ rfl, fun ts => ?_, fun room name after => ⟨?_, ?_⟩⟩
  · exact Keeps.correspondence.argumentList (Keeps.correspondence.nested_expression given) _ rfl
  · rfl
  · exact fun ts es written => written.run_call room enough name after

/-- One level above the limit there still is room for three arguments. -/
theorem levels_balanced_lastLevel :
    let ts : List Token := [.integer 1, .comma, .identifier "x", .comma, .string "y", .rightParen]
    let es : List Expr := [.literal (.long 1), .variable "x", .literal (.str "y")]
    Arguments 256 ts es ∧
      (primary (levels 1) : Parse Expr).run ⟨.identifier "f" :: .leftParen :: (ts ++ [.plus]), 255⟩ =
        .ok (.call "f" es, ⟨[.plus], 255⟩) ∧
      Tracks 255 ⟨.identifier "f" :: .leftParen :: (ts ++ [.plus]), 255⟩ (atLevel 7 (levels 1)) (atLevel 7 (levels 1))
        fun _ c => c.depth = 255 := by
  intro ts es
  have written : Arguments 256 ts es := by
    refine @Arguments.more _ [.integer 1] _ _ _ ⟨_, rfl, rfl⟩ ?_
    refine @Arguments.more _ [.identifier "x"] _ _ _ ⟨_, rfl, rfl⟩ ?_
    exact @Arguments.last _ [.string "y"] _ ⟨_, rfl, rfl⟩
  obtain ⟨levels, -, calls⟩ := @levels_balanced 255 1 (by decide) (by decide)
  exact ⟨written, (calls (by decide) "f" [.plus]).2 ts es written, levels 7 _⟩

end FragmentEngine.Parse
