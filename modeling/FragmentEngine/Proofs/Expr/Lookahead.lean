import FragmentEngine.Proofs.Expr.Correspondence
/-!
# Looking ahead

A parser looks at no token behind the one at which it stops. What follows that token may be anything, and so may be how
much further in the parsers could go that lie behind the limit.
-/

namespace FragmentEngine.Parse

open Outcome

/-- What the first parser reads from nesting `d` up to a token, the second one reads whatever follows that token. -/
structure Carries (d : Nat) {α : Type} (p q : Parse α) : Prop where
  onward : ∀ {rest r}, p.run ⟨rest, d⟩ = .ok r → r.2.depth = d ∧ r.2.rest <:+ rest
  carried : ∀ {ts rest t after r}, p.run ⟨ts ++ t :: after, d⟩ = .ok r → r.2.rest = rest ++ t :: after →
    ∀ after', q.run ⟨ts ++ t :: after', d⟩ = .ok (r.1, ⟨rest ++ t :: after', d⟩)

theorem exists_append_of_suffix {α : Type} {front behind whole : List α} (h : front ++ behind <:+ whole) :
    ∃ ts, whole = ts ++ behind := by
  obtain ⟨ts, rfl⟩ := h
  exact ⟨ts ++ front, (List.append_assoc ..).symm⟩

/-- A token that is still to come has not been stepped over. -/
theorem tail_append_cons {α : Type} {ts rest after : List α} {t : α}
    (h : (ts ++ t :: after).tail = rest ++ t :: after) : ∃ s, ts = s :: rest := by
  cases ts with
  | nil =>
    have length := congrArg List.length h
    simp only [List.nil_append, List.tail_cons, List.length_append, List.length_cons] at length
    omega
  | cons s ts => exact ⟨s, congrArg (s :: ·) (List.append_cancel_right h)⟩

theorem head_append_cons {α : Type} (ts after after' : List α) (t e : α) :
    (ts ++ t :: after).headD e = (ts ++ t :: after').headD e := by
  cases ts <;> rfl

namespace Carries

variable {α β : Type} {d : Nat} {p q : Parse α}

theorem pure (x : α) : Carries d (pure x) (pure x) where
  onward run := by
    cases run
    exact ⟨rfl, List.suffix_rfl⟩
  carried run stops after' := by
    cases run
    rw [List.append_cancel_right stops]
    rfl

theorem throw (e : Error) : Carries d (throw e : Parse α) (throw e) := ⟨nofun, nofun⟩

theorem current : Carries d current current where
  onward run := by
    cases run
    exact ⟨rfl, List.suffix_rfl⟩
  carried run stops after' := by
    cases run
    rw [List.append_cancel_right stops, run_current]
    exact congrArg (fun t => Except.ok (t, _)) (head_append_cons ..)

theorem advance : Carries d advance advance where
  onward {rest r} run := by
    cases run
    exact ⟨rfl, List.tail_suffix rest⟩
  carried run stops after' := by
    cases run
    obtain ⟨s, rfl⟩ := tail_append_cons stops
    rfl

theorem bind {f g : α → Parse β} (h : Carries d p q) (next : ∀ x, Carries d (f x) (g x)) :
    Carries d (p >>= f) (q >>= g) where
  onward run := by
    rw [StateT.run_bind] at run
    obtain ⟨⟨x, middle, e⟩, first, second⟩ := bind_eq_ok.1 run
    obtain ⟨at_d, onward⟩ := h.onward first
    cases at_d
    obtain ⟨at_d, onward'⟩ := (next x).onward second
    exact ⟨at_d, onward'.trans onward⟩
  carried run stops after' := by
    rw [StateT.run_bind] at run ⊢
    obtain ⟨⟨x, middle, e⟩, first, second⟩ := bind_eq_ok.1 run
    obtain ⟨at_d, -⟩ := h.onward first
    cases at_d
    -- the second parser does not step back, so that the token is still to come between the two
    have onward := ((next x).onward second).2
    rw [stops] at onward
    obtain ⟨front, rfl⟩ := exists_append_of_suffix onward
    rw [h.carried first rfl after', ok_bind]
    exact (next x).carried second stops after'

theorem nested (h : d < maxDepth → Carries (d + 1) p q) : Carries d (nested p) (nested q) where
  onward run := by
    rw [run_nested] at run
    split at run
    next room =>
      obtain ⟨r, inside, run⟩ := bind_eq_ok.1 run
      obtain ⟨deep, onward⟩ := (h room).onward inside
      rw [run_ascend (by omega)] at run
      cases run
      exact ⟨by simp only [deep, Nat.add_sub_cancel], onward⟩
    next => cases run
  carried run stops after' := by
    rw [run_nested] at run ⊢
    split at run
    next room =>
      obtain ⟨r, inside, run⟩ := bind_eq_ok.1 run
      obtain ⟨deep, -⟩ := (h room).onward inside
      rw [run_ascend (by omega)] at run
      cases run
      rw [if_pos room, (h room).carried inside stops after']
      rfl
    next => cases run

/-! ## Chains -/

section Chain

variable {op? : Token → Option BinaryOp} {operand operand' : Parse Expr}

theorem chainTail_onward (operands : ∀ e, d ≤ e → e ≤ maxDepth → Carries e operand operand') (bound : Nat) :
    ∀ {left e rest r}, d ≤ e → e ≤ maxDepth → (chainTail op? operand bound left).run ⟨rest, e⟩ = .ok r →
      r.2.rest <:+ rest := by
  induction bound with
  | zero =>
    intro left e rest r _ _ run
    cases run
    exact List.suffix_rfl
  | succ bound ih =>
    intro left e rest r deep low run
    cases head : op? (rest.headD .endOfInput) with
    | none =>
      rw [run_chainTail_end head] at run
      cases run
      exact List.suffix_rfl
    | some op =>
      rw [run_chainTail_op head] at run
      split at run
      next room =>
        obtain ⟨⟨right, middle, e'⟩, read, others⟩ := bind_eq_ok.1 run
        obtain ⟨at_e, onward⟩ := (operands (e + 1) (Nat.le_succ_of_le deep) room).onward read
        cases at_e
        exact (ih (Nat.le_succ_of_le deep) room others).trans (onward.trans (List.tail_suffix rest))
      next => cases run

theorem chainTail_carried (operands : ∀ e, d ≤ e → e ≤ maxDepth → Carries e operand operand') (bound : Nat) :
    ∀ {left e ts rest t after r}, d ≤ e → e ≤ maxDepth →
      (chainTail op? operand bound left).run ⟨ts ++ t :: after, e⟩ = .ok r → r.2.rest = rest ++ t :: after →
      ∀ after', ∃ c, (chainTail op? operand' bound left).run ⟨ts ++ t :: after', e⟩ = .ok (r.1, c) ∧
        c.rest = rest ++ t :: after' := by
  induction bound with
  | zero =>
    intro left e ts rest t after r _ _ run stops after'
    cases run
    rw [List.append_cancel_right stops]
    exact ⟨_, rfl, rfl⟩
  | succ bound ih =>
    intro left e ts rest t after r deep low run stops after'
    cases head : op? ((ts ++ t :: after).headD .endOfInput) with
    | none =>
      rw [run_chainTail_end head] at run
      cases run
      rw [head_append_cons ts after after'] at head
      obtain rfl : ts = rest := List.append_cancel_right stops
      rw [run_chainTail_end head]
      exact ⟨_, rfl, rfl⟩
    | some op =>
      rw [run_chainTail_op head] at run
      rw [head_append_cons ts after after'] at head
      rw [run_chainTail_op head]
      split at run
      next room =>
        obtain ⟨⟨right, middle, e'⟩, read, others⟩ := bind_eq_ok.1 run
        have operand := operands (e + 1) (Nat.le_succ_of_le deep) room
        obtain ⟨at_e, onward⟩ := operand.onward read
        cases at_e
        have onward' := chainTail_onward operands bound (Nat.le_succ_of_le deep) room others
        rw [stops] at onward'
        obtain ⟨front, rfl⟩ := exists_append_of_suffix onward'
        obtain ⟨front', stepped⟩ := exists_append_of_suffix onward
        obtain ⟨s, rfl⟩ := tail_append_cons stepped
        have read' : operand'.run ⟨front' ++ t :: after', e + 1⟩ = .ok (right, ⟨front ++ t :: after', e + 1⟩) :=
          operand.carried read rfl after'
        obtain ⟨c, others', stops'⟩ := ih (Nat.le_succ_of_le deep) room others stops after'
        rw [if_pos room]
        exact ⟨c, bind_eq_ok.2 ⟨_, read', others'⟩, stops'⟩
      next => cases run

theorem chain (low : d ≤ maxDepth) (operands : ∀ e, d ≤ e → e ≤ maxDepth → Carries e operand operand') :
    Carries d (chain op? operand) (chain op? operand') where
  onward run := by
    rw [run_chain] at run
    obtain ⟨⟨left, middle, e⟩, first, others⟩ := bind_eq_ok.1 run
    obtain ⟨r, tail, ends⟩ := bind_eq_ok.1 others
    obtain ⟨at_d, onward⟩ := (operands d (Nat.le_refl d) low).onward first
    cases at_d
    cases ends
    exact ⟨rfl, (chainTail_onward operands _ (Nat.le_refl _) low tail).trans onward⟩
  carried run stops after' := by
    rw [run_chain] at run ⊢
    obtain ⟨⟨left, middle, e⟩, first, others⟩ := bind_eq_ok.1 run
    obtain ⟨r, tail, ends⟩ := bind_eq_ok.1 others
    have operand := operands d (Nat.le_refl d) low
    obtain ⟨at_d, -⟩ := operand.onward first
    cases at_d
    cases ends
    have onward := chainTail_onward operands _ (Nat.le_refl _) low tail
    rw [stops] at onward
    obtain ⟨front, rfl⟩ := exists_append_of_suffix onward
    obtain ⟨c, tail', stops'⟩ := chainTail_carried operands _ (Nat.le_refl _) low tail stops after'
    rw [operand.carried first rfl after', ok_bind]
    exact bind_eq_ok.2 ⟨_, tail', by rw [stops']⟩

end Chain

/-! ## Names and arguments -/

theorem dotted_carried {name : String} {ts rest after : List Token} {t : Token} {full : String}
    (read : dotted name (ts ++ t :: after) = .ok (full, rest ++ t :: after)) (after' : List Token) :
    dotted name (ts ++ t :: after') = .ok (full, rest ++ t :: after') := by
  generalize whole : ts ++ t :: after = all at read
  induction name, all using dotted.induct generalizing ts with
  | case1 name part others ih =>
    rw [dotted] at read
    obtain ⟨front, rfl⟩ := exists_append_of_suffix (dotted_onward read)
    obtain rfl : ts = .dot :: .identifier part :: front := List.append_cancel_right whole
    exact ih rfl read
  | case2 name others missing =>
    rw [dotted] at read
    · cases read
    · exact missing
  | case3 name all other end' =>
    have still : all.headD .endOfInput ≠ .dot := by
      intro dot
      cases all with
      | nil => cases dot
      | cons s others => exact end' others (congrArg (· :: others) dot)
    rw [dotted_end still] at read
    cases read
    obtain rfl : ts = rest := List.append_cancel_right whole
    rw [← whole, head_append_cons ts after after'] at still
    exact dotted_end still _

theorem path (name : String) : Carries d (path name) (path name) where
  onward run := by
    rw [run_path] at run
    obtain ⟨r, read, run⟩ := bind_eq_ok.1 run
    cases run
    exact ⟨rfl, dotted_onward read⟩
  carried run stops after' := by
    rw [run_path] at run ⊢
    obtain ⟨⟨full, rest⟩, read, run⟩ := bind_eq_ok.1 run
    cases run
    cases stops
    exact bind_eq_ok.2 ⟨_, dotted_carried read after', rfl⟩

section Arguments

variable {inner inner' : Inner Parse}

theorem arguments_onward (h : Carries d (Parse.nested inner.expression) (Parse.nested inner'.expression))
    (bound : Nat) : ∀ {rest r}, (arguments inner bound).run ⟨rest, d⟩ = .ok r →
      r.2.depth = d ∧ r.2.rest <:+ rest := by
  induction bound with
  | zero =>
    intro rest r run
    cases run
    exact ⟨rfl, List.suffix_rfl⟩
  | succ bound ih =>
    intro rest r run
    rw [run_arguments_succ] at run
    obtain ⟨⟨e, middle, d'⟩, first, others⟩ := bind_eq_ok.1 run
    obtain ⟨at_d, onward⟩ := h.onward first
    cases at_d
    split at others
    · obtain ⟨s, more, ends⟩ := bind_eq_ok.1 others
      cases ends
      obtain ⟨at_d, onward'⟩ := ih more
      exact ⟨at_d, onward'.trans ((List.tail_suffix middle).trans onward)⟩
    · cases others
      exact ⟨rfl, onward⟩

/-- Bounds make no difference if they exceed the number of the tokens that are read. -/
theorem arguments_carried (h : Carries d (Parse.nested inner.expression) (Parse.nested inner'.expression))
    (bound : Nat) : ∀ {bound' ts rest t after r}, ts.length < bound → ts.length < bound' →
      (arguments inner bound).run ⟨ts ++ t :: after, d⟩ = .ok r → r.2.rest = rest ++ t :: after →
      ∀ after', (arguments inner' bound').run ⟨ts ++ t :: after', d⟩ = .ok (r.1, ⟨rest ++ t :: after', d⟩) := by
  induction bound with
  | zero => exact fun few => absurd few (Nat.not_lt_zero _)
  | succ bound ih =>
    intro bound' ts rest t after r few few' run stops after'
    obtain ⟨bound', rfl⟩ := Nat.exists_eq_add_one_of_ne_zero (Nat.ne_of_gt (Nat.lt_of_le_of_lt (Nat.zero_le _) few'))
    rw [run_arguments_succ] at run ⊢
    obtain ⟨⟨e, middle, d'⟩, first, others⟩ := bind_eq_ok.1 run
    obtain ⟨at_d, onward⟩ := h.onward first
    cases at_d
    split at others
    next comma =>
      obtain ⟨s, more, ends⟩ := bind_eq_ok.1 others
      cases ends
      have onward' := (arguments_onward h bound more).2
      rw [stops] at onward'
      obtain ⟨front, stepped⟩ := exists_append_of_suffix onward'
      obtain ⟨ts', rfl⟩ := exists_append_of_suffix (onward'.trans (List.tail_suffix middle))
      obtain ⟨u, rfl⟩ := tail_append_cons stepped
      have fewer := onward.length_le
      simp only [List.length_append, List.length_cons] at fewer
      rw [h.carried first rfl after', ok_bind]
      refine (if_pos comma).trans ?_
      exact bind_eq_ok.2 ⟨_, ih (by omega) (by omega) more stops after', rfl⟩
    next other =>
      cases others
      cases stops
      rw [h.carried first rfl after', ok_bind]
      refine if_neg ?_
      rw [← head_append_cons rest after after']
      exact other

theorem argumentList (h : Carries d (Parse.nested inner.expression) (Parse.nested inner'.expression)) :
    Carries d (argumentList inner) (argumentList inner') where
  onward run := arguments_onward h _ run
  carried run stops after' := by
    rw [run_argumentList] at run ⊢
    refine arguments_carried h _ ?_ ?_ run stops after' <;>
      simp only [List.length_append, List.length_cons] <;> omega

end Arguments

theorem correspondence : Correspondence Carries where
  pure _ _ := pure
  bind := bind
  current _ := current
  advance _ := advance
  refused _ _ _ := throw _
  nested := nested
  chain := chain
  path _ := path
  argumentList := argumentList

end Carries

end FragmentEngine.Parse
