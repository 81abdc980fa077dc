import FragmentEngine.Proofs.Expr.Correspondence
/-!
# Watched parses

A parse that also lists every cursor it sets, whether it succeeds in the end or not. The list tells what happens on the
way: no cursor in it stands before the one that it replaces, and the nesting never falls below that at the start. So the
count of nestings is never taken below zero.
-/

namespace FragmentEngine.Parse

/-- A parser that lists the cursors it sets. -/
def Watched (α : Type) : Type := Cursor → Except Error (α × Cursor) × List Cursor

namespace Watched

/-- What follows a success goes on from its cursor, and its list behind the one before. -/
def andThen {α β : Type} (w : Watched α) (next : α → Watched β) : Watched β := fun c =>
  match w c with
  | (.ok (x, c'), before) => ((next x c').1, before ++ (next x c').2)
  | (.error e, before) => (.error e, before)

def recover {α : Type} (w : Watched α) (handle : Error → Watched α) : Watched α := fun c =>
  match w c with
  | (.ok r, before) => (.ok r, before)
  | (.error e, before) => ((handle e c).1, before ++ (handle e c).2)

instance : Monad Watched where
  pure x := fun c => (.ok (x, c), [])
  bind := andThen

instance : MonadStateOf Cursor Watched where
  get := fun c => (.ok (c, c), [])
  set next := fun _ => (.ok ((), next), [next])
  modifyGet f := fun c => (.ok (f c), [(f c).2])

instance : MonadExceptOf Error Watched where
  throw e := fun _ => (.error e, [])
  tryCatch := recover

variable {α β : Type} {w : Watched α} {c : Cursor}

theorem bind_ok {x : α} {c' : Cursor} (h : (w c).1 = .ok (x, c')) (g : α → Watched β) :
    (w >>= g) c = ((g x c').1, (w c).2 ++ (g x c').2) := by
  have done : w c = (.ok (x, c'), (w c).2) := Prod.ext h rfl
  change andThen w g c = _
  unfold andThen
  rw [done]

theorem bind_error {e : Error} (h : (w c).1 = .error e) (g : α → Watched β) : (w >>= g) c = (.error e, (w c).2) := by
  have failed : w c = (.error e, (w c).2) := Prod.ext h rfl
  change andThen w g c = _
  unfold andThen
  rw [failed]

end Watched

/-- The way from one cursor to another: each one stands where the one before it stood or behind it, with a nesting of at
least `floor`. -/
inductive Walk (floor : Nat) : Cursor → List Cursor → Cursor → Prop where
  | here (c : Cursor) : Walk floor c [] c
  | step {c next last : Cursor} {way : List Cursor} (onward : next.rest <:+ c.rest) (deep : floor ≤ next.depth)
      (others : Walk floor next way last) : Walk floor c (next :: way) last

namespace Walk

variable {floor low : Nat} {a b c : Cursor} {way more : List Cursor}

theorem append (h : Walk floor a way b) (next : Walk floor b more c) : Walk floor a (way ++ more) c := by
  induction h with
  | here => exact next
  | step onward deep _ ih => exact .step onward deep (ih next)

theorem mono (h : Walk floor a way b) (le : low ≤ floor) : Walk low a way b := by
  induction h with
  | here => exact .here _
  | step onward deep _ ih => exact .step onward (Nat.le_trans le deep) ih

/-- The end of a way is not before its start. -/
theorem onward (h : Walk floor a way b) : b.rest <:+ a.rest := by
  induction h with
  | here => exact List.suffix_rfl
  | step onward _ _ ih => exact ih.trans onward

end Walk

/-- A watched run of a parser is its run. The count of nestings stays in its range, and the cursors that are listed are a
way over nestings of at least `floor`. A success ends this way, with a result and a cursor for which `Q` holds. -/
structure Tracks {α : Type} (floor : Nat) (c : Cursor) (p : Parse α) (w : Watched α) (Q : α → Cursor → Prop) :
    Prop where
  same : (w c).1 = p.run c
  inRange : p.run c ≠ .error .overflow
  way : ∃ last, Walk floor c (w c).2 last ∧ ∀ x c', p.run c = .ok (x, c') → c' = last ∧ Q x c'

namespace Tracks

variable {α β : Type} {floor low : Nat} {c : Cursor} {p : Parse α} {w : Watched α} {Q : α → Cursor → Prop}

theorem mono (h : Tracks floor c p w Q) (le : low ≤ floor) : Tracks low c p w Q := by
  obtain ⟨last, way, ends⟩ := h.way
  exact ⟨h.same, h.inRange, last, way.mono le, ends⟩

theorem weaken {Q' : α → Cursor → Prop} (h : Tracks floor c p w Q) (imp : ∀ x c', Q x c' → Q' x c') :
    Tracks floor c p w Q' := by
  obtain ⟨last, way, ends⟩ := h.way
  exact ⟨h.same, h.inRange, last, way, fun x c' run => ⟨(ends x c' run).1, imp x c' (ends x c' run).2⟩⟩

theorem pure {x : α} (h : Q x c) : Tracks floor c (pure x) (pure x) Q :=
  ⟨rfl, nofun, c, .here c, fun _ _ run => by cases run; exact ⟨rfl, h⟩⟩

theorem throw {e : Error} (h : e ≠ .overflow) : Tracks floor c (throw e : Parse α) (throw e : Watched α) Q :=
  ⟨rfl, fun run => by cases run; exact h rfl, c, .here c, nofun⟩

theorem get {Q : Cursor → Cursor → Prop} (h : Q c c) : Tracks floor c get get Q :=
  ⟨rfl, nofun, c, .here c, fun _ _ run => by cases run; exact ⟨rfl, h⟩⟩

theorem set {Q : PUnit → Cursor → Prop} {next : Cursor} (onward : next.rest <:+ c.rest) (deep : floor ≤ next.depth)
    (h : Q () next) : Tracks floor c (set next) (set next) Q :=
  ⟨rfl, nofun, next, .step onward deep (.here next), fun _ _ run => by cases run; exact ⟨rfl, h⟩⟩

theorem modify {Q : PUnit → Cursor → Prop} {f : Cursor → Cursor} (onward : (f c).rest <:+ c.rest)
    (deep : floor ≤ (f c).depth) (h : Q () (f c)) : Tracks floor c (modify f) (modify f) Q :=
  ⟨rfl, nofun, f c, .step onward deep (.here _), fun _ _ run => by cases run; exact ⟨rfl, h⟩⟩

theorem bind {f : α → Parse β} {g : α → Watched β} {Q' : β → Cursor → Prop} (h : Tracks floor c p w Q)
    (next : ∀ x c', Q x c' → Tracks floor c' (f x) (g x) Q') : Tracks floor c (p >>= f) (w >>= g) Q' := by
  obtain ⟨last, way, ends⟩ := h.way
  cases ran : p.run c with
  | error e =>
    have run : (p >>= f).run c = .error e := by
      rw [StateT.run_bind, ran]
      rfl
    have out := Watched.bind_error (h.same.trans ran) g
    refine ⟨by rw [out, run], fun left => h.inRange ?_, last, by rw [out]; exact way, fun x c' done => ?_⟩
    · cases run.symm.trans left
      exact ran
    · cases run.symm.trans done
  | ok r =>
    obtain ⟨x, c'⟩ := r
    obtain ⟨rfl, holds⟩ := ends x c' ran
    have run : (p >>= f).run c = (f x).run c' := by
      rw [StateT.run_bind, ran]
      rfl
    have out := Watched.bind_ok (h.same.trans ran) g
    obtain ⟨same, inRange, last, more, ends⟩ := next x c' holds
    refine ⟨by rw [out, run, same], by rw [run]; exact inRange, last, by rw [out]; exact way.append more, ?_⟩
    rw [run]
    exact ends

theorem ofExcept {x : Except Error α} (inRange : x ≠ .error .overflow) (h : ∀ a, x = .ok a → Q a c) :
    Tracks floor c (MonadExcept.ofExcept x) (MonadExcept.ofExcept x) Q := by
  cases x with
  | error e => exact throw fun left => inRange (left ▸ rfl)
  | ok a => exact pure (h a rfl)

/-! ### Parsers -/

theorem current {Q : Token → Cursor → Prop} (h : ∀ t, Q t c) : Tracks floor c current current Q :=
  bind (Q := fun _ c' => c' = c) (get rfl) fun _ _ same => pure (same ▸ h _)

theorem advance (deep : floor ≤ c.depth) : Tracks floor c advance advance fun _ c' => c'.depth = c.depth :=
  modify (List.tail_suffix c.rest) deep rfl

theorem descend (deep : floor ≤ c.depth) :
    Tracks floor c descend descend fun _ c' => c.depth < maxDepth ∧ c' = ⟨c.rest, c.depth + 1⟩ := by
  refine bind (Q := fun x c' => x = c ∧ c' = c) (get ⟨rfl, rfl⟩) fun x c' ⟨here, same⟩ => ?_
  subst here same
  split
  next room => exact set List.suffix_rfl (Nat.le_succ_of_le deep) ⟨room, rfl⟩
  next => exact throw nofun

theorem ascend (deep : floor < c.depth) : Tracks floor c ascend ascend fun _ c' => c' = ⟨c.rest, c.depth - 1⟩ := by
  refine bind (Q := fun x c' => x = c ∧ c' = c) (get ⟨rfl, rfl⟩) fun x c' ⟨here, same⟩ => ?_
  subst here same
  rw [if_neg (Nat.ne_of_gt (Nat.lt_of_le_of_lt (Nat.zero_le floor) deep)),
    if_neg (Nat.ne_of_gt (Nat.lt_of_le_of_lt (Nat.zero_le floor) deep))]
  exact set List.suffix_rfl (Nat.le_sub_one_of_lt deep) rfl

end Tracks

/-! ## Levels -/

theorem dotted_inRange (name : String) (ts : List Token) : dotted name ts ≠ .error .overflow := by
  fun_induction dotted name ts with
  | case1 _ _ _ ih => exact ih
  | case2 | case3 =>
    intro failed
    cases failed

/-- A watched parser that starts with nesting `d` keeps on a way over nestings of at least `d`, and returns to `d` if it
succeeds. -/
def Keeps (d : Nat) {α : Type} (p : Parse α) (w : Watched α) : Prop :=
  ∀ c, c.depth = d → Tracks d c p w fun _ c' => c'.depth = d

namespace Keeps

variable {d : Nat}

theorem nested {α : Type} {p : Parse α} {w : Watched α} (h : d < maxDepth → Keeps (d + 1) p w) :
    Keeps d (nested p) (nested w) := by
  intro c at_d
  refine (Tracks.descend (Nat.le_of_eq at_d.symm)).bind fun _ c₁ ⟨room, there⟩ => ?_
  have deep : c₁.depth = d + 1 := by rw [there, at_d]
  refine ((h (at_d ▸ room) c₁ deep).mono (Nat.le_succ d)).bind fun x c₂ deep => ?_
  refine (Tracks.ascend (by omega)).bind fun _ c₃ back => .pure ?_
  rw [back]
  dsimp only
  omega

/-- The count is raised at each operator of a chain and not taken back there. -/
theorem chainTail {op? : Token → Option BinaryOp} {p : Parse Expr} {w : Watched Expr}
    (operands : ∀ e, d ≤ e → e ≤ maxDepth → Keeps e p w) (bound : Nat) : ∀ left c, d ≤ c.depth → c.depth ≤ maxDepth →
      Tracks d c (chainTail op? p bound left) (chainTail op? w bound left) fun _ _ => True := by
  induction bound with
  | zero => exact fun _ _ _ _ => .pure trivial
  | succ bound ih =>
    intro left c deep low
    refine Tracks.bind (Q := fun _ c' => c' = c) (.current fun _ => rfl) fun t c' same => ?_
    subst same
    split
    · exact .pure trivial
    · refine (Tracks.advance deep).bind fun _ c₁ at_c₁ => ?_
      refine (Tracks.descend (by omega)).bind fun _ c₂ ⟨room, there⟩ => ?_
      have at_c₂ : c₂.depth = c₁.depth + 1 := by rw [there]
      refine ((operands c₂.depth (by omega) (by omega) c₂ rfl).mono (by omega)).bind fun right c₃ at_c₃ => ?_
      exact ih _ c₃ (by omega) (by omega)

theorem chain {op? : Token → Option BinaryOp} {p : Parse Expr} {w : Watched Expr} (low : d ≤ maxDepth)
    (operands : ∀ e, d ≤ e → e ≤ maxDepth → Keeps e p w) : Keeps d (chain op? p) (chain op? w) := by
  intro c at_d
  refine (operands d (Nat.le_refl d) low c at_d).bind fun left c₁ at_c₁ => ?_
  refine Tracks.bind (Q := fun x c' => x = c₁ ∧ c' = c₁) (.get ⟨rfl, rfl⟩) fun x c' ⟨here, same⟩ => ?_
  subst here same
  refine (chainTail operands (maxDepth + 1) left _ (by omega) (by omega)).bind fun e c₂ _ => ?_
  refine Tracks.bind (Q := fun _ c' => c'.depth = d) ?_ fun _ c₃ at_c₃ => .pure at_c₃
  exact .modify List.suffix_rfl (Nat.le_of_eq at_c₁.symm) at_c₁

theorem path (name : String) : Keeps d (path name) (path name) := by
  intro c at_d
  refine Tracks.bind (Q := fun x c' => x = c ∧ c' = c) (.get ⟨rfl, rfl⟩) fun x c' ⟨here, same⟩ => ?_
  subst here same
  refine Tracks.bind (Q := fun r c₁ => c₁ = c' ∧ r.2 <:+ c'.rest) ?_ fun ⟨full, rest⟩ c₁ ⟨same, behind⟩ => ?_
  · exact .ofExcept (dotted_inRange name _) fun r read => ⟨rfl, dotted_onward read⟩
  · subst same
    refine Tracks.bind (Q := fun _ c₂ => c₂.depth = d) ?_ fun _ c₂ at_c₂ => .pure at_c₂
    exact .set behind (Nat.le_of_eq at_d.symm) at_d

/-- Every argument is one level further in, however many there are. -/
theorem arguments {inner : Inner Parse} {inner' : Inner Watched}
    (h : Keeps d (Parse.nested inner.expression) (Parse.nested inner'.expression)) (bound : Nat) :
    Keeps d (arguments inner bound) (arguments inner' bound) := by
  induction bound with
  | zero => exact fun c at_d => .pure at_d
  | succ bound ih =>
    intro c at_d
    refine (h c at_d).bind fun e c₁ at_c₁ => ?_
    refine Tracks.bind (Q := fun _ c' => c'.depth = d) (.current fun _ => at_c₁) fun t c₂ at_c₂ => ?_
    split
    · refine (Tracks.advance (Nat.le_of_eq at_c₂.symm)).bind fun _ c₃ at_c₃ => ?_
      exact (ih c₃ (at_c₃.trans at_c₂)).bind fun _ c₄ at_c₄ => .pure at_c₄
    · exact .pure at_c₂

theorem correspondence : Correspondence Keeps where
  pure _ _ _ _ at_d := .pure at_d
  bind h next c at_d := (h c at_d).bind next
  current _ _ at_d := .current fun _ => at_d
  advance _ _ at_d := (Tracks.advance (Nat.le_of_eq at_d.symm)).weaken fun _ _ same => same.trans at_d
  refused _ _ _ _ _ := .throw nofun
  nested := nested
  chain := chain
  path _ := path
  argumentList h c at_d := by
    refine Tracks.bind (Q := fun x c' => x = c ∧ c' = c) (.get ⟨rfl, rfl⟩) fun x c' ⟨here, same⟩ => ?_
    subst here same
    exact arguments h _ c' at_d

end Keeps

end FragmentEngine.Parse
