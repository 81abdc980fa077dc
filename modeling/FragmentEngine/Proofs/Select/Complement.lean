import FragmentEngine.Proofs.Expr.SingleRow
import FragmentEngine.Proofs.Select.InnerJoin
import FragmentEngine.Proofs.Select.StableOrder
/-!
# Conditions and their negations

A condition holds of a number other than zero, a negation of zero, and the two are decided in different places. They
leave nothing between them: whatever a condition can be decided on is kept by it or by its negation, and not by both.
-/

namespace FragmentEngine

/-! ## Values -/

theorem Value.isTruthy_ofBool (context : String) (b : Bool) : (ofBool b).isTruthy context = .ok b := by
  cases b
  · exact congrArg Except.ok (by decide +kernel : (!(Binary64.ofInt 0).isZero) = false)
  · exact congrArg Except.ok (by decide +kernel : (!(Binary64.ofInt 1).isZero) = true)

/-- The negation of a value decides the other way, and on the same values. -/
theorem Value.isTruthy_not_iff {context : String} {v : Value} {b : Bool} :
    (UnaryOp.not.apply v >>= fun w => w.isTruthy context) = .ok b ↔ v.isTruthy context = .ok (!b) := by
  have decided (x : Binary64) : (ofBool x.isZero).isTruthy context = .ok b ↔
      (Except.ok (!x.isZero) : Except Error Bool) = .ok (!b) := by
    rw [isTruthy_ofBool, Except.ok.injEq, Except.ok.injEq, Bool.not_inj_iff]
  cases v with
  | double x => exact decided x
  | long n => exact decided (Binary64.ofInt n.toInt)
  | str _ | binary _ => exact ⟨nofun, nofun⟩

theorem Expr.evaluate_unary (op : UnaryOp) (e : Expr) (t : SymbolTable) :
    (unary op e).evaluate t = e.evaluate t >>= op.apply := by
  rw [evaluate_eq_rollUp_singleton, evaluate_eq_rollUp_singleton, rollUp]

/-! ## Entries -/

namespace Selection

variable {context : Context} {sources : List Source} {binder : RowBinder} {e : Expr} {c s t : Selection} {k : Nat}

theorem admits_not_iff {b : Bool} : admits context sources binder (.unary .not e) c k = .ok b ↔
    admits context sources binder e c k = .ok (!b) := by
  unfold admits
  cases binder.table context sources c k with
  | error _ => exact ⟨nofun, nofun⟩
  | ok table =>
    rw [Outcome.ok_bind, Outcome.ok_bind, Expr.evaluate_unary, bind_assoc]
    cases e.evaluate table with
    | error _ => exact ⟨nofun, nofun⟩
    | ok v => exact Value.isTruthy_not_iff

/-- Two selections share out the entries of a third: each of these is in one of them and not in both, in the order that
it had and with the same offsets. -/
structure SplitsInto (c s t : Selection) : Prop where
  offsets : s.offsets = c.offsets ∧ t.offsets = c.offsets
  order : s.rows.Sublist c.rows ∧ t.rows.Sublist c.rows
  once : ∀ row ∈ c.rows, Xor (row ∈ s.rows) (row ∈ t.rows)

/-- A choice and the opposite one share out the entries. -/
theorem splitsInto_choice (offsets rows : List Nat) (choice : Nat → Bool) :
    SplitsInto ⟨offsets, rows⟩ ⟨offsets, rows.filter choice⟩ ⟨offsets, rows.filter fun k => !choice k⟩ where
  offsets := ⟨rfl, rfl⟩
  order := ⟨List.filter_sublist, List.filter_sublist⟩
  once row mem := by
    rw [List.mem_filter, List.mem_filter, and_iff_right mem, and_iff_right mem]
    cases choice row
    · exact .inr ⟨rfl, nofun⟩
    · exact .inl ⟨rfl, nofun⟩

/-- Filtering by a condition succeeds exactly if filtering by its negation does. Then the two share out the candidates:
the rows of the only source, or the places of the identifiers that all sources have. -/
theorem filter_not_splits (context : Context) (sources : List Source) (e : Expr) :
    ((∃ s, filter context sources (some e) = .ok s) ↔
      ∃ t, filter context sources (some (.unary .not e)) = .ok t) ∧
    ∀ s t, filter context sources (some e) = .ok s → filter context sources (some (.unary .not e)) = .ok t →
      ∃ c, candidates sources true = .ok c ∧
        ((∃ only, sources = [only] ∧ c = full only.fragment.rowCount) ∨
          2 ≤ sources.length ∧ ∃ low, c.Aligns sources low) ∧
        c.SplitsInto s t := by
  constructor
  · constructor
    · rintro ⟨s, h⟩
      obtain ⟨plain, c, binder, choice, hc, bound, decided, -⟩ := filter_eq_ok_iff.1 h
      refine ⟨_, filter_eq_ok_iff.2 ⟨plain, c, binder, fun k => !choice k, hc, bound, fun k hk => ?_, rfl⟩⟩
      rw [admits_not_iff, Bool.not_not, decided k hk]
    · rintro ⟨t, h⟩
      obtain ⟨plain, c, binder, choice, hc, bound, decided, -⟩ := filter_eq_ok_iff.1 h
      exact ⟨_, filter_eq_ok_iff.2
        ⟨plain, c, binder, fun k => !choice k, hc, bound, fun k hk => admits_not_iff.1 (decided k hk), rfl⟩⟩
  · intro s t kept negated
    obtain ⟨-, c, binder, choice, hc, bound, decided, rfl⟩ := filter_eq_ok_iff.1 kept
    obtain ⟨-, c', binder', choice', hc', bound', decided', rfl⟩ := filter_eq_ok_iff.1 negated
    cases hc.symm.trans hc'
    cases bound.symm.trans bound'
    refine ⟨c, hc, candidates_eq_ok hc, ?_⟩
    have opposite : ∀ k ∈ List.range c.size, choice' k = !choice k := by
      intro k mem
      have hk := List.mem_range.1 mem
      have both := (admits_not_iff.1 (decided' k hk)).symm.trans (decided k hk)
      rw [← Except.ok.inj both, Bool.not_not]
    rw [List.filter_congr opposite, ← rows_candidates hc]
    exact splitsInto_choice c.offsets c.rows choice

/-- A NaN is another number than zero, and -0 is not. -/
theorem filter_not_splits_zeros :
    let context : Context := ⟨.builtin, [], 0⟩
    let sources := [ofDoubles [.ofInt 5, .nan, .zero, Binary64.neg .zero]]
    let condition := Expr.variable "v"
    filter context sources (some condition) = .ok ⟨[0], [0, 1]⟩ ∧
      filter context sources (some (.unary .not condition)) = .ok ⟨[0], [2, 3]⟩ ∧
      ∃ c, candidates sources true = .ok c ∧
        ((∃ only, sources = [only] ∧ c = full only.fragment.rowCount) ∨
          2 ≤ sources.length ∧ ∃ low, c.Aligns sources low) ∧
        c.SplitsInto ⟨[0], [0, 1]⟩ ⟨[0], [2, 3]⟩ := by
  intro context sources condition
  have kept : filter context sources (some condition) = .ok ⟨[0], [0, 1]⟩ := by decide +kernel
  have negated : filter context sources (some (.unary .not condition)) = .ok ⟨[0], [2, 3]⟩ := by decide +kernel
  exact ⟨kept, negated, (filter_not_splits context sources condition).2 _ _ kept negated⟩

end Selection

end FragmentEngine
