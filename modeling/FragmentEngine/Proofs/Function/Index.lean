import FragmentEngine.Function.Index
import FragmentEngine.Proofs.Outcome
/-!
# What the index functions compute

On longs an index function succeeds exactly if its sizes are positive and the few numbers it forms are longs. Its result
is then a formula on unbounded integers with division toward zero, and this number is a long.
-/

namespace FragmentEngine

/-! ## The range of longs -/

namespace Long

/-- A number in the range of longs. -/
def Fits (n : Int) : Prop := least ≤ n ∧ n ≤ greatest

instance (n : Int) : Decidable (Fits n) := inferInstanceAs (Decidable (_ ∧ _))

theorem fits_iff {n : Int} : Fits n ↔ -9223372036854775808 ≤ n ∧ n ≤ 9223372036854775807 := Iff.rfl

theorem fits_toInt (l : Long) : Fits l.toInt := ⟨least_le_toInt l, toInt_le_greatest l⟩

/-- The place of a positive identifier, counted from zero, is a long. -/
theorem fits_pred {id : Long} (h : 0 < id.toInt) : Fits (id.toInt - 1) := by
  have hid := fits_toInt id
  rw [fits_iff] at hid ⊢
  omega

theorem toInt_ofInt {n : Int} (h : Fits n) : (Int64.ofInt n).toInt = n := ofInt?_eq_some (if_pos h)

end Long

/-! ## Division toward zero -/

/-- The number `b` lies between zero and `a`. -/
def NearerZero (a b : Int) : Prop := (0 ≤ b ∧ b ≤ a) ∨ (a ≤ b ∧ b ≤ 0)

/-- Blocks of blocks are counted in two divisions. -/
theorem tdiv_extent {a size block : Int} (ha : 0 ≤ a) (hblock : 0 < block) :
    a.tdiv (size * block) = (a.tdiv block).tdiv size := by
  have hblocks := Int.ediv_nonneg ha (Int.le_of_lt hblock)
  rw [Int.tdiv_eq_ediv_of_nonneg ha, Int.tdiv_eq_ediv_of_nonneg ha, Int.mul_comm, Int.tdiv_eq_ediv_of_nonneg hblocks,
    Int.ediv_ediv_of_nonneg (Int.le_of_lt hblock)]

namespace NearerZero

variable {a b size block : Int}

theorem fits (h : NearerZero a b) (ha : Long.Fits a) : Long.Fits b := by
  rw [Long.fits_iff] at *
  rcases h with h | h <;> omega

/-- Between zero and the predecessor of a long there is room for one more. -/
theorem fits_succ (h : NearerZero a b) (ha : Long.Fits a) (hsucc : Long.Fits (a + 1)) : Long.Fits (b + 1) := by
  rw [Long.fits_iff] at *
  rcases h with h | h <;> omega

/-- An odd function is looked at on one side of zero. -/
theorem of_odd {f : Int → Int} (hodd : ∀ a, f (-a) = -f a) (h : ∀ a, 0 ≤ a → 0 ≤ f a ∧ f a ≤ a) (a : Int) :
    NearerZero a (f a) := by
  rcases Int.le_total 0 a with ha | ha
  · exact .inl (h a ha)
  · have hneg := h (-a) (Int.neg_nonneg_of_nonpos ha)
    rw [hodd] at hneg
    exact .inr (by omega)

theorem tdiv (a : Int) (hb : 0 < b) : NearerZero a (a.tdiv b) :=
  of_odd (f := (Int.tdiv · b)) (Int.neg_tdiv · b)
    (fun _ ha => ⟨Int.tdiv_nonneg ha (Int.le_of_lt hb), Int.tdiv_le_self b ha⟩) a

theorem tmod (a : Int) (hb : 0 < b) : NearerZero a (a.tmod b) := by
  refine of_odd (f := (Int.tmod · b)) (Int.neg_tmod · b) (fun a ha => ⟨Int.tmod_nonneg b ha, ?_⟩) a
  have hsplit := Int.tdiv_mul_add_tmod a b
  have hquotient := Int.mul_nonneg (Int.tdiv_nonneg ha (Int.le_of_lt hb)) (Int.le_of_lt hb)
  omega

theorem trans {c : Int} (h : NearerZero a b) (hnext : NearerZero b c) : NearerZero a c := by
  unfold NearerZero at *
  omega

/-- Blocks of `size` blocks are no more than blocks, so what is left of a number without them is smaller. -/
theorem collapsed_le (ha : 0 ≤ a) (hsize : 0 < size) (hblock : 0 < block) :
    0 ≤ a.tdiv (size * block) * block ∧ a.tdiv (size * block) * block + a.tmod block ≤ a := by
  have hextent := Int.mul_pos hsize hblock
  have hfewer : a.tdiv (size * block) ≤ a.tdiv block := by
    rw [tdiv_extent ha hblock]
    exact Int.tdiv_le_self size (Int.tdiv_nonneg ha (Int.le_of_lt hblock))
  have hstart := Int.mul_le_mul_of_nonneg_right hfewer (Int.le_of_lt hblock)
  have hsplit := Int.tdiv_mul_add_tmod a block
  exact ⟨Int.mul_nonneg (Int.tdiv_nonneg ha (Int.le_of_lt hextent)) (Int.le_of_lt hblock), by omega⟩

theorem collapsedStart (a : Int) (hsize : 0 < size) (hblock : 0 < block) :
    NearerZero a (a.tdiv (size * block) * block) := by
  refine of_odd (f := fun a => a.tdiv (size * block) * block) (fun a => ?_) (fun a ha => ?_) a
  · rw [Int.neg_tdiv, Int.neg_mul]
  · obtain ⟨hstart, hall⟩ := collapsed_le ha hsize hblock
    have hrest := Int.tmod_nonneg block ha
    exact ⟨hstart, by omega⟩

theorem collapsed (a : Int) (hsize : 0 < size) (hblock : 0 < block) :
    NearerZero a (a.tdiv (size * block) * block + a.tmod block) := by
  refine of_odd (f := fun a => a.tdiv (size * block) * block + a.tmod block) (fun a => ?_) (fun a ha => ?_) a
  · rw [Int.neg_tdiv, Int.neg_tmod, Int.neg_mul, Int.neg_add]
  · obtain ⟨hstart, hall⟩ := collapsed_le ha hsize hblock
    exact ⟨Int.add_nonneg hstart (Int.tmod_nonneg block ha), hall⟩

end NearerZero

/-! ## Computations under a condition -/

/-- A computation that has the result `a` under the condition `p` and is refused in every other case. -/
structure Gives {α : Type} (x : Except Error α) (p : Prop) (a : α) : Prop where
  result : p → x = .ok a
  refusal : ¬p → ∃ e, x = .error (.exec e)

namespace Gives

variable {α β : Type} {x : Except Error α} {p q : Prop} {a : α}

theorem ok (a : α) : Gives (.ok a) True a := ⟨fun _ => rfl, fun h => absurd trivial h⟩

theorem bind {f : α → Except Error β} {b : β} (hx : Gives x p a) (hf : p → Gives (f a) q b) :
    Gives (x >>= f) (p ∧ q) b where
  result h := by
    rw [hx.result h.1, Outcome.ok_bind]
    exact (hf h.1).result h.2
  refusal h := by
    by_cases hp : p
    · rw [hx.result hp, Outcome.ok_bind]
      exact (hf hp).refusal fun hq => h ⟨hp, hq⟩
    · obtain ⟨e, he⟩ := hx.refusal hp
      exact ⟨e, by rw [he]; rfl⟩

/-- What follows the computation matters for its result only, and under its condition. -/
theorem bind_congr {f g : α → Except Error β} (hx : Gives x p a) (h : p → f a = g a) : (x >>= f) = (x >>= g) := by
  by_cases hp : p
  · rw [hx.result hp, Outcome.ok_bind, Outcome.ok_bind, h hp]
  · obtain ⟨e, he⟩ := hx.refusal hp
    rw [he]
    rfl

theorem of_iff {b : α} (h : Gives x p a) (hpq : p ↔ q) (hab : q → a = b) : Gives x q b where
  result hq := by rw [h.result (hpq.2 hq), hab hq]
  refusal hq := h.refusal fun hp => hq (hpq.1 hp)

theorem eq_ok_iff {b : α} (h : Gives x p a) : x = .ok b ↔ p ∧ a = b := by
  constructor
  · intro hok
    by_cases hp : p
    · exact ⟨hp, Except.ok.inj ((h.result hp).symm.trans hok)⟩
    · obtain ⟨e, he⟩ := h.refusal hp
      cases he.symm.trans hok
  · rintro ⟨hp, rfl⟩
    exact h.result hp

end Gives

namespace Index

/-- A computation of the number `n`, which is a long. -/
structure Computes (x : Except Error Value) (p : Prop) (n : Int) : Prop extends Gives x p (long n) where
  fits : p → Long.Fits n

theorem long_eq_iff {n : Int} {l : Long} (h : Long.Fits n) : long n = .long l ↔ l.toInt = n := by
  constructor
  · intro heq
    cases heq
    exact Long.toInt_ofInt h
  · rintro rfl
    exact congrArg Value.long (Int64.ofInt_toInt l)

namespace Computes

variable {x : Except Error Value} {p : Prop} {n : Int}

theorem eq_ok_long_iff (h : Computes x p n) {l : Long} : x = .ok (.long l) ↔ p ∧ l.toInt = n := by
  rw [h.eq_ok_iff]
  exact and_congr_right fun hp => long_eq_iff (h.fits hp)

theorem exists_long (h : Computes x p n) (hp : p) : ∃ l : Long, x = .ok (.long l) ∧ l.toInt = n :=
  ⟨Int64.ofInt n, h.result hp, Long.toInt_ofInt (h.fits hp)⟩

end Computes

/-! ## Sizes and checked numbers -/

theorem positive_gives (function quantity : String) (size : Long) :
    Gives (positive function quantity (.long size)) (0 < size.toInt) size.toInt where
  result h := if_neg (Int.not_le.2 h)
  refusal h := ⟨_, if_pos (Int.not_lt.1 h)⟩

theorem checked_gives (function : String) (n : Int) : Gives (checked function n) (Long.Fits n) n where
  result h := by
    have hlong : Long.ofInt? n = some (Int64.ofInt n) := if_pos h
    rw [checked, hlong]
    exact congrArg Except.ok (Long.toInt_ofInt h)
  refusal h := by
    have hnone : Long.ofInt? n = none := if_neg h
    exact ⟨.integerOverflow function, by rw [checked, hnone]⟩

theorem zeroBased_gives (function : String) (id : Long) :
    Gives (zeroBased function id) (Long.Fits (id.toInt - 1)) (id.toInt - 1) := checked_gives function _

theorem toLong_gives (context : String) (l : Long) : Gives ((Value.long l).toLong context) True l := .ok l

/-- The number of cells of an array with the given extents. -/
def extent : List Long → Int
  | [] => 1
  | size :: sizes => size.toInt * extent sizes

@[simp] theorem extent_nil : extent [] = 1 := rfl

@[simp] theorem extent_cons (size : Long) (sizes : List Long) : extent (size :: sizes) = size.toInt * extent sizes := rfl

theorem extent_pos {sizes : List Long} (h : ∀ size ∈ sizes, 0 < size.toInt) : 0 < extent sizes := by
  induction sizes with
  | nil => decide
  | cons size sizes ih =>
    rw [List.forall_mem_cons] at h
    rw [extent_cons]
    exact Int.mul_pos h.1 (ih h.2)

/-- A product that is no long does not become one by further sizes. -/
theorem innerExtent_gives (sizes : List Long) {inner : Int} (hpos : 0 < inner) (hfits : Long.Fits inner) :
    Gives (innerExtent inner (sizes.map .long))
      ((∀ size ∈ sizes, 0 < size.toInt) ∧ Long.Fits (inner * extent sizes)) (inner * extent sizes) := by
  induction sizes generalizing inner with
  | nil => exact (Gives.ok inner).of_iff (by simpa using hfits) fun _ => by simp
  | cons size sizes ih =>
    rw [List.map_cons, innerExtent, extent_cons, ← Int.mul_assoc, List.forall_mem_cons, and_assoc]
    refine (positive_gives _ _ size).bind fun hsize => ?_
    have hproduct : 0 < inner * size.toInt := Int.mul_pos hpos hsize
    by_cases hnext : Long.Fits (inner * size.toInt)
    · have hlong : Long.ofInt? (inner * size.toInt) = some (Int64.ofInt (inner * size.toInt)) := if_pos hnext
      rw [hlong]
      dsimp only
      rw [Long.toInt_ofInt hnext]
      exact ih hproduct hnext
    · have hnone : Long.ofInt? (inner * size.toInt) = none := if_neg hnext
      rw [hnone]
      refine ⟨fun h => absurd ?_ hnext, fun _ => ⟨_, rfl⟩⟩
      have hle := Int.mul_le_mul_of_nonneg_left (Int.add_one_le_of_lt (extent_pos h.1)) (Int.le_of_lt hproduct)
      rw [Long.fits_iff] at h ⊢
      omega

/-! ## The functions -/

/-- A number no further from zero than an identifier's place leaves room for one more: the place
itself is one less than a long. -/
theorem fits_of_zeroBased {id : Long} {n : Int} (hzero : Long.Fits (id.toInt - 1))
    (h : NearerZero (id.toInt - 1) n) : Long.Fits (n + 1) :=
  h.fits_succ hzero (by rw [Int.sub_add_cancel]; exact Long.fits_toInt id)

theorem blockOf_computes (id size : Long) : Computes (blockOf [.long id, .long size])
    (0 < size.toInt ∧ Long.Fits (id.toInt - 1)) ((id.toInt - 1).tdiv size.toInt + 1) where
  toGives := by
    refine Gives.of_iff (Gives.bind (toLong_gives _ id) fun _ => Gives.bind (positive_gives _ _ size) fun _ =>
      Gives.bind (zeroBased_gives _ id) fun _ => Gives.ok _) ?_ fun _ => rfl
    simp only [true_and, and_true]
  fits h := fits_of_zeroBased h.2 (.tdiv _ h.1)

theorem collapse_computes (id size block : Long) : Computes (collapse [.long id, .long size, .long block])
    (0 < size.toInt ∧ 0 < block.toInt ∧ Long.Fits (id.toInt - 1) ∧ Long.Fits (size.toInt * block.toInt))
    ((id.toInt - 1).tdiv (size.toInt * block.toInt) * block.toInt + (id.toInt - 1).tmod block.toInt + 1) where
  toGives := by
    refine Gives.of_iff (Gives.bind (toLong_gives _ id) fun _ => Gives.bind (positive_gives _ _ size) fun _ =>
      Gives.bind (positive_gives _ _ block) fun _ => Gives.bind (zeroBased_gives _ id) fun _ =>
      Gives.bind (checked_gives _ _) fun _ => Gives.bind (checked_gives _ _) fun _ =>
      Gives.bind (checked_gives _ _) fun _ => Gives.ok _) ?_ fun _ => ?_
    · -- what is formed behind the product of the sizes is nearer to zero than the identifier
      simp only [true_and, and_true]
      refine ⟨fun ⟨hsize, hblock, hzero, hextent, _⟩ => ⟨hsize, hblock, hzero, hextent⟩, ?_⟩
      rintro ⟨hsize, hblock, hzero, hextent⟩
      refine ⟨hsize, hblock, hzero, hextent, (NearerZero.collapsedStart _ hsize hblock).fits hzero, ?_⟩
      rw [← Int.add_assoc]
      exact fits_of_zeroBased hzero (.collapsed _ hsize hblock)
    · rw [Int.add_assoc]
  fits h := fits_of_zeroBased h.2.2.1 (.collapsed _ h.1 h.2.1)

theorem along_computes (id outer : Long) (inner : List Long) :
    Computes (along (.long id :: .long outer :: inner.map .long))
      (0 < outer.toInt ∧ (∀ size ∈ inner, 0 < size.toInt) ∧ Long.Fits (extent inner) ∧ Long.Fits (id.toInt - 1))
      (((id.toInt - 1).tdiv (extent inner)).tmod outer.toInt + 1) where
  toGives := by
    refine Gives.of_iff (Gives.bind (toLong_gives _ id) fun _ => Gives.bind (positive_gives _ _ outer) fun _ =>
      Gives.bind (innerExtent_gives inner (by decide) (by decide)) fun _ =>
      Gives.bind (zeroBased_gives _ id) fun _ => Gives.ok _) ?_ fun _ => ?_
    · simp only [true_and, and_true, Int.one_mul, and_assoc]
    · simp only [Int.one_mul]
  fits h := fits_of_zeroBased h.2.2.2 ((NearerZero.tdiv _ (extent_pos h.2.1)).trans (.tmod _ h.1))

theorem alongBlocks_computes (id block size : Long) : Computes (alongBlocks [.long id, .long block, .long size])
    (0 < block.toInt ∧ 0 < size.toInt ∧ Long.Fits (id.toInt - 1))
    (((id.toInt - 1).tdiv block.toInt).tmod size.toInt + 1) where
  toGives := by
    refine Gives.of_iff (Gives.bind (toLong_gives _ id) fun _ => Gives.bind (positive_gives _ _ block) fun _ =>
      Gives.bind (positive_gives _ _ size) fun _ => Gives.bind (zeroBased_gives _ id) fun _ =>
      Gives.ok _) ?_ fun _ => rfl
    simp only [true_and, and_true]
  fits h := fits_of_zeroBased h.2.2 ((NearerZero.tdiv _ h.1).trans (.tmod _ h.2.1))

/-- The identifier is one of `start`, `start + step` and so on up to `stop`. -/
def OnLattice (id start step stop : Int) : Prop := start ≤ id ∧ id ≤ stop ∧ step ∣ id - start

instance (id start step stop : Int) : Decidable (OnLattice id start step stop) :=
  inferInstanceAs (Decidable (_ ∧ _ ∧ _))

theorem onLattice_iff {id start step stop : Int} (hstep : 0 < step) :
    OnLattice id start step stop ↔ id ≤ stop ∧ ∃ steps : Nat, id = start + steps * step := by
  constructor
  · rintro ⟨hstart, hstop, steps, hsteps⟩
    have hnonneg : 0 ≤ steps := Int.nonneg_of_mul_nonneg_right (by omega) hstep
    refine ⟨hstop, steps.toNat, ?_⟩
    rw [Int.toNat_of_nonneg hnonneg, Int.mul_comm, ← hsteps]
    omega
  · rintro ⟨hstop, steps, rfl⟩
    have hdistance := Int.mul_nonneg (Int.natCast_nonneg steps) (Int.le_of_lt hstep)
    exact ⟨by omega, hstop, steps, by rw [Int.mul_comm]; omega⟩

theorem ofBool_eq_long (p : Prop) [Decidable p] : Value.ofBool (decide p) = long (if p then 1 else 0) := by
  by_cases h : p
  · rw [if_pos h, decide_eq_true h]
    rfl
  · rw [if_neg h, decide_eq_false h]
    rfl

theorem onLattice_computes (id start step stop : Long) :
    Computes (onLattice [.long id, .long start, .long step, .long stop])
      (0 < step.toInt ∧ (start.toInt ≤ id.toInt → id.toInt ≤ stop.toInt → Long.Fits (id.toInt - start.toInt)))
      (if OnLattice id.toInt start.toInt step.toInt stop.toInt then 1 else 0) where
  toGives := by
    rw [← ofBool_eq_long]
    refine Gives.of_iff (Gives.bind (toLong_gives _ id) fun _ => Gives.bind (toLong_gives _ start) fun _ =>
      Gives.bind (positive_gives _ _ step) fun _ => Gives.bind (toLong_gives _ stop) fun _ => ?_)
      (by simp only [true_and]; exact Iff.rfl) fun _ => rfl
    by_cases hout : id.toInt < start.toInt ∨ stop.toInt < id.toInt
    · rw [if_pos hout]
      have hnot : ¬OnLattice id.toInt start.toInt step.toInt stop.toInt := fun h => by unfold OnLattice at h; omega
      exact (Gives.ok _).of_iff ⟨fun _ hstart hstop => absurd hout (by omega), fun _ => trivial⟩
        fun _ => by rw [decide_eq_false hnot]
    · rw [if_neg hout, not_or, Int.not_lt, Int.not_lt] at *
      refine Gives.of_iff (Gives.bind (checked_gives _ _) fun _ => Gives.ok _) ?_ fun _ => ?_
      · exact ⟨fun h _ _ => h.1, fun h => ⟨h hout.1 hout.2, trivial⟩⟩
      · congr 1
        rw [Bool.eq_iff_iff, beq_iff_eq, decide_eq_true_iff, ← Int.dvd_iff_tmod_eq_zero]
        exact ⟨fun h => ⟨hout.1, hout.2, h⟩, fun h => h.2.2⟩
  fits _ := by split <;> decide

end Index

end FragmentEngine
