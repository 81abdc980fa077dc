import Mathlib.Data.List.Induction
import Mathlib.Data.List.Sort
/-!
# Stable sorting

A list is sorted stably by keys if the keys never decrease and the items of each key come in the order they had. There
is one such arrangement only, so it does not matter by which way it is reached: by insertion into an ordered list, or in
place by exchanging neighbours.
-/

namespace FragmentEngine

variable {α κ : Type}

/-- The items of `xs` in the order of their keys, those of one key in the order they have in `xs`. -/
structure IsStableSort [DecidableEq κ] (le : κ → κ → Prop) (key : α → κ) (xs ys : List α) : Prop where
  perm : ys.Perm xs
  sorted : ys.Pairwise fun a b => le (key a) (key b)
  stable : ∀ k, ys.filter (key · = k) = xs.filter (key · = k)

namespace IsStableSort

section

variable [DecidableEq κ] {le : κ → κ → Prop} {key : α → κ} {xs ys zs : List α}

/-- Lists in order are equal if they have the same items of each key, in the same order. -/
theorem eq_of_sorted (antisymm : ∀ k l, le k l → le l k → k = l) (ordered : ys.Pairwise fun a b => le (key a) (key b))
    (ordered' : zs.Pairwise fun a b => le (key a) (key b)) (perm : ys.Perm zs)
    (same : ∀ k, ys.filter (key · = k) = zs.filter (key · = k)) : ys = zs := by
  induction ys generalizing zs with
  | nil => exact perm.nil_eq
  | cons a ys ih =>
    cases zs with
    | nil => exact perm.eq_nil
    | cons b zs =>
      rw [List.pairwise_cons] at ordered ordered'
      -- each head is somewhere in the other list, so the heads have one key
      have keys : key a = key b := by
        rcases List.mem_cons.1 (perm.mem_iff.1 List.mem_cons_self) with rfl | there
        · rfl
        rcases List.mem_cons.1 (perm.mem_iff.2 List.mem_cons_self) with rfl | here
        · rfl
        exact antisymm _ _ (ordered.1 b here) (ordered'.1 a there)
      have first := same (key a)
      rw [List.filter_cons_of_pos (by simp), List.filter_cons_of_pos (by simp [keys])] at first
      obtain ⟨rfl, -⟩ := List.cons.inj first
      refine congrArg (a :: ·) (ih ordered.2 ordered'.2 perm.cons_inv fun k => ?_)
      have rest := same k
      rw [List.filter_cons, List.filter_cons] at rest
      split at rest
      · exact (List.cons.inj rest).2
      · exact rest

/-- There is one stable arrangement only. -/
theorem unique (antisymm : ∀ k l, le k l → le l k → k = l) (h : IsStableSort le key xs ys)
    (h' : IsStableSort le key xs zs) : ys = zs :=
  eq_of_sorted antisymm h.sorted h'.sorted (h.perm.trans h'.perm.symm) fun k => (h.stable k).trans (h'.stable k).symm

/-- Keys may be replaced by others that are ordered alike. -/
theorem of_keys {ι : Type} [DecidableEq ι] {le' : ι → ι → Prop} {key' : α → ι}
    (order : ∀ a ∈ xs, ∀ b ∈ xs, le' (key' a) (key' b) ↔ le (key a) (key b))
    (equal : ∀ a ∈ xs, ∀ b ∈ xs, key' a = key' b ↔ key a = key b) (h : IsStableSort le key xs ys) :
    IsStableSort le' key' xs ys where
  perm := h.perm
  sorted := h.sorted.imp_of_mem fun ha hb => (order _ (h.perm.mem_iff.1 ha) _ (h.perm.mem_iff.1 hb)).2
  stable k := by
    by_cases used : ∃ a ∈ xs, key' a = k
    · obtain ⟨a, ha, rfl⟩ := used
      have same : ∀ b ∈ xs, decide (key' b = key' a) = decide (key b = key a) := fun b hb =>
        decide_eq_decide.2 (equal b hb a ha)
      rw [List.filter_congr same, List.filter_congr fun b hb => same b (h.perm.mem_iff.1 hb), h.stable]
    · have unused : ∀ b ∈ xs, ¬decide (key' b = k) = true := fun b hb here => used ⟨b, hb, of_decide_eq_true here⟩
      rw [List.filter_eq_nil_iff.2 unused, List.filter_eq_nil_iff.2 fun b hb => unused b (h.perm.mem_iff.1 hb)]

end

section

variable [LinearOrder κ]

/-- Insertion sorts stably. -/
theorem insertionSort (key : α → κ) (xs : List α) :
    IsStableSort (· ≤ ·) key xs (xs.insertionSort fun a b => key a ≤ key b) where
  perm := List.perm_insertionSort _ xs
  sorted := by
    have : Std.Total fun a b : α => key a ≤ key b := ⟨fun a b => le_total _ _⟩
    have : IsTrans α fun a b => key a ≤ key b := ⟨fun _ _ _ => le_trans⟩
    exact List.pairwise_insertionSort _ xs
  stable k := by
    -- the items of one key are in order already
    have ordered : (xs.filter (key · = k)).Pairwise fun a b => key a ≤ key b := by
      refine List.pairwise_of_forall_mem_list fun a ha b hb => ?_
      rw [List.mem_filter, decide_eq_true_eq] at ha hb
      rw [ha.2, hb.2]
    have kept := (List.sublist_insertionSort ordered List.filter_sublist).filter (key · = k)
    rw [List.filter_filter] at kept
    simp only [Bool.and_self] at kept
    exact (kept.eq_of_length (((List.perm_insertionSort _ xs).filter _).length_eq.symm)).symm

end

end IsStableSort

/-! ## Exchanging neighbours -/

/-- Moves the item at place `j` back past the items before it that are greater, exchanging it with one after another. -/
def settle (greater : α → α → Bool) : Nat → List α → List α
  | 0, xs => xs
  | j + 1, xs =>
    match xs.drop j with
    | a :: b :: rest => if greater a b then settle greater j (xs.take j ++ b :: a :: rest) else xs
    | _ => xs

/-- Sorts in place, by settling the items from the second on one after another. -/
def exchangeSort (greater : α → α → Bool) (xs : List α) : List α :=
  (List.range' 1 (xs.length - 1)).foldl (fun ys i => settle greater i ys) xs

section

variable [LinearOrder κ] {key : α → κ} {xs ys : List α}

/-- Items are moved past items of other keys only. -/
def Rearranges (key : α → κ) (xs ys : List α) : Prop :=
  ys.Perm xs ∧ ∀ k, ys.filter (key · = k) = xs.filter (key · = k)

/-- An exchange of neighbours with different keys leaves the items of each key in order. -/
theorem rearranges_exchange (key : α → κ) {a b : α} (l r : List α) (differ : key a ≠ key b) :
    Rearranges key (l ++ a :: b :: r) (l ++ b :: a :: r) := by
  refine ⟨(List.Perm.swap a b r).append_left l, fun k => ?_⟩
  have apart : ¬(key a = k ∧ key b = k) := fun both => differ (both.1.trans both.2.symm)
  simp only [List.filter_append, List.filter_cons]
  by_cases ha : key a = k
  · have hb : key b ≠ k := fun hb => apart ⟨ha, hb⟩
    simp [ha, hb]
  · simp [ha]

theorem rearranges_settle (key : α → κ) (j : Nat) (xs : List α) :
    Rearranges key xs (settle (fun a b => decide (key b < key a)) j xs) := by
  induction j generalizing xs with
  | zero => exact ⟨List.Perm.refl _, fun _ => rfl⟩
  | succ j ih =>
    unfold settle
    split
    next a b rest tail =>
      split
      next greater =>
        have exchanged := rearranges_exchange key (xs.take j) rest (ne_of_gt (of_decide_eq_true greater))
        rw [← tail, List.take_append_drop] at exchanged
        obtain ⟨perm, same⟩ := ih (xs.take j ++ b :: a :: rest)
        exact ⟨perm.trans exchanged.1, fun k => (same k).trans (exchanged.2 k)⟩
      next => exact ⟨List.Perm.refl _, fun _ => rfl⟩
    next => exact ⟨List.Perm.refl _, fun _ => rfl⟩

/-- An item that settles among items in order leaves them in order. The items it has passed already are `m`. -/
theorem settle_ordered (l m r : List α) (b : α) (ordered : (l ++ m).Pairwise fun c d => key c ≤ key d)
    (passed : ∀ c ∈ m, key b ≤ key c) :
    ∃ p, settle (fun c d => decide (key d < key c)) l.length (l ++ b :: (m ++ r)) = p ++ r ∧
      p.length = l.length + 1 + m.length ∧ p.Pairwise fun c d => key c ≤ key d := by
  induction l using List.reverseRecOn generalizing m with
  | nil => exact ⟨b :: m, rfl, by simp; omega, List.pairwise_cons.2 ⟨passed, ordered⟩⟩
  | append_singleton l a ih =>
    rw [List.append_assoc, List.singleton_append] at ordered
    have place : (l ++ [a] ++ b :: (m ++ r)).drop l.length = a :: b :: (m ++ r) := by simp
    rw [List.length_append, List.length_singleton, settle, place]
    dsimp only
    split
    next greater =>
      have passed : ∀ c ∈ a :: m, key b ≤ key c :=
        List.forall_mem_cons.2 ⟨le_of_lt (of_decide_eq_true greater), passed⟩
      obtain ⟨p, settled, length, ordered⟩ := ih (a :: m) ordered passed
      refine ⟨p, ?_, by rw [length, List.length_cons]; omega, ordered⟩
      rw [← settled]
      simp
    next notGreater =>
      have le : key a ≤ key b := not_lt.1 fun less => notGreater (decide_eq_true less)
      refine ⟨l ++ a :: b :: m, by simp, by simp; omega, ?_⟩
      rw [List.pairwise_append, List.pairwise_cons] at ordered ⊢
      obtain ⟨before, ⟨after, rest⟩, across⟩ := ordered
      have first : ∀ c ∈ b :: m, key a ≤ key c := List.forall_mem_cons.2 ⟨le, after⟩
      refine ⟨before, ⟨first, List.pairwise_cons.2 ⟨passed, rest⟩⟩, fun c hc => ?_⟩
      have least := across c hc a List.mem_cons_self
      exact List.forall_mem_cons.2 ⟨least, fun d hd => least.trans (first d hd)⟩

/-- After some rounds the items in front are in order. -/
theorem rounds_ordered (key : α → κ) (xs : List α) (rounds : Nat) (enough : rounds < xs.length) :
    ∃ p r, (List.range' 1 rounds).foldl (fun ys i => settle (fun a b => decide (key b < key a)) i ys) xs = p ++ r ∧
      p.length = rounds + 1 ∧ (p.Pairwise fun a b => key a ≤ key b) ∧ Rearranges key xs (p ++ r) := by
  induction rounds with
  | zero =>
    match xs, enough with
    | x :: xs, _ => exact ⟨[x], xs, rfl, rfl, List.pairwise_singleton _ _, List.Perm.refl _, fun _ => rfl⟩
  | succ rounds ih =>
    obtain ⟨p, r, reached, length, ordered, perm, same⟩ := ih (Nat.lt_of_succ_lt enough)
    -- there is an item left to settle
    match r with
    | [] =>
      have := perm.length_eq
      rw [List.append_nil, length] at this
      omega
    | b :: r =>
      rw [← List.append_nil p] at ordered
      obtain ⟨q, settled, length', ordered⟩ := settle_ordered p [] r b ordered nofun
      have rearranged := rearranges_settle key p.length (p ++ b :: r)
      rw [List.nil_append] at settled
      rw [settled] at rearranged
      refine ⟨q, r, ?_, by rw [length', length]; rfl, ordered, rearranged.1.trans perm, fun k =>
        (rearranged.2 k).trans (same k)⟩
      rw [List.range'_1_concat, List.foldl_concat, reached, Nat.add_comm 1, ← length, settled]

/-- Exchanging neighbours sorts stably. -/
theorem IsStableSort.exchangeSort (key : α → κ) (xs : List α) :
    IsStableSort (· ≤ ·) key xs (exchangeSort (fun a b => decide (key b < key a)) xs) := by
  cases xs with
  | nil => exact ⟨List.Perm.refl _, List.Pairwise.nil, fun _ => rfl⟩
  | cons x xs =>
    obtain ⟨p, r, reached, length, ordered, perm, same⟩ :=
      rounds_ordered key (x :: xs) xs.length (Nat.lt_succ_self _)
    have all : r = [] := by
      have total := perm.length_eq
      rw [List.length_append, length, List.length_cons] at total
      exact List.eq_nil_of_length_eq_zero (by omega)
    rw [all, List.append_nil] at reached perm same
    rw [FragmentEngine.exchangeSort, List.length_cons, Nat.add_sub_cancel, reached]
    exact ⟨perm, ordered, same⟩

end

end FragmentEngine
