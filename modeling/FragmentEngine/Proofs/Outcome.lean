import Mathlib.Data.List.Forall2
import FragmentEngine.Error
/-!
# Outcomes

How a success of composed steps is taken apart: of a sequence, of one step for each item of a list, and of a
choice among the items of a list.
-/

namespace FragmentEngine.Outcome

variable {α β ε : Type}

theorem ok_bind (a : α) (f : α → Except ε β) : (Except.ok a >>= f) = f a := rfl

theorem bind_eq_ok {x : Except ε α} {f : α → Except ε β} {b : β} :
    (x >>= f) = .ok b ↔ ∃ a, x = .ok a ∧ f a = .ok b := by
  cases x with
  | error e => simp [bind, Except.bind]
  | ok a => simp [bind, Except.bind]

theorem bind_eq_error {x : Except ε α} {f : α → Except ε β} {e : ε} :
    (x >>= f) = .error e ↔ x = .error e ∨ ∃ a, x = .ok a ∧ f a = .error e := by
  cases x with
  | error _ => simp [bind, Except.bind]
  | ok a => simp [bind, Except.bind]

theorem map_eq_ok {x : Except ε α} {f : α → β} {b : β} : x.map f = .ok b ↔ ∃ a, x = .ok a ∧ f a = b := by
  cases x <;> simp [Except.map]

theorem map_eq_error {x : Except Error α} {f : α → β} {e : Error} : x.map f = .error e ↔ x = .error e := by
  cases x <;> simp [Except.map]

theorem map_bind {γ : Type} {x : Except ε α} {f : α → Except ε β} {g : β → γ} :
    (x >>= f).map g = x >>= fun a => (f a).map g := by
  cases x <;> rfl

/-- What a computed part of a result says of the result. -/
theorem exists_of_toOption {x : Except ε α} {f : α → β} {b : β} (h : (x.map f).toOption = some b) :
    ∃ a, x = .ok a ∧ f a = b := by
  cases x with
  | error e => cases h
  | ok a => exact ⟨a, rfl, Option.some.inj h⟩

/-- A step for each item succeeds exactly if all steps do, with their results in order. -/
theorem mapM_eq_ok {f : α → Except Error β} {xs : List α} {ys : List β} :
    xs.mapM f = .ok ys ↔ List.Forall₂ (fun x y => f x = .ok y) xs ys := by
  induction xs generalizing ys with
  | nil => cases ys <;> simp [pure, Except.pure]
  | cons x rest ih =>
    rw [List.mapM_cons, bind_eq_ok]
    constructor
    · rintro ⟨y, hy, h⟩
      obtain ⟨zs, hzs, h⟩ := bind_eq_ok.1 h
      cases h
      exact .cons hy (ih.1 hzs)
    · intro h
      cases h with
      | cons hy h => exact ⟨_, hy, bind_eq_ok.2 ⟨_, ih.2 h, rfl⟩⟩

/-- Items of two lists have results exactly if those of each list have. -/
theorem mapM_append_eq_ok {f : α → Except Error β} {xs ys : List α} {zs : List β} :
    (xs ++ ys).mapM f = .ok zs ↔ ∃ as bs, xs.mapM f = .ok as ∧ ys.mapM f = .ok bs ∧ zs = as ++ bs := by
  rw [List.mapM_append, bind_eq_ok]
  constructor
  · rintro ⟨as, has, h⟩
    obtain ⟨bs, hbs, h⟩ := bind_eq_ok.1 h
    cases h
    exact ⟨as, bs, has, hbs, rfl⟩
  · rintro ⟨as, bs, has, hbs, rfl⟩
    exact ⟨as, has, bind_eq_ok.2 ⟨bs, hbs, rfl⟩⟩

theorem mapM_congr {f g : α → Except Error β} {xs : List α} (h : ∀ x ∈ xs, f x = g x) : xs.mapM f = xs.mapM g := by
  induction xs with
  | nil => rfl
  | cons x rest ih =>
    rw [List.mapM_cons, List.mapM_cons, h x List.mem_cons_self, ih fun y mem => h y (List.mem_cons_of_mem x mem)]

/-- A step that succeeds for each item succeeds for all of them. -/
theorem mapM_total {f : α → Except Error β} {xs : List α} (h : ∀ x ∈ xs, ∃ y, f x = .ok y) :
    ∃ ys, xs.mapM f = .ok ys := by
  induction xs with
  | nil => exact ⟨[], rfl⟩
  | cons x rest ih =>
    obtain ⟨y, hy⟩ := h x List.mem_cons_self
    obtain ⟨ys, hys⟩ := ih fun z hz => h z (List.mem_cons_of_mem x hz)
    exact ⟨y :: ys, by rw [List.mapM_cons, hy, hys]; rfl⟩

/-- A step for each item fails as the first step does that fails. -/
theorem mapM_eq_error_iff {f : α → Except Error β} {xs : List α} {e : Error} : xs.mapM f = .error e ↔
    ∃ (i : Nat) (x : α), xs[i]? = some x ∧ f x = .error e ∧ ∀ j < i, ∀ y, xs[j]? = some y → ∃ z, f y = .ok z := by
  induction xs with
  | nil => simp [pure, Except.pure]
  | cons x rest ih =>
    rw [List.mapM_cons, bind_eq_error]
    constructor
    · rintro (first | ⟨y, first, h⟩)
      · exact ⟨0, x, rfl, first, nofun⟩
      rcases bind_eq_error.1 h with others | ⟨ys, -, h⟩
      · obtain ⟨i, z, found, failed, before⟩ := ih.1 others
        refine ⟨i + 1, z, found, failed, fun j less w at_j => ?_⟩
        cases j with
        | zero =>
          cases at_j
          exact ⟨y, first⟩
        | succ j => exact before j (Nat.lt_of_succ_lt_succ less) w at_j
      · cases h
    · rintro ⟨i, z, found, failed, before⟩
      cases i with
      | zero =>
        cases found
        exact .inl failed
      | succ i =>
        obtain ⟨y, first⟩ := before 0 (Nat.zero_lt_succ i) x rfl
        have others := ih.2 ⟨i, z, found, failed, fun j less => before (j + 1) (Nat.succ_lt_succ less)⟩
        exact .inr ⟨y, first, bind_eq_error.2 (.inl others)⟩

/-- A failure for a list is that of a step for one of its items. -/
theorem exists_of_mapM_eq_error {f : α → Except Error β} {xs : List α} {e : Error} (h : xs.mapM f = .error e) :
    ∃ x ∈ xs, f x = .error e := by
  obtain ⟨i, x, found, failed, -⟩ := mapM_eq_error_iff.1 h
  exact ⟨x, List.mem_of_getElem? found, failed⟩

/-- What each step keeps is kept by all of them. -/
theorem foldlM_keeps {P : β → Prop} {f : β → α → Except ε β} (hstep : ∀ b x b', P b → f b x = .ok b' → P b')
    {xs : List α} {b b' : β} (hb : P b) (h : xs.foldlM f b = .ok b') : P b' := by
  induction xs generalizing b with
  | nil =>
    cases h
    exact hb
  | cons x rest ih =>
    rw [List.foldlM_cons] at h
    obtain ⟨c, hc, h⟩ := bind_eq_ok.1 h
    exact ih (hstep b x c hb hc) h

/-- Two runs of steps stay related if every step of the one is matched by the other or fails there. -/
theorem foldlM_related_or {γ : Type} {R : β → γ → Prop} {F : α → ε → Prop} {f : β → α → Except ε β}
    {g : γ → α → Except ε γ}
    (hstep : ∀ b c x b', R b c → f b x = .ok b' → (∃ c', g c x = .ok c' ∧ R b' c') ∨ ∃ e, g c x = .error e ∧ F x e)
    {xs : List α} {b b' : β} {c : γ} (related : R b c) (h : xs.foldlM f b = .ok b') :
    (∃ c', xs.foldlM g c = .ok c' ∧ R b' c') ∨ ∃ e, xs.foldlM g c = .error e ∧ ∃ x ∈ xs, F x e := by
  induction xs generalizing b c with
  | nil =>
    cases h
    exact .inl ⟨c, rfl, related⟩
  | cons x rest ih =>
    rw [List.foldlM_cons] at h
    obtain ⟨next, first, h⟩ := bind_eq_ok.1 h
    rw [List.foldlM_cons]
    rcases hstep b c x next related first with ⟨next', first', related⟩ | ⟨e, failed, cause⟩
    · rw [first', ok_bind]
      rcases ih related h with others | ⟨e, failed, y, mem, cause⟩
      · exact .inl others
      · exact .inr ⟨e, failed, y, List.mem_cons_of_mem x mem, cause⟩
    · rw [failed]
      exact .inr ⟨e, rfl, x, List.mem_cons_self, cause⟩

/-- Two runs of steps stay related if every step of the one is matched by the other. -/
theorem foldlM_related {γ : Type} {R : β → γ → Prop} {f : β → α → Except ε β} {g : γ → α → Except ε γ}
    (hstep : ∀ b c x b', R b c → f b x = .ok b' → ∃ c', g c x = .ok c' ∧ R b' c') {xs : List α} {b b' : β} {c : γ}
    (related : R b c) (h : xs.foldlM f b = .ok b') : ∃ c', xs.foldlM g c = .ok c' ∧ R b' c' := by
  have step : ∀ b c x b', R b c → f b x = .ok b' →
      (∃ c', g c x = .ok c' ∧ R b' c') ∨ ∃ e, g c x = .error e ∧ False :=
    fun b c x b' related here => .inl (hstep b c x b' related here)
  rcases foldlM_related_or (F := fun _ _ => False) step related h with matched | ⟨_, -, _, -, impossible⟩
  · exact matched
  · exact impossible.elim

/-- Steps that append one item each make an item for each step. -/
theorem foldlM_concat {γ : Type} {R : α → γ → Prop} {f : List γ → α → Except ε (List γ)}
    (hstep : ∀ done x done', f done x = .ok done' → ∃ y, R x y ∧ done' = done ++ [y]) {xs : List α}
    {done done' : List γ} (h : xs.foldlM f done = .ok done') : ∃ ys, List.Forall₂ R xs ys ∧ done' = done ++ ys := by
  induction xs generalizing done with
  | nil =>
    cases h
    exact ⟨[], .nil, (List.append_nil _).symm⟩
  | cons x rest ih =>
    rw [List.foldlM_cons] at h
    obtain ⟨next, first, h⟩ := bind_eq_ok.1 h
    obtain ⟨y, related, rfl⟩ := hstep done x next first
    obtain ⟨ys, others, rfl⟩ := ih h
    exact ⟨y :: ys, .cons related others, by rw [List.append_assoc]; rfl⟩

theorem foldlM_congr {f g : β → α → Except ε β} {xs : List α} {b : β} (h : ∀ x ∈ xs, ∀ b, f b x = g b x) :
    xs.foldlM f b = xs.foldlM g b := by
  induction xs generalizing b with
  | nil => rfl
  | cons x rest ih =>
    rw [List.foldlM_cons, List.foldlM_cons, h x List.mem_cons_self]
    exact congrArg (g b x >>= ·) (funext fun _ => ih fun y mem => h y (List.mem_cons_of_mem x mem))

/-- A check of each item succeeds exactly if it does for every item. -/
theorem forM_eq_ok {f : α → Except Error Unit} {xs : List α} : xs.forM f = .ok () ↔ ∀ x ∈ xs, f x = .ok () := by
  induction xs with
  | nil => exact ⟨fun _ => nofun, fun _ => rfl⟩
  | cons x rest ih =>
    rw [List.forall_mem_cons, ← ih]
    exact bind_eq_ok.trans ⟨fun ⟨_, first, others⟩ => ⟨first, others⟩, fun ⟨first, others⟩ => ⟨(), first, others⟩⟩

theorem exists_of_mem {R : α → β → Prop} {xs : List α} {ys : List β} (h : List.Forall₂ R xs ys) {y : β} (mem : y ∈ ys) :
    ∃ x ∈ xs, R x y := by
  induction h with
  | nil => cases mem
  | cons first _ ih =>
    rcases List.mem_cons.1 mem with rfl | mem
    · exact ⟨_, List.mem_cons_self, first⟩
    · obtain ⟨x, hx, related⟩ := ih mem
      exact ⟨x, List.mem_cons_of_mem _ hx, related⟩

/-- Related lists have items at the same places, and these are related. -/
theorem getElem?_of_forall₂ {R : α → β → Prop} {xs : List α} {ys : List β} (h : List.Forall₂ R xs ys) (i : Nat) :
    (∃ x y, xs[i]? = some x ∧ ys[i]? = some y ∧ R x y) ∨ (xs[i]? = none ∧ ys[i]? = none) := by
  induction h generalizing i with
  | nil => exact .inr ⟨rfl, rfl⟩
  | cons related _ ih =>
    cases i with
    | zero => exact .inl ⟨_, _, rfl, rfl, related⟩
    | succ i => exact ih i

theorem exists_getElem?_of_forall₂ {R : α → β → Prop} {xs : List α} {ys : List β} (h : List.Forall₂ R xs ys) {i : Nat}
    {x : α} (hx : xs[i]? = some x) : ∃ y, ys[i]? = some y ∧ R x y := by
  rcases getElem?_of_forall₂ h i with ⟨x', y, hx', hy, related⟩ | ⟨none, -⟩
  · cases hx.symm.trans hx'
    exact ⟨y, hy, related⟩
  · rw [none] at hx
    cases hx

/-- An item of a list is the one at a given place or among the others. -/
theorem eq_or_mem_eraseIdx {xs : List α} {i : Nat} {x y : α} (hx : xs[i]? = some x) (hy : y ∈ xs) :
    y = x ∨ y ∈ xs.eraseIdx i := by
  obtain ⟨j, hj⟩ := List.getElem?_of_mem hy
  by_cases hplace : j = i
  · subst hplace
    exact .inl (Option.some.inj (hj.symm.trans hx))
  · exact .inr (List.mem_eraseIdx_iff_getElem?.2 ⟨j, hplace, hj⟩)

/-- If the steps for all items but one succeed, a failure of the step for this one is that of all steps. -/
theorem mapM_eq_error_of_others {f : α → Except Error β} {xs : List α} {i : Nat} {x : α} {e : Error}
    (hx : xs[i]? = some x) (hfailed : f x = .error e) (hothers : ∀ y ∈ xs.eraseIdx i, ∃ z, f y = .ok z) :
    xs.mapM f = .error e := by
  cases h : xs.mapM f with
  | ok ys =>
    obtain ⟨y, -, hy⟩ := exists_getElem?_of_forall₂ (mapM_eq_ok.1 h) hx
    rw [hfailed] at hy
    cases hy
  | error e' =>
    obtain ⟨y, hmem, hy⟩ := exists_of_mapM_eq_error h
    rcases eq_or_mem_eraseIdx hx hmem with rfl | hother
    · cases hy.symm.trans hfailed
      rfl
    · obtain ⟨z, hz⟩ := hothers y hother
      rw [hz] at hy
      cases hy

/-- If the steps for all items but one succeed, and so does that for this one, its result stands at its place. -/
theorem mapM_eq_ok_of_others {f : α → Except Error β} {xs : List α} {i : Nat} {x : α} {y : β} (hx : xs[i]? = some x)
    (hy : f x = .ok y) (hothers : ∀ y ∈ xs.eraseIdx i, ∃ z, f y = .ok z) :
    ∃ ys, xs.mapM f = .ok ys ∧ ys[i]? = some y := by
  obtain ⟨ys, hys⟩ : ∃ ys, xs.mapM f = .ok ys := by
    refine mapM_total fun z hz => ?_
    rcases eq_or_mem_eraseIdx hx hz with rfl | hother
    · exact ⟨y, hy⟩
    · exact hothers z hother
  obtain ⟨y', hplace, hy'⟩ := exists_getElem?_of_forall₂ (mapM_eq_ok.1 hys) hx
  cases hy.symm.trans hy'
  exact ⟨ys, hys, hplace⟩

theorem forall₂_trans {γ : Type} {R : α → β → Prop} {S : β → γ → Prop} {xs : List α} {ys : List β} {zs : List γ}
    (first : List.Forall₂ R xs ys) (second : List.Forall₂ S ys zs) :
    List.Forall₂ (fun x z => ∃ y, R x y ∧ S y z) xs zs := by
  induction first generalizing zs with
  | nil =>
    cases second
    exact .nil
  | cons here _ ih =>
    cases second with
    | cons there others => exact .cons ⟨_, here, there⟩ (ih others)

/-- Results of a step for each number below `n`. -/
theorem mapM_range_eq_ok {f : Nat → Except Error β} {n : Nat} {ys : List β} :
    (List.range n).mapM f = .ok ys ↔ ys.length = n ∧ ∀ i (h : i < ys.length), f i = .ok ys[i] := by
  rw [mapM_eq_ok, List.forall₂_iff_get]
  simp only [List.length_range, List.get_eq_getElem, List.getElem_range]
  constructor
  · rintro ⟨hl, h⟩
    exact ⟨hl.symm, fun i hi => h i (hl ▸ hi) hi⟩
  · rintro ⟨hl, h⟩
    exact ⟨hl.symm, fun i _ hi => h i hi⟩

/-! ## Choices -/

/-- Whether a choice is made and in favour. -/
def favours (x : Except Error Bool) : Bool := x.toOption == some true

theorem eq_ok_favours {x : Except Error Bool} (decided : ∃ b, x = .ok b) : x = .ok (favours x) := by
  obtain ⟨b, rfl⟩ := decided
  cases b <;> rfl

theorem filterAuxM_eq_ok {p : α → Except Error Bool} {xs acc ys : List α} (h : xs.filterAuxM p acc = .ok ys) :
    (∀ x ∈ xs, ∃ b, p x = .ok b) ∧ ys = (xs.filter fun x => favours (p x)).reverse ++ acc := by
  induction xs generalizing acc with
  | nil => cases h; simp
  | cons x rest ih =>
    obtain ⟨b, hb, h⟩ := bind_eq_ok.1 h
    obtain ⟨decided, kept⟩ := ih h
    refine ⟨fun y hy => ?_, ?_⟩
    · rcases List.mem_cons.1 hy with rfl | hy
      · exact ⟨b, hb⟩
      · exact decided y hy
    · rw [kept]
      cases b <;> simp [hb, favours, Except.toOption]

/-- A choice that succeeds decides on every item and keeps those it is in favour of. -/
theorem filterM_eq_ok {p : α → Except Error Bool} {xs ys : List α} (h : xs.filterM p = .ok ys) :
    (∀ x ∈ xs, ∃ b, p x = .ok b) ∧ ys = xs.filter fun x => favours (p x) := by
  obtain ⟨zs, hzs, h⟩ := bind_eq_ok.1 h
  cases h
  obtain ⟨decided, kept⟩ := filterAuxM_eq_ok hzs
  exact ⟨decided, by simp [kept]⟩

theorem filterAuxM_of_decided {p : α → Except Error Bool} {choice : α → Bool} {xs acc : List α}
    (decided : ∀ x ∈ xs, p x = .ok (choice x)) : xs.filterAuxM p acc = .ok ((xs.filter choice).reverse ++ acc) := by
  induction xs generalizing acc with
  | nil => rfl
  | cons x rest ih =>
    rw [List.forall_mem_cons] at decided
    rw [List.filterAuxM, decided.1, ok_bind, ih decided.2]
    cases h : choice x <;> simp [h]

/-- A choice that is decided on every item succeeds. -/
theorem filterM_of_decided {p : α → Except Error Bool} {choice : α → Bool} {xs : List α}
    (decided : ∀ x ∈ xs, p x = .ok (choice x)) : xs.filterM p = .ok (xs.filter choice) := by
  rw [List.filterM, filterAuxM_of_decided decided, ok_bind, List.append_nil, List.reverse_reverse]
  rfl

/-! ## Failures -/

/-- A computation fails for certain causes only. -/
def FailsOnly (causes : Error → Prop) (x : Except Error α) : Prop := ∀ error, x = .error error → causes error

namespace FailsOnly

variable {causes : Error → Prop}

theorem ok (a : α) : FailsOnly causes (.ok a) := nofun

theorem error {e : Error} (h : causes e) : FailsOnly causes (.error e : Except Error α) := by
  intro error same
  cases same
  exact h

theorem bind {x : Except Error α} {f : α → Except Error β} (h : FailsOnly causes x)
    (next : ∀ a, x = .ok a → FailsOnly causes (f a)) : FailsOnly causes (x >>= f) := by
  intro error failed
  rcases bind_eq_error.1 failed with failed | ⟨a, done, failed⟩
  · exact h error failed
  · exact next a done error failed

theorem mapM {f : α → Except Error β} {xs : List α} (h : ∀ x ∈ xs, FailsOnly causes (f x)) :
    FailsOnly causes (xs.mapM f) := by
  intro error failed
  obtain ⟨x, mem, failed⟩ := exists_of_mapM_eq_error failed
  exact h x mem error failed

end FailsOnly

end FragmentEngine.Outcome
