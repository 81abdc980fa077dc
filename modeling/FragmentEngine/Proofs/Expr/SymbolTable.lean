import Mathlib.Data.List.Dedup
import FragmentEngine.Expr.SymbolTable
/-!
# Symbol tables

What adding a variable does to a table, and what a table has become after any adds, some of which may have failed: it
has every function as it was registered and, for each name that was added, the value of the last add that succeeded.
No more slots are occupied than there are, since only a new name takes a slot, and a free one.
-/

namespace FragmentEngine.SymbolTable

variable {t u : SymbolTable} {name : String} {v : Value} {error : Error}

/-! ## Looking up -/

theorem function_eq_ok {fn : Function} : t.function name = .ok fn ↔ t.registry.find? name = some fn := by
  unfold function
  split <;> simp_all

theorem function_eq_error : t.function name = .error error ↔
    t.registry.find? name = none ∧ error = .exec (.unknownSymbol name) := by
  unfold function
  cases t.registry.find? name with
  | none => simp [eq_comm]
  | some _ => simp

theorem value_eq_error : t.value name = .error error ↔
    t.bound.lookup name = none ∧ error = .exec (.unknownSymbol name) := by
  unfold value
  cases t.bound.lookup name with
  | none => simp [eq_comm]
  | some _ => simp

/-! ## Adding -/

/-- An add that succeeds changes the value of a variable, or puts a new one into a free slot. -/
theorem add_cases (h : t.add name v = .ok u) : t.registry.find? name = none ∧
    ((t.bound.lookup name).isSome ∧ u = { t with bound := rebind name v t.bound } ∨
      t.bound.lookup name = none ∧ t.size < t.capacity ∧ u = { t with bound := t.bound ++ [(name, v)] }) := by
  unfold add at h
  split at h
  · cases h
  next unregistered =>
    refine ⟨Option.not_isSome_iff_eq_none.1 unregistered, ?_⟩
    split at h
    next known =>
      cases h
      exact .inl ⟨known, rfl⟩
    next fresh =>
      split at h
      · cases h
      next room =>
        cases h
        exact .inr ⟨Option.not_isSome_iff_eq_none.1 fresh, Nat.lt_of_not_le room, rfl⟩

/-- An add fails for the name of a function and for a new name in a full table. -/
theorem add_eq_error : t.add name v = .error error ↔
    (t.registry.find? name).isSome ∧ error = .exec (.functionRebound name) ∨
    t.registry.find? name = none ∧ t.bound.lookup name = none ∧ t.capacity ≤ t.size ∧
      error = .exec (.symbolTableFull t.capacity) := by
  unfold add
  cases t.registry.find? name with
  | some f => simp [@eq_comm Error error]
  | none =>
    cases t.bound.lookup name with
    | some w => simp
    | none => by_cases full : t.capacity ≤ t.size <;> simp [full, @eq_comm Error error]

theorem lookup_rebind (name other : String) (v : Value) (bindings : List (String × Value)) :
    (rebind name v bindings).lookup other =
      if other = name then (bindings.lookup name).map fun _ => v else bindings.lookup other := by
  induction bindings with
  | nil => by_cases h : other = name <;> simp [rebind, h]
  | cons b rest ih =>
    obtain ⟨n, w⟩ := b
    have miss : ∀ {m : String} {x : Value} {l : List (String × Value)}, m ≠ n →
        ((n, x) :: l).lookup m = l.lookup m := fun ne => by simp [List.lookup_cons, beq_false_of_ne ne]
    have shape : rebind name v ((n, w) :: rest) = (n, if n = name then v else w) :: rebind name v rest := by
      by_cases hn : n = name <;> simp [rebind, hn]
    rw [shape]
    by_cases ho : other = n
    · subst ho
      by_cases hn : other = name <;> simp [hn]
    · rw [miss ho, ih, miss ho]
      by_cases hn : other = name
      · rw [if_pos hn, if_pos hn, miss (hn ▸ ho)]
      · rw [if_neg hn, if_neg hn]

theorem names_rebind (name : String) (v : Value) (bindings : List (String × Value)) :
    (rebind name v bindings).map Prod.fst = bindings.map Prod.fst := by
  rw [rebind, List.map_map]
  refine List.map_congr_left fun b _ => ?_
  rw [Function.comp_apply, apply_ite Prod.fst, ite_self]

/-- The variables of a table after an add: the one that was added has the new value. -/
theorem lookup_of_add (h : t.add name v = .ok u) (other : String) :
    u.bound.lookup other = if other = name then some v else t.bound.lookup other := by
  obtain ⟨-, ⟨known, rfl⟩ | ⟨fresh, -, rfl⟩⟩ := add_cases h
  · obtain ⟨w, found⟩ := Option.isSome_iff_exists.1 known
    rw [lookup_rebind, found]
    rfl
  · rw [List.lookup_append]
    by_cases same : other = name
    · subst same
      simp [fresh]
    · simp [same, List.lookup_cons, beq_false_of_ne same]

/-- A table after a variable is added: the variable has the new value, and all else is as before. -/
theorem add_eq_ok (h : t.add name v = .ok u) :
    u.registry = t.registry ∧ u.value name = .ok v ∧ ∀ other, other ≠ name → u.value other = t.value other := by
  have registry : u.registry = t.registry := by obtain ⟨-, ⟨-, rfl⟩ | ⟨-, -, rfl⟩⟩ := add_cases h <;> rfl
  refine ⟨registry, ?_, fun other ne => ?_⟩
  · rw [value, lookup_of_add h, if_pos rfl]
  · rw [value, lookup_of_add h, if_neg ne]
    rfl

/-- A variable takes up at most one slot. -/
theorem size_of_add (h : t.add name v = .ok u) : u.size ≤ t.size + 1 ∧ u.capacity = t.capacity := by
  obtain ⟨-, ⟨-, rfl⟩ | ⟨-, -, rfl⟩⟩ := add_cases h
  · refine ⟨?_, rfl⟩
    simp only [size, rebind, List.length_map]
    omega
  · refine ⟨?_, rfl⟩
    simp only [size, List.length_append, List.length_singleton]
    omega

/-! ## Histories -/

/-- The table after adds, tried one by one. -/
def after (t : SymbolTable) : List (String × Value) → SymbolTable
  | [] => t
  | x :: rest =>
    match t.add x.1 x.2 with
    | .ok u => after u rest
    | .error _ => after t rest

/-- The adds of a history that succeed. -/
def succeeded (t : SymbolTable) : List (String × Value) → List (String × Value)
  | [] => []
  | x :: rest =>
    match t.add x.1 x.2 with
    | .ok u => x :: succeeded u rest
    | .error _ => succeeded t rest

theorem after_append (t : SymbolTable) (history more : List (String × Value)) :
    t.after (history ++ more) = (t.after history).after more := by
  induction history generalizing t with
  | nil => rfl
  | cons x rest ih =>
    rw [List.cons_append, after, after]
    cases t.add x.1 x.2 with
    | error _ => exact ih t
    | ok u => exact ih u

theorem succeeded_append (t : SymbolTable) (history more : List (String × Value)) :
    t.succeeded (history ++ more) = t.succeeded history ++ (t.after history).succeeded more := by
  induction history generalizing t with
  | nil => rfl
  | cons x rest ih =>
    rw [List.cons_append, succeeded, succeeded, after]
    cases t.add x.1 x.2 with
    | error _ => exact ih t
    | ok u => exact congrArg (x :: ·) (ih u)

/-- A failed add leaves no trace. -/
theorem failed_add (h : t.add name v = .error error) : t.after [(name, v)] = t ∧ t.succeeded [(name, v)] = [] := by
  constructor
  · rw [after, h]
    rfl
  · rw [succeeded, h]
    rfl

/-- The value of the last of some adds of a name. -/
def lastValue (adds : List (String × Value)) (name : String) : Option Value := adds.reverse.lookup name

theorem lastValue_concat (adds : List (String × Value)) (name other : String) (v : Value) :
    lastValue (adds ++ [(name, v)]) other = if other = name then some v else lastValue adds other := by
  rw [lastValue, List.reverse_append, List.reverse_singleton, List.singleton_append, List.lookup_cons]
  by_cases same : other = name
  · simp [same]
  · simp [same, beq_false_of_ne same, lastValue]

theorem mem_names_iff {bindings : List (String × Value)} :
    name ∈ bindings.map Prod.fst ↔ (bindings.lookup name).isSome := by
  rw [List.lookup_isSome_iff, List.mem_map]
  exact exists_congr fun b => and_congr_right fun _ => by rw [beq_iff_eq, eq_comm]

theorem isSome_lastValue (adds : List (String × Value)) (name : String) :
    (lastValue adds name).isSome ↔ name ∈ adds.map Prod.fst := by
  rw [lastValue, ← mem_names_iff, List.map_reverse, List.mem_reverse]

/-- A table in which the adds of `done` have succeeded since it had none but the functions of `registry`, in so many
slots. -/
structure Records (registry : Registry) (capacity : Nat) (done : List (String × Value)) (t : SymbolTable) : Prop where
  registry : t.registry = registry
  capacity : t.capacity = capacity
  fits : t.size ≤ t.capacity
  distinct : (t.bound.map Prod.fst).Nodup
  apart : ∀ name ∈ t.bound.map Prod.fst, t.registry.find? name = none
  last : ∀ name, t.bound.lookup name = lastValue done name

namespace Records

variable {registry : Registry} {capacity : Nat} {done : List (String × Value)}

theorem new (registry : Registry) (additional : Nat) :
    Records registry (registry.size + additional) [] (new registry additional) :=
  ⟨rfl, rfl, Nat.le_add_right _ _, .nil, fun _ mem => absurd mem List.not_mem_nil, fun _ => rfl⟩

/-- An add that succeeds is recorded. -/
theorem add (h : Records registry capacity done t) (added : t.add name v = .ok u) :
    Records registry capacity (done ++ [(name, v)]) u := by
  have last other : u.bound.lookup other = lastValue (done ++ [(name, v)]) other := by
    rw [lookup_of_add added, lastValue_concat, h.last]
  obtain ⟨unregistered, ⟨-, rfl⟩ | ⟨fresh, room, rfl⟩⟩ := add_cases added
  · have names := names_rebind name v t.bound
    have length : (rebind name v t.bound).length = t.bound.length := List.length_map _
    refine ⟨h.registry, h.capacity, ?_, ?_, ?_, last⟩
    · rw [size, length]
      exact h.fits
    · rw [names]
      exact h.distinct
    · rw [names]
      exact h.apart
  · refine ⟨h.registry, h.capacity, ?_, ?_, ?_, last⟩
    · simp only [size, List.length_append, List.length_singleton] at room ⊢
      exact room
    · have new : name ∉ t.bound.map Prod.fst := by simp [mem_names_iff, fresh]
      rw [List.map_append, List.map_singleton]
      refine List.nodup_append.2 ⟨h.distinct, List.nodup_singleton _, fun other mem last here same => ?_⟩
      rw [same, List.mem_singleton.1 here] at mem
      exact new mem
    · intro other mem
      rw [List.map_append, List.mem_append, List.map_singleton, List.mem_singleton] at mem
      rcases mem with mem | rfl
      · exact h.apart other mem
      · exact unregistered

/-- What a history comes to: the table has recorded just the adds that succeeded. -/
theorem after (h : Records registry capacity done t) (history : List (String × Value)) :
    Records registry capacity (done ++ t.succeeded history) (t.after history) := by
  induction history generalizing done t with
  | nil =>
    rw [succeeded, List.append_nil]
    exact h
  | cons x rest ih =>
    rw [SymbolTable.after, succeeded]
    cases added : t.add x.1 x.2 with
    | error _ => exact ih h
    | ok u =>
      have next := ih (h.add added)
      rw [List.append_assoc] at next
      exact next

/-- Of the slots, the functions have one each, and so have the names that were added. -/
theorem size_eq (h : Records registry capacity done t) :
    t.size = registry.size + (done.map Prod.fst).dedup.length := by
  have names : (t.bound.map Prod.fst).Perm (done.map Prod.fst).dedup := by
    refine (List.perm_ext_iff_of_nodup h.distinct (List.nodup_dedup _)).2 fun name => ?_
    rw [mem_names_iff, h.last, isSome_lastValue, List.mem_dedup]
  rw [size, h.registry, ← names.length_eq, List.length_map]

theorem function_eq (h : Records registry capacity done t) (mem : f ∈ registry.functions) :
    t.function f.name = .ok f ∧ t.value f.name = .error (.exec (.unknownSymbol f.name)) := by
  have found : t.registry.find? f.name = some f := by
    rw [h.registry]
    exact Registry.find?_eq_some_iff.2 ⟨mem, rfl⟩
  refine ⟨function_eq_ok.2 found, value_eq_error.2 ⟨?_, rfl⟩⟩
  by_contra bound
  have known := h.apart f.name (mem_names_iff.2 (Option.isSome_iff_ne_none.2 bound))
  cases found.symm.trans known

/-- An add fails for a function's name, and for a new name if the table is full. -/
theorem add_eq_error_iff (h : Records registry capacity done t) : t.add name v = .error error ↔
    (∃ f ∈ registry.functions, f.name = name) ∧ error = .exec (.functionRebound name) ∨
    (∀ f ∈ registry.functions, f.name ≠ name) ∧ name ∉ done.map Prod.fst ∧ t.size = t.capacity ∧
      error = .exec (.symbolTableFull t.capacity) := by
  have registered : (t.registry.find? name).isSome ↔ ∃ f ∈ registry.functions, f.name = name := by
    rw [h.registry, Registry.find?, List.find?_isSome]
    simp only [beq_iff_eq]
  have unregistered : t.registry.find? name = none ↔ ∀ f ∈ registry.functions, f.name ≠ name := by
    rw [← Option.not_isSome_iff_eq_none, registered]
    push Not
    rfl
  have new : t.bound.lookup name = none ↔ name ∉ done.map Prod.fst := by
    rw [h.last, ← Option.not_isSome_iff_eq_none, isSome_lastValue]
  have full : t.capacity ≤ t.size ↔ t.size = t.capacity := by
    have fits := h.fits
    omega
  rw [add_eq_error, registered, unregistered, new, full]

end Records

/-- A table after any adds. It has the slots it was made with, of which no more are occupied than there are: one for
each function and one for each name that was added. Functions stay what they were registered as and have no value; every
other name has the value of the last add of it that succeeded. An add fails just for the name of a function, or if the
name is new and no slot is left, and then the table stays as it is. -/
theorem after_history (registry : Registry) (additional : Nat) (history : List (String × Value)) :
    let start := new registry additional
    let done := start.succeeded history
    let t := start.after history
    (t.capacity = registry.size + additional ∧ t.size ≤ t.capacity ∧
      t.size = registry.size + (done.map Prod.fst).dedup.length) ∧
    (∀ f ∈ registry.functions,
      t.function f.name = .ok f ∧ t.value f.name = .error (.exec (.unknownSymbol f.name))) ∧
    (∀ name, t.value name =
      match lastValue done name with
      | some v => .ok v
      | none => .error (.exec (.unknownSymbol name))) ∧
    (∀ name v error, t.add name v = .error error ↔
      (∃ f ∈ registry.functions, f.name = name) ∧ error = .exec (.functionRebound name) ∨
      (∀ f ∈ registry.functions, f.name ≠ name) ∧ name ∉ done.map Prod.fst ∧ t.size = t.capacity ∧
        error = .exec (.symbolTableFull t.capacity)) ∧
    ∀ name v error, t.add name v = .error error →
      start.after (history ++ [(name, v)]) = t ∧ start.succeeded (history ++ [(name, v)]) = done := by
  intro start done t
  have h : Records registry (registry.size + additional) done t := (Records.new registry additional).after history
  refine ⟨⟨h.capacity, h.fits, h.size_eq⟩, fun f mem => h.function_eq mem, fun name => ?_,
    fun name v error => h.add_eq_error_iff, ?_⟩
  · have looked := h.last name
    cases last : lastValue done name <;> simp only [value, looked, last]
  · intro name v error failed
    obtain ⟨same, none⟩ := failed_add failed
    rw [after_append, succeeded_append]
    exact ⟨same, by rw [none, List.append_nil]⟩

/-- Two slots are left for `a` and `b`. Then `a` can have another value and `c` has no place, and `oph_id` names a
function. -/
theorem after_history_full :
    let start := new .builtin 2
    let history : List (String × Value) :=
      [("a", .long 1), ("oph_id", .long 7), ("b", .str "x"), ("c", .long 3), ("a", .long 5)]
    let t := start.after history
    let blockOf : Function := ⟨"oph_id", .exactly 2, .scalar Index.blockOf⟩
    start.succeeded history = [("a", .long 1), ("b", .str "x"), ("a", .long 5)] ∧
      t.size = 12 ∧ t.capacity = 12 ∧ t.value "a" = .ok (.long 5) ∧ blockOf ∈ Registry.builtin.functions ∧
      t.function "oph_id" = .ok blockOf ∧ t.value "oph_id" = .error (.exec (.unknownSymbol "oph_id")) ∧
      t.add "c" (.long 3) = .error (.exec (.symbolTableFull 12)) ∧ start.after (history ++ [("c", .long 3)]) = t := by
  intro start history t blockOf
  have done : start.succeeded history = [("a", .long 1), ("b", .str "x"), ("a", .long 5)] := by decide +kernel
  obtain ⟨⟨capacity, -, size⟩, functions, values, fails, stays⟩ := after_history .builtin 2 history
  rw [show (new .builtin 2).succeeded history = _ from done] at size values fails stays
  have mem : blockOf ∈ Registry.builtin.functions := List.mem_cons_self
  have full : t.size = 12 := size.trans (by decide +kernel)
  have slots : t.capacity = 12 := capacity
  have refused : t.add "c" (.long 3) = .error (.exec (.symbolTableFull 12)) :=
    (fails _ _ _).2 (.inr ⟨by decide, by decide, full.trans slots.symm, by rw [slots]⟩)
  exact ⟨done, full, slots, values "a", mem, (functions blockOf mem).1, (functions blockOf mem).2, refused,
    (stays _ _ _ refused).1⟩

end FragmentEngine.SymbolTable
