import FragmentEngine.Proofs.Select.InnerJoin
/-!
# Aliases

A qualifier names a source by its alias as well as by its fragment, and the first source that it names is taken. So
an alias is read from the source it was given to unless a source before it has a fragment of that name.
-/

namespace FragmentEngine

/-! ## Qualified names -/

section

variable {sources : List Source} {s t : Source} {i j : Nat} {a f : String}

/-- A qualifier without a dot is an alias or the name of a fragment. -/
theorem Source.answersTo_iff (plain : '.' ∉ a.toList) :
    s.answersTo a = true ↔ s.alias? = some a ∨ s.fragment.name = a := by
  unfold answersTo
  rw [Text.splitOnce_eq_none plain]
  cases s.db? <;> simp

/-- The source found for a qualifier is the first that it names. -/
theorem find?_answersTo : sources.zipIdx.find? (fun (u, _) => u.answersTo a) = some (t, j) ↔
    sources[j]? = some t ∧ t.answersTo a = true ∧ ∀ u ∈ sources.take j, u.answersTo a = false := by
  rw [List.find?_eq_some_iff_getElem]
  constructor
  · rintro ⟨answers, k, hk, same, first⟩
    rw [List.getElem_zipIdx, Nat.zero_add, Prod.mk.injEq] at same
    obtain ⟨rfl, rfl⟩ := same
    refine ⟨List.getElem?_eq_getElem _, answers, fun u mem => ?_⟩
    obtain ⟨l, lt, rfl⟩ := List.mem_take_iff_getElem.1 mem
    simpa using first l (by omega)
  · rintro ⟨known, answers, first⟩
    obtain ⟨lt, rfl⟩ := List.getElem?_eq_some_iff.1 known
    refine ⟨answers, j, by rwa [List.length_zipIdx], by simp, fun k hk => ?_⟩
    have before : sources[k] ∈ sources.take j := List.mem_take_iff_getElem.2 ⟨k, by omega, rfl⟩
    simpa using first _ before

theorem resolveField_qualified (plain : '.' ∉ f.toList) : resolveField (a ++ "." ++ f) sources =
    match sources.zipIdx.find? fun (u, _) => u.answersTo a with
    | some (u, k) => (u.fragment.column f).map fun c => (k, c)
    | none => .error (.exec (.fieldNotFound f a)) := by
  have split : Text.splitLast '.' (a ++ "." ++ f).toList = some (a.toList, f.toList) := by
    rw [String.toList_append, String.toList_append, List.append_assoc]
    exact Text.splitLast_append plain
  unfold resolveField
  rw [split]
  dsimp only
  rw [String.ofList_toList, String.ofList_toList]
  cases sources.zipIdx.find? fun (u, _) => u.answersTo a with
  | none => rfl
  | some entry =>
    dsimp only
    cases entry.1.fragment.column f <;> rfl

/-- A qualified name is read from the first source that its qualifier names. -/
theorem resolveField_first (plain : '.' ∉ f.toList) (known : sources[j]? = some t) (answers : t.answersTo a = true)
    (first : ∀ u ∈ sources.take j, u.answersTo a = false) :
    resolveField (a ++ "." ++ f) sources = (t.fragment.column f).map fun c => (j, c) := by
  rw [resolveField_qualified plain, find?_answersTo.2 ⟨known, answers, first⟩]

theorem first_of_resolveField (plain : '.' ∉ f.toList) {c : Nat}
    (h : resolveField (a ++ "." ++ f) sources = .ok (j, c)) : ∀ u ∈ sources.take j, u.answersTo a = false := by
  rw [resolveField_qualified plain] at h
  split at h
  next u k found =>
    obtain ⟨_, -, same⟩ := Outcome.map_eq_ok.1 h
    cases same
    exact (find?_answersTo.1 found).2.2
  next => cases h

/-! ## Sources with aliases -/

/-- Every source has an alias without a dot, and no two have the same. -/
structure Aliased (sources : List Source) : Prop where
  plain : ∀ s ∈ sources, ∃ a, s.alias? = some a ∧ '.' ∉ a.toList
  distinct : (sources.map Source.alias?).Nodup

namespace Aliased

theorem plain_alias (aliased : Aliased sources) (known : sources[i]? = some s) (named : s.alias? = some a) :
    '.' ∉ a.toList := by
  obtain ⟨b, same, plain⟩ := aliased.plain s (List.mem_of_getElem? known)
  cases named.symm.trans same
  exact plain

/-- A source does not have the alias of a later one. -/
theorem ne_of_lt (aliased : Aliased sources) (known : sources[i]? = some s) (named : s.alias? = some a)
    (mem : t ∈ sources.take i) : t.alias? ≠ some a := by
  intro same
  obtain ⟨k, lt, rfl⟩ := List.mem_take_iff_getElem.1 mem
  obtain ⟨hi, rfl⟩ := List.getElem?_eq_some_iff.1 known
  have pair := List.pairwise_iff_getElem.1 aliased.distinct k i (by simpa using by omega) (by simpa using hi) (by omega)
  rw [List.getElem_map, List.getElem_map] at pair
  exact pair (same.trans named.symm)

/-- Before a source, its alias names the sources whose fragments have that name. -/
theorem answersTo_iff_name (aliased : Aliased sources) (known : sources[i]? = some s) (named : s.alias? = some a)
    (mem : t ∈ sources.take i) : t.answersTo a = true ↔ t.fragment.name = a := by
  rw [Source.answersTo_iff (aliased.plain_alias known named)]
  exact or_iff_right (aliased.ne_of_lt known named mem)

/-- A column qualified by the alias of its source is read from this source, whatever the sources behind it are called,
exactly if no fragment before it has the alias for a name. Else the first fragment of that name is read. -/
theorem resolves_iff_unshadowed (aliased : Aliased sources) (known : sources[i]? = some s)
    (named : s.alias? = some a) (column : f ∈ s.fragment.schema.names) (plain : '.' ∉ f.toList) :
    ∃ c, s.fragment.schema.index? f = some c ∧
      (resolveField (a ++ "." ++ f) sources = .ok (i, c) ↔ ∀ t ∈ sources.take i, t.fragment.name ≠ a) ∧
      ∀ j t, j < i → sources[j]? = some t → t.fragment.name = a → (∀ u ∈ sources.take j, u.fragment.name ≠ a) →
        resolveField (a ++ "." ++ f) sources = (t.fragment.column f).map fun c => (j, c) := by
  have dotless := aliased.plain_alias known named
  have silent {u : Source} (mem : u ∈ sources.take i) (other : u.fragment.name ≠ a) : u.answersTo a = false := by
    rw [← Bool.not_eq_true, aliased.answersTo_iff_name known named mem]
    exact other
  obtain ⟨c, index⟩ : ∃ c, s.fragment.schema.index? f = some c := by
    refine Option.ne_none_iff_exists'.1 fun none => ?_
    exact Schema.lastIndex_eq_none_iff.1 none column
  have here : s.fragment.column f = .ok c := by
    unfold Fragment.column
    rw [index]
  have shadowed : ∀ j t, j < i → sources[j]? = some t → t.fragment.name = a →
      (∀ u ∈ sources.take j, u.fragment.name ≠ a) →
      resolveField (a ++ "." ++ f) sources = (t.fragment.column f).map fun c => (j, c) := by
    intro j t lt earlier name first
    refine resolveField_first plain earlier ((Source.answersTo_iff dotless).2 (.inr name)) fun u mem => ?_
    exact silent (List.take_subset_take_left sources (by omega) mem) (first u mem)
  refine ⟨c, index, ⟨fun resolved => ?_, fun unshadowed => ?_⟩, shadowed⟩
  · intro t mem name
    have unnamed := first_of_resolveField plain resolved t mem
    rw [(aliased.answersTo_iff_name known named mem).2 name] at unnamed
    cases unnamed
  · have answers : s.answersTo a = true := (Source.answersTo_iff dotless).2 (.inl named)
    rw [resolveField_first plain known answers fun u mem => silent mem (unshadowed u mem), here]
    rfl

/-- A fragment `x` behind the source with the alias `x` is not looked at, although it has another alias. -/
theorem resolves_iff_unshadowed_behind :
    let sources := [{ Selection.counting "b" 1 3 with alias? := some "x" },
      { Selection.counting "x" 2 3 with alias? := some "y" }]
    Aliased sources ∧ (∀ t ∈ sources.take 0, t.fragment.name ≠ "x") ∧
      resolveField "x.id" sources = .ok (0, 0) := by
  intro sources
  have aliased : Aliased sources := by
    refine ⟨fun s mem => ?_, by decide⟩
    rcases List.mem_pair.1 mem with rfl | rfl
    · exact ⟨"x", rfl, by decide⟩
    · exact ⟨"y", rfl, by decide⟩
  obtain ⟨c, index, unshadowed, -⟩ :=
    aliased.resolves_iff_unshadowed (i := 0) (a := "x") (f := "id") rfl rfl (by decide) (by decide)
  cases index
  exact ⟨aliased, nofun, unshadowed.2 nofun⟩

/-- A fragment `x` before the source with the alias `x` is read in its place. -/
theorem shadowed_reads_other :
    let sources := [{ Selection.counting "x" 1 3 with alias? := some "y" },
      { Selection.counting "b" 2 3 with alias? := some "x" }]
    Aliased sources ∧ (∃ s, sources[1]? = some s ∧ s.alias? = some "x" ∧ s.fragment.schema.index? "id" = some 0) ∧
      resolveField "x.id" sources = .ok (0, 0) ∧ resolveField "x.id" sources ≠ .ok (1, 0) := by
  intro sources
  refine ⟨⟨fun s mem => ?_, by decide⟩, ⟨_, rfl, rfl, rfl⟩, by decide, by decide⟩
  rcases List.mem_pair.1 mem with rfl | rfl
  · exact ⟨"y", rfl, by decide⟩
  · exact ⟨"x", rfl, by decide⟩

end Aliased

end

end FragmentEngine
