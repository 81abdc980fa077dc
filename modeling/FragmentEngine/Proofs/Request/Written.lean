import FragmentEngine.Proofs.Request.Params
/-!
# Queries that are written

Texts for parameters and for lists from which these are read again, as long as no quote is left open and nothing has
blanks around it.
-/

namespace FragmentEngine

namespace Sections

/-- A character that is no separator, no quote and no blank. -/
structure Stands (c : Char) : Prop where
  ne_semicolon : c ≠ ';'
  ne_bar : c ≠ '|'
  not_isQuote : isQuote c = false
  not_isBlank : Text.isBlank c = false

/-- A test that all others fail is passed by such characters only. -/
theorem stands_of {p : Char → Bool} {c : Char}
    (hnone : ([34, 39, 59, 124] ++ Text.blankPoints).all (fun n => !p (Char.ofNat n)) = true) (hc : p c = true) :
    Stands c := by
  have hpoint : c.toNat ∉ [34, 39, 59, 124] ++ Text.blankPoints := by
    intro hmem
    rw [Text.not_of_points hnone hmem] at hc
    cases hc
  rw [List.mem_append, not_or] at hpoint
  refine ⟨?_, ?_, ?_, Bool.eq_false_iff.2 fun h => hpoint.2 (Text.mem_blankPoints h)⟩
  · rintro rfl
    exact hpoint.1 (by decide)
  · rintro rfl
    exact hpoint.1 (by decide)
  · rw [Bool.eq_false_iff]
    intro h
    rcases eq_of_isQuote h with rfl | rfl
    all_goals exact hpoint.1 (by decide)

theorem closed_trimmed {stop : Char} {cs : List Char}
    (h : ∀ c ∈ cs, c ≠ stop ∧ isQuote c = false ∧ Text.isBlank c = false) : Closed stop cs ∧ Text.trim cs = cs :=
  ⟨.of_plain fun c hc => ⟨(h c hc).1, (h c hc).2.1⟩, Text.trim_eq_self fun c hc => (h c hc).2.2⟩

/-- What consists of such characters can stand in a value or in an entry of a list. -/
theorem closed_of_stands {stop : Char} {cs : List Char} (hstop : ¬Stands stop) (h : ∀ c ∈ cs, Stands c) :
    Closed stop cs ∧ Text.trim cs = cs :=
  closed_trimmed fun c hc => ⟨fun heq => hstop (heq ▸ h c hc), (h c hc).not_isQuote, (h c hc).not_isBlank⟩

theorem not_isBlank_of_isQuote {q : Char} (h : isQuote q = true) : Text.isBlank q = false := by
  rcases eq_of_isQuote h with rfl | rfl
  all_goals rfl

theorem not_stands_semicolon : ¬Stands ';' := fun h => h.ne_semicolon rfl

theorem not_stands_bar : ¬Stands '|' := fun h => h.ne_bar rfl

/-! ## Lists -/

/-- Entries by what is read of the first one. -/
theorem entries_of_span {cs entry rest : List Char} (h : span '|' none cs = (entry, rest)) : entries cs =
    match rest with
    | [] => .ok [entry]
    | c :: more => if c = '|' then (entries more).map (entry :: ·) else .error (c :: more) := by
  rw [entries]
  split
  · rename_i heq
    rw [h] at heq
    cases heq
    rfl
  · rename_i heq
    rw [h] at heq
    cases heq
    rfl

theorem entries_last {cs : List Char} (h : Closed '|' cs) : entries cs = .ok [cs] := by
  have hspan : span '|' none cs = (cs, []) := by
    have happend := h.span_append (by decide) []
    rwa [List.append_nil, span, List.append_nil] at happend
  rw [entries_of_span hspan]

theorem entries_more {cs rest : List Char} (h : Closed '|' cs) :
    entries (cs ++ '|' :: rest) = (entries rest).map (cs :: ·) := by
  have hspan : span '|' none (cs ++ '|' :: rest) = (cs, '|' :: rest) := by
    rw [h.span_append (by decide)]
    simp [span]
  rw [entries_of_span hspan]
  exact if_pos rfl

theorem mem_intercalate {sep c : Char} {parts : List (List Char)} (h : c ∈ [sep].intercalate parts) :
    c = sep ∨ ∃ part ∈ parts, c ∈ part := by
  induction parts with
  | nil => cases h
  | cons part rest ih =>
    cases rest with
    | nil =>
      rw [List.intercalate_singleton] at h
      exact .inr ⟨part, List.mem_cons_self, h⟩
    | cons part' rest =>
      rw [List.intercalate_cons_cons, List.mem_append, List.mem_append, List.mem_singleton] at h
      rcases h with (h | h) | h
      · exact .inr ⟨part, List.mem_cons_self, h⟩
      · exact .inl h
      · exact (ih h).imp_right fun ⟨q, hq, hc⟩ => ⟨q, List.mem_cons_of_mem _ hq, hc⟩

/-- Closed entries between bars are read. -/
theorem entries_intercalate {parts : List (List Char)} (hne : parts ≠ []) (h : ∀ part ∈ parts, Closed '|' part) :
    entries (['|'].intercalate parts) = .ok parts := by
  induction parts with
  | nil => exact absurd rfl hne
  | cons part rest ih =>
    obtain ⟨hpart, hrest⟩ := List.forall_mem_cons.1 h
    cases rest with
    | nil => rw [List.intercalate_singleton, entries_last hpart]
    | cons part' rest =>
      rw [List.intercalate_cons_cons, List.append_assoc, List.singleton_append, entries_more hpart,
        ih (List.cons_ne_nil _ _) hrest]
      rfl

theorem list_empty : list "" = .ok [""] := by decide +kernel

theorem list_intercalate {values : List String} (hne : values ≠ [])
    (h : ∀ v ∈ values, Closed '|' v.toList ∧ Text.trim v.toList = v.toList) :
    list ("|".intercalate values) = .ok values := by
  have hentries : entries ("|".intercalate values).toList = .ok (values.map String.toList) := by
    rw [String.toList_intercalate]
    exact entries_intercalate (by simpa using hne) (List.forall_mem_map.2 fun v hv => (h v hv).1)
  unfold list
  rw [hentries]
  dsimp only
  rw [List.map_map]
  refine congrArg _ ((List.map_congr_left fun v hv => ?_).trans (List.map_id _))
  simp [(h v hv).2]

end Sections

/-! ## Parameters -/

namespace Params

theorem require_of_lookup {p : Params} {key value : String} (h : p.entries.lookup key = some value)
    (hne : value ≠ "") : p.require key = .ok value := by
  unfold require get?
  rw [h, Option.filter_some, if_pos (decide_eq_true hne)]

theorem requireList_of_lookup {p : Params} {key value : String} (h : p.entries.lookup key = some value)
    (hne : value ≠ "") : p.requireList key = Sections.list value := by
  unfold requireList
  rw [require_of_lookup h hne]
  rfl

/-- A pair written without blanks. -/
def Written.plain (pair : String × String) : Written := ⟨[], pair.1.toList, [], pair.2.toList⟩

/-- A text for pairs of keys and values. -/
def text (pairs : List (String × String)) : String :=
  ";".intercalate (pairs.map fun (key, value) => key ++ "=" ++ value)

theorem toList_text (pairs : List (String × String)) : (text pairs).toList = write (pairs.map .plain) [] := by
  simp [text, write, Written.plain, Written.text, Function.comp_def]

/-- Keys are written as they are read. -/
theorem known_key {key : String} (h : key ∈ knownKeys) :
    key.toList ≠ [] ∧ (∀ c ∈ key.toList, isKeyChar c = true) ∧ String.ofList (key.toList.map Char.toLower) = key := by
  have hkeys : ∀ key ∈ knownKeys, key.toList ≠ [] ∧ key.toList.all isKeyChar = true ∧
      String.ofList (key.toList.map Char.toLower) = key := by decide +kernel
  obtain ⟨hne, hchars, hlower⟩ := hkeys key h
  exact ⟨hne, List.all_eq_true.1 hchars, hlower⟩

/-- Known keys and closed values are read as they are written. -/
theorem parse_text {pairs : List (String × String)} (hkeys : ∀ key ∈ pairs.map Prod.fst, key ∈ knownKeys)
    (hnodup : (pairs.map Prod.fst).Nodup)
    (hvalues : ∀ p ∈ pairs, Sections.Closed ';' p.2.toList ∧ Text.trim p.2.toList = p.2.toList) :
    parse (text pairs) = .ok ⟨pairs⟩ := by
  have hknown : ∀ p ∈ pairs, p.1 ∈ knownKeys := fun p hp => hkeys p.1 (List.mem_map_of_mem hp)
  have hkey : ∀ p ∈ pairs, (Written.plain p).key = p.1 := fun p hp => (known_key (hknown p hp)).2.2
  have hwritten : (pairs.map .plain).map Written.key = pairs.map Prod.fst := by
    rw [List.map_map]
    exact List.map_congr_left hkey
  have hentries : (pairs.map .plain).map Written.entry = pairs := by
    rw [List.map_map]
    refine (List.map_congr_left fun p hp => ?_).trans (List.map_id pairs)
    show ((Written.plain p).key, String.ofList (Text.trim p.2.toList)) = p
    rw [hkey p hp, (hvalues p hp).2, String.ofList_toList]
  rw [parse_of_write (toList_text pairs) ?_ ⟨[], nofun, .inl rfl⟩ ?_ (by rwa [hwritten]), hentries]
  · refine List.forall_mem_map.2 fun p hp => ?_
    obtain ⟨hne, hchars, -⟩ := known_key (hknown p hp)
    exact ⟨nofun, hne, hchars, nofun, (hvalues p hp).1⟩
  · refine List.forall_mem_map.2 fun p hp => ?_
    rw [hkey p hp]
    exact hknown p hp

end Params

end FragmentEngine
