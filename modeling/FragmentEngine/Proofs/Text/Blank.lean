import Mathlib.Data.List.DropRight
import FragmentEngine.Text.Blank
/-!
# Blanks

The code points of the blanks, by which a test on characters is known to exclude them, and what trimming takes away.
-/

namespace FragmentEngine.Text

/-! ## Code points -/

/-- The code points of the blanks. -/
def blankPoints : List Nat :=
  [9, 10, 11, 12, 13, 32, 133, 160, 5760, 8192, 8193, 8194, 8195, 8196, 8197, 8198, 8199, 8200, 8201, 8202, 8232, 8233,
    8239, 8287, 12288]

theorem mem_blankPoints {c : Char} (h : isBlank c = true) : c.toNat ∈ blankPoints := by
  generalize hn : c.toNat = n
  rw [isBlank, hn] at h
  simp only [within, blankBoundaries, blankPoints, List.mem_cons, List.not_mem_nil, or_false] at h ⊢
  simp at h
  omega

/-- A test that fails on code points fails on the characters among them. -/
theorem not_of_points {p : Char → Bool} {points : List Nat} {c : Char}
    (hnone : points.all (fun n => !p (Char.ofNat n)) = true) (hc : c.toNat ∈ points) : p c = false := by
  have h := List.all_eq_true.1 hnone _ hc
  rw [Char.ofNat_toNat] at h
  simpa using h

/-- A test that fails on the blanks is passed by other characters only. -/
theorem not_isBlank_of {p : Char → Bool} {c : Char} (hnone : blankPoints.all (fun n => !p (Char.ofNat n)) = true)
    (hc : p c = true) : isBlank c = false := by
  rw [Bool.eq_false_iff]
  intro hblank
  rw [not_of_points hnone (mem_blankPoints hblank)] at hc
  cases hc

/-! ## Trimming -/

/-- Nothing is left of a text only if all of it is blank. -/
theorem trim_eq_nil {cs : List Char} (h : trim cs = []) : ∀ c ∈ cs, isBlank c = true := by
  have nothing : cs.dropWhile isBlank = [] := by
    rw [← List.dropWhile_idempotent]
    exact List.dropWhile_eq_nil_iff.2 (List.rdropWhile_eq_nil_iff.1 h)
  exact List.dropWhile_eq_nil_iff.1 nothing

theorem trim_append_blank {cs blanks : List Char} (h : ∀ c ∈ blanks, isBlank c = true) :
    trim (cs ++ blanks) = trim cs := by
  have hend (cs : List Char) : dropEnd isBlank (cs ++ blanks) = dropEnd isBlank cs := by
    unfold dropEnd
    rw [List.reverse_append, List.dropWhile_append_of_pos fun c hc => h c (List.mem_reverse.1 hc)]
  unfold trim
  rw [List.dropWhile_append]
  split
  · rename_i hnil
    rw [List.dropWhile_eq_nil_iff.2 h, List.isEmpty_iff.1 hnil]
  · exact hend _

/-- Nothing is trimmed exactly if no blank is at either end. -/
theorem trim_eq_self_iff {cs : List Char} :
    trim cs = cs ↔ (∀ c ∈ cs.head?, isBlank c = false) ∧ ∀ c ∈ cs.getLast?, isBlank c = false := by
  have hstart : cs.dropWhile isBlank = cs ↔ ∀ c ∈ cs.head?, isBlank c = false := by
    rw [List.dropWhile_eq_self_iff]
    cases cs <;> simp
  have hend : dropEnd isBlank cs = cs ↔ ∀ c ∈ cs.getLast?, isBlank c = false := by
    refine List.rdropWhile_eq_self_iff.trans ?_
    cases cs <;> simp [List.getLast?_cons, List.getLast_eq_getLastD]
  rw [← hstart, ← hend]
  constructor
  · intro h
    have hshorter : (trim cs).length ≤ (cs.dropWhile isBlank).length :=
      (List.rdropWhile_prefix isBlank (cs.dropWhile isBlank)).length_le
    rw [h] at hshorter
    have hfront : cs.dropWhile isBlank = cs := (List.dropWhile_sublist isBlank).eq_of_length_le hshorter
    exact ⟨hfront, by rwa [trim, hfront] at h⟩
  · rintro ⟨hfront, hback⟩
    rw [trim, hfront, hback]

theorem trim_eq_self {cs : List Char} (h : ∀ c ∈ cs, isBlank c = false) : trim cs = cs :=
  trim_eq_self_iff.2 ⟨fun c hc => h c (List.mem_of_mem_head? hc), fun c hc => h c (List.mem_of_mem_getLast? hc)⟩

/-- Nothing is trimmed of two texts in a row if nothing is trimmed of each. -/
theorem trim_append {xs ys : List Char} (hx : trim xs = xs) (hy : trim ys = ys) : trim (xs ++ ys) = xs ++ ys := by
  obtain ⟨hxhead, hxlast⟩ := trim_eq_self_iff.1 hx
  obtain ⟨hyhead, hylast⟩ := trim_eq_self_iff.1 hy
  refine trim_eq_self_iff.2 ⟨fun c hc => ?_, fun c hc => ?_⟩
  · rw [List.head?_append] at hc
    rcases Option.or_eq_some_iff.1 hc with hc | ⟨-, hc⟩
    · exact hxhead c hc
    · exact hyhead c hc
  · rw [List.getLast?_append] at hc
    rcases Option.or_eq_some_iff.1 hc with hc | ⟨-, hc⟩
    · exact hylast c hc
    · exact hxlast c hc

/-- No blanks are at the end of a text of which nothing is trimmed. -/
theorem eq_nil_of_trim_append {xs blanks : List Char} (h : trim (xs ++ blanks) = xs ++ blanks)
    (hblank : ∀ c ∈ blanks, isBlank c = true) : blanks = [] := by
  by_contra hne
  have hlast := (trim_eq_self_iff.1 h).2 (blanks.getLast hne) (by
    rw [List.getLast?_append_of_ne_nil xs hne, List.getLast?_eq_some_getLast hne]
    exact Option.mem_some_self _)
  rw [hblank _ (List.getLast_mem hne)] at hlast
  cases hlast

/-- A text is what trimming leaves of it, with blanks around it. -/
theorem exists_blanks (cs : List Char) : ∃ before after, (∀ c ∈ before, isBlank c = true) ∧
    (∀ c ∈ after, isBlank c = true) ∧ cs = before ++ (trim cs ++ after) := by
  refine ⟨cs.takeWhile isBlank, (cs.dropWhile isBlank).rtakeWhile isBlank, fun c => List.mem_takeWhile_imp,
    fun c => List.mem_rtakeWhile_imp, ?_⟩
  have hback : trim cs ++ (cs.dropWhile isBlank).rtakeWhile isBlank = cs.dropWhile isBlank :=
    List.rdropWhile_append_rtakeWhile
  rw [hback, List.takeWhile_append_dropWhile]

end FragmentEngine.Text
