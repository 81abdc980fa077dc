import Mathlib.Algebra.GroupWithZero.Nat
import FragmentEngine.Insert.Statement
/-!
# Runs of a statement

A statement is stored where it was opened, whatever it takes in. One that has received nothing but records of the
right width has them all, in order, and counts them exactly.
-/

namespace FragmentEngine.Statement

variable {s : Statement} {records : List Record}

/-- The database and the name that its fragment is stored under. -/
def place (s : Statement) : String × String := (s.db, s.fragment.name)

/-- Whether a run that is taken in is the last. -/
def EndsWith (s : Statement) (final : Bool) : Prop := final = true ∨ s.currentRun + 1 = s.totalRuns

/-! ## What a run keeps -/

theorem take_keeps (records : List Record) (s : Statement) :
    (take records s).2.place = s.place ∧ (take records s).2.currentRun = s.currentRun ∧
      (take records s).2.totalRuns = s.totalRuns := by
  induction records generalizing s with
  | nil => exact ⟨rfl, rfl, rfl⟩
  | cons r rest ih =>
    unfold take Fragment.push
    by_cases hwidth : r.width = s.fragment.schema.width
    · simpa [hwidth, place] using ih _
    · simp [hwidth, place]

theorem append_place (s : Statement) (records : List Record) (final : Bool) :
    (s.append records final).2.place = s.place := by
  unfold append
  split
  · rfl
  · have hplace := (take_keeps records { s with currentRun := s.currentRun + 1 }).1
    dsimp only
    split
    · rename_i htake
      rw [htake] at hplace
      exact hplace
    · rename_i htake
      rw [htake] at hplace
      exact hplace

/-- A run that is accepted is the last one of a statement only if it ends it. -/
theorem append_eq_ok {final last : Bool} {s' : Statement} (h : s.append records final = (.ok last, s')) :
    last = true ↔ s.EndsWith final := by
  unfold append at h
  split at h
  · cases h
  · obtain ⟨-, hrun, htotal⟩ := take_keeps records { s with currentRun := s.currentRun + 1 }
    dsimp only at h hrun htotal
    split at h
    · rename_i htake
      rw [htake] at hrun htotal
      dsimp only at hrun htotal
      cases h
      simp [EndsWith, hrun, htotal]
    · cases h

/-! ## What a run takes in -/

/-- Records that are all taken in come after those that were there. -/
theorem fragment_of_take {t : Statement} (h : take records s = (.ok (), t)) :
    t.fragment = { s.fragment with records := s.fragment.records ++ records } := by
  induction records generalizing s with
  | nil =>
    cases h
    rw [List.append_nil]
  | cons r rest ih =>
    unfold take Fragment.push at h
    dsimp only at h
    split at h
    · rename_i f hpush
      split at hpush
      · cases hpush
        rw [ih h, List.append_assoc]
        rfl
      · cases hpush
    · cases h

theorem fragment_of_append {t : Statement} {final last : Bool} (h : s.append records final = (.ok last, t)) :
    t.fragment = { s.fragment with records := s.fragment.records ++ records } := by
  unfold append at h
  split at h
  · cases h
  · dsimp only at h
    split at h
    · rename_i htake
      have hfragment := fragment_of_take htake
      cases h
      exact hfragment
    · cases h

theorem take_of_width (s : Statement) (hwidth : ∀ r ∈ records, r.width = s.fragment.schema.width) :
    take records s = (.ok (), { s with
      fragment := { s.fragment with records := s.fragment.records ++ records }
      size := s.size + (records.map Record.size).sum }) := by
  induction records generalizing s with
  | nil => simp [take]
  | cons r rest ih =>
    obtain ⟨hr, hrest⟩ := List.forall_mem_cons.1 hwidth
    have hnext := ih { s with
      fragment := { s.fragment with records := s.fragment.records ++ [r] }
      size := s.size + r.size } hrest
    unfold take Fragment.push
    dsimp only at hnext ⊢
    rw [if_pos hr]
    dsimp only
    rw [hnext]
    simp [Nat.add_assoc]

/-- The statement after so many runs in which it has received the given records and nothing else. -/
def received (s : Statement) (runs : Nat) (records : List Record) : Statement where
  db := s.db
  device := s.device
  fragment := { s.fragment with records := records }
  totalRuns := s.totalRuns
  currentRun := runs
  size := (records.map Record.size).sum
  carriedRows := records.length

/-- A run of records of the right width adds them to those received before, as long as runs are left. -/
theorem append_received (records : List Record) {runs : Nat} {more : List Record} (final : Bool)
    (hruns : runs < s.totalRuns) (hwidth : ∀ r ∈ more, r.width = s.fragment.schema.width) :
    (s.received runs records).append more final =
      (.ok (final || runs + 1 == s.totalRuns), s.received (runs + 1) (records ++ more)) := by
  have hopen : ¬(s.received runs records).isComplete = true := fun h =>
    absurd (of_decide_eq_true h) (Nat.not_le.2 hruns)
  have htake := take_of_width { s.received runs records with currentRun := runs + 1 } hwidth
  unfold append
  rw [if_neg hopen]
  simp only [received] at htake ⊢
  rw [htake]
  simp [Fragment.rowCount]

end FragmentEngine.Statement
