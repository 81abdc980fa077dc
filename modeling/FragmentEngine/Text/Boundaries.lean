/-!
# Sets of characters by their boundaries

A set of code points is written as the increasing list of the points where membership changes: the
first starts a range, the second ends it, and so on. The tables of character properties are such lists.
-/

namespace FragmentEngine.Text

/-- Whether `n` lies in the set with these boundaries. -/
def within : List Nat → Nat → Bool
  | [], _ => false
  | b :: rest, n => if n < b then false else !within rest n

theorem within_nil (n : Nat) : within [] n = false := rfl

theorem within_of_lt {b n : Nat} (rest : List Nat) (h : n < b) : within (b :: rest) n = false := by
  simp [within, h]

theorem within_of_le {b n : Nat} (rest : List Nat) (h : b ≤ n) :
    within (b :: rest) n = !within rest n := by
  simp [within, Nat.not_lt.2 h]

end FragmentEngine.Text
