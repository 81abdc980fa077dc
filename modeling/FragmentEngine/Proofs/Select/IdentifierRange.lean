import FragmentEngine.Proofs.Select.InnerJoin
/-!
# Identifier ranges

The range of a fragment is found exactly if its identifiers count up, each once and in order. Else the first row that
does not go on counting is refused, except behind the greatest long: there is no number to go on with, and a further
row overflows whatever its identifier is.
-/

namespace FragmentEngine

/-! ## Counting -/

namespace Long

variable {ids before after : List Long} {id first last : Long} {n : Int} {row : Nat}

/-- The identifiers are the numbers from `first` to `last`, each once and in order. -/
def CountUp (first last : Long) (ids : List Long) : Prop :=
  first.toInt ≤ last.toInt ∧
    ids.map Int64.toInt = (List.range (last.toInt - first.toInt + 1).toNat).map fun i : Nat => first.toInt + i

instance : Decidable (CountUp first last ids) := inferInstanceAs (Decidable (_ ∧ _))

/-- Some identifiers count up to `last`, and the next one, that of row `row`, does not go on. -/
def BreaksOff (last : Long) (row : Nat) (ids : List Long) : Prop :=
  ∃ first before id after, ids = before ++ id :: after ∧ before.length = row ∧ CountUp first last before ∧
    id.toInt ≠ last.toInt + 1

/-- The identifiers go on counting from a number. -/
def CountFrom (n : Int) : List Long → Prop
  | [] => True
  | id :: rest => id.toInt = n ∧ CountFrom (n + 1) rest

theorem countFrom_iff :
    CountFrom n ids ↔ ids.map Int64.toInt = (List.range ids.length).map fun i : Nat => n + i := by
  induction ids generalizing n with
  | nil => exact ⟨fun _ => rfl, fun _ => trivial⟩
  | cons id rest ih =>
    have shift : (fun i : Nat => n + i) ∘ Nat.succ = fun i : Nat => n + 1 + i := by
      funext i
      simp only [Function.comp_apply]
      omega
    rw [CountFrom, ih, List.map_cons, List.length_cons, List.range_succ_eq_map, List.map_cons, List.map_map, shift,
      List.cons.injEq]
    simp

theorem countFrom_append : CountFrom n (before ++ after) ↔ CountFrom n before ∧ CountFrom (n + before.length) after := by
  induction before generalizing n with
  | nil => simp [CountFrom]
  | cons id rest ih =>
    rw [List.cons_append, CountFrom, CountFrom, ih, and_assoc, List.length_cons,
      show n + 1 + (rest.length : Int) = n + (rest.length + 1 : Nat) by omega]

/-- Counting comes to the last identifier. -/
theorem CountFrom.getLast (h : CountFrom n ids) (ends : ids.getLast? = some last) :
    last.toInt + 1 = n + ids.length := by
  obtain ⟨before, rfl⟩ := List.getLast?_eq_some_iff.1 ends
  have here := (countFrom_append.1 h).2.1
  rw [List.length_append, List.length_singleton]
  omega

theorem countUp_iff : CountUp first last ids ↔
    CountFrom first.toInt ids ∧ ids ≠ [] ∧ last.toInt + 1 = first.toInt + ids.length := by
  rw [countFrom_iff, CountUp]
  constructor
  · rintro ⟨le, same⟩
    have length := congrArg List.length same
    rw [List.length_map, List.length_map, List.length_range] at length
    exact ⟨by rw [length, same], List.length_pos_iff.1 (by omega), by omega⟩
  · rintro ⟨same, ne, ends⟩
    have pos := List.length_pos_iff.2 ne
    exact ⟨by omega, by rw [same, show (last.toInt - first.toInt + 1).toNat = ids.length by omega]⟩

/-- Identifiers that count up start with the first one and end with the last one. -/
theorem CountUp.ends (h : CountUp first last ids) : ids.head? = some first ∧ ids.getLast? = some last := by
  obtain ⟨counts, ne, length⟩ := countUp_iff.1 h
  constructor
  · cases ids with
    | nil => exact absurd rfl ne
    | cons id rest => rw [List.head?_cons, Int64.toInt_inj.1 counts.1]
  · obtain ⟨end', found⟩ := Option.ne_none_iff_exists'.1 fun none => ne (List.getLast?_eq_none_iff.1 none)
    have reached := counts.getLast found
    rw [found, Int64.toInt_inj.1 (show end'.toInt = last.toInt by omega)]

end Long

/-! ## Checking -/

section

variable {name : String} {first : Int} {row : Nat} {id : Long} {ids rest : List Long} {error : Error}

/-- The number that is due is a long, or it is too great and the row has another one. -/
theorem checkConsecutive_cons (bounded : Long.least ≤ first) : checkConsecutive name first row (id :: rest) =
    if id.toInt = first + row then checkConsecutive name first (row + 1) rest
    else .error (if Long.greatest < first + row then .overflow else .exec (.identifiersBroken name row)) := by
  have most := Long.toInt_le_greatest id
  rw [checkConsecutive]
  cases due : Long.ofInt? (first + row) with
  | none =>
    have beyond : Long.greatest < first + row := by
      by_contra within
      unfold Long.ofInt? at due
      rw [if_pos (by omega)] at due
      cases due
    rw [if_neg (by omega), if_pos beyond]
  | some expected =>
    have value := Long.ofInt?_eq_some due
    have within := Long.toInt_le_greatest expected
    have same : id = expected ↔ id.toInt = first + row := by rw [← value, Int64.toInt_inj]
    rw [if_neg (show ¬Long.greatest < first + row by omega)]
    simp only [same]

/-- The check succeeds for identifiers that go on counting. -/
theorem checkConsecutive_eq_ok_iff (bounded : Long.least ≤ first) :
    checkConsecutive name first row ids = .ok () ↔ Long.CountFrom (first + row) ids := by
  induction ids generalizing row with
  | nil => exact ⟨fun _ => trivial, fun _ => rfl⟩
  | cons id rest ih =>
    rw [checkConsecutive_cons bounded, Long.CountFrom]
    split
    next here =>
      rw [ih, and_iff_right here]
      exact iff_of_eq (congrArg (Long.CountFrom · rest) (by omega))
    next other => exact ⟨nofun, fun h => absurd h.1 other⟩

/-- The check fails for the first row that does not go on. -/
theorem checkConsecutive_eq_error (bounded : Long.least ≤ first) :
    checkConsecutive name first row ids = .error error ↔ ∃ before id after, ids = before ++ id :: after ∧
      Long.CountFrom (first + row) before ∧ id.toInt ≠ first + row + before.length ∧
      error = if Long.greatest < first + row + before.length then .overflow
        else .exec (.identifiersBroken name (row + before.length)) := by
  induction ids generalizing row with
  | nil =>
    constructor
    · nofun
    · rintro ⟨before, id, after, same, -⟩
      cases before <;> cases same
  | cons id rest ih =>
    rw [checkConsecutive_cons bounded]
    split
    next here =>
      have move (length : Nat) : first + (row + 1 : Nat) + (length : Int) = first + row + (length + 1 : Nat) := by omega
      have next : first + (row + 1 : Nat) = first + row + 1 := by omega
      rw [ih]
      constructor
      · rintro ⟨before, other, after, rfl, counts, off, rfl⟩
        rw [move] at off ⊢
        exact ⟨id :: before, other, after, rfl, ⟨here, next ▸ counts⟩, off, by rw [List.length_cons, Nat.add_right_comm]; rfl⟩
      · rintro ⟨before, other, after, same, counts, off, rfl⟩
        cases before with
        | nil =>
          cases same
          exact absurd (by simpa using here) off
        | cons _ before =>
          cases same
          rw [List.length_cons] at off ⊢
          exact ⟨before, other, after, rfl, next ▸ counts.2, move _ ▸ off, by rw [move, Nat.add_right_comm]; rfl⟩
    next other =>
      constructor
      · rintro ⟨⟩
        exact ⟨[], id, rest, rfl, trivial, by simpa using other, by simp⟩
      · rintro ⟨before, _, after, same, counts, -, rfl⟩
        cases before with
        | nil => simp
        | cons _ before =>
          cases same
          exact absurd counts.1 other

/-- From its first identifier on a column is checked for counting up to its last one. -/
theorem checkConsecutive_iff_countUp {first last : Long} (ends : (first :: rest).getLast? = some last) :
    checkConsecutive name first.toInt 0 (first :: rest) = .ok () ↔ Long.CountUp first last (first :: rest) := by
  rw [checkConsecutive_eq_ok_iff (Long.least_le_toInt first), Int.natCast_zero, Int.add_zero, Long.countUp_iff]
  exact ⟨fun counts => ⟨counts, List.cons_ne_nil _ _, counts.getLast ends⟩, fun counted => counted.1⟩

/-- A check fails for the row where the column breaks off, and no number is due there behind the greatest long. -/
theorem checkConsecutive_iff_breaksOff {first : Long} :
    checkConsecutive name first.toInt 0 (first :: rest) = .error error ↔
      ∃ last row, Long.BreaksOff last row (first :: rest) ∧
        error = if last.toInt = Long.greatest then .overflow else .exec (.identifiersBroken name row) := by
  have cause {last : Long} {length row : Nat} (reaches : last.toInt + 1 = first.toInt + length) :
      (if Long.greatest < first.toInt + length then Error.overflow else .exec (.identifiersBroken name row)) =
        if last.toInt = Long.greatest then .overflow else .exec (.identifiersBroken name row) := by
    have most := Long.toInt_le_greatest last
    exact if_congr (by omega) rfl rfl
  rw [checkConsecutive_eq_error (Long.least_le_toInt first)]
  simp only [Int.natCast_zero, Int.add_zero, Nat.zero_add]
  constructor
  · rintro ⟨before, id, after, same, counts, off, rfl⟩
    -- the first identifier is the number that is due, so it is not where the column breaks off
    have ne : before ≠ [] := by
      rintro rfl
      cases same
      simp at off
    obtain ⟨last, ends⟩ := Option.ne_none_iff_exists'.1 fun none => ne (List.getLast?_eq_none_iff.1 none)
    have reaches := counts.getLast ends
    refine ⟨last, before.length, ⟨first, before, id, after, same, rfl, ?_, by omega⟩, cause reaches⟩
    exact Long.countUp_iff.2 ⟨counts, ne, reaches⟩
  · rintro ⟨last, _, ⟨start, before, id, after, same, rfl, counted, off⟩, rfl⟩
    obtain ⟨counts, ne, reaches⟩ := Long.countUp_iff.1 counted
    obtain rfl : start = first := by
      cases before with
      | nil => exact absurd rfl ne
      | cons _ _ =>
        cases same
        exact (Option.some.inj counted.ends.1).symm
    exact ⟨before, id, after, same, counts, by omega, (cause reaches).symm⟩

end

/-! ## Ranges -/

namespace Fragment

variable {f : Fragment} {ids : List Long}

theorem idRange_nil (decoded : f.ids = .ok []) : f.idRange = .ok none := by
  unfold idRange
  rw [decoded]
  rfl

theorem idRange_eq {first last : Long} (decoded : f.ids = .ok ids) (head : ids.head? = some first)
    (ends : ids.getLast? = some last) :
    f.idRange = (checkConsecutive f.name first.toInt 0 ids).map fun _ => some (first, last) := by
  unfold idRange
  rw [decoded, Outcome.ok_bind, head, ends]
  dsimp only
  cases checkConsecutive f.name first.toInt 0 ids <;> rfl

/-- Of a fragment whose identifiers can be read there is no range exactly if there are no rows, and a range exactly if
they are the numbers of the range in row order. In every other case they count up to some number and a row behind it
does not go on: the row is refused, and if the number was the greatest long the query is abandoned. -/
theorem idRange_iff_countUp (decoded : f.ids = .ok ids) :
    (f.idRange = .ok none ↔ f.rowCount = 0) ∧
    (∀ first last, f.idRange = .ok (some (first, last)) ↔ Long.CountUp first last ids) ∧
    ∀ error, f.idRange = .error error ↔ ∃ last row, Long.BreaksOff last row ids ∧
      error = if last.toInt = Long.greatest then .overflow else .exec (.identifiersBroken f.name row) := by
  rw [← (ids_eq_ok decoded).1]
  rcases ids with _ | ⟨first, rest⟩
  · rw [idRange_nil decoded]
    refine ⟨⟨fun _ => rfl, fun _ => rfl⟩, fun first last => ⟨nofun, fun counts => ?_⟩, fun error => ⟨nofun, ?_⟩⟩
    · exact absurd rfl (Long.countUp_iff.1 counts).2.1
    · rintro ⟨last, row, ⟨_, before, id, after, same, -⟩, -⟩
      cases before <;> cases same
  · obtain ⟨last, ends⟩ := Option.ne_none_iff_exists'.1 fun none =>
      List.cons_ne_nil first rest (List.getLast?_eq_none_iff.1 none)
    rw [idRange_eq decoded rfl ends]
    refine ⟨⟨fun none => ?_, nofun⟩, fun start end' => ?_, fun error => ?_⟩
    · obtain ⟨_, -, same⟩ := Outcome.map_eq_ok.1 none
      cases same
    · rw [Outcome.map_eq_ok]
      constructor
      · rintro ⟨_, checked, same⟩
        cases same
        exact (checkConsecutive_iff_countUp ends).1 checked
      · intro counted
        obtain ⟨head, ends'⟩ := counted.ends
        cases head
        cases ends.symm.trans ends'
        exact ⟨(), (checkConsecutive_iff_countUp ends).2 counted, rfl⟩
    · rw [Outcome.map_eq_error, checkConsecutive_iff_breaksOff]

/-- The two greatest longs are a range. With a third row, whose identifier is here the least long, there is none. -/
theorem idRange_iff_countUp_greatest :
    let two := (Selection.counting "f" 9223372036854775806 2).fragment
    let three := (Selection.counting "f" 9223372036854775806 3).fragment
    two.ids = .ok [9223372036854775806, 9223372036854775807] ∧
      two.idRange = .ok (some (9223372036854775806, 9223372036854775807)) ∧
      three.ids = .ok [9223372036854775806, 9223372036854775807, -9223372036854775808] ∧
      three.idRange = .error .overflow := by
  intro two three
  have read : two.ids = .ok [9223372036854775806, 9223372036854775807] := by decide +kernel
  have read' : three.ids = .ok [9223372036854775806, 9223372036854775807, -9223372036854775808] := by decide +kernel
  refine ⟨read, ((idRange_iff_countUp read).2.1 _ _).2 (by decide +kernel), read', ?_⟩
  have broken : Long.BreaksOff 9223372036854775807 2
      [9223372036854775806, 9223372036854775807, -9223372036854775808] :=
    ⟨9223372036854775806, [9223372036854775806, 9223372036854775807], -9223372036854775808, [], rfl, rfl,
      by decide +kernel, by decide +kernel⟩
  exact ((idRange_iff_countUp read').2.2 _).2 ⟨_, _, broken, (if_pos (by decide +kernel)).symm⟩

/-- The greatest and the least long do not count up, and they are not refused. -/
theorem idRange_not_refused :
    let f := (Selection.counting "f" 9223372036854775807 2).fragment
    f.ids = .ok [9223372036854775807, -9223372036854775808] ∧ f.rowCount = 2 ∧
      (∀ first last, ¬Long.CountUp first last [9223372036854775807, -9223372036854775808]) ∧
      ∀ cause, f.idRange ≠ .error (.exec cause) := by
  intro f
  have overflow : f.idRange = .error .overflow := by decide +kernel
  refine ⟨by decide +kernel, rfl, fun first last counted => ?_, fun cause refused => ?_⟩
  · obtain ⟨here, next, -⟩ := (Long.countUp_iff.1 counted).1
    have greatest : (9223372036854775807 : Long).toInt = 9223372036854775807 := by decide +kernel
    have least : (-9223372036854775808 : Long).toInt = -9223372036854775808 := by decide +kernel
    omega
  · cases overflow.symm.trans refused

end Fragment

end FragmentEngine
