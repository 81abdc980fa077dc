import FragmentEngine.Function.Registry
import FragmentEngine.Proofs.Function.Index
/-!
# Index functions on machine words

Some of the numbers that an index function forms are checked, and the others are left to the machine. Here the others
are formed by operations on words, which stop the program when they divide by zero or leave the range of longs. The
functions on words have the outcomes of the index functions, so they never stop the program, and these outcomes are
given for every call on longs.
-/

namespace FragmentEngine.Index

/-! ## Words -/

/-- The number in a word; one that is no long stops the program. -/
def word (n : Int) : Except Error Int := if Long.Fits n then .ok n else .error .overflow

/-- The quotient of two words. -/
def quotient (a b : Int) : Except Error Int := if b = 0 then .error .overflow else word (a.tdiv b)

/-- The remainder of two words, which stops the program where the quotient does. -/
def remainder (a b : Int) : Except Error Int := do
  let _ ← quotient a b
  word (a.tmod b)

theorem word_eq {n : Int} (h : Long.Fits n) : word n = .ok n := if_pos h

theorem quotient_eq {a b : Int} (ha : Long.Fits a) (hb : 0 < b) : quotient a b = .ok (a.tdiv b) := by
  rw [quotient, if_neg (Int.ne_of_gt hb), word_eq ((NearerZero.tdiv a hb).fits ha)]

theorem remainder_eq {a b : Int} (ha : Long.Fits a) (hb : 0 < b) : remainder a b = .ok (a.tmod b) := by
  rw [remainder, quotient_eq ha hb, Outcome.ok_bind, word_eq ((NearerZero.tmod a hb).fits ha)]

/-! ## Calls -/

/-- A call of an index function on longs. -/
inductive Call where
  | blockOf (id size : Long)
  | collapse (id size block : Long)
  | along (id outer : Long) (inner : List Long)
  | alongBlocks (id block size : Long)
  | onLattice (id start step stop : Long)

namespace Call

/-- The name under which the function is called. -/
def name : Call → String
  | blockOf .. => "oph_id"
  | collapse .. => "oph_id2"
  | along .. => "oph_id_to_index"
  | alongBlocks .. => "oph_id_to_index2"
  | onLattice .. => "oph_is_in_subset"

def arguments : Call → List Long
  | blockOf id size => [id, size]
  | collapse id size block => [id, size, block]
  | along id outer inner => id :: outer :: inner
  | alongBlocks id block size => [id, block, size]
  | onLattice id start step stop => [id, start, step, stop]

/-- The function that is called. -/
def function : Call → List Value → Except Error Value
  | blockOf .. => Index.blockOf
  | collapse .. => Index.collapse
  | along .. => Index.along
  | alongBlocks .. => Index.alongBlocks
  | onLattice .. => Index.onLattice

def outcome (c : Call) : Except Error Value := c.function (c.arguments.map .long)

/-- The call on words: what is not checked may stop the program. -/
def onWords : Call → Except Error Value
  | blockOf id size => do
    let size ← positive "oph_id" "size" (.long size)
    let zero ← zeroBased "oph_id" id
    let blocks ← quotient zero size
    return long (← word (blocks + 1))
  | collapse id size block => do
    let size ← positive "oph_id2" "size" (.long size)
    let block ← positive "oph_id2" "block" (.long block)
    let zero ← zeroBased "oph_id2" id
    let extent ← checked "oph_id2" (size * block)
    let blocks ← quotient zero extent
    let start ← checked "oph_id2" (blocks * block)
    let rest ← remainder zero block
    let rest ← word (rest + 1)
    return long (← checked "oph_id2" (start + rest))
  | along id outer inner => do
    let outer ← positive "oph_id_to_index" "size" (.long outer)
    let inner ← innerExtent 1 (inner.map .long)
    let zero ← zeroBased "oph_id_to_index" id
    let blocks ← quotient zero inner
    let index ← remainder blocks outer
    return long (← word (index + 1))
  | alongBlocks id block size => do
    let block ← positive "oph_id_to_index2" "block" (.long block)
    let size ← positive "oph_id_to_index2" "size" (.long size)
    let zero ← zeroBased "oph_id_to_index2" id
    let blocks ← quotient zero block
    let index ← remainder blocks size
    return long (← word (index + 1))
  | onLattice id start step stop => do
    let step ← positive "oph_is_in_subset" "step" (.long step)
    if id.toInt < start.toInt ∨ stop.toInt < id.toInt then return Value.ofBool false
    let offset ← checked "oph_is_in_subset" (id.toInt - start.toInt)
    return Value.ofBool ((← remainder offset step) == 0)

/-- The sizes are positive, and the numbers that the function checks are longs. -/
def Defined : Call → Prop
  | blockOf id size => 0 < size.toInt ∧ Long.Fits (id.toInt - 1)
  | collapse id size block =>
    0 < size.toInt ∧ 0 < block.toInt ∧ Long.Fits (id.toInt - 1) ∧ Long.Fits (size.toInt * block.toInt)
  | along id outer inner =>
    0 < outer.toInt ∧ (∀ size ∈ inner, 0 < size.toInt) ∧ Long.Fits (extent inner) ∧ Long.Fits (id.toInt - 1)
  | alongBlocks id block size => 0 < block.toInt ∧ 0 < size.toInt ∧ Long.Fits (id.toInt - 1)
  | onLattice id start step stop =>
    0 < step.toInt ∧ (start.toInt ≤ id.toInt → id.toInt ≤ stop.toInt → Long.Fits (id.toInt - start.toInt))

/-- The number `n` is the value of the function's formula on unbounded integers. -/
def Formula : Call → Int → Prop
  | blockOf id size, n => n = (id.toInt - 1).tdiv size.toInt + 1
  | collapse id size block, n =>
    n = (id.toInt - 1).tdiv (size.toInt * block.toInt) * block.toInt + (id.toInt - 1).tmod block.toInt + 1
  | along id outer inner, n => n = ((id.toInt - 1).tdiv (extent inner)).tmod outer.toInt + 1
  | alongBlocks id block size, n => n = ((id.toInt - 1).tdiv block.toInt).tmod size.toInt + 1
  | onLattice id start step stop, n => (n = 0 ∨ n = 1) ∧
    (n = 1 ↔ id.toInt ≤ stop.toInt ∧ ∃ steps : Nat, id.toInt = start.toInt + steps * step.toInt)

/-! ## Unchecked operations -/

variable {id size block start step stop : Long}

theorem blockOf_onWords : (blockOf id size).onWords = (blockOf id size).outcome := by
  refine (positive_gives _ _ size).bind_congr fun hsize => ?_
  refine (zeroBased_gives _ id).bind_congr fun hzero => ?_
  rw [quotient_eq hzero hsize, Outcome.ok_bind, word_eq (fits_of_zeroBased hzero (.tdiv _ hsize))]
  rfl

theorem collapse_onWords : (collapse id size block).onWords = (collapse id size block).outcome := by
  refine (positive_gives _ _ size).bind_congr fun hsize => ?_
  refine (positive_gives _ _ block).bind_congr fun hblock => ?_
  refine (zeroBased_gives _ id).bind_congr fun hzero => ?_
  refine (checked_gives _ _).bind_congr fun _ => ?_
  rw [quotient_eq hzero (Int.mul_pos hsize hblock), Outcome.ok_bind]
  refine (checked_gives _ _).bind_congr fun _ => ?_
  rw [remainder_eq hzero hblock, Outcome.ok_bind, word_eq (fits_of_zeroBased hzero (.tmod _ hblock))]
  rfl

theorem along_onWords {outer : Long} {inner : List Long} :
    (along id outer inner).onWords = (along id outer inner).outcome := by
  refine (positive_gives _ _ outer).bind_congr fun houter => ?_
  refine (innerExtent_gives inner (by decide) (by decide)).bind_congr fun hinner => ?_
  refine (zeroBased_gives _ id).bind_congr fun hzero => ?_
  rw [Int.one_mul]
  have hextent := extent_pos hinner.1
  have hblocks := NearerZero.tdiv (id.toInt - 1) hextent
  rw [quotient_eq hzero hextent, Outcome.ok_bind, remainder_eq (hblocks.fits hzero) houter, Outcome.ok_bind,
    word_eq (fits_of_zeroBased hzero (hblocks.trans (.tmod _ houter)))]
  rfl

theorem alongBlocks_onWords : (alongBlocks id block size).onWords = (alongBlocks id block size).outcome := by
  refine (positive_gives _ _ block).bind_congr fun hblock => ?_
  refine (positive_gives _ _ size).bind_congr fun hsize => ?_
  refine (zeroBased_gives _ id).bind_congr fun hzero => ?_
  have hblocks := NearerZero.tdiv (id.toInt - 1) hblock
  rw [quotient_eq hzero hblock, Outcome.ok_bind, remainder_eq (hblocks.fits hzero) hsize, Outcome.ok_bind,
    word_eq (fits_of_zeroBased hzero (hblocks.trans (.tmod _ hsize)))]
  rfl

theorem onLattice_onWords : (onLattice id start step stop).onWords = (onLattice id start step stop).outcome := by
  refine (positive_gives _ _ step).bind_congr fun hstep => ?_
  show _ = ite _ _ _
  split
  · rfl
  · refine (checked_gives _ _).bind_congr fun hoffset => ?_
    rw [remainder_eq hoffset hstep]
    rfl

/-- What an index function does not check never stops the program. -/
theorem onWords_eq (c : Call) : c.onWords = c.outcome := by
  cases c with
  | blockOf id size => exact blockOf_onWords
  | collapse id size block => exact collapse_onWords
  | along id outer inner => exact along_onWords
  | alongBlocks id block size => exact alongBlocks_onWords
  | onLattice id start step stop => exact onLattice_onWords

/-! ## Outcomes -/

/-- A call computes the value of its formula. -/
theorem exists_computes (c : Call) : ∃ n, Computes c.outcome c.Defined n ∧ (c.Defined → c.Formula n) := by
  cases c with
  | blockOf id size => exact ⟨_, blockOf_computes id size, fun _ => rfl⟩
  | collapse id size block => exact ⟨_, collapse_computes id size block, fun _ => rfl⟩
  | along id outer inner => exact ⟨_, along_computes id outer inner, fun _ => rfl⟩
  | alongBlocks id block size => exact ⟨_, alongBlocks_computes id block size, fun _ => rfl⟩
  | onLattice id start step stop =>
    refine ⟨_, onLattice_computes id start step stop, fun h => ?_⟩
    rw [Formula, ← onLattice_iff h.1]
    split <;> simp [*]

/-- The calls are those of the builtin functions with a value for each row, on as many longs as the function takes. -/
theorem exists_call {f : Function} (mem : f ∈ Function.builtins) {apply : List Value → Except Error Value}
    (body : f.body = .scalar apply) {args : List Long} (count : f.arity.admits args.length = true) :
    ∃ c : Call, c.name = f.name ∧ c.arguments = args ∧ c.outcome = apply (args.map .long) := by
  simp only [Function.builtins, List.mem_cons, List.not_mem_nil, or_false] at mem
  rcases mem with rfl | rfl | rfl | rfl | rfl | rfl | rfl | rfl | rfl | rfl <;> cases body
  · obtain ⟨id, size, rfl⟩ := List.length_eq_two.1 (beq_iff_eq.1 count)
    exact ⟨.blockOf id size, rfl, rfl, rfl⟩
  · obtain ⟨id, size, block, rfl⟩ := List.length_eq_three.1 (beq_iff_eq.1 count)
    exact ⟨.collapse id size block, rfl, rfl, rfl⟩
  · have hcount : 2 ≤ args.length := of_decide_eq_true count
    obtain ⟨id, rest, rfl⟩ := List.exists_cons_of_length_pos (Nat.zero_lt_of_lt hcount)
    obtain ⟨outer, inner, rfl⟩ := List.exists_cons_of_length_pos (Nat.lt_of_succ_lt_succ hcount)
    exact ⟨.along id outer inner, rfl, rfl, rfl⟩
  · obtain ⟨id, block, size, rfl⟩ := List.length_eq_three.1 (beq_iff_eq.1 count)
    exact ⟨.alongBlocks id block size, rfl, rfl, rfl⟩
  · have hcount : args.length = 4 := beq_iff_eq.1 count
    obtain ⟨id, rest, rfl⟩ := List.exists_cons_of_length_eq_add_one hcount
    obtain ⟨start, step, stop, rfl⟩ := List.length_eq_three.1 (Nat.succ.inj hcount)
    exact ⟨.onLattice id start step stop, rfl, rfl, rfl⟩

end Call

/-- A builtin function with a value for each row, called on as many longs as it takes, has the outcome of the call on
words: no operation that it leaves unchecked divides by zero or leaves the range of longs. If the sizes are positive and
the checked numbers are longs, the result is the value of the function's formula on unbounded integers; in every other
case the call is refused. -/
theorem outcome_of_longs {f : Function} (mem : f ∈ Function.builtins) {apply : List Value → Except Error Value}
    (body : f.body = .scalar apply) (args : List Long) (count : f.arity.admits args.length = true) :
    ∃ c : Call, c.name = f.name ∧ c.arguments = args ∧ apply (args.map .long) = c.onWords ∧
      (c.Defined → ∃ n : Long, c.Formula n.toInt ∧ apply (args.map .long) = .ok (.long n)) ∧
      (¬c.Defined → ∃ e, apply (args.map .long) = .error (.exec e)) := by
  obtain ⟨c, hname, harguments, houtcome⟩ := Call.exists_call mem body count
  obtain ⟨n, hcomputes, hformula⟩ := c.exists_computes
  rw [← houtcome]
  refine ⟨c, hname, harguments, c.onWords_eq.symm, fun hdefined => ?_, hcomputes.refusal⟩
  obtain ⟨l, hok, rfl⟩ := hcomputes.exists_long hdefined
  exact ⟨l, hformula hdefined, hok⟩

/-- The least identifier that can be counted from zero, in one block of the greatest length, and the one before it. -/
theorem outcome_of_longs_least : (⟨"oph_id2", .exactly 3, .scalar collapse⟩ : Function) ∈ Function.builtins ∧
    (∃ c : Call, c.arguments = [-9223372036854775807, 1, 9223372036854775807] ∧
      c.onWords = .ok (.long (-9223372036854775807))) ∧
    ∃ c : Call, c.arguments = [-9223372036854775808, 1, 9223372036854775807] ∧
      c.onWords = .error (.exec (.integerOverflow "oph_id2")) := by
  have hmem : (⟨"oph_id2", .exactly 3, .scalar collapse⟩ : Function) ∈ Function.builtins :=
    List.mem_cons_of_mem _ List.mem_cons_self
  have hbody : (⟨"oph_id2", .exactly 3, .scalar collapse⟩ : Function).body = .scalar collapse := rfl
  obtain ⟨c, -, hc, hwords, -⟩ := outcome_of_longs hmem hbody [-9223372036854775807, 1, 9223372036854775807] rfl
  obtain ⟨d, -, hd, hwords', -⟩ := outcome_of_longs hmem hbody [-9223372036854775808, 1, 9223372036854775807] rfl
  exact ⟨hmem, ⟨c, hc, hwords.symm.trans (by decide +kernel)⟩, d, hd, hwords'.symm.trans (by decide +kernel)⟩

end FragmentEngine.Index
