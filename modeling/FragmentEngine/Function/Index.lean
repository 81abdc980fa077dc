import FragmentEngine.Value.Number
/-!
# Index functions

Identifiers number the cells of an array from 1, the last extent varying fastest. These functions map an
identifier to the block it lies in, to its index along one extent, and to its place on a regular lattice.
They compute on unbounded integers with division toward zero, and refuse what does not fit a long.
-/

namespace FragmentEngine.Index

/-- A size, block or step: a positive long. -/
def positive (function quantity : String) (v : Value) : Except Error Int := do
  let n ← v.toLong function
  if n.toInt ≤ 0 then throw (.exec (.notPositive function quantity))
  return n.toInt

/-- The result of an operation on longs, if it is a long. -/
def checked (function : String) (n : Int) : Except Error Int :=
  match Long.ofInt? n with
  | some l => .ok l.toInt
  | none => .error (.exec (.integerOverflow function))

/-- The identifier counted from zero. -/
def zeroBased (function : String) (id : Long) : Except Error Int := checked function (id.toInt - 1)

def long (n : Int) : Value := .long (Int64.ofInt n)

/-- The number of arguments is not the declared one. -/
def miscounted (function : String) (required : Arity) (args : List Value) : Except Error Value :=
  .error (.exec (.argumentCount function required args.length))

/-- The block of an identifier, in blocks of a given size. -/
def blockOf : List Value → Except Error Value
  | [id, size] => do
    let id ← id.toLong "oph_id"
    let size ← positive "oph_id" "size" size
    let zero ← zeroBased "oph_id" id
    return long (zero.tdiv size + 1)
  | args => miscounted "oph_id" (.exactly 2) args

/-- The identifier after an extent of `size` above blocks of `block` is collapsed. -/
def collapse : List Value → Except Error Value
  | [id, size, block] => do
    let id ← id.toLong "oph_id2"
    let size ← positive "oph_id2" "size" size
    let block ← positive "oph_id2" "block" block
    let zero ← zeroBased "oph_id2" id
    let extent ← checked "oph_id2" (size * block)
    let start ← checked "oph_id2" (zero.tdiv extent * block)
    let id ← checked "oph_id2" (start + (zero.tmod block + 1))
    return long id
  | args => miscounted "oph_id2" (.exactly 3) args

/-- The product of the extents that vary faster than the first one. -/
def innerExtent (inner : Int) : List Value → Except Error Int
  | [] => .ok inner
  | v :: rest => do
    let size ← positive "oph_id_to_index" "size" v
    match Long.ofInt? (inner * size) with
    | some product => innerExtent product.toInt rest
    | none => throw (.exec (.extentOverflow "oph_id_to_index"))

/-- The index along the first of the listed extents. -/
def along : List Value → Except Error Value
  | id :: outer :: rest => do
    let id ← id.toLong "oph_id_to_index"
    let outer ← positive "oph_id_to_index" "size" outer
    let inner ← innerExtent 1 rest
    let zero ← zeroBased "oph_id_to_index" id
    return long ((zero.tdiv inner).tmod outer + 1)
  | args => miscounted "oph_id_to_index" (.atLeast 2) args

/-- The index along an extent of `size` above blocks of `block`. -/
def alongBlocks : List Value → Except Error Value
  | [id, block, size] => do
    let id ← id.toLong "oph_id_to_index2"
    let block ← positive "oph_id_to_index2" "block" block
    let size ← positive "oph_id_to_index2" "size" size
    let zero ← zeroBased "oph_id_to_index2" id
    return long ((zero.tdiv block).tmod size + 1)
  | args => miscounted "oph_id_to_index2" (.exactly 3) args

/-- Whether an identifier is one of `start`, `start + step` and so on up to `stop`. -/
def onLattice : List Value → Except Error Value
  | [id, start, step, stop] => do
    let id ← id.toLong "oph_is_in_subset"
    let start ← start.toLong "oph_is_in_subset"
    let step ← positive "oph_is_in_subset" "step" step
    let stop ← stop.toLong "oph_is_in_subset"
    if id.toInt < start.toInt ∨ stop.toInt < id.toInt then return Value.ofBool false
    let offset ← checked "oph_is_in_subset" (id.toInt - start.toInt)
    return Value.ofBool (offset.tmod step == 0)
  | args => miscounted "oph_is_in_subset" (.exactly 4) args

end FragmentEngine.Index
