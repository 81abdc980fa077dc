import FragmentEngine.Function.Accumulator
import FragmentEngine.Function.Index
/-!
# Functions and their registry

A function has a name, an arity and a body: one value for each row, or one value for each group. The registry
keeps functions of distinct names in the order they were registered.
-/

namespace FragmentEngine

inductive Body where
  /-- One value for each row. -/
  | scalar (apply : List Value → Except Error Value)
  /-- One value for each group, accumulated from a fresh state. -/
  | aggregate (start : Accumulator)

structure Function where
  name : String
  arity : Arity
  body : Body

namespace Function

def isAggregate (f : Function) : Bool :=
  match f.body with
  | .scalar _ => false
  | .aggregate _ => true

/-- Refuses a wrong number of arguments. -/
def checkArity (f : Function) (given : Nat) : Except Error Unit :=
  if f.arity.admits given then .ok () else .error (.exec (.argumentCount f.name f.arity given))

/-- The functions of the language, in the order of registration. -/
def builtins : List Function :=
  [⟨"oph_id", .exactly 2, .scalar Index.blockOf⟩,
   ⟨"oph_id2", .exactly 3, .scalar Index.collapse⟩,
   ⟨"oph_id_to_index", .atLeast 2, .scalar Index.along⟩,
   ⟨"oph_id_to_index2", .exactly 3, .scalar Index.alongBlocks⟩,
   ⟨"oph_is_in_subset", .exactly 4, .scalar Index.onLattice⟩,
   ⟨"oph_count", .exactly 1, .aggregate (.count 0)⟩,
   ⟨"oph_sum", .exactly 1, .aggregate (.sum Binary64.zero)⟩,
   ⟨"oph_avg", .exactly 1, .aggregate (.average Binary64.zero 0)⟩,
   ⟨"oph_min", .exactly 1, .aggregate (.minimum none)⟩,
   ⟨"oph_max", .exactly 1, .aggregate (.maximum none)⟩]

/-- What holds of the index functions holds of every function of the language that has a value for each row. -/
theorem scalar_of_builtin {P : (List Value → Except Error Value) → Prop} (blockOf : P Index.blockOf)
    (collapse : P Index.collapse) (along : P Index.along) (alongBlocks : P Index.alongBlocks)
    (onLattice : P Index.onLattice) {f : Function} (mem : f ∈ builtins) {apply : List Value → Except Error Value}
    (body : f.body = .scalar apply) : P apply := by
  simp only [builtins, List.mem_cons, List.not_mem_nil, or_false] at mem
  rcases mem with rfl | rfl | rfl | rfl | rfl | rfl | rfl | rfl | rfl | rfl <;> cases body
  · exact blockOf
  · exact collapse
  · exact along
  · exact alongBlocks
  · exact onLattice

end Function

/-- Functions of distinct names. -/
structure Registry where
  functions : List Function
  nodup : (functions.map Function.name).Nodup := by decide

namespace Registry

def empty : Registry where
  functions := []

def builtin : Registry where
  functions := Function.builtins

def size (r : Registry) : Nat := r.functions.length

/-- The function of a name. -/
def find? (r : Registry) (name : String) : Option Function := r.functions.find? (·.name == name)

/-- Adds a function under a name that is not taken. -/
def register (r : Registry) (f : Function) : Except Error Registry :=
  if h : f.name ∈ r.functions.map Function.name then .error (.exec (.functionRegistered f.name))
  else .ok
    { functions := r.functions ++ [f]
      nodup := by
        rw [List.map_append]
        exact List.nodup_append.2
          ⟨r.nodup, by simp, fun a ha b hb => by
            rintro rfl
            simp only [List.map_cons, List.map_nil, List.mem_singleton] at hb
            exact h (hb ▸ ha)⟩ }

theorem find?_eq_some_iff {r : Registry} {name : String} {f : Function} :
    r.find? name = some f ↔ f ∈ r.functions ∧ f.name = name := by
  constructor
  · intro h
    exact ⟨List.mem_of_find?_eq_some h, by simpa using List.find?_some h⟩
  · rintro ⟨mem, rfl⟩
    have key : ∀ fs : List Function, (fs.map Function.name).Nodup → f ∈ fs →
        fs.find? (·.name == f.name) = some f := by
      intro fs
      induction fs with
      | nil => intro _ h; cases h
      | cons g rest ih =>
        intro hn hm
        rw [List.map_cons, List.nodup_cons] at hn
        rcases List.mem_cons.1 hm with rfl | hm
        · simp
        · have : g.name ≠ f.name := fun e => hn.1 (e ▸ List.mem_map_of_mem hm)
          simp [this, ih hn.2 hm]
    exact key _ r.nodup mem

/-- Whether a call of an aggregate occurs in the expression. -/
def aggregates (r : Registry) (names : List String) : Bool :=
  names.any fun name => (r.find? name).any Function.isAggregate

end Registry

end FragmentEngine
