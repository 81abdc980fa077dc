import FragmentEngine.Proofs.Engine.Upkeep
import FragmentEngine.Proofs.Select.Projected
/-!
# Column names of stored fragments

Looking up the name of a column gives its position as long as the names are distinct. A select refuses a name that is
taken; a declared schema and an import do not, so that these are where all repeated names come from.
-/

namespace FragmentEngine

/-! ## Looking up columns -/

namespace Schema

theorem lastIndex_getElem {xs : List String} (h : xs.Nodup) {i : Nat} (hi : i < xs.length) :
    lastIndex xs[i] xs = some i := by
  cases hlast : lastIndex xs[i] xs with
  | none => exact absurd (List.getElem_mem hi) (lastIndex_eq_none_iff.1 hlast)
  | some j =>
    have hj := getElem?_of_lastIndex hlast
    rw [← List.getElem?_eq_getElem hi] at hj
    rw [(List.getElem?_inj hi h).1 hj.symm]

/-- Every column is found by its name. -/
def FindsAll (s : Schema) : Prop := ∀ i (hi : i < s.names.length), s.index? s.names[i] = some i

theorem findsAll_iff_nodup {s : Schema} : s.FindsAll ↔ s.names.Nodup := by
  refine ⟨fun h => List.pairwise_iff_getElem.2 fun i j hi hj hij hsame => ?_, fun h i hi => lastIndex_getElem h hi⟩
  have hboth := h i hi
  rw [hsame, h j hj, Option.some.injEq] at hboth
  exact absurd hboth (Nat.ne_of_gt hij)

end Schema

/-! ## Declared names -/

namespace Request

/-- Whether a request declares the columns of the fragment at a place: by their names, or by importing a measure. -/
def Declares (r : Request) (place : String × String) (names : List String) : Operation → Prop
  | .createFragment => r.target = .ok place ∧ r.params.requireList "field" = .ok names
  | .createFromFile => r.target = .ok place ∧
    ∃ measure, r.params.require "measure" = .ok measure ∧ names = (Import.schema measure).names
  | _ => False

/-- What a request makes has distinct names or the declared ones. -/
theorem keeps_names {headroom : Nat} {params : Params} {args : List Argument} {op : Operation}
    {declared : String × String → List String → Prop}
    (h : ∀ place names, Declares ⟨.builtin headroom, params, args⟩ place names op → declared place names) :
    Keeps (fun place f => f.schema.names.Nodup ∨ declared place f.schema.names)
      ⟨.builtin headroom, params, args⟩ op where
  created := by
    rintro rfl place schema htarget hschema
    exact .inr (h place _ ⟨htarget, (newSchema_eq_ok hschema).1⟩)
  inserted hf _ := hf
  selected _ hexecute := by
    obtain ⟨p, selection, groups, hproject⟩ := SelectRequest.project_of_execute hexecute
    exact .inl (Projection.nodup_names_of_project hproject)
  imported := by
    rintro rfl place producer text produce request f htarget hproduce hrequest hf
    rw [producer_builtin hproduce] at hf
    obtain ⟨-, hschema⟩ := Import.wellFormed_of_ofText hf
    refine .inr (h place _ ⟨htarget, request.measure, measure_of_importRequest hrequest, ?_⟩)
    dsimp only
    rw [hschema]

end Request

namespace Shared

/-- Whether one of the queries declares the columns of the fragment at a place. -/
def Declared (e : Engine) (queries : List (Nat × String × List Argument)) (place : String × String)
    (names : List String) : Prop :=
  ∃ q ∈ queries, (Session.new e).Asks q.2.1 q.2.2 fun r op => r.Declares place names op

/-- An engine starts empty, and any sessions carry out any queries; if it keeps files, images can hold what is put. Then
a stored fragment has distinct column names or those that one of the queries declares for it, and all of its columns are
found by their names exactly if these are distinct. -/
theorem run_columnNames (headroom : Nat) {w : World} (hw : w.StartsEmpty)
    (queries : List (Nat × String × List Argument))
    (hkeep : ∀ c ∈ (on (.builtin headroom) w).calls queries, w.CanKeep c) {db name : String} {g : Fragment}
    (hstored : ((on (.builtin headroom) w).run queries).world.getFragment db name = .ok g) :
    (g.schema.names.Nodup ∨ Declared (.builtin headroom) queries (db, name) g.schema.names) ∧
      (g.schema.FindsAll ↔ g.schema.names.Nodup) := by
  have hsound := (sound_on (e := .builtin headroom)
    (A := fun place f => f.schema.names.Nodup ∨ Declared (.builtin headroom) queries place f.schema.names) hw).run
    (fun q hq params op hparams hop =>
      Request.keeps_names fun _ _ hdeclares => ⟨q, hq, params, op, hparams, hop, hdeclares⟩) hkeep
  exact ⟨hsound.world.getFragment hstored, Schema.findsAll_iff_nodup⟩

/-! ## One name for two columns -/

/-- A fragment is declared with two columns of one name. -/
def namedTwice : List (Nat × String × List Argument) :=
  [(0, "operation=create_db;db_name=db", []),
    (0, "operation=create_frag;frag_name=db.f;field=id|id;field_type=long|long;run=0", [])]

theorem namedTwice_names :
    ∃ g, ((on (.builtin 0) (.inMemory .empty)).run namedTwice).world.getFragment "db" "f" = .ok g ∧
      g.schema.names = ["id", "id"] := by
  have hnames : ((((on (.builtin 0) (.inMemory .empty)).run namedTwice).world.getFragment "db" "f").map
      (·.schema.names)).toOption = some ["id", "id"] := by decide +kernel
  exact Outcome.exists_of_toOption hnames

theorem run_columnNames_namedTwice : (World.inMemory .empty).StartsEmpty ∧
    (∀ c ∈ (on (.builtin 0) (.inMemory .empty)).calls namedTwice, (World.inMemory .empty).CanKeep c) ∧
    ∃ g, ((on (.builtin 0) (.inMemory .empty)).run namedTwice).world.getFragment "db" "f" = .ok g ∧
      (g.schema.names.Nodup ∨ Declared (.builtin 0) namedTwice ("db", "f") g.schema.names) ∧
      (g.schema.FindsAll ↔ g.schema.names.Nodup) := by
  obtain ⟨g, hg, -⟩ := namedTwice_names
  have hkeep : ∀ c ∈ (on (.builtin 0) (.inMemory .empty)).calls namedTwice, (World.inMemory .empty).CanKeep c :=
    fun c _ => World.canKeep_inMemory .empty c
  exact ⟨.inMemory .empty, hkeep, g, hg, run_columnNames 0 (.inMemory .empty) namedTwice hkeep hg⟩

/-- The name of the first column stands for the second one. -/
theorem namedTwice_misleads :
    ∃ g, ((on (.builtin 0) (.inMemory .empty)).run namedTwice).world.getFragment "db" "f" = .ok g ∧
      ¬g.schema.names.Nodup ∧ g.schema.names[0]? = some "id" ∧ g.schema.index? "id" = some 1 := by
  obtain ⟨g, hg, hnames⟩ := namedTwice_names
  refine ⟨g, hg, ?_, ?_, ?_⟩
  · rw [hnames]
    decide
  · rw [hnames]
    rfl
  · rw [Schema.index?, hnames]
    rfl

end Shared

end FragmentEngine
