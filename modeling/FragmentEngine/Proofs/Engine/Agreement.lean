import Mathlib.Logic.Function.Basic
import FragmentEngine.Proofs.Engine.Atomic
import FragmentEngine.Proofs.Store
/-!
# Agreement of catalog and store

The catalog and the store know nothing of each other, and every query changes them separately. If queries run one
at a time, in any order and from any number of sessions, the catalog describes after each of them exactly what
the store holds.
-/

namespace FragmentEngine

variable {c c' : Catalog} {m m' : MemoryStore}

/-! ## The invariant -/

/-- An entry that records a stored fragment as it is. -/
structure FragmentEntry.Records (f : FragmentEntry) (g : Fragment) : Prop where
  name : f.name = g.name
  schema : f.schema = .ofSchema g.schema
  rowCount : f.rowCount = g.rowCount
  size : f.size = g.size

theorem FragmentEntry.records_describe (db : String) (device : Option String) (g : Fragment) :
    (describe db device g).Records g :=
  ⟨rfl, rfl, rfl, rfl⟩

section

variable {f? : Option FragmentEntry} {g? : Option Fragment}

theorem isSome_of_records (h : Option.Rel FragmentEntry.Records f? g?) : f?.isSome = g?.isSome := by
  cases h <;> rfl

theorem map_of_records {v : FragmentEntry → Nat} {w : Fragment → Nat} (hw : ∀ f g, f.Records g → v f = w g)
    (h : Option.Rel FragmentEntry.Records f? g?) : f?.map v = g?.map w := by
  cases h with
  | none => rfl
  | some hrecords => exact congrArg some (hw _ _ hrecords)

theorem entry_of_records {g : Fragment} (h : Option.Rel FragmentEntry.Records f? (some g)) :
    ∃ f, f? = some f ∧ f.Records g := by
  cases h with
  | some hrecords => exact ⟨_, rfl, hrecords⟩

theorem fragment_of_records {f : FragmentEntry} (h : Option.Rel FragmentEntry.Records (some f) g?) :
    ∃ g, g? = some g ∧ f.Records g := by
  cases h with
  | some hrecords => exact ⟨_, rfl, hrecords⟩

end

/-- The catalog is coherent, and has the databases of the store and the entry of what is stored under each name. -/
structure Consistent (c : Catalog) (m : MemoryStore) : Prop where
  coherent : c.Coherent
  databases : ∀ db, db ∈ c.databases ↔ db ∈ m
  fragments : ∀ db ∈ c.databases, ∀ name,
    Option.Rel FragmentEntry.Records c.fragments[Catalog.key db name]? (m.fragments db)[name]?

namespace Consistent

theorem empty : Consistent .empty ∅ where
  coherent := .empty
  databases db := by simp [Catalog.empty]
  fragments db hdb := by simp [Catalog.empty] at hdb

/-- One whole change keeps catalog and store consistent. -/
theorem effect (h : Consistent c m) (heffect : Effect c m c' m') : Consistent c' m' := by
  have plain := h.coherent.plain
  cases heffect with
  | created db hname hc hm =>
    have hp := Name.plain_of_check hname
    refine ⟨h.coherent.addDatabase hp hc, fun x => ?_, fun x hx name => ?_⟩
    · rw [Catalog.mem_addDatabase hc, MemoryStore.mem_putDatabase hm, h.databases]
    · rw [Catalog.fragments_addDatabase hc, MemoryStore.fragments_putDatabase hm]
      rcases (Catalog.mem_addDatabase hc x).1 hx with rfl | hx
      -- A new database has no fragments on either side.
      · have hnew : db ∉ c.databases := (Catalog.addDatabase_eq_ok.1 hc).1
        rw [Std.ExtTreeMap.getElem?_eq_none (h.coherent.no_fragment hp hnew name),
          MemoryStore.fragments_absent fun hdb => hnew ((h.databases db).2 hdb), Std.ExtTreeMap.getElem?_empty]
        exact .none
      · exact h.fragments x hx name
  | dropped db hc hm =>
    have hdb : db ∈ c.databases := Maps.mem_of_get (Catalog.removeDatabase_eq_ok.1 hc).1
    refine ⟨h.coherent.removeDatabase hc, fun x => ?_, fun x hx name => ?_⟩
    · rw [Catalog.mem_removeDatabase hc, MemoryStore.mem_deleteDatabase hm, h.databases]
    · obtain ⟨hne, hx⟩ := (Catalog.mem_removeDatabase hc x).1 hx
      rw [Catalog.get_removeDatabase hc (plain db hdb) (plain x hx) hne, MemoryStore.fragments_deleteDatabase hm,
        if_neg hne]
      exact h.fragments x hx name
  | stored db device f hc hm =>
    have hdb : db ∈ c.databases := by
      obtain ⟨-, d, hd, -⟩ := Catalog.addFragment_eq_ok.1 hc
      exact Maps.mem_of_get hd
    refine ⟨h.coherent.addFragment hc, fun x => ?_, fun x hx name => ?_⟩
    · rw [Catalog.mem_addFragment hc, MemoryStore.mem_putFragment hm, h.databases]
    · rw [Catalog.mem_addFragment hc] at hx
      rw [Catalog.get_addFragment hc (plain db hdb) (plain x hx), MemoryStore.fragments_putFragment hm]
      by_cases hdbx : db = x
      · subst hdbx
        rw [if_pos rfl, Maps.get_insert]
        by_cases hname : f.name = name
        · rw [if_pos hname, if_pos ⟨rfl, hname⟩]
          exact .some (FragmentEntry.records_describe db device f)
        · rw [if_neg hname, if_neg fun e => hname e.2]
          exact h.fragments db hx name
      · rw [if_neg hdbx, if_neg fun e => hdbx e.1]
        exact h.fragments x hx name
  | removed db removed hf hc hm =>
    have hp := plain db (Catalog.fragment_eq_ok.1 hf).1
    have hmem := (Catalog.removeFragment_effect hc).2.2
    refine ⟨h.coherent.removeFragment hp hc, fun x => ?_, fun x hx name => ?_⟩
    · rw [hmem, MemoryStore.mem_deleteFragment hm, h.databases]
    · rw [hmem] at hx
      rw [Catalog.get_removeFragment hc hp (plain x hx), MemoryStore.fragments_deleteFragment hm]
      by_cases hdbx : db = x
      · subst hdbx
        rw [if_pos rfl, Maps.get_erase]
        by_cases hname : removed = name
        · rw [if_pos hname, if_pos ⟨rfl, hname⟩]
          exact .none
        · rw [if_neg hname, if_neg fun e => hname e.2]
          exact h.fragments db hx name
      · rw [if_neg hdbx, if_neg fun e => hdbx e.1]
        exact h.fragments x hx name

end Consistent

/-! ## What consistency means -/

/-- The catalog describes exactly what the store holds. -/
structure Agreement (c : Catalog) (m : MemoryStore) : Prop where
  databases : ∀ db, db ∈ c.databases ↔ db ∈ m
  nodup : ∀ (db : String) (d : DatabaseEntry), c.databases[db]? = some d → d.fragments.Nodup
  /-- Lists name exactly the stored fragments. -/
  listed : ∀ (db : String) (d : DatabaseEntry), c.databases[db]? = some d →
    ∀ name, name ∈ d.fragments ↔ name ∈ m.fragments db
  /-- Every stored fragment is found in the catalog, recorded as it is. -/
  found : ∀ (db name : String) (g : Fragment), m.getFragment db name = .ok g →
    ∃ f, c.fragment db name = .ok f ∧ f.db = db ∧ f.Records g
  /-- Every entry belongs to a stored fragment. -/
  stored : ∀ (k : String) (f : FragmentEntry), c.fragments[k]? = some f →
    ∃ g, m.getFragment f.db f.name = .ok g ∧ f.Records g
  rowCount : ∀ (db : String) (d : DatabaseEntry), c.databases[db]? = some d →
    d.rowCount = ((d.fragments.filterMap ((m.fragments db)[·]?)).map (·.rowCount)).sum
  size : ∀ (db : String) (d : DatabaseEntry), c.databases[db]? = some d →
    d.size = ((d.fragments.filterMap ((m.fragments db)[·]?)).map (·.size)).sum

namespace Consistent

variable {db name : String}

theorem mem_iff (h : Consistent c m) (hdb : db ∈ c.databases) (name : String) :
    Catalog.key db name ∈ c.fragments ↔ name ∈ m.fragments db :=
  Maps.mem_congr (isSome_of_records (h.fragments db hdb name))

/-- What is counted of the entries of a database is what is counted of its stored fragments. -/
theorem map_entries {v : FragmentEntry → Nat} {w : Fragment → Nat} (hw : ∀ f g, f.Records g → v f = w g)
    (h : Consistent c m) (hdb : db ∈ c.databases) (names : List String) :
    (Catalog.entries c.fragments db names).map v = (names.filterMap ((m.fragments db)[·]?)).map w := by
  unfold Catalog.entries
  rw [List.map_filterMap, List.map_filterMap]
  exact List.filterMap_congr fun name _ => map_of_records hw (h.fragments db hdb name)

theorem agreement (h : Consistent c m) : Agreement c m where
  databases := h.databases
  nodup db d hd := (h.coherent.accounts db d hd).nodup
  listed db d hd name := by
    rw [(h.coherent.accounts db d hd).listed, h.mem_iff (Maps.mem_of_get hd)]
  found db name g hg := by
    have hg := MemoryStore.getFragment_eq_ok.1 hg
    have hdb := (h.databases db).2 (MemoryStore.mem_of_holds (Maps.mem_of_get hg))
    obtain ⟨f, hf, hrecords⟩ := entry_of_records (hg ▸ h.fragments db hdb name)
    obtain ⟨hfdb, -, -⟩ := h.coherent.entry (h.coherent.plain db hdb) hf
    exact ⟨f, Catalog.fragment_eq_ok.2 ⟨hdb, hf⟩, hfdb, hrecords⟩
  stored k f hf := by
    obtain ⟨rfl, hfdb⟩ := h.coherent.filed k f hf
    obtain ⟨g, hg, hrecords⟩ := fragment_of_records (hf ▸ h.fragments f.db hfdb f.name)
    exact ⟨g, MemoryStore.getFragment_eq_ok.2 hg, hrecords⟩
  rowCount db d hd := by
    rw [(h.coherent.accounts db d hd).rowCount, h.map_entries (fun _ _ hr => hr.rowCount) (Maps.mem_of_get hd)]
  size db d hd := by
    rw [(h.coherent.accounts db d hd).size, h.map_entries (fun _ _ hr => hr.size) (Maps.mem_of_get hd)]

end Consistent

/-! ## Sessions taking turns query by query -/

/-- Sessions that share a world. -/
structure Shared where
  world : World
  sessions : Nat → Session

namespace Shared

/-- Sessions of an engine that have done nothing. -/
def on (e : Engine) (w : World) : Shared := ⟨w, fun _ => .new e⟩

/-- An engine in memory without databases, and sessions that have done nothing. -/
def start (e : Engine) (d : Disk) : Shared := ⟨.inMemory d, fun _ => .new e⟩

/-- Carries out one query of session `i` as a whole. -/
def execute (S : Shared) (i : Nat) (query : String) (args : List Argument) : Shared :=
  let ((_, s), w) := ((S.sessions i).execute query args).run S.world
  ⟨w, Function.update S.sessions i s⟩

/-- Carries out queries one after another. -/
def run (S : Shared) (queries : List (Nat × String × List Argument)) : Shared :=
  queries.foldl (fun S (i, query, args) => S.execute i query args) S

theorem sessions_execute (S : Shared) (j : Nat) (query : String) (args : List Argument) (i : Nat) :
    (S.execute j query args).sessions i =
      if i = j then (((S.sessions j).execute query args).run S.world).1.2 else S.sessions i := by
  unfold execute
  simp only [Function.update_apply]

theorem run_append (S : Shared) (earlier later : List (Nat × String × List Argument)) :
    S.run (earlier ++ later) = (S.run earlier).run later :=
  List.foldl_append

theorem run_concat (S : Shared) (queries : List (Nat × String × List Argument)) (j : Nat) (query : String)
    (args : List Argument) : S.run (queries ++ [(j, query, args)]) = (S.run queries).execute j query args := by
  rw [run_append]
  rfl

variable {d : Disk} {S : Shared}

theorem execute_consistent (hw : S.world = .memory d c m) (h : Consistent c m) (i : Nat) (query : String)
    (args : List Argument) : ∃ c' m', (S.execute i query args).world = .memory d c' m' ∧ Consistent c' m' := by
  obtain ⟨c', m', hrun, heffect⟩ :=
    (S.sessions i).execute_effect (d := d) (m := m) h.coherent.isListed query args
  refine ⟨c', m', ?_, ?_⟩
  · unfold execute
    rw [hw]
    exact hrun
  · rcases heffect with ⟨rfl, rfl⟩ | heffect
    · exact h
    · exact h.effect heffect

theorem run_consistent (hw : S.world = .memory d c m) (h : Consistent c m)
    (queries : List (Nat × String × List Argument)) :
    ∃ c' m', (S.run queries).world = .memory d c' m' ∧ Consistent c' m' := by
  induction queries generalizing S c m with
  | nil => exact ⟨c, m, hw, h⟩
  | cons q rest ih =>
    obtain ⟨c', m', hw', h'⟩ := execute_consistent hw h q.1 q.2.1 q.2.2
    exact ih hw' h'

/-- From an empty engine, whatever queries any number of sessions carry out one at a time, the catalog describes
exactly what the store holds. -/
theorem run_agreement (e : Engine) (d : Disk) (queries : List (Nat × String × List Argument)) :
    ∃ c m, ((start e d).run queries).world = .memory d c m ∧ Agreement c m := by
  obtain ⟨c, m, hw, h⟩ := run_consistent (S := start e d) rfl .empty queries
  exact ⟨c, m, hw, h.agreement⟩

end Shared

end FragmentEngine
