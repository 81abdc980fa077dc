import FragmentEngine.Catalog.Form
import FragmentEngine.Proofs.Json.RoundTrip
import FragmentEngine.Proofs.Maps
/-!
# Catalogs read back

The text of a catalog is read as the catalog, with the same databases, the same order of their fragments and the same
columns. It is only asked that the numbers in it fit the 64 bits in which an engine counts.
-/

namespace FragmentEngine

namespace Json

variable {α : Type} {read : Json → Option α} {write : α → Json}

/-! ## Parts -/

theorem plain_ofNat {n : Nat} (h : n < 2 ^ 64) : Plain (ofNat n) := .int (by omega) (by omega)

theorem count_ofNat {n : Nat} (h : n < 2 ^ 64) : (ofNat n).count? = some n := by
  have hlimit : Nat.pow 2 64 = 2 ^ 64 := rfl
  show (if (0 : Int) ≤ n ∧ (n : Int) < Nat.pow 2 64 then some (n : Int).toNat else none) = some n
  rw [if_pos (by omega), Int.toNat_natCast]

/-- A list reads back if its items do. -/
theorem list_map {xs : List α} (h : ∀ x ∈ xs, read (write x) = some x) :
    (Json.array (xs.map write)).list? read = some xs := by
  show (xs.map write).mapM read = some xs
  induction xs with
  | nil => rfl
  | cons x xs ih =>
    rw [List.map_cons, List.mapM_cons, h x List.mem_cons_self, ih fun y hy => h y (List.mem_cons_of_mem x hy)]
    rfl

theorem plain_list {xs : List α} (h : ∀ x ∈ xs, Plain (write x)) : Plain (.array (xs.map write)) := by
  refine .array fun j hj => ?_
  obtain ⟨x, hx, rfl⟩ := List.mem_map.1 hj
  exact h x hx

/-- Members are inserted one after another. -/
theorem map_members {entries : List (String × α)} (h : ∀ e ∈ entries, read (write e.2) = some e.2)
    (m : Std.ExtTreeMap String α compare) :
    (entries.map fun e => (e.1, write e.2)).foldlM (fun m (name, j) => (read j).map (m.insert name ·)) m =
      some (entries.foldl (fun m e => m.insert e.1 e.2) m) := by
  induction entries generalizing m with
  | nil => rfl
  | cons e entries ih =>
    rw [List.map_cons, List.foldlM_cons]
    dsimp only
    rw [h e List.mem_cons_self]
    exact ih (fun e' he => h e' (List.mem_cons_of_mem e he)) _

/-- A map reads back if its values do. -/
theorem map_ofMap {m : Std.ExtTreeMap String α compare}
    (h : ∀ (k : String) (v : α), m[k]? = some v → read (write v) = some v) :
    (ofMap write m).map? read = some m := by
  have hentries : ∀ e ∈ m.toList, read (write e.2) = some e.2 := fun e he =>
    h e.1 e.2 (Std.ExtTreeMap.mem_toList_iff_getElem?_eq_some.1 he)
  exact (map_members hentries ∅).trans (congrArg some (Maps.foldl_insert_toList m))

theorem plain_ofMap {m : Std.ExtTreeMap String α compare}
    (h : ∀ (k : String) (v : α), m[k]? = some v → Plain (write v)) :
    Plain (ofMap write m) := by
  refine .object fun member hmember => ?_
  obtain ⟨e, he, rfl⟩ := List.mem_map.1 hmember
  exact h e.1 e.2 (Std.ExtTreeMap.mem_toList_iff_getElem?_eq_some.1 he)

theorem lookup_zip {names : List String} {js : List Json} (hnodup : names.Nodup) (hlength : names.length = js.length) :
    names.map (fun name => (names.zip js).lookup name) = js.map some := by
  induction names generalizing js with
  | nil => rw [List.eq_nil_of_length_eq_zero hlength.symm]; rfl
  | cons name names ih =>
    cases js with
    | nil => cases hlength
    | cons j js =>
      obtain ⟨hnew, hnodup⟩ := List.nodup_cons.1 hnodup
      rw [List.map_cons, List.map_cons, List.zip_cons_cons, List.lookup_cons_self, ← ih hnodup (Nat.succ.inj hlength)]
      congr 1
      refine List.map_congr_left fun other hother => ?_
      have hne : (other == name) = false := by
        rw [beq_eq_false_iff_ne]
        rintro rfl
        exact hnew hother
      rw [List.lookup_cons, hne]

/-- A record written with all its fields has them. -/
theorem fields_zip (names : List String) (js : List Json) (hnodup : names.Nodup) (hlength : names.length = js.length) :
    (Json.object (names.zip js)).fields? names = some (js.map some) := by
  have hnames : (names.zip js).map Prod.fst = names := List.map_fst_zip (Nat.le_of_eq hlength)
  have honce : (names.all fun name => ((names.zip js).map Prod.fst).count name ≤ 1) = true := by
    rw [hnames, List.all_eq_true]
    exact fun name _ => decide_eq_true (List.nodup_iff_count.1 hnodup name)
  show (if _ then _ else _) = _
  rw [if_pos honce, lookup_zip hnodup hlength]

end Json

/-! ## Entries -/

theorem FieldType.ofJson_formName (t : FieldType) : ofJson? (.string t.formName) = some t := by cases t <;> decide

namespace ColumnEntry

variable {e : ColumnEntry}

theorem plain_toJson (h : e.position < 2 ^ 64) : Json.Plain e.toJson := by
  refine .object ?_
  simp only [List.forall_mem_cons, List.not_mem_nil, false_implies, implies_true, and_true]
  exact ⟨.string _, .string _, Json.plain_ofNat h, .bool _⟩

theorem ofJson_toJson (h : e.position < 2 ^ 64) : ofJson? e.toJson = some e := by
  have hfields := Json.fields_zip ["name", "field_type", "position", "identifier"]
    [.string e.field.name, .string e.field.type.formName, Json.ofNat e.position, .bool e.field.identifier]
    (by decide) rfl
  change e.toJson.fields? _ = _ at hfields
  unfold ofJson?
  rw [hfields]
  simp [Json.text?, Json.flag?, FieldType.ofJson_formName, Json.count_ofNat h]

end ColumnEntry

namespace SchemaEntry

/-- The positions of columns fit 64 bits. -/
structure Sized (e : SchemaEntry) : Prop where
  columns : ∀ column ∈ e.columns, column.position < 2 ^ 64
  positions : ∀ (name : String) (i : Nat), e.positions[name]? = some i → i < 2 ^ 64

instance (e : SchemaEntry) : Decidable e.Sized :=
  decidable_of_iff ((∀ column ∈ e.columns, column.position < 2 ^ 64) ∧ ∀ entry ∈ e.positions.toList, entry.2 < 2 ^ 64)
    ⟨fun h => ⟨h.1, fun _ _ hi => h.2 _ (Std.ExtTreeMap.mem_toList_iff_getElem?_eq_some.2 hi)⟩,
      fun h => ⟨h.columns, fun entry he =>
        h.positions entry.1 entry.2 (Std.ExtTreeMap.mem_toList_iff_getElem?_eq_some.1 he)⟩⟩

variable {e : SchemaEntry}

theorem plain_toJson (h : e.Sized) : Json.Plain e.toJson := by
  refine .object ?_
  simp only [List.forall_mem_cons, List.not_mem_nil, false_implies, implies_true, and_true]
  exact ⟨Json.plain_list fun column hcolumn => ColumnEntry.plain_toJson (h.columns column hcolumn),
    Json.plain_ofMap fun name i hi => Json.plain_ofNat (h.positions name i hi)⟩

theorem ofJson_toJson (h : e.Sized) : ofJson? e.toJson = some e := by
  have hfields := Json.fields_zip ["fields", "name_to_index"]
    [.array (e.columns.map ColumnEntry.toJson), Json.ofMap Json.ofNat e.positions] (by decide) rfl
  change e.toJson.fields? _ = _ at hfields
  have hcolumns : (Json.array (e.columns.map ColumnEntry.toJson)).list? ColumnEntry.ofJson? = some e.columns :=
    Json.list_map fun column hcolumn => ColumnEntry.ofJson_toJson (h.columns column hcolumn)
  have hpositions : (Json.ofMap Json.ofNat e.positions).map? Json.count? = some e.positions :=
    Json.map_ofMap fun name i hi => Json.count_ofNat (h.positions name i hi)
  unfold ofJson?
  rw [hfields]
  simp [hcolumns, hpositions]

end SchemaEntry

namespace DatabaseEntry

/-- The counts of a database fit 64 bits. -/
structure Sized (e : DatabaseEntry) : Prop where
  rowCount : e.rowCount < 2 ^ 64
  size : e.size < 2 ^ 64

instance (e : DatabaseEntry) : Decidable e.Sized :=
  decidable_of_iff (e.rowCount < 2 ^ 64 ∧ e.size < 2 ^ 64) ⟨fun h => ⟨h.1, h.2⟩, fun h => ⟨h.rowCount, h.size⟩⟩

variable {e : DatabaseEntry}

theorem plain_toJson (h : e.Sized) : Json.Plain e.toJson := by
  refine .object ?_
  simp only [List.forall_mem_cons, List.not_mem_nil, false_implies, implies_true, and_true]
  exact ⟨.string _, Json.plain_list fun name _ => .string name, Json.plain_ofNat h.rowCount, Json.plain_ofNat h.size⟩

theorem ofJson_toJson (h : e.Sized) : ofJson? e.toJson = some e := by
  have hfields := Json.fields_zip ["name", "fragments", "row_count", "size_bytes"]
    [.string e.name, .array (e.fragments.map Json.string), Json.ofNat e.rowCount, Json.ofNat e.size] (by decide) rfl
  change e.toJson.fields? _ = _ at hfields
  have hfragments : (Json.array (e.fragments.map Json.string)).list? Json.text? = some e.fragments :=
    Json.list_map fun name _ => rfl
  unfold ofJson?
  rw [hfields]
  simp [Json.text?, hfragments, Json.count_ofNat h.rowCount, Json.count_ofNat h.size]

end DatabaseEntry

namespace FragmentEntry

/-- The counts of a fragment and the positions of its columns fit 64 bits. -/
structure Sized (e : FragmentEntry) : Prop where
  schema : e.schema.Sized
  rowCount : e.rowCount < 2 ^ 64
  size : e.size < 2 ^ 64

instance (e : FragmentEntry) : Decidable e.Sized :=
  decidable_of_iff (e.schema.Sized ∧ e.rowCount < 2 ^ 64 ∧ e.size < 2 ^ 64)
    ⟨fun h => ⟨h.1, h.2.1, h.2.2⟩, fun h => ⟨h.schema, h.rowCount, h.size⟩⟩

variable {e : FragmentEntry}

theorem plain_device (device : Option String) : Json.Plain (Json.ofOption Json.string device) := by
  cases device with
  | none => exact .null
  | some name => exact .string name

theorem optional_device (device : Option String) :
    Json.optional? Json.text? (some (Json.ofOption Json.string device)) = some device := by
  cases device <;> rfl

theorem plain_toJson (h : e.Sized) : Json.Plain e.toJson := by
  refine .object ?_
  simp only [List.forall_mem_cons, List.not_mem_nil, false_implies, implies_true, and_true]
  exact ⟨.string _, .string _, plain_device e.device, SchemaEntry.plain_toJson h.schema, Json.plain_ofNat h.rowCount,
    Json.plain_ofNat h.size⟩

theorem ofJson_toJson (h : e.Sized) : ofJson? e.toJson = some e := by
  have hfields := Json.fields_zip ["name", "db", "device", "schema", "row_count", "size_bytes"]
    [.string e.name, .string e.db, Json.ofOption Json.string e.device, e.schema.toJson, Json.ofNat e.rowCount,
      Json.ofNat e.size] (by decide) rfl
  change e.toJson.fields? _ = _ at hfields
  unfold ofJson?
  rw [hfields]
  simp [Json.text?, optional_device, SchemaEntry.ofJson_toJson h.schema, Json.count_ofNat h.rowCount,
    Json.count_ofNat h.size]

end FragmentEntry

/-! ## Catalogs -/

namespace Catalog

/-- The counts and positions in a catalog fit the 64 bits that an engine has for them. -/
structure Sized (c : Catalog) : Prop where
  databases : ∀ (name : String) (d : DatabaseEntry), c.databases[name]? = some d → d.Sized
  fragments : ∀ (k : String) (f : FragmentEntry), c.fragments[k]? = some f → f.Sized

instance (c : Catalog) : Decidable c.Sized :=
  decidable_of_iff ((∀ entry ∈ c.databases.toList, entry.2.Sized) ∧ ∀ entry ∈ c.fragments.toList, entry.2.Sized)
    ⟨fun h => ⟨fun _ _ hd => h.1 _ (Std.ExtTreeMap.mem_toList_iff_getElem?_eq_some.2 hd),
        fun _ _ hf => h.2 _ (Std.ExtTreeMap.mem_toList_iff_getElem?_eq_some.2 hf)⟩,
      fun h => ⟨fun entry he => h.databases entry.1 entry.2 (Std.ExtTreeMap.mem_toList_iff_getElem?_eq_some.1 he),
        fun entry he => h.fragments entry.1 entry.2 (Std.ExtTreeMap.mem_toList_iff_getElem?_eq_some.1 he)⟩⟩

variable {c : Catalog}

theorem plain_toJson (h : c.Sized) : Json.Plain c.toJson := by
  refine .object ?_
  simp only [List.forall_mem_cons, List.not_mem_nil, false_implies, implies_true, and_true]
  exact ⟨Json.plain_ofMap fun name d hd => DatabaseEntry.plain_toJson (h.databases name d hd),
    Json.plain_ofMap fun k f hf => FragmentEntry.plain_toJson (h.fragments k f hf)⟩

theorem ofJson_toJson (h : c.Sized) : ofJson? c.toJson = some c := by
  have hfields := Json.fields_zip ["dbs", "frags"]
    [Json.ofMap DatabaseEntry.toJson c.databases, Json.ofMap FragmentEntry.toJson c.fragments] (by decide) rfl
  change c.toJson.fields? _ = _ at hfields
  have hdatabases : (Json.ofMap DatabaseEntry.toJson c.databases).map? DatabaseEntry.ofJson? = some c.databases :=
    Json.map_ofMap fun name d hd => DatabaseEntry.ofJson_toJson (h.databases name d hd)
  have hfragments : (Json.ofMap FragmentEntry.toJson c.fragments).map? FragmentEntry.ofJson? = some c.fragments :=
    Json.map_ofMap fun k f hf => FragmentEntry.ofJson_toJson (h.fragments k f hf)
  unfold ofJson?
  rw [hfields]
  simp [hdatabases, hfragments]

/-- A catalog is read back from its text. -/
theorem read_render (h : c.Sized) : read c.render = .ok c := by
  unfold read render
  rw [Json.parse_indented (plain_toJson h), Option.bind_some, ofJson_toJson h]

end Catalog

end FragmentEngine
