import FragmentEngine.Proofs.Engine.Selecting
import FragmentEngine.Proofs.Request.Written
/-!
# Queries for the columns of a fragment

A select that names all columns of one fragment and asks for nothing else answers with what the fragment holds. For
columns with plain names there is such a query.
-/

namespace FragmentEngine

namespace Request

open Query

variable {r : Request} {w : World} {db name : String} {columns : List String} {f : Fragment}

/-! ## What they answer -/

/-- A request is to select the given columns of one fragment by their names, with nothing else. -/
structure TakesColumns (r : Request) (db name : String) (columns : List String) : Prop where
  source : ∃ text, r.params.requireList "from" = .ok [text] ∧ qualified text (r.params.get? "db_name") = .ok (db, name)
  columns : r.params.requireList "field" = .ok columns
  others : ∀ key ∈ ["from_alias", "field_alias", "where", "group", "order", "limit", "sequential_id"],
    r.params.get? key = none

namespace TakesColumns

theorem list_eq (h : r.TakesColumns db name columns) {key : String}
    (hkey : key ∈ ["from_alias", "field_alias", "where", "group", "order", "limit", "sequential_id"]) :
    r.params.list key = .ok [] := by
  unfold Params.list
  rw [h.others key hkey]

theorem selectRequest_eq (h : r.TakesColumns db name columns) (output : String) :
    r.selectRequest output = .ok (.all output columns) := by
  have hids : r.params.long? "sequential_id" = .ok none := by
    unfold Params.long?
    rw [h.others _ (by decide)]
  unfold selectRequest
  rw [h.columns, h.list_eq (by decide), h.list_eq (by decide), h.list_eq (by decide), hids, h.others _ (by decide),
    h.others _ (by decide)]
  rfl

theorem loadSources_runIn (h : r.TakesColumns db name columns) (hf : w.HasSelection db name f) :
    r.loadSources.runIn w = (.ok [⟨f, none, some db⟩], w) := by
  obtain ⟨text, hfrom, hplace⟩ := h.source
  obtain ⟨entry, hfound⟩ := hf.entry
  have hsource : (r.loadSource text none).runIn w = (.ok ⟨f, none, some db⟩, w) := by
    unfold loadSource
    simp only [discard_bind]
    rw [hplace, runIn_bind_ok (runIn_lift _ w)]
    dsimp only
    rw [runIn_bind_ok (q := (Call.findFragment db name).make) (congrArg (·, w) hfound),
      runIn_bind_ok (q := (Call.getFragment db name).make) (congrArg (·, w) hf.stored), runIn_pure]
  unfold loadSources
  rw [hfrom, h.list_eq (by decide), runIn_bind_ok (runIn_lift _ w), runIn_bind_ok (runIn_lift _ w),
    if_neg (by simp)]
  rw [List.zipIdx_singleton, List.mapM_cons]
  exact (runIn_bind_ok hsource).trans rfl

/-- Such a select answers with all the fragment holds. -/
theorem select_runIn (h : r.TakesColumns db name f.schema.names) (hf : w.HasSelection db name f)
    (hplain : ∀ n ∈ f.schema.names, Token.isName n = true) : r.select.runIn w = (QueryResult.ofFragment f, w) := by
  obtain ⟨g, hg, hsame⟩ := SelectRequest.execute_all (s := ⟨f, none, some db⟩) (r.engine.context r.args)
    ((r.params.get? "frag_name").getD "result") hf.wellFormed.rectangular hf.names_nodup hplain hf.names_ne_nil
  have hselected : r.selectedIn ((r.params.get? "frag_name").getD "result") w = .ok g := by
    unfold selectedIn
    rw [h.loadSources_runIn hf, h.selectRequest_eq]
    exact hg
  rw [Request.select_runIn, hselected, ← hsame]
  rfl

end TakesColumns

/-! ## How they are written -/

/-- The parameters of a select of columns. -/
def columnParams (db name : String) (columns : List String) : Params :=
  ⟨[("operation", "select"), ("from", Catalog.key db name), ("field", "|".intercalate columns)]⟩

theorem operation_columnParams (db name : String) (columns : List String) :
    (columnParams db name columns).operation = .ok .select :=
  show Operation.read "select" = .ok .select by decide +kernel

/-- The characters of a plain column name can stand in a value. -/
theorem stands_name {n : String} (h : Token.isName n = true) : ∀ c ∈ n.toList, Sections.Stands c :=
  fun c hc => Sections.stands_of (by decide +kernel) (Token.continuesName_of_isName h c hc)

section

variable (hdb : Name.check db = .ok ()) (hname : Name.check name = .ok ())

include hdb hname

theorem qualified_key (default : Option String) : qualified (Catalog.key db name) default = .ok (db, name) := by
  have hsplit : Text.splitOnce '.' (Catalog.key db name).toList = some (db.toList, name.toList) := by
    rw [Catalog.toList_key]
    exact Text.splitOnce_append (Name.plain_of_check hdb)
  unfold qualified
  rw [hsplit]
  simp [hdb, hname, bind, Except.bind, pure, Except.pure]

theorem target_of_lookup (h : r.params.entries.lookup "frag_name" = some (Catalog.key db name)) :
    r.target = .ok (db, name) := by
  unfold target
  rw [Params.require_of_lookup h (Catalog.key_ne_empty db name)]
  exact qualified_key hdb hname _

/-- The characters of a joined key can stand in a value. -/
theorem stands_key : ∀ c ∈ (Catalog.key db name).toList, Sections.Stands c := by
  have hstands : ∀ c, Name.isNameChar c = true → Sections.Stands c := fun c => Sections.stands_of (by decide +kernel)
  rw [Catalog.toList_key]
  refine List.forall_mem_append.2 ⟨fun c hc => hstands c (Name.isNameChar_of_check hdb c hc), ?_⟩
  refine List.forall_mem_cons.2 ⟨⟨by decide, by decide, by decide, by decide⟩, fun c hc => ?_⟩
  exact hstands c (Name.isNameChar_of_check hname c hc)

theorem parse_columnParams (hcolumns : ∀ n ∈ columns, Token.isName n = true) :
    Params.parse (Params.text (columnParams db name columns).entries) = .ok (columnParams db name columns) := by
  have hkeys : (columnParams db name columns).entries.map Prod.fst = ["operation", "from", "field"] := rfl
  refine Params.parse_text (by rw [hkeys]; decide) (by rw [hkeys]; decide) ?_
  simp only [columnParams, List.forall_mem_cons]
  have hselect : Token.isName "select" = true := by decide +kernel
  refine ⟨Sections.closed_of_stands Sections.not_stands_semicolon (stands_name hselect),
    Sections.closed_of_stands Sections.not_stands_semicolon (stands_key hdb hname),
    Sections.closed_trimmed fun c hc => ?_, nofun⟩
  rw [String.toList_intercalate] at hc
  rcases Sections.mem_intercalate hc with rfl | ⟨part, hpart, hc⟩
  · exact ⟨by decide, by decide, by decide⟩
  · obtain ⟨n, hn, rfl⟩ := List.mem_map.1 hpart
    have h := stands_name (hcolumns n hn) c hc
    exact ⟨h.ne_semicolon, h.not_isQuote, h.not_isBlank⟩

theorem columnParams_takesColumns (e : Engine) (args : List Argument) (hne : columns ≠ [])
    (hcolumns : ∀ n ∈ columns, Token.isName n = true) :
    TakesColumns ⟨e, columnParams db name columns, args⟩ db name columns where
  source := by
    have hlist := Sections.list_intercalate (List.cons_ne_nil (Catalog.key db name) [])
      (List.forall_mem_singleton.2 (Sections.closed_of_stands Sections.not_stands_bar (stands_key hdb hname)))
    rw [String.intercalate_singleton] at hlist
    exact ⟨_, (Params.requireList_of_lookup rfl (Catalog.key_ne_empty db name)).trans hlist, qualified_key hdb hname _⟩
  columns := by
    have hlist := Sections.list_intercalate hne fun n hn =>
      Sections.closed_of_stands Sections.not_stands_bar (stands_name (hcolumns n hn))
    refine (Params.requireList_of_lookup rfl fun hempty => ?_).trans hlist
    -- The empty text is read as one entry, which is not the name of a column.
    rw [hempty, Sections.list_empty] at hlist
    cases hlist
    exact absurd (hcolumns "" List.mem_cons_self) (by decide)
  others := by
    simp only [List.forall_mem_cons]
    exact ⟨rfl, rfl, rfl, rfl, rfl, rfl, rfl, nofun⟩

end

end Request

end FragmentEngine
