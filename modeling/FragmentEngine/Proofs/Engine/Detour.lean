import FragmentEngine.Proofs.Engine.ColumnQueries
import FragmentEngine.Proofs.Engine.Readable
/-!
# Selecting by way of a stored fragment

To store a selection in a new fragment and then to select the columns of that fragment gives what the selection itself
gives, and storing it fails as the selection fails, save for a name that is too long for a file. Both make one and the
same fragment (`select_runIn`, `createFromSelect_runIn`), which is stored and found again as it was (`store_new`); to
copy its columns changes nothing in them (`execute_all`).
-/

namespace FragmentEngine

/-- The columns of a result are those of the fragment. -/
theorem QueryResult.columns_ofFragment {f : Fragment} {result : QueryResult} (h : ofFragment f = .ok result) :
    result.columns = f.schema.names := by
  obtain ⟨rows, -, h⟩ := Outcome.bind_eq_ok.1 h
  cases h
  rfl

namespace Session

/-- Whether one text asks to store at a place, which is to be new, what another one asks to select. -/
def StoresSelection (s : Session) (create direct : String) (args : List Argument) (place : String × String) : Prop :=
  s.Asks direct args fun r op => op = .select ∧
    s.Asks create args fun r' op' => op' = .createFromSelect ∧ r'.target = .ok place ∧ r'.SelectsLike r

/-- Whether a text asks to select the given columns of the fragment at a place by their names, with nothing else. -/
def TakesColumns (s : Session) (query : String) (args : List Argument) (place : String × String)
    (columns : List String) : Prop :=
  s.Asks query args fun r op => op = .select ∧ r.TakesColumns place.1 place.2 columns

end Session

namespace Shared

open Query

variable {S : Shared} {e : Engine} {i j : Nat} {direct create : String} {args : List Argument} {db name : String}

theorem calls_append (S : Shared) (queries later : List (Nat × String × List Argument)) :
    S.calls (queries ++ later) = S.calls queries ++ (S.run queries).calls later := by
  induction queries generalizing S with
  | nil => rfl
  | cons q rest ih =>
    obtain ⟨i, query, args⟩ := q
    show _ ++ (S.execute i query args).calls (rest ++ later) = _ ++ (S.execute i query args).calls rest ++ _
    rw [ih, List.append_assoc]
    rfl

/-- One text answers with the selection that the other one stores. -/
theorem selection_ends (hready : S.world.Ready) (hsound : S.Sound (fun _ f => f.WellFormed) e)
    (htexts : (Session.new e).StoresSelection create direct args (db, name))
    (hdb : db ∈ S.world.catalog.databases) (hnew : Catalog.key db name ∉ S.world.catalog.fragments)
    (hkeep : S.world.CanName name → ∀ c ∈ S.calls [(j, create, args)], S.world.CanKeep c) :
    ∃ selected, S.answer i direct args = selected >>= QueryResult.ofFragment ∧
      S.world.EndsStoring db name selected (S.answer j create args) (S.execute j create args).world := by
  obtain ⟨params, op, hparams, hop, rfl, params', op', hparams', hop', rfl, htarget, hlike⟩ := htexts
  obtain ⟨hdirect, -, -⟩ := execute_keeping S i args hparams hop fun _ => rfl
  obtain ⟨hcreate, hworld, hcalls⟩ := execute_keeping S j args hparams' hop' fun _ => rfl
  rw [(hsound.sessions i).engine, Request.select_runIn] at hdirect
  rw [(hsound.sessions j).engine] at hcreate hworld hcalls
  refine ⟨Request.selectedIn ⟨e, params', args⟩ name S.world, hdirect.trans ?_, ?_⟩
  -- Only the names of the two fragments may differ.
  · have hsame := Request.selectedIn_congr hlike name S.world
    exact (Request.shown_named _ name _ S.world).trans (congrArg (· >>= QueryResult.ofFragment) hsame.symm)
  · rw [hcreate, hworld]
    exact Request.createFromSelect_ends hready hsound.world htarget hdb hnew fun hname c hc =>
      hkeep hname c (List.mem_append_left _ (hcalls c hc))

/-- Queries that any sessions carry out leave an engine that started empty ready, with well-formed fragments. -/
theorem run_soundReady (headroom : Nat) {w : World} (hw : w.StartsEmpty) (queries : List (Nat × String × List Argument))
    (hkeep : ∀ c ∈ (on (.builtin headroom) w).calls queries, w.CanKeep c) :
    ((on (.builtin headroom) w).run queries).Sound (fun _ f => f.WellFormed) (.builtin headroom) ∧
      ((on (.builtin headroom) w).run queries).world.Ready ∧ w.Alike ((on (.builtin headroom) w).run queries).world :=
  ⟨(sound_on hw).run (fun q _ params op _ _ => Request.keeps_wellFormed headroom params q.2.2 op) hkeep,
    run_ready (.of_startsEmpty hw) queries⟩

/-- For columns with plain names there is a query. -/
theorem exists_takesColumns {columns : List String} (hdb : Name.check db = .ok ()) (hname : Name.check name = .ok ())
    (hne : columns ≠ []) (hplain : ∀ column ∈ columns, Token.isName column = true) :
    ∃ all, ∀ args, (Session.new e).TakesColumns all args (db, name) columns :=
  ⟨Params.text (Request.columnParams db name columns).entries, fun args =>
    ⟨_, _, Request.parse_columnParams hdb hname hplain, Request.operation_columnParams db name columns, rfl,
      Request.columnParams_takesColumns hdb hname e args hne hplain⟩⟩

/-- Every such query answers with all the fragment holds. -/
theorem answer_takesColumns {f : Fragment} (hsound : S.Sound (fun _ f => f.WellFormed) e)
    (hhas : S.world.HasSelection db name f) (hplain : ∀ column ∈ f.schema.names, Token.isName column = true)
    {all : String} (hall : (Session.new e).TakesColumns all args (db, name) f.schema.names) (k : Nat) :
    S.answer k all args = QueryResult.ofFragment f := by
  obtain ⟨params, op, hparams, hop, rfl, htakes⟩ := hall
  obtain ⟨hanswer, -, -⟩ := execute_keeping S k args hparams hop fun _ => rfl
  rw [hanswer, (hsound.sessions k).engine]
  exact congrArg Prod.fst (htakes.select_runIn hhas hplain)

/-- An engine starts empty, and any sessions carry out any queries. Then storing a selection in a new fragment fails as
the selection fails, and otherwise only if the engine keeps files and the name of the fragment is too long for one. If
it does not fail, and the names of the columns are plain, there is a query for all columns of the new fragment by their
names, and every such query answers as the selection does. (If the engine keeps files, images can hold what is put.) -/
theorem run_storedSelection (headroom : Nat) {w : World} (hw : w.StartsEmpty)
    (queries : List (Nat × String × List Argument)) (hS : (on (.builtin headroom) w).run queries = S)
    (htexts : (Session.new (.builtin headroom)).StoresSelection create direct args (db, name))
    (hdb : db ∈ S.world.catalog.databases) (hnew : Catalog.key db name ∉ S.world.catalog.fragments)
    (hkeep : ∀ c ∈ (on (.builtin headroom) w).calls (queries ++ [(j, create, args)]), w.CanKeep c) :
    (∀ error, S.answer j create args = .error error ↔ S.answer i direct args = .error error ∨
      (¬S.world.CanName name ∧ error = .disk .nameTooLong ∧ ∃ result, S.answer i direct args = .ok result)) ∧
    ∀ result said, S.answer i direct args = .ok result → S.answer j create args = .ok said →
      (∀ column ∈ result.columns, Token.isName column = true) →
      (∃ all, ∀ args', (Session.new (.builtin headroom)).TakesColumns all args' (db, name) result.columns) ∧
      ∀ k all args', (Session.new (.builtin headroom)).TakesColumns all args' (db, name) result.columns →
        (S.execute j create args).answer k all args' = .ok result := by
  subst hS
  rw [calls_append] at hkeep
  obtain ⟨hearlier, hlast⟩ := List.forall_mem_append.1 hkeep
  obtain ⟨hsound, hready, halike⟩ := run_soundReady headroom hw queries hearlier
  have hlater := fun c hc => halike.canKeep (hlast c hc)
  obtain ⟨selected, hdirect, hends⟩ := selection_ends (i := i) hready hsound htexts hdb hnew fun _ => hlater
  rw [hdirect]
  refine ⟨hends.error_iff, fun result said hresult hsaid hplain => ?_⟩
  rw [hsaid] at hends
  obtain ⟨f, rfl, hhas⟩ := hends.of_ok
  rw [QueryResult.columns_ofFragment hresult] at hplain ⊢
  refine ⟨?_, fun k all args' hall => ?_⟩
  · obtain ⟨_, _, -, -, -, _, _, -, -, -, htarget, -⟩ := htexts
    obtain ⟨hdb', hname'⟩ := Request.check_of_target htarget
    exact exists_takesColumns hdb' hname' hhas.names_ne_nil hplain
  · obtain ⟨hafter, -⟩ := hsound.execute
      (fun params op _ _ => Request.keeps_wellFormed headroom params args op) fun c hc =>
        hlater c (List.mem_append_left _ hc)
    exact (answer_takesColumns hafter hhas hplain hall k).trans hresult

/-- Two rows in a directory. -/
def twoStored : List (Nat × String × List Argument) :=
  [(0, "operation=create_db;db_name=db", []),
    (0, "operation=create_frag;frag_name=db.f;field=id|v;field_type=long|string", []),
    (0, "operation=multi_insert;value=1|a|2|b", [])]

/-- A selection of the second row with a computed column and one of another name. -/
def laterRow : String := "from=db.f;field=id|id + ?1|v;field_alias=id|sum|letter;where=id > 1"

def selectLater : String := "operation=select;" ++ laterRow

def storeLater : String := "operation=create_frag_select;frag_name=db.g;" ++ laterRow

def allLater : String := "operation=select;from=db.g;field=id|sum|letter"

theorem laterRow_stored : (Session.new (.builtin 4)).StoresSelection storeLater selectLater [.long 7] ("db", "g") := by
  let shared := [("from", "db.f"), ("field", "id|id + ?1|v"), ("field_alias", "id|sum|letter"), ("where", "id > 1")]
  refine ⟨⟨("operation", "select") :: shared⟩, .select, by decide +kernel, by decide +kernel, rfl,
    ⟨("operation", "create_frag_select") :: ("frag_name", "db.g") :: shared⟩, .createFromSelect, by decide +kernel,
    by decide +kernel, rfl, by decide +kernel, rfl, rfl, by decide +kernel⟩

theorem laterRow_taken : (Session.new (.builtin 4)).TakesColumns allLater [] ("db", "g") ["id", "sum", "letter"] := by
  refine ⟨⟨[("operation", "select"), ("from", "db.g"), ("field", "id|sum|letter")]⟩, .select, by decide +kernel,
    by decide +kernel, rfl, ⟨"db.g", by decide +kernel, by decide +kernel⟩, by decide +kernel, by decide +kernel⟩

theorem run_storedSelection_twoStored : inWorking.StartsEmpty ∧
    (∀ c ∈ (on (.builtin 4) inWorking).calls (twoStored ++ [(1, storeLater, [.long 7])]), inWorking.CanKeep c) ∧
    ∃ result, ((on (.builtin 4) inWorking).run twoStored).answer 0 selectLater [.long 7] = .ok result ∧
      result.columns = ["id", "sum", "letter"] ∧ result.rows.length = 1 ∧
      (((on (.builtin 4) inWorking).run twoStored).execute 1 storeLater [.long 7]).answer 2 allLater [] =
        .ok result := by
  have hkeep : ∀ c ∈ (on (.builtin 4) inWorking).calls (twoStored ++ [(1, storeLater, [.long 7])]),
      inWorking.CanKeep c := by decide +kernel
  have hselect : ((((on (.builtin 4) inWorking).run twoStored).answer 0 selectLater [.long 7]).map
      (fun result => (result.columns, result.rows.length))).toOption = some (["id", "sum", "letter"], 1) := by
    decide +kernel
  obtain ⟨result, hresult, hshown⟩ := Outcome.exists_of_toOption hselect
  obtain ⟨hcolumns, hrows⟩ := Prod.mk.inj hshown
  obtain ⟨hfails, hstored⟩ := run_storedSelection (i := 0) 4 startsEmpty_inWorking twoStored rfl laterRow_stored
    (by decide +kernel) (by decide +kernel) hkeep
  obtain ⟨said, hsaid⟩ : ∃ said,
      ((on (.builtin 4) inWorking).run twoStored).answer 1 storeLater [.long 7] = .ok said := by
    cases hsaid : ((on (.builtin 4) inWorking).run twoStored).answer 1 storeLater [.long 7] with
    | ok said => exact ⟨said, rfl⟩
    | error error =>
      rcases (hfails error).1 hsaid with hfailed | ⟨hlong, -⟩
      · exact absurd (hresult.symm.trans hfailed) nofun
      · exact absurd (fun _ _ => ⟨rfl, by decide⟩) hlong
  obtain ⟨-, hall⟩ := hstored result said hresult hsaid (by rw [hcolumns]; decide +kernel)
  refine ⟨startsEmpty_inWorking, hkeep, result, hresult, hcolumns, hrows, hall 2 allLater [] ?_⟩
  rw [hcolumns]
  exact laterRow_taken

/-! ## A name that is too long -/

/-- An empty fragment in a directory. -/
def emptyStored : List (Nat × String × List Argument) :=
  [(0, "operation=create_db;db_name=db", []),
    (0, "operation=create_frag;frag_name=db.f;field=id;field_type=long;run=0", [])]

def selectEmpty : String := "operation=select;from=db.f;field=id"

/-- A name that leaves no room for the ending of a file. -/
def longName : String := String.ofList (List.replicate 251 'g')

def storeLongParams : Params :=
  ⟨[("operation", "create_frag_select"), ("frag_name", Catalog.key "db" longName), ("from", Catalog.key "db" "f"),
    ("field", "id")]⟩

def storeLong : String := Params.text storeLongParams.entries

theorem check_longName : Name.check longName = .ok () := by
  have hchars : longName.toList = List.replicate 251 'g' := String.toList_ofList
  refine Name.check_eq_ok.2 ⟨fun h => absurd (congrArg String.utf8ByteSize h) (by decide +kernel), fun c hc => ?_⟩
  rw [hchars] at hc
  rw [List.eq_of_mem_replicate hc]
  decide

theorem parse_storeLong : Params.parse storeLong = .ok storeLongParams := by
  have hkeys : storeLongParams.entries.map Prod.fst = ["operation", "frag_name", "from", "field"] := rfl
  have hdb : Name.check "db" = .ok () := by decide +kernel
  have hf : Name.check "f" = .ok () := by decide +kernel
  have hcreate : Token.isName "create_frag_select" = true := by decide +kernel
  have hid : Token.isName "id" = true := by decide +kernel
  refine Params.parse_text (by rw [hkeys]; decide) (by rw [hkeys]; decide) ?_
  simp only [storeLongParams, List.forall_mem_cons]
  have hclosed {text : String} (h : ∀ c ∈ text.toList, Sections.Stands c) :=
    Sections.closed_of_stands Sections.not_stands_semicolon h
  exact ⟨hclosed (Request.stands_name hcreate), hclosed (Request.stands_key hdb check_longName),
    hclosed (Request.stands_key hdb hf), hclosed (Request.stands_name hid), nofun⟩

theorem storeLong_stored : (Session.new (.builtin 4)).StoresSelection storeLong selectEmpty [] ("db", longName) := by
  refine ⟨⟨[("operation", "select"), ("from", "db.f"), ("field", "id")]⟩, .select, by decide +kernel, by decide +kernel,
    rfl, storeLongParams, .createFromSelect, parse_storeLong, by decide +kernel, rfl, ?_, rfl, rfl, by decide +kernel⟩
  exact Request.target_of_lookup (by decide +kernel) check_longName rfl

/-- The selection is answered, but the file system refuses the long name when it is to be stored. -/
theorem storeLong_refused : inWorking.StartsEmpty ∧
    (Session.new (.builtin 4)).StoresSelection storeLong selectEmpty [] ("db", longName) ∧
    "db" ∈ ((on (.builtin 4) inWorking).run emptyStored).world.catalog.databases ∧
    Catalog.key "db" longName ∉ ((on (.builtin 4) inWorking).run emptyStored).world.catalog.fragments ∧
    ((on (.builtin 4) inWorking).run emptyStored).answer 0 selectEmpty [] = .ok ⟨["id"], [], 0, none⟩ ∧
    Token.isName "id" = true ∧
    ((on (.builtin 4) inWorking).run emptyStored).answer 0 storeLong [] = .error (.disk .nameTooLong) := by
  have hdb : "db" ∈ ((on (.builtin 4) inWorking).run emptyStored).world.catalog.databases := by decide +kernel
  have hnew : Catalog.key "db" longName ∉ ((on (.builtin 4) inWorking).run emptyStored).world.catalog.fragments := by
    have hkeys : ((on (.builtin 4) inWorking).run emptyStored).world.catalog.fragments.keys =
        [Catalog.key "db" "f"] := by decide +kernel
    rw [← Std.ExtTreeMap.mem_keys, hkeys, List.mem_singleton]
    exact fun hkey => absurd (Catalog.key_right_injective hkey) (by decide +kernel)
  have hanswer : ((on (.builtin 4) inWorking).run emptyStored).answer 0 selectEmpty [] = .ok ⟨["id"], [], 0, none⟩ := by
    decide +kernel
  refine ⟨startsEmpty_inWorking, storeLong_stored, hdb, hnew, hanswer, by decide +kernel, ?_⟩
  obtain ⟨hsound, hready, -⟩ := run_soundReady 4 startsEmpty_inWorking emptyStored (by decide +kernel)
  have hlong : ¬((on (.builtin 4) inWorking).run emptyStored).world.CanName longName := by decide +kernel
  obtain ⟨selected, hselected, hends⟩ :=
    selection_ends (i := 0) (j := 0) hready hsound storeLong_stored hdb hnew fun hfits => absurd hfits hlong
  generalize hcreate : Shared.answer _ 0 storeLong [] = answer at hends ⊢
  cases hends with
  | failed error => exact absurd (hselected.symm.trans hanswer) nofun
  | tooLong => rfl
  | stored _ hfits => exact absurd hfits hlong

end Shared

end FragmentEngine
