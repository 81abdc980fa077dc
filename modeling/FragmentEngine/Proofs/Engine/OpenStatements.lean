import Mathlib.Data.List.Infix
import FragmentEngine.Proofs.Engine.Agreement
import FragmentEngine.Proofs.Engine.Footprint
import FragmentEngine.Proofs.Engine.Runs
/-!
# Databases of open statements

A statement is opened for a database that is there, and no query of its own session removes the database while it
is open. Another session may: statements are known to their own sessions only.
-/

namespace FragmentEngine

open Query

/-! ## Databases that stay -/

variable {w w' : World} {db : String}

namespace World

theorem databases_withCatalog {α : Type} {x : Except Error (α × Catalog)} (hdb : db ∈ w.catalog.databases)
    (h : ∀ a c, x = .ok (a, c) → db ∈ c.databases) : db ∈ (w.withCatalog x).2.catalog.databases := by
  unfold withCatalog
  split
  · exact h _ _ rfl
  · exact hdb

theorem databases_replacedBy {x : Except Error World} (hdb : db ∈ w.catalog.databases)
    (h : ∀ v, x = .ok v → v.catalog = w.catalog) : db ∈ (w.replacedBy x).2.catalog.databases := by
  cases x with
  | error e => exact hdb
  | ok v => exact (h v rfl).symm ▸ hdb

/-- A change that may fail leaves the catalog as it is if its result does. -/
theorem catalog_of_bind {α : Type} {x : Except Error α} {f : α → World} (h : (do return f (← x)) = Except.ok w')
    (hf : ∀ a, (f a).catalog = w.catalog) : w'.catalog = w.catalog := by
  obtain ⟨a, -, h⟩ := Outcome.bind_eq_ok.1 h
  cases h
  exact hf a

theorem catalog_flush (h : w.flush = .ok w') : w'.catalog = w.catalog := by
  unfold flush at h
  split at h
  · cases h
    rfl
  · exact catalog_of_bind h fun _ => rfl

theorem catalog_putDatabase {x : String} (h : w.putDatabase x = .ok w') : w'.catalog = w.catalog := by
  unfold putDatabase at h
  split at h <;> exact catalog_of_bind h fun _ => rfl

theorem catalog_deleteDatabase {x : String} (h : w.deleteDatabase x = .ok w') : w'.catalog = w.catalog := by
  unfold deleteDatabase at h
  split at h <;> exact catalog_of_bind h fun _ => rfl

theorem catalog_deleteFragment {x name : String} (h : w.deleteFragment x name = .ok w') :
    w'.catalog = w.catalog := by
  unfold deleteFragment at h
  split at h <;> exact catalog_of_bind h fun _ => rfl

theorem catalog_putFragment (w : World) (x : String) (f : Fragment) :
    (w.putFragment x f).2.catalog = w.catalog := by
  unfold putFragment
  split
  · split <;> rfl
  · rfl

end World

namespace Call

/-- No call but its removal takes a database out of the catalog. -/
theorem perform_databases {call : Call} (h : call ≠ .removeDatabase db) (hdb : db ∈ w.catalog.databases) :
    db ∈ (call.perform w).2.catalog.databases := by
  cases call with
  | listDatabases | findDatabase | findFragment | getFragment | readFile => exact hdb
  | addDatabase name =>
    exact World.databases_withCatalog hdb fun _ _ hc => (Catalog.mem_addDatabase hc db).2 (.inr hdb)
  | removeDatabase name =>
    refine World.databases_withCatalog hdb fun _ _ hc => (Catalog.mem_removeDatabase hc db).2 ⟨?_, hdb⟩
    exact fun he => h (congrArg _ he)
  | addFragment f =>
    refine World.databases_withCatalog hdb fun _ c hc => ?_
    obtain ⟨c', hadd, heq⟩ := Outcome.map_eq_ok.1 hc
    cases heq
    exact (Catalog.mem_addFragment hadd db).2 hdb
  | removeFragment x name =>
    exact World.databases_withCatalog hdb fun _ _ hc => ((Catalog.removeFragment_effect hc).2.2 db).2 hdb
  | flush => exact World.databases_replacedBy hdb fun _ hv => World.catalog_flush hv
  | putDatabase x => exact World.databases_replacedBy hdb fun _ hv => World.catalog_putDatabase hv
  | deleteDatabase x => exact World.databases_replacedBy hdb fun _ hv => World.catalog_deleteDatabase hv
  | putFragment x f => exact (World.catalog_putFragment w x f).symm ▸ hdb
  | deleteFragment x name => exact World.databases_replacedBy hdb fun _ hv => World.catalog_deleteFragment hv

end Call

/-! ## What a query does to databases and statements -/

theorem Operation.eq_some_of_afterFailure {op : Operation} {statement : Option Statement} {t : Statement}
    (h : op.statementAfterFailure statement = some t) : statement = some t := by
  cases op with
  | insert | multiInsert => cases h
  | _ => exact h

/-- A request that leaves a statement open has opened it for a database that is there, or has found it open. -/
theorem Request.perform_statement {r : Request} {statement : Option Statement} {op : Operation}
    {result : QueryResult} {t : Statement} (h : (r.perform statement op).runIn w = (.ok (result, some t), w')) :
    t.db ∈ w'.catalog.databases ∨ ∃ t₀, statement = some t₀ ∧ t₀.db = t.db := by
  cases op with
  | createFragment =>
    obtain ⟨hdb, rfl⟩ := createFragment_opened h
    exact .inl hdb
  | insert =>
    obtain ⟨t₀, hopen, hplace⟩ := insert_place h
    exact .inr ⟨t₀, hopen, (congrArg Prod.fst hplace).symm⟩
  | multiInsert =>
    obtain ⟨t₀, hopen, hplace⟩ := insert_place h
    exact .inr ⟨t₀, hopen, (congrArg Prod.fst hplace).symm⟩
  | _ =>
    obtain ⟨_, v, -, h⟩ := runIn_bind_eq_ok h
    cases h
    exact .inr ⟨t, rfl, rfl⟩

namespace Session

variable {s : Session} {query : String} {args : List Argument}

/-- A database goes only by a query that drops it, of a session that has no statement for it. -/
theorem execute_databases (hdb : db ∈ w.catalog.databases)
    (hgone : db ∉ ((s.execute query args).run w).2.catalog.databases) :
    s.Asks query args (fun r op => r.DropsDatabase db op) ∧ ∀ t ∈ s.statement, t.db ≠ db := by
  by_contra hnot
  refine hgone ?_
  by_cases hmakes : s.Asks query args fun r op => r.MakesDatabase db op
  -- A query that makes a database may take it back, but does not make one that is there.
  · obtain ⟨params, op, hparams, hop, rfl, hname⟩ := hmakes
    obtain ⟨e, hknown⟩ := Request.createDatabase_known (r := ⟨s.engine, params, args⟩) hname hdb
    have hrun : (Request.perform ⟨s.engine, params, args⟩ s.statement .createDatabase).runIn w = (.error e, w) :=
      runIn_bind_error hknown
    rw [execute_eq_perform hparams hop, run_perform, hrun]
    exact hdb
  · refine (s.execute_uses query args).run (P := fun w => db ∈ w.catalog.databases) (fun call w hmay hdb => ?_) hdb
    refine Call.perform_databases (fun he => ?_) hdb
    obtain ⟨params, op, hparams, hop, hmay⟩ := hmay
    subst he
    rcases hmay with h | ⟨hdrops, hfree⟩
    · exact hmakes ⟨params, op, hparams, hop, h⟩
    · exact hnot ⟨⟨params, op, hparams, hop, hdrops⟩, hfree⟩

/-- A statement that is open after a query is for a database that is there, or was open before. -/
theorem execute_statement {t : Statement} (h : ((s.execute query args).run w).1.2.statement = some t) :
    t.db ∈ ((s.execute query args).run w).2.catalog.databases ∨ ∃ t₀, s.statement = some t₀ ∧ t₀.db = t.db := by
  rcases s.execute_asks query args with ⟨params, op, -, -, heq⟩ | ⟨e, heq⟩
  · rw [heq, run_perform] at h ⊢
    rcases hrun : (Request.perform ⟨s.engine, params, args⟩ s.statement op).runIn w with ⟨e | a, w'⟩
    · rw [hrun] at h
      exact .inr ⟨t, Operation.eq_some_of_afterFailure h, rfl⟩
    · rw [hrun] at h
      obtain ⟨result, statement⟩ := a
      obtain rfl : statement = some t := h
      exact Request.perform_statement hrun
  · rw [heq] at h
    exact .inr ⟨t, h, rfl⟩

end Session

/-! ## Open statements -/

namespace Shared

variable {S : Shared} {i : Nat}

/-- Whether session `i` has a statement open for a database. -/
def OpenOn (S : Shared) (i : Nat) (db : String) : Prop := ∃ s ∈ (S.sessions i).statement, s.db = db

/-- The database of a statement that session `i` has open was dropped by another session, and has not been there
since. -/
def Orphaned (S : Shared) (i : Nat) (db : String) (queries : List (Nat × String × List Argument)) : Prop :=
  ∃ earlier j query args later, queries = earlier ++ (j, query, args) :: later ∧ j ≠ i ∧
    ((S.run earlier).sessions j).Asks query args (fun r op => r.DropsDatabase db op) ∧
    db ∈ (S.run earlier).world.catalog.databases ∧ (S.run earlier).OpenOn i db ∧
    ∀ part, part <+: later →
      db ∉ (S.run (earlier ++ (j, query, args) :: part)).world.catalog.databases ∧
      (S.run (earlier ++ (j, query, args) :: part)).OpenOn i db

variable {queries : List (Nat × String × List Argument)} {j : Nat} {query : String} {args : List Argument}

theorem execute_databases (hdb : db ∈ S.world.catalog.databases)
    (hgone : db ∉ (S.execute j query args).world.catalog.databases) :
    (S.sessions j).Asks query args (fun r op => r.DropsDatabase db op) ∧ ¬S.OpenOn j db := by
  obtain ⟨hdrops, hfree⟩ := Session.execute_databases hdb hgone
  exact ⟨hdrops, fun ⟨s, hs, heq⟩ => hfree s hs heq⟩

theorem execute_statement {t : Statement}
    (h : ((S.execute j query args).sessions i).statement = some t) :
    t.db ∈ (S.execute j query args).world.catalog.databases ∨ S.OpenOn i t.db := by
  rw [sessions_execute] at h
  split at h
  · rename_i hij
    subst hij
    rcases Session.execute_statement h with hdb | ⟨t₀, hopen, heq⟩
    · exact .inl hdb
    · exact .inr ⟨t₀, hopen, heq⟩
  · exact .inr ⟨t, h, rfl⟩

/-- A database that was dropped under a statement stays so until it is made again or the statement ends. -/
theorem Orphaned.extend (h : S.Orphaned i db queries)
    (hgone : db ∉ ((S.run queries).execute j query args).world.catalog.databases)
    (hopen : ((S.run queries).execute j query args).OpenOn i db) :
    S.Orphaned i db (queries ++ [(j, query, args)]) := by
  obtain ⟨earlier, k, drop, args', later, rfl, hne, hdrops, hdb, hbefore, hsince⟩ := h
  refine ⟨earlier, k, drop, args', later ++ [(j, query, args)], by simp, hne, hdrops, hdb, hbefore, ?_⟩
  intro part hpart
  rcases List.prefix_concat_iff.1 hpart with rfl | hpart
  · rw [← List.cons_append, ← List.append_assoc, run_concat]
    exact ⟨hgone, hopen⟩
  · exact hsince part hpart

/-- A drop by another session leaves a statement without its database. -/
theorem orphaned_of_drop (hne : j ≠ i)
    (hdrops : ((S.run queries).sessions j).Asks query args fun r op => r.DropsDatabase db op)
    (hdb : db ∈ (S.run queries).world.catalog.databases) (hbefore : (S.run queries).OpenOn i db)
    (hgone : db ∉ ((S.run queries).execute j query args).world.catalog.databases)
    (hopen : ((S.run queries).execute j query args).OpenOn i db) :
    S.Orphaned i db (queries ++ [(j, query, args)]) := by
  refine ⟨queries, j, query, args, [], rfl, hne, hdrops, hdb, hbefore, fun part hpart => ?_⟩
  rw [List.prefix_nil.1 hpart, run_concat]
  exact ⟨hgone, hopen⟩

/-- Whatever queries the sessions carry out, each of their open statements is for a database that is there, unless
another session has dropped it; no drop removes a database that its own session has a statement open for, and
nothing else removes one. -/
theorem run_openStatements (S : Shared) (hnew : ∀ i, (S.sessions i).statement = none)
    (queries : List (Nat × String × List Argument)) :
    (∀ (i : Nat) (s : Statement), ((S.run queries).sessions i).statement = some s →
      s.db ∈ (S.run queries).world.catalog.databases ∨ S.Orphaned i s.db queries) ∧
    ∀ (j : Nat) (query : String) (args : List Argument) (db : String),
      db ∈ (S.run queries).world.catalog.databases →
      db ∉ ((S.run queries).execute j query args).world.catalog.databases →
      ((S.run queries).sessions j).Asks query args (fun r op => r.DropsDatabase db op) ∧
        ¬(S.run queries).OpenOn j db := by
  refine ⟨?_, fun j query args db => execute_databases⟩
  induction queries using List.reverseRecOn with
  | nil =>
    intro i s hs
    rw [show S.run [] = S from rfl, hnew] at hs
    cases hs
  | append_singleton queries q ih =>
    obtain ⟨j, query, args⟩ := q
    intro i t ht
    rw [run_concat] at ht ⊢
    by_cases hdb : t.db ∈ ((S.run queries).execute j query args).world.catalog.databases
    · exact .inl hdb
    · have hopen : ((S.run queries).execute j query args).OpenOn i t.db := ⟨t, ht, rfl⟩
      have hbefore := (execute_statement ht).resolve_left hdb
      obtain ⟨s, hs, heq⟩ := hbefore
      refine .inr ?_
      rcases ih i s hs with hthere | horphaned
      · rw [heq] at hthere
        obtain ⟨hdrops, hfree⟩ := execute_databases hthere hdb
        refine orphaned_of_drop (fun hij => hfree ?_) hdrops hthere ⟨s, hs, heq⟩ hdb hopen
        rw [hij]
        exact ⟨s, hs, heq⟩
      · rw [heq] at horphaned
        exact horphaned.extend hdb hopen

/-- Session 0 opens a statement, and session 1 drops its database. -/
def dropUnder : List (Nat × String × List Argument) :=
  [(0, "operation=create_db;db_name=db", []),
    (0, "operation=create_frag;frag_name=db.f;field=id;field_type=long", []),
    (1, "operation=drop_db;db_name=db", [])]

theorem dropUnder_open : ∃ s, (((start (.builtin 0) .empty).run dropUnder).sessions 0).statement = some s ∧
    s.db ∉ ((start (.builtin 0) .empty).run dropUnder).world.catalog.databases := by
  have hend : ((((start (.builtin 0) .empty).run dropUnder).sessions 0).statement.map fun s =>
      decide (s.db ∈ ((start (.builtin 0) .empty).run dropUnder).world.catalog.databases)) = some false := by
    decide +kernel
  obtain ⟨s, hs, hgone⟩ := Option.map_eq_some_iff.1 hend
  exact ⟨s, hs, of_decide_eq_false hgone⟩

/-- The statement of session 0 is left without its database. -/
theorem run_openStatements_dropUnder :
    (∀ i, ((start (.builtin 0) .empty).sessions i).statement = none) ∧
    ∃ s, (((start (.builtin 0) .empty).run dropUnder).sessions 0).statement = some s ∧
      (start (.builtin 0) .empty).Orphaned 0 s.db dropUnder := by
  have hnew : ∀ i, ((start (.builtin 0) .empty).sessions i).statement = none := fun _ => rfl
  obtain ⟨s, hs, hgone⟩ := dropUnder_open
  exact ⟨hnew, s, hs, ((run_openStatements _ hnew dropUnder).1 0 s hs).resolve_left hgone⟩

/-- Not every open statement is for a database that is there. -/
theorem openStatement_orphaned : ¬∀ (queries : List (Nat × String × List Argument)) (i : Nat) (s : Statement),
    (((start (.builtin 0) .empty).run queries).sessions i).statement = some s →
      s.db ∈ ((start (.builtin 0) .empty).run queries).world.catalog.databases := by
  intro h
  obtain ⟨s, hs, hgone⟩ := dropUnder_open
  exact hgone (h dropUnder 0 s hs)

end Shared

end FragmentEngine
