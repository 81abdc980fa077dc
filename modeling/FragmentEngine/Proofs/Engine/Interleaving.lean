import Mathlib.Logic.Function.Basic
import FragmentEngine.Proofs.Engine.Atomic
import FragmentEngine.Proofs.Store
/-!
# Sessions taking turns call by call

Between two calls of a query any number of calls of other sessions may come. The sessions then share states that
none of them has made alone, and this is what still holds of them: which database is half made by whom, and which
fragments are in the catalog but not in the store.
-/

namespace FragmentEngine

/-! ## Systems -/

/-- What a session is doing: nothing, or a query that is about to make a call. -/
inductive Activity where
  | idle (s : Session)
  | busy (call : Call) (next : Except Error call.Reply → Program (Except Error QueryResult × Session))

/-- What a session is doing that has still to run a program. -/
def Activity.ofProgram : Program (Except Error QueryResult × Session) → Activity
  | .done (_, s) => .idle s
  | .call c next => .busy c next

def Activity.isIdle : Activity → Bool
  | .idle _ => true
  | .busy _ _ => false

theorem Activity.idle_of_isIdle {x : Activity} (h : x.isIdle = true) : ∃ s, x = .idle s := by
  cases x with
  | idle s => exact ⟨s, rfl⟩
  | busy call next => cases h

/-- Sessions that share a world, each of them in the middle of a query or between two. -/
structure System where
  world : World
  sessions : Nat → Activity

/-- What happens next in a system. -/
inductive Move where
  /-- Session `i` starts a query. -/
  | submit (i : Nat) (query : String) (args : List Argument)
  /-- Session `i` makes the next call of its query. -/
  | call (i : Nat)

/-- The session that moves. -/
def Move.session : Move → Nat
  | .submit i _ _ | .call i => i

namespace System

/-- An engine in memory without databases, and sessions that have done nothing. -/
def start (e : Engine) (d : Disk) : System := ⟨.inMemory d, fun _ => .idle (.new e)⟩

/-- A busy session takes no second query, and an idle one makes no call. -/
def step (S : System) : Move → System
  | .submit i query args =>
    match S.sessions i with
    | .idle s => ⟨S.world, Function.update S.sessions i (.ofProgram (s.execute query args))⟩
    | .busy _ _ => S
  | .call i =>
    match S.sessions i with
    | .idle _ => S
    | .busy call next =>
      let (reply, w) := call.perform S.world
      ⟨w, Function.update S.sessions i (.ofProgram (next reply))⟩

/-- The system after the moves of a history, the last of which comes first. -/
def after (S : System) : List Move → System
  | [] => S
  | move :: earlier => (S.after earlier).step move

/-- The call that a move makes, if it makes one. -/
def pending (S : System) : Move → Option Call
  | .submit _ _ _ => none
  | .call i =>
    match S.sessions i with
    | .idle _ => none
    | .busy call _ => some call

/-- Whether no query is in flight. -/
def Quiet (S : System) : Prop := ∀ i, ∃ s, S.sessions i = .idle s

section

variable {S : System} {i : Nat} {s : Session} {query : String} {args : List Argument} {call : Call}
  {next : Except Error call.Reply → Program (Except Error QueryResult × Session)}

theorem step_submit (h : S.sessions i = .idle s) : S.step (.submit i query args) =
    ⟨S.world, Function.update S.sessions i (.ofProgram (s.execute query args))⟩ := by
  simp only [step, h]

theorem step_submit_busy (h : S.sessions i = .busy call next) : S.step (.submit i query args) = S := by
  simp only [step, h]

theorem step_call (h : S.sessions i = .busy call next) : S.step (.call i) =
    ⟨(call.perform S.world).2, Function.update S.sessions i (.ofProgram (next (call.perform S.world).1))⟩ := by
  simp only [step, h]

theorem step_call_idle (h : S.sessions i = .idle s) : S.step (.call i) = S := by
  simp only [step, h]

theorem pending_call (h : S.sessions i = .busy call next) : S.pending (.call i) = some call := by
  simp only [pending, h]

theorem pending_call_idle (h : S.sessions i = .idle s) : S.pending (.call i) = none := by
  simp only [pending, h]

theorem step_untouched {move : Move} (h : move.session ≠ i) : (S.step move).sessions i = S.sessions i := by
  cases move with
  | submit j query args =>
    cases hj : S.sessions j with
    | idle s =>
      rw [step_submit hj]
      exact Function.update_of_ne (Ne.symm h) _ _
    | busy call next => rw [step_submit_busy hj]
  | call j =>
    cases hj : S.sessions j with
    | idle s => rw [step_call_idle hj]
    | busy call next =>
      rw [step_call hj]
      exact Function.update_of_ne (Ne.symm h) _ _

/-- A session that never moves stays as it is. -/
theorem after_untouched (history : List Move) (h : ∀ move ∈ history, move.session ≠ i) :
    (S.after history).sessions i = S.sessions i := by
  induction history with
  | nil => rfl
  | cons move earlier ih =>
    rw [after, step_untouched (h move (by simp))]
    exact ih fun move' hmove => h move' (by simp [hmove])

end

end System

/-! ## What phases stand for -/

namespace Phase

/-- Nothing is left to be done. -/
def Settled (φ : Phase) : Prop := φ = .start ∨ φ = .finished ∨ φ = .failed

/-- A database is in the catalog and not in the store. -/
def Half : Phase → String → Prop
  | .creating x, db | .uncreating x, db | .dropping x, db => x = db
  | _, _ => False

/-- A fragment is between its entry and its image: still to be put, or its entry still to be removed. -/
def Window : Phase → String → String → Prop
  | .claimed x _ f, db, name | .releasing x _ f, db, name => x = db ∧ f.name = name
  | .removing x n, db, name => x = db ∧ n = name
  | _, _, _ => False

/-- A fragment that is only in the catalog will be put or removed. -/
def Owes (φ : Phase) (db name : String) : Prop := φ.Window db name ∨ φ = .dropping db

/-- The database of the phase is plain. -/
def Plain : Phase → Prop
  | .creating db | .foundFragment db _ | .claimed db _ _ | .releasing db _ _ | .removing db _ => Name.Plain db
  | _ => True

end Phase

variable {d : Disk} {c c' : Catalog} {m m' : MemoryStore}

/-- A database that is in the catalog and not in the store. -/
def HalfMade (c : Catalog) (m : MemoryStore) (db : String) : Prop := db ∈ c.databases ∧ db ∉ m

/-- A fragment that is in the catalog and not in the store. -/
def Missing (c : Catalog) (m : MemoryStore) (db name : String) : Prop := c.Has db name ∧ name ∉ m.fragments db

/-! ## Invariants over all sessions -/

section

variable {φ : Nat → Phase} {ψ : Phase} {i : Nat} {holds : Phase → Prop} {made made' : Prop}

/-- Something that is so while a session is in one of certain phases, and for one session at a time. -/
structure Held (φ : Nat → Phase) (holds : Phase → Prop) (made : Prop) : Prop where
  made : ∀ i, holds (φ i) → made
  unique : ∀ i j, holds (φ i) → holds (φ j) → i = j

/-- A session may take hold if nobody else can have hold, and leaves alone what others hold. -/
theorem Held.update (h : Held φ holds made) (hi : holds ψ → made' ∧ (holds (φ i) ∨ ¬made))
    (hothers : made → ¬holds (φ i) → (∃ j, j ≠ i ∧ holds (φ j)) → made') :
    Held (Function.update φ i ψ) holds made' := by
  have free : ∀ j, j ≠ i → holds (φ j) → ¬holds (φ i) := fun j hj hold hold' => hj (h.unique j i hold hold')
  -- Nobody else has hold when the session takes hold, or it had hold before and was the only one.
  have alone : ∀ j, j ≠ i → holds (φ j) → ¬holds ψ := by
    intro j hj hold hψ
    rcases (hi hψ).2 with hold' | hnot
    · exact free j hj hold hold'
    · exact hnot (h.made j hold)
  constructor
  · intro j hold
    by_cases hj : j = i
    · subst hj
      rw [Function.update_self] at hold
      exact (hi hold).1
    · rw [Function.update_of_ne hj] at hold
      exact hothers (h.made j hold) (free j hj hold) ⟨j, hj, hold⟩
  · intro j k holdj holdk
    by_cases hj : j = i
    · subst hj
      rw [Function.update_self] at holdj
      by_contra hne
      rw [Function.update_of_ne (Ne.symm hne)] at holdk
      exact alone k (Ne.symm hne) holdk holdj
    · rw [Function.update_of_ne hj] at holdj
      by_cases hk : k = i
      · subst hk
        rw [Function.update_self] at holdk
        exact absurd holdk (alone j hj holdj)
      · rw [Function.update_of_ne hk] at holdk
        exact h.unique j k holdj holdk

/-- What is so because of some session stays so because of it, unless the moving session makes it not so. -/
theorem covered_update (holds : Phase → Prop) (h : made → ∃ j, holds (φ j))
    (hi : made' → holds ψ ∨ (made ∧ ¬holds (φ i))) (hmade : made') : ∃ j, holds (Function.update φ i ψ j) := by
  rcases hi hmade with hψ | ⟨hmade, hnot⟩
  · exact ⟨i, by rwa [Function.update_self]⟩
  · obtain ⟨j, hold⟩ := h hmade
    have hj : j ≠ i := fun e => hnot (e ▸ hold)
    exact ⟨j, by rwa [Function.update_of_ne hj]⟩

end

/-! ## What one session may do to the others -/

/-- What a session can rely on in its phase. -/
structure Sound (c : Catalog) (m : MemoryStore) (φ : Phase) : Prop where
  coherent : c.Coherent
  within : ∀ db, db ∈ m → db ∈ c.databases
  plain : φ.Plain
  half : ∀ db, φ.Half db → HalfMade c m db

/-- A move of a session from one phase to another that keeps what the others rely on. -/
structure Shift (c : Catalog) (m : MemoryStore) (φ : Phase) (c' : Catalog) (m' : MemoryStore) (ψ : Phase) :
    Prop where
  coherent : c'.Coherent
  within : ∀ db, db ∈ m' → db ∈ c'.databases
  plain : ψ.Plain
  takes : ∀ db, ψ.Half db → HalfMade c' m' db ∧ (φ.Half db ∨ ¬HalfMade c m db)
  leaves : ∀ db, HalfMade c m db → ¬φ.Half db → HalfMade c' m' db
  half : ∀ db, HalfMade c' m' db → ψ.Half db ∨ (HalfMade c m db ∧ ¬φ.Half db)
  missing : ∀ db name, Missing c' m' db name → ψ.Owes db name ∨ (Missing c m db name ∧ ¬φ.Owes db name)

namespace Shift

variable {φ ψ χ : Phase} {call : Call}

/-- Nothing is changed, and the session still has hold of what it should. -/
theorem stay (h : Sound c m φ) (hplain : ψ.Plain) (hhalf : ∀ db, ψ.Half db → φ.Half db)
    (hkeep : ∀ db, HalfMade c m db → φ.Half db → ψ.Half db)
    (howes : ∀ db name, Missing c m db name → φ.Owes db name → ψ.Owes db name) : Shift c m φ c m ψ where
  coherent := h.coherent
  within := h.within
  plain := hplain
  takes db hdb := ⟨h.half db (hhalf db hdb), .inl (hhalf db hdb)⟩
  leaves db hdb _ := hdb
  half db hdb := by
    by_cases hφ : φ.Half db
    · exact .inl (hkeep db hdb hφ)
    · exact .inr ⟨hdb, hφ⟩
  missing db name hmiss := by
    by_cases hφ : φ.Owes db name
    · exact .inl (howes db name hmiss hφ)
    · exact .inr ⟨hmiss, hφ⟩

theorem ok (h : Sound c m φ) (ha : Advance c m φ call ψ c' m') : Shift c m φ c' m' ψ := by
  have coherent := h.coherent
  have within := h.within
  have half := h.half
  cases ha with
  | read | chooseDatabase | flush => exact stay h trivial nofun nofun nofun
  | chooseFragment db name hf =>
    exact stay h (coherent.plain db (Catalog.fragment_eq_ok.1 hf).1) nofun nofun nofun
  | addDatabase db hdb hc =>
    have hp := Name.plain_of_check hdb
    have hnew := (Catalog.addDatabase_eq_ok.1 hc).1
    have hmem := Catalog.mem_addDatabase hc
    have hhas := Catalog.has_addDatabase coherent hp hc
    refine ⟨coherent.addDatabase hp hc, ?_, hp, ?_, ?_, ?_, ?_⟩ <;>
      grind [Phase.Half, Phase.Owes, Phase.Window, HalfMade, Missing]
  | putDatabase db hm =>
    have hmade := half db rfl
    have hmem := MemoryStore.mem_putDatabase hm
    have hfragments := MemoryStore.fragments_putDatabase hm
    refine ⟨coherent, ?_, trivial, ?_, ?_, ?_, ?_⟩ <;>
      grind [Phase.Half, Phase.Owes, Phase.Window, HalfMade, Missing]
  | undoDatabase db hc | removeDatabase db hc =>
    -- The database is half made by this session, so the store keeps nothing of it.
    have hmade := half db rfl
    have hmem := Catalog.mem_removeDatabase hc
    have hhas := Catalog.has_removeDatabase coherent hc
    refine ⟨coherent.removeDatabase hc, ?_, trivial, ?_, ?_, ?_, ?_⟩ <;>
      grind [Phase.Half, Phase.Owes, Phase.Window, HalfMade, Missing]
  | deleteDatabase db hm =>
    have hdb := (MemoryStore.deleteDatabase_eq_ok.1 hm).1
    have hmem := MemoryStore.mem_deleteDatabase hm
    have hholds := MemoryStore.holds_deleteDatabase hm
    refine ⟨coherent, ?_, trivial, ?_, ?_, ?_, ?_⟩ <;>
      grind [Phase.Half, Phase.Owes, Phase.Window, HalfMade, Missing]
  | addFragment db device f hc =>
    obtain ⟨-, e, he, -⟩ := Catalog.addFragment_eq_ok.1 hc
    have hmem := Catalog.mem_addFragment hc
    have hhas := Catalog.has_addFragment coherent hc
    refine ⟨coherent.addFragment hc, ?_, coherent.plain db (Maps.mem_of_get he), ?_, ?_, ?_, ?_⟩ <;>
      grind [Phase.Half, Phase.Owes, Phase.Window, HalfMade, Missing, FragmentEntry.describe]
  | putFragment db device f hm =>
    have hmem := MemoryStore.mem_putFragment hm
    have hholds := MemoryStore.holds_putFragment hm
    refine ⟨coherent, ?_, trivial, ?_, ?_, ?_, ?_⟩ <;>
      grind [Phase.Half, Phase.Owes, Phase.Window, HalfMade, Missing]
  | releaseFragment db device f hc | removeFragment db name hc =>
    have hmem := (Catalog.removeFragment_effect hc).2.2
    have hhas := Catalog.has_removeFragment coherent h.plain hc
    refine ⟨coherent.removeFragment h.plain hc, ?_, trivial, ?_, ?_, ?_, ?_⟩ <;>
      grind [Phase.Half, Phase.Owes, Phase.Window, HalfMade, Missing]
  | deleteFragment db name hm =>
    have hmem := MemoryStore.mem_deleteFragment hm
    have hholds := MemoryStore.holds_deleteFragment hm
    refine ⟨coherent, ?_, h.plain, ?_, ?_, ?_, ?_⟩ <;>
      grind [Phase.Half, Phase.Owes, Phase.Window, HalfMade, Missing]

theorem error {e : Error} (h : Sound c m φ) (hs : φ.Step call ψ χ) (hcall : call.inMemory d c m = .error e) :
    Shift c m φ c m χ := by
  cases hs with
  | read | addDatabase | chooseDatabase | addFragment | chooseFragment => exact stay h trivial nofun nofun nofun
  | deleteDatabase | deleteFragment => exact stay h trivial nofun nofun nofun
  | putDatabase db => exact stay h trivial (fun _ hdb => hdb) (fun _ _ hdb => hdb) nofun
  | undoDatabase db | removeDatabase db =>
    -- What is half made is in the catalog, so it can be removed from there.
    have hnot := Catalog.not_mem_of_removeDatabase_error (Outcome.map_eq_error.1 hcall)
    exact absurd (h.half db rfl).1 hnot
  | putFragment db device f => exact stay h h.plain nofun nofun fun _ _ _ howes => .inl (howes.resolve_right nofun)
  | releaseFragment db device f | removeFragment db name =>
    -- The entry is gone already, with its database, so that nothing is owed any more.
    have hnot := Catalog.not_has_of_removeFragment_error (Outcome.map_eq_error.1 hcall)
    refine stay h trivial nofun nofun fun x n hmiss howes => ?_
    grind [Phase.Owes, Phase.Window, Missing]
  | flush => cases hcall

end Shift

/-! ## The invariant -/

/-- What holds of a shared state and the phases of all sessions: every half made database is in the hands of one
session, and every fragment that is missing in the store is owed by some session. -/
structure Inv (c : Catalog) (m : MemoryStore) (φ : Nat → Phase) : Prop where
  coherent : c.Coherent
  within : ∀ db, db ∈ m → db ∈ c.databases
  plain : ∀ i, (φ i).Plain
  held : ∀ db, Held φ (·.Half db) (HalfMade c m db)
  half : ∀ db, HalfMade c m db → ∃ i, (φ i).Half db
  missing : ∀ db name, Missing c m db name → ∃ i, (φ i).Owes db name

namespace Inv

variable {φ : Nat → Phase} {ψ : Phase} {i : Nat}

theorem start : Inv .empty ∅ fun _ => .start where
  coherent := .empty
  within db h := by simp at h
  plain _ := trivial
  held db := ⟨nofun, nofun⟩
  half db h := by simp [HalfMade, Catalog.empty] at h
  missing db name h := by simp [Missing, Catalog.Has, Catalog.empty] at h

theorem sound (h : Inv c m φ) (i : Nat) : Sound c m (φ i) :=
  ⟨h.coherent, h.within, h.plain i, fun db hdb => (h.held db).made i hdb⟩

theorem shift (h : Inv c m φ) (hs : Shift c m (φ i) c' m' ψ) : Inv c' m' (Function.update φ i ψ) where
  coherent := hs.coherent
  within := hs.within
  plain j := by
    by_cases hj : j = i
    · rw [hj, Function.update_self]
      exact hs.plain
    · rw [Function.update_of_ne hj]
      exact h.plain j
  held db := (h.held db).update (hs.takes db) fun hmade hnot _ => hs.leaves db hmade hnot
  half db := covered_update (·.Half db) (h.half db) (hs.half db)
  missing db name := covered_update (·.Owes db name) (h.missing db name) (hs.missing db name)

end Inv

/-! ## Runs -/

/-- A session follows the protocol from a phase on; between queries its phase is settled. -/
def Activity.Follows : Activity → Phase → Prop
  | .idle _, φ => φ.Settled
  | .busy call next, φ => Program.Follows (fun ψ _ => ψ.Settled) (.call call next) φ

theorem Activity.follows_ofProgram {p : Program (Except Error QueryResult × Session)} {φ : Phase}
    (h : p.Follows (fun ψ _ => ψ.Settled) φ) : (Activity.ofProgram p).Follows φ := by
  cases p with
  | done a => exact h
  | call c next => exact h

theorem Session.execute_settles (s : Session) (query : String) (args : List Argument) :
    (s.execute query args).Follows (fun ψ _ => ψ.Settled) .start := by
  refine (s.execute_follows query args).mono fun ψ a hsettles => ?_
  have hends := hsettles.ends
  generalize a.1 = answer at hends
  cases hends with
  | unchanged => exact .inl rfl
  | changed => exact .inr (.inl rfl)
  | broken => exact .inr (.inr rfl)

/-- What becomes of the state and of the phase of the session whose turn it is, with the call it makes. -/
inductive Turn (d : Disk) (c : Catalog) (m : MemoryStore) (φ : Phase) :
    Option Call → Catalog → MemoryStore → Phase → Prop
  | submit : φ.Settled → Turn d c m φ none c m .start
  | ok {ψ χ : Phase} {call : Call} {a : call.Reply} {c' : Catalog} {m' : MemoryStore} : φ.Step call ψ χ →
      call.inMemory d c m = .ok (a, c', m') → Turn d c m φ (some call) c' m' ψ
  | error {ψ χ : Phase} {call : Call} {e : Error} : φ.Step call ψ χ → call.inMemory d c m = .error e →
      Turn d c m φ (some call) c m χ

theorem Turn.shift {φ ψ : Phase} {call? : Option Call} (h : Turn d c m φ call? c' m' ψ) (hs : Sound c m φ) :
    Shift c m φ c' m' ψ := by
  cases h with
  | submit hsettled => rcases hsettled with rfl | rfl | rfl <;> exact .stay hs trivial nofun nofun nofun
  | ok hstep hcall => exact .ok hs (hstep.advance hcall)
  | error hstep hcall => exact .error hs hstep hcall

namespace System

/-- The world of a system is in memory, its sessions are in phases, and the invariant holds of both. -/
structure Reaches (S : System) (d : Disk) (c : Catalog) (m : MemoryStore) (φ : Nat → Phase) : Prop where
  world : S.world = .memory d c m
  follows : ∀ i, (S.sessions i).Follows (φ i)
  inv : Inv c m φ

variable {S : System} {φ : Nat → Phase}

theorem Reaches.start (e : Engine) (d : Disk) : (start e d).Reaches d .empty ∅ fun _ => .start :=
  ⟨rfl, fun _ => .inl rfl, .start⟩

theorem follows_update {i : Nat} {x : Activity} {ψ : Phase} (h : ∀ j, (S.sessions j).Follows (φ j))
    (hx : x.Follows ψ) (j : Nat) : (Function.update S.sessions i x j).Follows (Function.update φ i ψ j) := by
  by_cases hj : j = i
  · rw [hj, Function.update_self, Function.update_self]
    exact hx
  · rw [Function.update_of_ne hj, Function.update_of_ne hj]
    exact h j

/-- A move does nothing, or one session takes its turn. -/
theorem Reaches.step (h : S.Reaches d c m φ) (move : Move) :
    (S.pending move = none ∧ S.step move = S) ∨
    ∃ i ψ c' m', Turn d c m (φ i) (S.pending move) c' m' ψ ∧
      (S.step move).Reaches d c' m' (Function.update φ i ψ) := by
  cases move with
  | submit i query args =>
    have hi := h.follows i
    cases hactivity : S.sessions i with
    | busy call next => exact .inl ⟨rfl, step_submit_busy hactivity⟩
    | idle s =>
      rw [hactivity] at hi
      have hturn : Turn d c m (φ i) none c m .start := .submit hi
      rw [step_submit hactivity]
      refine .inr ⟨i, .start, c, m, hturn, h.world, ?_, h.inv.shift (hturn.shift (h.inv.sound i))⟩
      exact follows_update h.follows (Activity.follows_ofProgram (s.execute_settles query args))
  | call i =>
    have hi := h.follows i
    cases hactivity : S.sessions i with
    | idle s => exact .inl ⟨pending_call_idle hactivity, step_call_idle hactivity⟩
    | busy call next =>
      rw [hactivity] at hi
      obtain ⟨ψ, χ, hstep, hok, herror⟩ := hi
      rw [step_call hactivity, pending_call hactivity, h.world, Call.perform_memory]
      cases hcall : call.inMemory d c m with
      | ok r =>
        obtain ⟨a, c', m'⟩ := r
        have hturn : Turn d c m (φ i) (some call) c' m' ψ := .ok hstep hcall
        refine .inr ⟨i, ψ, c', m', hturn, rfl, ?_, h.inv.shift (hturn.shift (h.inv.sound i))⟩
        exact follows_update h.follows (Activity.follows_ofProgram (hok a))
      | error e =>
        have hturn : Turn d c m (φ i) (some call) c m χ := .error hstep hcall
        refine .inr ⟨i, χ, c, m, hturn, rfl, ?_, h.inv.shift (hturn.shift (h.inv.sound i))⟩
        exact follows_update h.follows (Activity.follows_ofProgram (herror e))

theorem reaches_after (e : Engine) (d : Disk) (history : List Move) :
    ∃ c m φ, ((start e d).after history).Reaches d c m φ := by
  induction history with
  | nil => exact ⟨_, _, _, .start e d⟩
  | cons move earlier ih =>
    obtain ⟨c, m, φ, h⟩ := ih
    rcases h.step move with ⟨-, hsame⟩ | ⟨i, ψ, c', m', -, h'⟩
    · refine ⟨c, m, φ, ?_⟩
      rw [after, hsame]
      exact h
    · exact ⟨c', m', _, h'⟩

/-- In a quiet system no database is half made and no fragment is missing. -/
theorem Reaches.quiet (h : S.Reaches d c m φ) (hq : S.Quiet) :
    (∀ db, ¬HalfMade c m db) ∧ ∀ db name, ¬Missing c m db name := by
  have hsettled : ∀ i, (φ i).Settled := by
    intro i
    obtain ⟨s, hs⟩ := hq i
    have hi := h.follows i
    rwa [hs] at hi
  refine ⟨fun db hmade => ?_, fun db name hmiss => ?_⟩
  · obtain ⟨i, hi⟩ := h.inv.half db hmade
    rcases hsettled i with he | he | he <;> rw [he] at hi <;> exact hi
  · obtain ⟨i, hi⟩ := h.inv.missing db name hmiss
    rcases hsettled i with he | he | he <;> rw [he] at hi <;> exact hi.elim id nofun

/-- Whatever sessions do at once, the catalog and the store have the same databases when no query is in flight. -/
theorem quiet_databases (e : Engine) (d : Disk) (history : List Move)
    (hq : ((start e d).after history).Quiet) :
    ∃ c m, ((start e d).after history).world = .memory d c m ∧ ∀ db, db ∈ c.databases ↔ db ∈ m := by
  obtain ⟨c, m, φ, h⟩ := reaches_after e d history
  refine ⟨c, m, h.world, fun db => ⟨fun hdb => ?_, h.inv.within db⟩⟩
  by_contra hm
  exact (h.quiet hq).1 db ⟨hdb, hm⟩

end System

end FragmentEngine
