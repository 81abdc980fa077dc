import Mathlib.Data.Set.Basic
import FragmentEngine.Proofs.Engine.Interleaving
/-!
# Stranded fragments

A fragment is claimed in the catalog before it is put into the store, and deleted from the store before its entry
is removed. Neither order stands a drop of its database and a new one of the same name in between: the fragment is
then in the store alone. These are the calls that strand a fragment so, those that end it, and what must have come
before.
-/

namespace FragmentEngine

variable {d : Disk} {c c' : Catalog} {m m' : MemoryStore} {p : String × String}

namespace World

/-- The fragments that the catalog has. -/
def catalogued (w : World) : Set (String × String) := {p | ∃ f, w.catalog.fragment p.1 p.2 = .ok f}

/-- The fragments that the store holds. -/
def stored (w : World) : Set (String × String) := {p | ∃ f, w.getFragment p.1 p.2 = .ok f}

theorem mem_catalogued : p ∈ (memory d c m).catalogued ↔ c.Has p.1 p.2 := Catalog.has_iff.symm

theorem mem_stored : p ∈ (memory d c m).stored ↔ p.2 ∈ m.fragments p.1 := by
  constructor
  · rintro ⟨f, hf⟩
    exact Maps.mem_of_get (MemoryStore.getFragment_eq_ok.1 hf)
  · intro h
    obtain ⟨f, hf⟩ := Maps.get_of_mem h
    exact ⟨f, MemoryStore.getFragment_eq_ok.2 hf⟩

end World

/-! ## Calls that strand, and calls that rescue -/

namespace Call

def Succeeds (w : World) (call : Call) : Prop := ∃ a, (call.perform w).1 = .ok a

/-- A call that leaves a fragment in the store alone: its image is put when its entry is gone, or its entry is
removed when its image is there. -/
def Strands (w : World) (p : String × String) (call : Call) : Prop :=
  match call with
  | .putFragment db f => (db, f.name) = p ∧ call.Succeeds w ∧ p ∉ w.catalogued
  | .removeFragment db name => (db, name) = p ∧ call.Succeeds w ∧ p ∈ w.stored
  | _ => False

/-- A call after which a fragment is not in the store alone: it is entered again, or deleted with or without its
database. -/
def Rescues (w : World) (p : String × String) (call : Call) : Prop :=
  match call with
  | .addFragment f => (f.db, f.name) = p ∧ call.Succeeds w
  | .deleteFragment db name => (db, name) = p ∧ call.Succeeds w
  | .deleteDatabase db => db = p.1 ∧ call.Succeeds w
  | _ => False

theorem succeeds_iff {call : Call} : call.Succeeds (.memory d c m) ↔ ∃ r, call.inMemory d c m = .ok r := by
  unfold Succeeds
  rw [perform_memory]
  cases call.inMemory d c m <;> simp

end Call

/-- A fragment that is in the store alone. -/
def Loose (c : Catalog) (m : MemoryStore) (p : String × String) : Prop :=
  p.2 ∈ m.fragments p.1 ∧ ¬c.Has p.1 p.2

section

variable {φ ψ χ : Phase} {call : Call}

theorem loose_iff_of_ok (hs : Sound c m φ) (hok : call.Succeeds (.memory d c m))
    (ha : Advance c m φ call ψ c' m') : Loose c' m' p ↔
      call.Strands (.memory d c m) p ∨ (Loose c m p ∧ ¬call.Rescues (.memory d c m) p) := by
  obtain ⟨x, n⟩ := p
  have coherent := hs.coherent
  have half := hs.half
  unfold Loose Call.Strands Call.Rescues
  cases ha with
  | read _ hr => cases call <;> first | exact hr.elim | simp
  | chooseDatabase | chooseFragment | flush => simp
  | addDatabase db hdb hc =>
    have hhas := Catalog.has_addDatabase coherent (Name.plain_of_check hdb) hc
    simp [hhas]
  | putDatabase db hm => simp [MemoryStore.fragments_putDatabase hm]
  | undoDatabase db hc | removeDatabase db hc =>
    have hgone := MemoryStore.fragments_absent (half db rfl).2
    have hhas := Catalog.has_removeDatabase coherent hc
    -- The database is no longer in the store, so none of its fragments is left alone there.
    by_cases hx : db = x
    · subst hx
      simp [hgone]
    · simp [hhas, hx]
  | deleteDatabase db hm =>
    simp only [MemoryStore.holds_deleteDatabase hm, hok]
    grind
  | addFragment db device f hc =>
    simp only [Catalog.has_addFragment coherent hc, hok]
    grind
  | putFragment db device f hm =>
    simp only [MemoryStore.holds_putFragment hm, hok, World.mem_catalogued]
    grind
  | releaseFragment db device f hc | removeFragment db name hc =>
    have hhad := Catalog.has_of_removeFragment coherent hs.plain hc
    simp only [Catalog.has_removeFragment coherent hs.plain hc, hok, World.mem_stored]
    grind
  | deleteFragment db name hm =>
    simp only [MemoryStore.holds_deleteFragment hm, hok]
    grind

theorem loose_iff_of_error {e : Error} (hcall : call.inMemory d c m = .error e) : Loose c m p ↔
    call.Strands (.memory d c m) p ∨ (Loose c m p ∧ ¬call.Rescues (.memory d c m) p) := by
  have hfails : ¬call.Succeeds (.memory d c m) := by
    rw [Call.succeeds_iff, hcall]
    nofun
  have hstrands : ¬call.Strands (.memory d c m) p := by
    unfold Call.Strands
    grind
  have hrescues : ¬call.Rescues (.memory d c m) p := by
    unfold Call.Rescues
    grind
  simp [hstrands, hrescues]

/-- A fragment comes to be in the store alone by a call that strands it, and stays so until one that rescues it. -/
theorem Turn.loose_iff {call? : Option Call} (h : Turn d c m φ call? c' m' ψ) (hs : Sound c m φ) :
    Loose c' m' p ↔ (∃ call ∈ call?, call.Strands (.memory d c m) p) ∨
      (Loose c m p ∧ ∀ call ∈ call?, ¬call.Rescues (.memory d c m) p) := by
  cases h with
  | submit => simp
  | ok hstep hcall => simpa using loose_iff_of_ok hs (Call.succeeds_iff.2 ⟨_, hcall⟩) (hstep.advance hcall)
  | error hstep hcall => simpa using loose_iff_of_error hcall

end

/-! ## What must have come before -/

/-- A call that completes or takes back an operation on a fragment of a database. -/
def Call.Completes : Call → String → Prop
  | .putFragment x _, db | .removeFragment x _, db => x = db
  | _, _ => False

/-- A state in which no fragment of a database is in the store alone, and every one that some session is about to
put or to remove the entry of is in the catalog alone. -/
structure Undisturbed (c : Catalog) (m : MemoryStore) (φ : Nat → Phase) (db : String) : Prop where
  held : ∀ name, Held φ (·.Window db name) (Missing c m db name)
  tight : ∀ name, ¬Loose c m (db, name)

/-- What a turn does to the fragments of an undisturbed database, unless it removes the database. -/
structure Guards (c : Catalog) (m : MemoryStore) (φ : Phase) (call? : Option Call) (c' : Catalog)
    (m' : MemoryStore) (ψ : Phase) (db : String) : Prop where
  takes : ∀ name, ψ.Window db name → Missing c' m' db name ∧ (φ.Window db name ∨ ¬Missing c m db name)
  leaves : ∀ name, Missing c m db name → ¬φ.Window db name → call? ≠ some (.removeDatabase db) →
    Missing c' m' db name
  tight : ∀ name, ¬Loose c' m' (db, name)

section

variable {φ ψ χ : Phase} {call : Call} {db : String}

theorem Guards.ok (hs : Sound c m φ) (hw : ∀ name, φ.Window db name → Missing c m db name)
    (ht : ∀ name, ¬Loose c m (db, name)) (ha : Advance c m φ call ψ c' m') :
    Guards c m φ (some call) c' m' ψ db := by
  have coherent := hs.coherent
  have half := hs.half
  have hentered : ∀ name, name ∈ m.fragments db → c.Has db name := fun name hheld =>
    not_not.1 fun hnot => ht name ⟨hheld, hnot⟩
  cases ha with
  | read | chooseDatabase | chooseFragment | flush => exact ⟨nofun, fun _ hmiss _ _ => hmiss, ht⟩
  | addDatabase x hx hc =>
    have hhas := Catalog.has_addDatabase coherent (Name.plain_of_check hx) hc
    constructor <;> grind [Phase.Window, Missing, Loose]
  | putDatabase x hm =>
    have hfragments := MemoryStore.fragments_putDatabase hm
    constructor <;> grind [Phase.Window, Missing, Loose]
  | undoDatabase x hc | removeDatabase x hc =>
    have hgone := MemoryStore.fragments_absent (half x rfl).2
    have hhas := Catalog.has_removeDatabase coherent hc
    constructor <;> grind [Phase.Window, Missing, Loose, Std.ExtTreeMap.not_mem_empty]
  | deleteDatabase x hm =>
    have hholds := MemoryStore.holds_deleteDatabase hm
    constructor <;> grind [Phase.Window, Missing, Loose]
  | addFragment x device f hc =>
    have hnew := Catalog.not_has_of_addFragment hc
    have hhas := Catalog.has_addFragment coherent hc
    constructor <;> grind [Phase.Window, Missing, Loose, FragmentEntry.describe]
  | putFragment x device f hm =>
    have hholds := MemoryStore.holds_putFragment hm
    -- The session is in the window, so the fragment that is put has its entry.
    simp only [Phase.Window, Missing] at hw
    constructor <;> grind [Phase.Window, Missing, Loose]
  | releaseFragment x device f hc | removeFragment x name hc =>
    have hhas := Catalog.has_removeFragment coherent hs.plain hc
    -- The session is in the window, so the fragment whose entry is removed is not in the store.
    simp only [Phase.Window, Missing] at hw
    constructor <;> grind [Phase.Window, Missing, Loose]
  | deleteFragment x name hm =>
    have hheld := (MemoryStore.deleteFragment_eq_ok.1 hm).1
    have hholds := MemoryStore.holds_deleteFragment hm
    constructor <;> grind [Phase.Window, Missing, Loose]

theorem Guards.error (hw : ∀ name, φ.Window db name → Missing c m db name)
    (ht : ∀ name, ¬Loose c m (db, name)) (hstep : φ.Step call ψ χ) : Guards c m φ (some call) c m χ db := by
  have hkeep : ∀ name, χ.Window db name → φ.Window db name := by
    intro name hχ
    cases hstep <;> first | exact hχ | exact hχ.elim
  exact ⟨fun name hχ => ⟨hw name (hkeep name hχ), .inl (hkeep name hχ)⟩, fun _ hmiss _ _ => hmiss, ht⟩

theorem Turn.guards {call? : Option Call} (h : Turn d c m φ call? c' m' ψ) (hs : Sound c m φ)
    (hw : ∀ name, φ.Window db name → Missing c m db name) (ht : ∀ name, ¬Loose c m (db, name)) :
    Guards c m φ call? c' m' ψ db := by
  cases h with
  | submit => exact ⟨nofun, fun _ hmiss _ _ => hmiss, ht⟩
  | ok hstep hcall => exact .ok hs hw ht (hstep.advance hcall)
  | error hstep hcall => exact .error hw ht hstep

end

/-- A session in a window is about to complete what it does, or to take it back. -/
theorem Activity.completes_of_window {x : Activity} {φ : Phase} {db name : String} (h : x.Follows φ)
    (hw : φ.Window db name) : ∃ call next, x = .busy call next ∧ call.Completes db := by
  cases x with
  | idle s => rcases h with rfl | rfl | rfl <;> exact hw.elim
  | busy call next =>
    obtain ⟨ψ, χ, hstep, -⟩ := h
    refine ⟨call, next, rfl, ?_⟩
    cases hstep <;> first | exact hw.1 | exact hw.elim

namespace System

variable {S : System} {db : String}

/-- A database is removed from the catalog when another session is about to complete or take back an operation on
one of its fragments. -/
def Overlaps (S : System) (db : String) (move : Move) : Prop :=
  S.pending move = some (.removeDatabase db) ∧
    ∃ j call next, S.sessions j = .busy call next ∧ call.Completes db

/-- Whether a history contains such a removal. -/
def Overlapped (S : System) (db : String) : List Move → Prop
  | [] => False
  | move :: earlier => (S.after earlier).Overlaps db move ∨ S.Overlapped db earlier

/-- Whether a history strands a fragment and does not rescue it afterwards. -/
def Stranded (S : System) (p : String × String) : List Move → Prop
  | [] => False
  | move :: earlier =>
    (∃ call ∈ (S.after earlier).pending move, call.Strands (S.after earlier).world p) ∨
      (S.Stranded p earlier ∧ ∀ call ∈ (S.after earlier).pending move, ¬call.Rescues (S.after earlier).world p)

theorem Undisturbed.turn {φ : Nat → Phase} {ψ : Phase} {i : Nat} {call? : Option Call} (h : Undisturbed c m φ db)
    (hs : Sound c m (φ i)) (hturn : Turn d c m (φ i) call? c' m' ψ)
    (hno : call? = some (.removeDatabase db) → ∀ j name, ¬(φ j).Window db name) :
    Undisturbed c' m' (Function.update φ i ψ) db := by
  have hguards := hturn.guards hs (fun name => (h.held name).made i) h.tight
  refine ⟨fun name => (h.held name).update (hguards.takes name) fun hmiss hnot hother => ?_, hguards.tight⟩
  obtain ⟨j, -, hj⟩ := hother
  exact hguards.leaves name hmiss hnot fun he => hno he j name hj

/-- What a history accounts for: the fragments in the store alone are those that it has stranded, and a database
is undisturbed unless it has been removed during an operation on one of its fragments. -/
structure Explained (S₀ : System) (d : Disk) (history : List Move) (c : Catalog) (m : MemoryStore)
    (φ : Nat → Phase) : Prop where
  reaches : (S₀.after history).Reaches d c m φ
  stranded : ∀ p, S₀.Stranded p history ↔ Loose c m p
  undisturbed : ∀ db, ¬S₀.Overlapped db history → Undisturbed c m φ db

theorem explained_after (e : Engine) (d : Disk) (history : List Move) :
    ∃ c m φ, Explained (start e d) d history c m φ := by
  induction history with
  | nil =>
    refine ⟨.empty, ∅, fun _ => .start, .start e d, fun p => ?_, fun db _ => ⟨fun name => ⟨nofun, nofun⟩, ?_⟩⟩
    · simp [Stranded, Loose, MemoryStore.fragments]
    · simp [Loose, MemoryStore.fragments]
  | cons move earlier ih =>
    obtain ⟨c, m, φ, h⟩ := ih
    rcases h.reaches.step move with ⟨hnone, hsame⟩ | ⟨i, ψ, c', m', hturn, hreaches⟩
    · refine ⟨c, m, φ, ?_, fun p => ?_, fun db hno => h.undisturbed db fun ho => hno (.inr ho)⟩
      · rw [after, hsame]
        exact h.reaches
      · unfold Stranded
        rw [hnone, h.stranded]
        simp
    · have hsound := h.reaches.inv.sound i
      refine ⟨c', m', Function.update φ i ψ, hreaches, fun p => ?_, fun db hno => ?_⟩
      · unfold Stranded
        rw [h.stranded, h.reaches.world, hturn.loose_iff hsound]
      -- A removal that some session's window forbids would be an overlap of the history.
      · refine Undisturbed.turn (h.undisturbed db fun ho => hno (.inr ho)) hsound hturn fun he j name hw => ?_
        obtain ⟨call, next, hj, hcompletes⟩ := Activity.completes_of_window (h.reaches.follows j) hw
        exact hno (.inl ⟨he, j, call, next, hj, hcompletes⟩)

/-! ## A stranded fragment -/

/-- Session 0 makes a database and has claimed a fragment in it; session 1 drops the database and makes it again;
session 0 puts the image. -/
def lateImage : List Move :=
  let create := "operation=create_db;db_name=db"
  let drop := "operation=drop_db;db_name=db"
  let write := "operation=create_frag;frag_name=db.f;field=id;field_type=long;run=0"
  let moves : List Move :=
    [.submit 0 create [], .call 0, .call 0, .call 0, .submit 0 write [], .call 0, .call 0, .call 0,
      .submit 1 drop [], .call 1, .call 1, .call 1, .call 1, .submit 1 create [], .call 1, .call 1, .call 1,
      .call 0, .call 0]
  moves.reverse

/-- Where the session has claimed the fragment, and its database is then dropped and made again. -/
def lateState : System := (start (.builtin 0) .empty).after lateImage

theorem lateState_end : (∀ i < 2, (lateState.sessions i).isIdle = true) ∧
    (lateState.world.getFragment "db" "f").isOk = true ∧
    (lateState.world.catalog.fragment "db" "f").isOk = false := by
  decide +kernel

theorem lateState_quiet : lateState.Quiet := by
  intro i
  by_cases hi : i < 2
  · exact Activity.idle_of_isIdle (lateState_end.1 i hi)
  · have hsessions : ∀ move ∈ lateImage, move.session < 2 := by decide
    have hnever : ∀ move ∈ lateImage, move.session ≠ i := by
      intro move hmove
      have := hsessions move hmove
      omega
    unfold lateState
    rw [after_untouched lateImage hnever]
    exact ⟨_, rfl⟩

theorem lateState_stored : ("db", "f") ∈ lateState.world.stored := by
  have hok := lateState_end.2.1
  unfold World.stored
  cases hf : lateState.world.getFragment "db" "f" with
  | error e => simp [hf, Except.isOk, Except.toBool] at hok
  | ok f => exact ⟨f, hf⟩

theorem lateState_not_catalogued : ("db", "f") ∉ lateState.world.catalogued := by
  rintro ⟨f, hf⟩
  have hfails := lateState_end.2.2
  simp [hf, Except.isOk, Except.toBool] at hfails

/-! ## Quiet systems -/

/-- When no query is in flight, every fragment of the catalog is in the store, and the catalog has every fragment
of the store exactly if none has been stranded and not rescued. A fragment is stranded only if its database has
been removed from the catalog when another session was about to complete or take back an operation on it. -/
theorem quiet_pairs (e : Engine) (d : Disk) (history : List Move) (hq : ((start e d).after history).Quiet) :
    ((start e d).after history).world.catalogued ⊆ ((start e d).after history).world.stored ∧
    (((start e d).after history).world.catalogued = ((start e d).after history).world.stored ↔
      ∀ p, ¬(start e d).Stranded p history) ∧
    ∀ p, (start e d).Stranded p history → (start e d).Overlapped p.1 history := by
  obtain ⟨c, m, φ, h⟩ := explained_after e d history
  rw [h.reaches.world]
  have hsub : (World.memory d c m).catalogued ⊆ (World.memory d c m).stored := by
    intro p hp
    rw [World.mem_catalogued] at hp
    rw [World.mem_stored]
    by_contra hnot
    exact (h.reaches.quiet hq).2 p.1 p.2 ⟨hp, hnot⟩
  refine ⟨hsub, ⟨fun heq p hp => ?_, fun hnone => hsub.antisymm fun p hp => ?_⟩, fun p hp => ?_⟩
  · obtain ⟨hheld, hnot⟩ := (h.stranded p).1 hp
    exact hnot (World.mem_catalogued.1 (heq ▸ World.mem_stored.2 hheld))
  · rw [World.mem_stored] at hp
    rw [World.mem_catalogued]
    by_contra hnot
    exact hnone p ((h.stranded p).2 ⟨hp, hnot⟩)
  · by_contra hno
    exact (h.undisturbed p.1 hno).tight p.2 ((h.stranded p).1 hp)

/-- The history that strands a fragment has an overlap, by the theorem. -/
theorem quiet_pairs_lateImage : lateState.Quiet ∧ ∃ p,
    (start (.builtin 0) .empty).Stranded p lateImage ∧ (start (.builtin 0) .empty).Overlapped p.1 lateImage := by
  obtain ⟨-, hiff, hoverlap⟩ := quiet_pairs (.builtin 0) .empty lateImage lateState_quiet
  refine ⟨lateState_quiet, ?_⟩
  by_contra hnone
  have heq := hiff.2 fun p hp => hnone ⟨p, hp, hoverlap p hp⟩
  exact lateState_not_catalogued (heq ▸ lateState_stored)

/-- No query is in flight, and a fragment is in the store that the catalog does not have. -/
theorem lateImage_disagrees : lateState.Quiet ∧ lateState.world.catalogued ≠ lateState.world.stored :=
  ⟨lateState_quiet, fun heq => lateState_not_catalogued (heq ▸ lateState_stored)⟩

end System

end FragmentEngine
