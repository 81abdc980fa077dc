import FragmentEngine.Engine.World
import FragmentEngine.Proofs.Store.Files
/-!
# Files answer as memory does

An engine in memory and one in an empty directory give the same answer to every call of the store, whatever calls of
the store were made before, and however they ended.
-/

namespace FragmentEngine

/-- A call of the store whose names are safe and short enough for a disk, and whose fragment an image can hold. -/
inductive Call.Storable : Call → Prop
  | putDatabase {db : String} (hdb : Name.Fits "" db) : Storable (.putDatabase db)
  | deleteDatabase {db : String} (hdb : Name.Fits "" db) : Storable (.deleteDatabase db)
  | putFragment {db : String} {f : Fragment} (hdb : Name.Fits "" db) (hname : Name.Fits ".frag" f.name)
      (hf : Image.Fits f) : Storable (.putFragment db f)
  | getFragment {db name : String} (hdb : Name.Fits "" db) (hname : Name.Fits ".frag" name) :
      Storable (.getFragment db name)
  | deleteFragment {db name : String} (hdb : Name.Fits "" db) (hname : Name.Fits ".frag" name) :
      Storable (.deleteFragment db name)

namespace World

variable {w v : World} {call : Call}

/-- The first world has its fragments in memory, the second one the same fragments in files. -/
def Mirrors (w v : World) : Prop :=
  ∃ (m : MemoryStore) (s : FileStore), w.store = .memory m ∧ v.store = .files s ∧ s.Mirrors v.disk m

/-- An operation that changes the store as a whole is answered alike, and leaves stores that mirror each other. -/
theorem mirrors_replaced {m : MemoryStore} {s : FileStore} {m? : Except Error MemoryStore} {d? : Except Error Disk}
    (hw : w.store = .memory m) (hv : v.store = .files s) (h : s.Mirrors v.disk m) (hagree : s.Agree d? m?) :
    (w.replacedBy do return { w with store := .memory (← m?) }).1 =
        (v.replacedBy do return { v with disk := ← d? }).1 ∧
      Mirrors (w.replacedBy do return { w with store := .memory (← m?) }).2
        (v.replacedBy do return { v with disk := ← d? }).2 := by
  cases hagree with
  | ok h' => exact ⟨rfl, _, s, rfl, hv, h'⟩
  | error e => exact ⟨rfl, m, s, hw, hv, h⟩

/-- One call of the store is answered alike, and keeps the worlds alike. -/
theorem Mirrors.perform (h : w.Mirrors v) (hcall : call.Storable) :
    (call.perform w).1 = (call.perform v).1 ∧ (call.perform w).2.Mirrors (call.perform v).2 := by
  obtain ⟨dw, cw, fw, _⟩ := w
  obtain ⟨dv, cv, fv, _⟩ := v
  obtain ⟨m, s, rfl, rfl, hs⟩ := h
  cases hcall with
  | putDatabase hdb => exact mirrors_replaced rfl rfl hs (hs.putDatabase hdb)
  | deleteDatabase hdb => exact mirrors_replaced rfl rfl hs (hs.deleteDatabase hdb)
  | deleteFragment hdb hname => exact mirrors_replaced rfl rfl hs (hs.deleteFragment hdb hname)
  | getFragment hdb hname => exact ⟨(hs.getFragment hdb hname).symm, m, s, rfl, rfl, hs⟩
  | putFragment hdb hname hf =>
    simp only [Call.perform, World.putFragment]
    rcases hs.putFragment hdb hname hf with ⟨d', m', hfiles, hmemory, hs'⟩ | ⟨e, hfiles, hmemory⟩
    · rw [hfiles, hmemory]
      exact ⟨rfl, m', s, rfl, rfl, hs'⟩
    · rw [hfiles, hmemory]
      exact ⟨rfl, m, s, rfl, rfl, hs⟩

/-- The answers of calls made one after another, each with its call. -/
def answers (w : World) : List Call → List ((c : Call) × Except Error c.Reply)
  | [] => []
  | c :: rest => ⟨c, (c.perform w).1⟩ :: (c.perform w).2.answers rest

theorem Mirrors.answers (h : w.Mirrors v) (calls : List Call) (hcalls : ∀ c ∈ calls, c.Storable) :
    w.answers calls = v.answers calls := by
  induction calls generalizing w v with
  | nil => rfl
  | cons c rest ih =>
    obtain ⟨hreply, hnext⟩ := h.perform (hcalls c List.mem_cons_self)
    rw [World.answers, World.answers, hreply, ih hnext fun c' hc => hcalls c' (List.mem_cons_of_mem c hc)]

/-- A store in memory and one in an empty directory answer every sequence of calls alike. -/
theorem answers_inMemory_eq_keptIn (d₁ d₂ : Disk) (root : Path) (hroot : d₂.IsEmptyDirectory root)
    (calls : List Call) (hcalls : ∀ c ∈ calls, c.Storable) :
    (inMemory d₁).answers calls = (keptIn d₂ root .empty).answers calls :=
  Mirrors.answers ⟨∅, ⟨root⟩, rfl, rfl, .empty hroot⟩ calls hcalls

/-! ## One sequence -/

/-- A fragment with one row. -/
def oneRow : Fragment where
  name := "f"
  schema := ⟨[⟨"id", .long, true⟩]⟩
  records := [⟨[(1 : Long).toBytes]⟩]
  temporary := false

/-- A fragment put, read, replaced and deleted, and calls for what is missing. -/
def mixedCalls : List Call :=
  [.putFragment "db" oneRow, .putDatabase "db", .putFragment "db" oneRow, .getFragment "db" "f",
    .putFragment "db" oneRow, .deleteFragment "db" "f", .getFragment "db" "f", .deleteDatabase "db",
    .deleteDatabase "db"]

theorem answers_inMemory_eq_keptIn_mixedCalls :
    Disk.empty.IsEmptyDirectory Path.working ∧ (∀ c ∈ mixedCalls, c.Storable) ∧
      (inMemory Disk.empty).answers mixedCalls = (keptIn Disk.empty Path.working .empty).answers mixedCalls := by
  have hdb : Name.Fits "" "db" := ⟨rfl, by decide⟩
  have hname : Name.Fits ".frag" "f" := ⟨rfl, by decide⟩
  have hf : Image.Fits oneRow := by constructor <;> decide +kernel
  have hcalls : ∀ c ∈ mixedCalls, c.Storable := by
    simp only [mixedCalls, List.forall_mem_cons, List.not_mem_nil, false_implies, implies_true, and_true]
    exact ⟨.putFragment hdb hname hf, .putDatabase hdb, .putFragment hdb hname hf, .getFragment hdb hname,
      .putFragment hdb hname hf, .deleteFragment hdb hname, .getFragment hdb hname, .deleteDatabase hdb,
      .deleteDatabase hdb⟩
  exact ⟨Disk.isEmptyDirectory_working, hcalls,
    answers_inMemory_eq_keptIn Disk.empty Disk.empty Path.working Disk.isEmptyDirectory_working mixedCalls hcalls⟩

end World

end FragmentEngine
