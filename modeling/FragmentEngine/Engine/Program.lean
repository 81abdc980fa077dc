import FragmentEngine.Engine.World
/-!
# Programs of calls

What a query does, as the calls it makes one after another, each chosen by the answers before it. Run by
itself a program goes from its first call to its last; programs of several sessions may take turns call by
call.
-/

namespace FragmentEngine

inductive Program (α : Type) where
  | done (a : α)
  /-- Makes a call and goes on with its answer. -/
  | call (c : Call) (next : Except Error c.Reply → Program α)

namespace Program

def bind {α β : Type} (p : Program α) (f : α → Program β) : Program β :=
  match p with
  | .done a => f a
  | .call c next => .call c fun reply => (next reply).bind f

instance : Monad Program where
  pure := .done
  bind := bind

/-- Runs a program to its end. -/
def run {α : Type} (w : World) : Program α → α × World
  | .done a => (a, w)
  | .call c next =>
    let (reply, w) := c.perform w
    (next reply).run w

/-- One call of a program. -/
def advance {α : Type} (w : World) : Program α → Program α × World
  | .done a => (.done a, w)
  | .call c next =>
    let (reply, w) := c.perform w
    (next reply, w)

@[simp] theorem pure_def {α : Type} (a : α) : (pure a : Program α) = .done a := rfl

@[simp] theorem bind_done {α β : Type} (a : α) (f : α → Program β) : (Program.done a >>= f) = f a := rfl

theorem bind_pure {α : Type} (p : Program α) : (p >>= fun a => .done a) = p := by
  induction p with
  | done a => rfl
  | call c next ih => exact congrArg (Program.call c) (funext ih)

theorem bind_assoc {α β γ : Type} (p : Program α) (f : α → Program β) (g : β → Program γ) :
    (p >>= f >>= g) = (p >>= fun a => f a >>= g) := by
  induction p with
  | done a => rfl
  | call c next ih => exact congrArg (Program.call c) (funext ih)

theorem run_bind {α β : Type} (w : World) (p : Program α) (f : α → Program β) :
    (p >>= f).run w = (f (p.run w).1).run (p.run w).2 := by
  induction p generalizing w with
  | done a => rfl
  | call c next ih => exact ih _ _

end Program

/-- A program that may fail. -/
abbrev Query := ExceptT Error Program

namespace Call

/-- The call, failing if it fails. -/
def make (c : Call) : Query c.Reply := ExceptT.mk (.call c .done)

/-- The call with its outcome, whether it fails or not. -/
def attempt (c : Call) : Query (Except Error c.Reply) := ExceptT.mk (.call c fun reply => .done (.ok reply))

end Call

end FragmentEngine
