import FragmentEngine.Error
import FragmentEngine.Text.Split
/-!
# Paths

Where files and directories are, and the routes by which a text leads to them. A route is taken step by step
between its slashes, from the working directory or, after a leading slash, from the top of the system.
-/

namespace FragmentEngine

/-- The names from the top directory to a file or directory. -/
abbrev Path := List String

/-- The directory of which the working directory is an entry. No step reaches it or the working directory by its
name, as `.` stays in place. -/
def Path.aboveWorking : Path := ["."]

def Path.working : Path := Path.aboveWorking ++ ["."]

/-- A text that leads to a file or directory. -/
structure Route where
  text : String
  deriving DecidableEq

namespace Route

/-- The directory in which the first step is taken. -/
def start (r : Route) : Path := if r.text.toList.head? = some '/' then [] else Path.working

/-- What stands between the slashes; `.` stays in place and `..` goes up. -/
def steps (r : Route) : List String :=
  ((Text.splitAll (· == '/') r.text.toList).filter (!·.isEmpty)).map String.ofList

/-- Whether a slash follows the last step, so that it has to lead to a directory. -/
def isClosed (r : Route) : Bool := r.text.toList.getLast? == some '/'

/-- The route to an entry of the directory that a route leads to. -/
def entry (r : Route) (name : String) : Route :=
  if r.text.isEmpty || r.isClosed then ⟨r.text ++ name⟩ else ⟨s!"{r.text}/{name}"⟩

/-- How many bytes a route may have. -/
def limit : Nat := 4095

/-- Refuses a route that cannot be taken at all. -/
def check (r : Route) : Except DiskError Unit :=
  if '\x00' ∈ r.text.toList then .error .nulInName
  else if limit < r.text.utf8ByteSize then .error .nameTooLong
  else if r.text.isEmpty then .error .notFound
  else .ok ()

/-- The steps without those at the end that stay in place. -/
def trimmed (steps : List String) : List String := (steps.reverse.dropWhile (· == ".")).reverse

/-- The steps to a directory and then to those on the way to it, the longest first. A way ends in a step that
moves. -/
def ways (steps : List String) : List (List String) :=
  let moved := trimmed steps
  steps :: ((List.range moved.length).reverse.map moved.take).filter fun way => !way.isEmpty && way == trimmed way

example : (Route.mk "a//./b/").steps = ["a", ".", "b"] ∧ (Route.mk "").entry "b" = ⟨"b"⟩ ∧
    (Route.mk "a/").entry "b" = (Route.mk "a").entry "b" := by decide +kernel

example : ways ["a", ".", "b", "."] = [["a", ".", "b", "."], ["a"]] ∧ ways ["."] = [["."]] := by
  decide +kernel

end Route

end FragmentEngine
