import FragmentEngine.Error
/-!
# Names of databases and fragments

A name is safe to use as part of a path: letters, digits, underscores and hyphens, all of them ASCII.
-/

namespace FragmentEngine.Name

def isNameChar (c : Char) : Bool := c.isAlphanum || c == '_' || c == '-'

/-- Refuses an unsafe name. -/
def check (name : String) : Except Error Unit :=
  if name.isEmpty then .error (.missing "name")
  else if name.toList.all isNameChar then .ok ()
  else .error (.parse (.invalidName name))

end FragmentEngine.Name
