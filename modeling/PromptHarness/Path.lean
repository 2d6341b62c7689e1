import PromptHarness.Text.Stretches

/-!
# Paths

Paths are texts.  A path that begins with a slash is absolute, and joining it to a base gives it
back unchanged.
-/

namespace PromptHarness.Path

def isAbsolute (path : String) : Bool :=
  path.toList.head? == some '/'

/-- The path `name`, seen from `base`.  A slash goes between the two unless the base is empty or
already ends in one. -/
def join (base name : String) : String :=
  if isAbsolute name || base.isEmpty then name
  else if base.toList.getLast? == some '/' then base ++ name
  else base ++ "/" ++ name

/-- The names along a path.  Empty ones stand for the directory reached so far, as `.` does. -/
def names (path : String) : List String :=
  (Text.stretches '/' path.toList).map String.ofList

/-- Without a slash the names of a path are the path alone. -/
theorem names_eq_singleton {path : String} (plain : '/' ∉ path.toList) : names path = [path] := by
  simp [names, Text.stretches_eq_singleton plain]

end PromptHarness.Path
