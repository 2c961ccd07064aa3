import Docwright.Json.Writer
import Docwright.Survey.Extract

/-!
# The structure of a repository

The structure lists the source files by path, each with an entry: what was found
in it, that it is blank, or why it could not be analysed. In the structure file
every entry has lists of includes, functions and classes, and the entry of a
file that could not be analysed has the error too.
-/

namespace Docwright.Survey

/-- What the survey knows of a source file. -/
inductive Entry where
  | analysed (findings : Findings)
  | blank
  | failed (error : String)
  deriving DecidableEq, Repr

/-- Source files by path. -/
abbrev Structure := List (String × Entry)

def emptyLists : List (String × Json.Value) :=
  [("includes", .arr []), ("functions", .arr []), ("classes", .arr [])]

/-- An entry as it stands in the structure file. -/
def Entry.toValue : Entry → Json.Value
  | .analysed findings => .obj (findings.map fun (key, texts) => (key, .texts texts))
  | .blank => .obj emptyLists
  | .failed error => .obj (emptyLists ++ [("error", .str error)])

def Structure.toValue (files : Structure) : Json.Value :=
  .obj (files.map fun (path, entry) => (path, entry.toValue))

def Structure.text (files : Structure) : String := files.toValue.write 4

end Docwright.Survey
