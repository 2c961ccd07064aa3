import Docwright.Text.Trim
import Docwright.Text.Word

/-!
# File names of manual sections

A section is stored under a name made from its title. Heading marks in front are
dropped, the ends are trimmed, a space becomes a low line and a slash of either
kind a hyphen; of what remains only word characters, hyphens and full stops are
kept, and full stops at the end are dropped. A title of which nothing is left
gets a fixed name, and a long name is cut at one hundred characters.
-/

namespace Docwright.Manual

open Docwright.Text

/-- The title without the heading marks in front of it and the blanks around
them. -/
def dropHeadingMarks (title : List Char) : List Char :=
  let marked := title.dropWhile isBlank
  match marked with
  | '#' :: _ => (marked.dropWhile (· == '#')).dropWhile isBlank
  | _ => title

/-- Spaces and slashes have stand-ins in a file name. -/
def spell (c : Char) : Char :=
  if c = ' ' then '_'
  else if c = '/' ∨ c = '\\' then '-'
  else c

/-- The characters that a file name keeps. -/
def isNameChar (c : Char) : Bool := isWord c || c == '-' || c == '.'

/-- What the name keeps of a title, before it is cut. -/
def keptChars (title : List Char) : List Char :=
  trimEndWhere (· == '.')
    (((trim (dropHeadingMarks title)).map spell).filter isNameChar)

def untitledStem : List Char := "untitled_section".toList

def stemLimit : Nat := 100

/-- The name of a section's file without its extension. -/
def stem (title : List Char) : List Char :=
  let kept := keptChars title
  (if kept.isEmpty then untitledStem else kept).take stemLimit

def sectionName (title : String) : String :=
  String.ofList (stem title.toList) ++ ".md"

end Docwright.Manual
