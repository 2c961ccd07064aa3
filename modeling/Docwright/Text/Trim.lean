import Docwright.Text.Blank

/-!
# Trimming

`trimWhere p` removes the characters of a class from both ends of a text and
leaves the middle alone; `trim` is the case of blank characters. The right end
is reached through `reverse`, so the removal is the same `dropWhile` on both
sides.
-/

namespace Docwright.Text

/-- The text without the trailing characters of the class. -/
def trimEndWhere (p : Char → Bool) (cs : List Char) : List Char :=
  (cs.reverse.dropWhile p).reverse

/-- The text without the characters of the class at its two ends. -/
def trimWhere (p : Char → Bool) (cs : List Char) : List Char :=
  trimEndWhere p (cs.dropWhile p)

def trim (cs : List Char) : List Char := trimWhere isBlank cs

@[simp] theorem trim_nil : trim [] = [] := rfl

def isBlankText (s : String) : Bool := s.toList.all isBlank

/-- The text, if there is one and it is not empty. -/
def nonempty? (text : Option String) : Option String := text.filter (!·.isEmpty)

end Docwright.Text
