import Docwright.Text.Ranges

/-!
# Blank characters

A character is blank when it is a space separator or has one of the
bidirectional types of white space and of paragraph or segment separators
(Unicode 14). Trimming and the patterns of headings and list items all speak of
this one class.
-/

namespace Docwright.Text

def blankRanges : List (Nat × Nat) :=
  [(9, 13), (28, 32), (133, 133), (160, 160), (5760, 5760), (8192, 8202), (8232, 8233),
   (8239, 8239), (8287, 8287), (12288, 12288)]

def isBlank (c : Char) : Bool := inRanges blankRanges c

end Docwright.Text
