import Docwright.Text.Ranges

/-!
# Lines

`lines` cuts a text at its line ends: line feed, carriage return (alone or
followed by a line feed), line tabulation, form feed, the information separators
four to two, next line, and the line and paragraph separators. A line end
closes the line before it, so a text that stops at a line end has no further
empty line.

`unifyNewlines` is what reading a text file does to it: a carriage return, alone
or followed by a line feed, becomes one line feed. Both functions carry what
they have read so far, last character first.
-/

namespace Docwright.Text

def isLineEnd (c : Char) : Bool :=
  inRanges [(10, 13), (28, 30), (133, 133), (8232, 8233)] c

/-- Lines of the remaining text, after the current line and the finished ones,
both kept in reverse. -/
def linesFrom : List Char → List Char → List (List Char) → List (List Char)
  | [], [], finished => finished.reverse
  | [], current, finished => (current.reverse :: finished).reverse
  | '\r' :: '\n' :: rest, current, finished =>
      linesFrom rest [] (current.reverse :: finished)
  | c :: rest, current, finished =>
      if isLineEnd c then linesFrom rest [] (current.reverse :: finished)
      else linesFrom rest (c :: current) finished

/-- The lines of a text, without their line ends. -/
def lines (cs : List Char) : List (List Char) := linesFrom cs [] []

@[simp] theorem lines_nil : lines [] = [] := rfl

/-- The remaining text with unified newlines, after the part already read, which
is kept in reverse. -/
def unifyFrom : List Char → List Char → List Char
  | [], seen => seen.reverse
  | '\r' :: '\n' :: rest, seen => unifyFrom rest ('\n' :: seen)
  | c :: rest, seen => unifyFrom rest ((if c = '\r' then '\n' else c) :: seen)

/-- Every carriage return, with the line feed after it if there is one, becomes
a line feed. -/
def unifyNewlines (cs : List Char) : List Char := unifyFrom cs []

@[simp] theorem unifyNewlines_nil : unifyNewlines [] = [] := rfl

end Docwright.Text
