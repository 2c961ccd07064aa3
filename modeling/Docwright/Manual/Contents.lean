import Docwright.Text.Digit
import Docwright.Text.Lines
import Docwright.Text.Trim

/-!
# Tables of contents

A table of contents is a Markdown text. Its titles are those of the headings of
level one to three, in order; a table without any such title is read as a list
of items instead, so the two kinds are never mixed. A title loses at most one
label in front, a number or a letter with a full stop, and its blank ends; a
title of which nothing remains does not count.
-/

namespace Docwright.Manual

open Docwright.Text

/-- What follows at least one blank, without the blanks; `none` if there is no
blank. -/
def afterBlanks? : List Char → Option (List Char)
  | c :: rest => if isBlank c then some (rest.dropWhile isBlank) else none
  | [] => none

/-- The text of a heading: after one to three marks and a blank, everything up
to the next mark. -/
def heading? (line : List Char) : Option (List Char) :=
  let marked := line.dropWhile isBlank
  let level := (marked.takeWhile (· == '#')).length
  if 1 ≤ level ∧ level ≤ 3 then
    (afterBlanks? (marked.drop level)).map (·.takeWhile (· != '#'))
  else none

/-- The text of a list item: everything after the bullet and a blank. -/
def item? (line : List Char) : Option (List Char) :=
  match line.dropWhile isBlank with
  | '*' :: rest => afterBlanks? rest
  | '-' :: rest => afterBlanks? rest
  | _ => none

def afterNumber? (title : List Char) : Option (List Char) :=
  match title.takeWhile isDigit, title.dropWhile isDigit with
  | _ :: _, '.' :: rest => some rest
  | _, _ => none

def afterLetter? : List Char → Option (List Char)
  | c :: '.' :: rest => if isLatinLetter c then some rest else none
  | _ => none

/-- The title without one label in front, if it has one. -/
def dropLabel (title : List Char) : List Char :=
  match afterNumber? title, afterLetter? title with
  | some rest, _ => rest.dropWhile isBlank
  | none, some rest => rest.dropWhile isBlank
  | none, none => title

/-- The title proper of a heading or an item. -/
def cleanTitle (text : List Char) : List Char := trim (dropLabel (trim text))

/-- The titles of the lines that `read` recognises. -/
def titlesBy (read : List Char → Option (List Char)) (ls : List (List Char)) :
    List (List Char) :=
  (ls.filterMap read).map cleanTitle |>.filter (!·.isEmpty)

def headingTitles (contents : List Char) : List (List Char) :=
  titlesBy heading? (lines contents)

def itemTitles (contents : List Char) : List (List Char) :=
  titlesBy item? (lines contents)

/-- The titles of a table of contents: of its headings, or of its list items if
no heading gives one. -/
def titles (contents : List Char) : List (List Char) :=
  let found := headingTitles contents
  if found.isEmpty then itemTitles contents else found

/-- The section titles of a table of contents. -/
def sectionTitles (contents : String) : List String :=
  (titles contents.toList).map String.ofList

end Docwright.Manual
