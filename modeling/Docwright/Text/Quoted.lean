import Docwright.Text.Hex
import Docwright.Text.Printable

/-!
# Quoted literals

The quoted form of a text stands in reports: titles in a list, paths in the
message of a disk error, keys that were not found. It is put between
apostrophes, or between quotation marks when the text has an apostrophe and no
quotation mark. The mark itself and the backslash get a backslash in front, tab,
line feed and carriage return have escapes of their own, and a character that
is not printable is shown by its number in two, four or eight hexadecimal
digits.
-/

namespace Docwright.Text

def quoteMark (cs : List Char) : Char :=
  if cs.contains '\'' && !cs.contains '"' then '"' else '\''

/-- One character inside a quoted form that is enclosed by `mark`. -/
def quoteChar (mark c : Char) : List Char :=
  if c = mark ∨ c = '\\' then ['\\', c]
  else if c = '\t' then ['\\', 't']
  else if c = '\n' then ['\\', 'n']
  else if c = '\r' then ['\\', 'r']
  else if isPrintable c then [c]
  else if c.toNat < 0x100 then '\\' :: 'x' :: hexDigits 2 c.toNat
  else if c.toNat < 0x10000 then '\\' :: 'u' :: hexDigits 4 c.toNat
  else '\\' :: 'U' :: hexDigits 8 c.toNat

def quote (s : String) : String :=
  let mark := quoteMark s.toList
  String.ofList (mark :: (s.toList.flatMap (quoteChar mark) ++ [mark]))

def quoteList (texts : List String) : String :=
  "[" ++ String.intercalate ", " (texts.map quote) ++ "]"

end Docwright.Text
