import Docwright.Json.Value
import Docwright.Number.Shortest
import Docwright.Text.Hex

/-!
# Writing JSON

A value is written over several lines, each level indented by the same number of
spaces, with `,` after an element and `: ` after a name; an empty array or
object is written without a line break. Texts are written in ASCII: every
character outside the range from space to tilde is escaped, one above `U+FFFF` by
the two halves of its surrogate pair.
-/

namespace Docwright.Json

open Docwright.Text

/-- The escape of a code unit of sixteen bits. -/
def unitEscape (n : Nat) : List Char := '\\' :: 'u' :: hexDigits 4 n

/-- One character inside a written text. -/
def writeChar (c : Char) : List Char :=
  if c = '"' then ['\\', '"']
  else if c = '\\' then ['\\', '\\']
  else if c = '\n' then ['\\', 'n']
  else if c = '\r' then ['\\', 'r']
  else if c = '\t' then ['\\', 't']
  else if c.toNat = 8 then ['\\', 'b']
  else if c.toNat = 12 then ['\\', 'f']
  else if 32 ≤ c.toNat ∧ c.toNat ≤ 126 then [c]
  else if c.toNat < 0x10000 then unitEscape c.toNat
  else
    let n := c.toNat - 0x10000
    unitEscape (0xD800 + n / 0x400) ++ unitEscape (0xDC00 + n % 0x400)

def writeText (s : String) : String :=
  String.ofList ('"' :: (s.toList.flatMap writeChar ++ ['"']))

def writeFloat : Binary64 → String
  | .nan => "NaN"
  | .infinite negative => if negative then "-Infinity" else "Infinity"
  | x => x.text

/-- A line break and the indentation of a level. -/
def newline (indent level : Nat) : String :=
  String.ofList ('\n' :: List.replicate (indent * level) ' ')

/-- Written parts on lines of their own between two brackets. -/
def bracketed (opening closing : String) (indent level : Nat) : List String → String
  | [] => opening ++ closing
  | parts =>
      opening ++ newline indent (level + 1) ++
        String.intercalate ("," ++ newline indent (level + 1)) parts ++
        newline indent level ++ closing

mutual

/-- The written form of a value at a level of nesting. -/
def Value.writeAt (indent level : Nat) : Value → String
  | .null => "null"
  | .bool b => if b then "true" else "false"
  | .int n => toString n
  | .float x => writeFloat x
  | .str s => writeText s
  | .arr elements => bracketed "[" "]" indent level (writeElements indent (level + 1) elements)
  | .obj fields =>
      bracketed "\x7b" "\x7d" indent level (writeFields indent (level + 1) fields)

def writeElements (indent level : Nat) : List Value → List String
  | [] => []
  | v :: rest => v.writeAt indent level :: writeElements indent level rest

def writeFields (indent level : Nat) : List (String × Value) → List String
  | [] => []
  | (name, v) :: rest =>
      (writeText name ++ ": " ++ v.writeAt indent level) :: writeFields indent level rest

end

def Value.write (indent : Nat) (v : Value) : String := v.writeAt indent 0

end Docwright.Json
