import Docwright.Json.Value
import Docwright.Number.Shortest
import Docwright.Text.Quoted

/-!
# Values as they stand in a prompt

A prompt shows a value as a literal: lists in brackets, objects in braces, texts
quoted. A text that is shown by itself is not quoted.
-/

namespace Docwright.Json

open Docwright.Text

mutual

def Value.literal : Value → String
  | .null => "None"
  | .bool b => if b then "True" else "False"
  | .int n => toString n
  | .float x => x.text
  | .str s => quote s
  | .arr elements => "[" ++ String.intercalate ", " (literals elements) ++ "]"
  | .obj fields => "\x7b" ++ String.intercalate ", " (fieldLiterals fields) ++ "\x7d"

def literals : List Value → List String
  | [] => []
  | v :: rest => v.literal :: literals rest

def fieldLiterals : List (String × Value) → List String
  | [] => []
  | (name, v) :: rest => (quote name ++ ": " ++ v.literal) :: fieldLiterals rest

end

/-- A value shown by itself. -/
def Value.display : Value → String
  | .str s => s
  | v => v.literal

instance : ToString Value := ⟨Value.display⟩

end Docwright.Json
