import Docwright.Json.Value
import Docwright.Text.Hex

/-!
# Reading JSON

A cursor is the rest of the text and the number of characters before it. Readers
move the cursor or name a problem at a position; the report of a problem also
gives its line and column. Beyond the grammar, `NaN`, `Infinity` and `-Infinity`
are read as numbers, and when a name occurs twice in an object the later value
stands in the place of the earlier one.

Nesting is bounded by what the caller allows, and integers by `integerDigitLimit`.
The value reader recurses on the nesting that is left. The loops over elements,
fields and characters recurse on a number that is greater than the length of the
whole text, so that it never runs out.
-/

namespace Docwright.Json

open Docwright.Text

/-- What is wrong with a text at a position. -/
inductive Cause where
  | value
  | fieldName
  | colon
  | comma
  | unterminated
  | controlChar
  | escape
  | unicodeEscape
  | extraData
  | byteOrderMark
  deriving DecidableEq, Repr

def Cause.text : Cause → String
  | .value => "Expecting value"
  | .fieldName => "Expecting property name enclosed in double quotes"
  | .colon => "Expecting ':' delimiter"
  | .comma => "Expecting ',' delimiter"
  | .unterminated => "Unterminated string starting at"
  | .controlChar => "Invalid control character at"
  | .escape => "Invalid \\escape"
  | .unicodeEscape => "Invalid \\uXXXX escape"
  | .extraData => "Extra data"
  | .byteOrderMark => "Unexpected UTF-8 BOM (decode using utf-8-sig)"

/-- Why a text cannot be read. -/
inductive Problem where
  | wrong (cause : Cause) (position : Nat)
  | longInteger (digits : Nat)
  | deepArray
  | deepObject
  deriving DecidableEq, Repr

/-- The rest of a text and the number of characters before it. -/
structure Cursor where
  rest : List Char
  position : Nat

/-- A function that reads something at a cursor and moves the cursor past it. -/
abbrev Reader (α : Type) := Cursor → Except Problem (α × Cursor)

/-- An integer may have this many digits. -/
def integerDigitLimit : Nat := 4300

def Cursor.skip (cursor : Cursor) (n : Nat) : Cursor :=
  ⟨cursor.rest.drop n, cursor.position + n⟩

/-- The blank characters of JSON. -/
def isSpace (c : Char) : Bool := c == ' ' || c == '\t' || c == '\n' || c == '\r'

def Cursor.skipSpace (cursor : Cursor) : Cursor :=
  ⟨cursor.rest.dropWhile isSpace,
    cursor.position + (cursor.rest.takeWhile isSpace).length⟩

/-- The character after a backslash for the escapes of one character. -/
def shortEscape? (c : Char) : Option Char :=
  if c = '"' ∨ c = '\\' ∨ c = '/' then some c
  else if c = 'b' then some (Char.ofNat 8)
  else if c = 'f' then some (Char.ofNat 12)
  else if c = 'n' then some '\n'
  else if c = 'r' then some '\r'
  else if c = 't' then some '\t'
  else none

/-- The code unit of four hexadecimal digits. -/
def unit? (a b c d : Char) : Option Nat := do
  let a ← hexValue? a
  let b ← hexValue? b
  let c ← hexValue? c
  let d ← hexValue? d
  return ((a * 16 + b) * 16 + c) * 16 + d

/-- The unit is the first half of a surrogate pair. -/
def isHighHalf (n : Nat) : Bool := Nat.ble 0xD800 n && Nat.ble n 0xDBFF

/-- The unit is the second half of a surrogate pair. -/
def isLowHalf (n : Nat) : Bool := Nat.ble 0xDC00 n && Nat.ble n 0xDFFF

/-- The character of a code unit; a half by itself stands for no character. -/
def unitChar (n : Nat) : Char :=
  if isHighHalf n || isLowHalf n then Char.ofNat 0xFFFD else Char.ofNat n

def pairChar (high low : Nat) : Char :=
  Char.ofNat (0x10000 + (high - 0xD800) * 0x400 + (low - 0xDC00))

/-- Reads the part of a text after `\u`, whose `u` stands at `position`: the
character and the number of characters read. The digits are never the last
characters of the text. -/
def unicodeEscape (position : Nat) : List Char → Except Problem (Char × Nat)
  | a :: b :: c :: d :: e :: rest =>
      match unit? a b c d with
      | none => .error (.wrong .unicodeEscape position)
      | some high =>
          if isHighHalf high then
            match e :: rest with
            | '\\' :: 'u' :: a :: b :: c :: d :: _ :: _ =>
                match unit? a b c d with
                | none => .error (.wrong .unicodeEscape (position + 6))
                | some low =>
                    if isLowHalf low then .ok (pairChar high low, 10)
                    else .ok (unitChar high, 4)
            | _ => .ok (unitChar high, 4)
          else .ok (unitChar high, 4)
  | _ => .error (.wrong .unicodeEscape position)

/-- Reads one character inside a string that was opened at `opened`: the
character, or `none` for the closing quote, and the number of characters read. -/
def stringChar (opened position : Nat) : List Char → Except Problem (Option Char × Nat)
  | [] => .error (.wrong .unterminated opened)
  | '"' :: _ => .ok (none, 1)
  | '\\' :: [] => .error (.wrong .unterminated opened)
  | '\\' :: 'u' :: rest =>
      match unicodeEscape (position + 1) rest with
      | .error problem => .error problem
      | .ok (c, n) => .ok (some c, n + 2)
  | '\\' :: c :: _ =>
      match shortEscape? c with
      | none => .error (.wrong .escape position)
      | some c => .ok (some c, 2)
  | c :: _ =>
      if c.toNat < 32 then .error (.wrong .controlChar position) else .ok (some c, 1)

/-- Reads the characters of a string up to its closing quote; those already read
are kept in reverse. -/
def stringBody (opened : Nat) : Nat → List Char → Reader String
  | 0, _, _ => .error (.wrong .unterminated opened)
  | fuel + 1, seen, cursor =>
      match stringChar opened cursor.position cursor.rest with
      | .error problem => .error problem
      | .ok (none, n) => .ok (String.ofList seen.reverse, cursor.skip n)
      | .ok (some c, n) => stringBody opened fuel (c :: seen) (cursor.skip n)

/-- Reads a string whose opening quote stands just before the cursor, in a text of
at most `size` characters. -/
def string (size : Nat) : Reader String := fun cursor =>
  stringBody (cursor.position - 1) (size + 1) [] cursor

def isAsciiDigit (c : Char) : Bool := Nat.ble 48 c.toNat && Nat.ble c.toNat 57

def digitsValue (digits : List Char) : Nat :=
  digits.foldl (fun n c => n * 10 + (c.toNat - 48)) 0

/-- The integer part at the front of a text: a zero, or digits that do not begin
with one. -/
def wholeDigits? : List Char → Option (List Char)
  | '0' :: _ => some ['0']
  | c :: rest => if isAsciiDigit c then some ((c :: rest).takeWhile isAsciiDigit) else none
  | [] => none

/-- The digits of the fraction at the front of a text. -/
def fractionDigits : List Char → List Char
  | '.' :: rest => rest.takeWhile isAsciiDigit
  | _ => []

/-- The exponent at the front of a text, its sign and its digits, and how many
characters it takes. -/
def exponentPart : List Char → Option (Bool × List Char × Nat)
  | e :: rest =>
      if e = 'e' ∨ e = 'E' then
        let (negative, unsigned, signs) :=
          match rest with
          | '-' :: rest => (true, rest, 1)
          | '+' :: rest => (false, rest, 1)
          | rest => (false, rest, 0)
        match unsigned.takeWhile isAsciiDigit with
        | [] => none
        | digits => some (negative, digits, 1 + signs + digits.length)
      else none
  | [] => none

def number : Reader Value := fun cursor =>
  let (negative, unsigned) :=
    match cursor.rest with
    | '-' :: rest => (true, rest)
    | rest => (false, rest)
  let signs := if negative then 1 else 0
  match wholeDigits? unsigned with
  | none => .error (.wrong .value cursor.position)
  | some whole =>
      let afterWhole := unsigned.drop whole.length
      let fraction := fractionDigits afterWhole
      let pointed := if fraction.isEmpty then 0 else fraction.length + 1
      let size := signs + whole.length + pointed
      match exponentPart (afterWhole.drop pointed) with
      | some (below, digits, taken) =>
          let e : Int := digitsValue digits
          let e := (if below then -e else e) - fraction.length
          .ok (.float (.ofDecimal negative (digitsValue (whole ++ fraction)) e),
            cursor.skip (size + taken))
      | none =>
          if fraction.isEmpty then
            if integerDigitLimit < whole.length then .error (.longInteger whole.length)
            else
              let n : Int := digitsValue whole
              .ok (.int (if negative then -n else n), cursor.skip size)
          else
            .ok (.float (.ofDecimal negative (digitsValue (whole ++ fraction))
              (-(fraction.length : Int))), cursor.skip size)

def words : List (List Char × Value) :=
  [("null".toList, .null), ("true".toList, .bool true), ("false".toList, .bool false),
    ("NaN".toList, .float .nan), ("Infinity".toList, .float (.infinite false)),
    ("-Infinity".toList, .float (.infinite true))]

def scalar : Reader Value := fun cursor =>
  match words.find? fun w => w.1.isPrefixOf cursor.rest with
  | some (word, value) => .ok (value, cursor.skip word.length)
  | none => number cursor

/-- Reads the elements of an array that follow its opening bracket or a comma,
with their blanks, up to the closing bracket. -/
def elements (inner : Reader Value) : Nat → List Value → Reader (List Value)
  | 0, _, cursor => .error (.wrong .value cursor.position)
  | fuel + 1, seen, cursor =>
      match inner cursor with
      | .error problem => .error problem
      | .ok (v, cursor) =>
          let cursor := cursor.skipSpace
          match cursor.rest with
          | ']' :: _ => .ok ((v :: seen).reverse, cursor.skip 1)
          | ',' :: _ => elements inner fuel (v :: seen) (cursor.skip 1).skipSpace
          | _ => .error (.wrong .comma cursor.position)

/-- Reads one field: a name, a colon and a value. -/
def field (size : Nat) (inner : Reader Value) : Reader (String × Value) := fun cursor =>
  match cursor.rest with
  | '"' :: _ =>
      match string size (cursor.skip 1) with
      | .error problem => .error problem
      | .ok (name, cursor) =>
          let cursor := cursor.skipSpace
          match cursor.rest with
          | ':' :: _ =>
              match inner (cursor.skip 1).skipSpace with
              | .error problem => .error problem
              | .ok (v, cursor) => .ok ((name, v), cursor)
          | _ => .error (.wrong .colon cursor.position)
  | _ => .error (.wrong .fieldName cursor.position)

/-- Reads the fields of an object that follow its opening brace or a comma, with
their blanks, up to the closing brace. -/
def fields (size : Nat) (inner : Reader Value) :
    Nat → List (String × Value) → Reader (List (String × Value))
  | 0, _, cursor => .error (.wrong .fieldName cursor.position)
  | fuel + 1, seen, cursor =>
      match field size inner cursor with
      | .error problem => .error problem
      | .ok ((name, v), cursor) =>
          let seen := insertField name v seen
          let cursor := cursor.skipSpace
          match cursor.rest with
          | '\x7d' :: _ => .ok (seen, cursor.skip 1)
          | ',' :: _ => fields size inner fuel seen (cursor.skip 1).skipSpace
          | _ => .error (.wrong .comma cursor.position)

/-- Reads the rest of an array after its opening bracket. -/
def array (size : Nat) (inner : Reader Value) : Reader Value := fun cursor =>
  let cursor := cursor.skipSpace
  match cursor.rest with
  | ']' :: _ => .ok (.arr [], cursor.skip 1)
  | _ =>
      match elements inner (size + 1) [] cursor with
      | .error problem => .error problem
      | .ok (vs, cursor) => .ok (.arr vs, cursor)

/-- Reads the rest of an object after its opening brace. -/
def object (size : Nat) (inner : Reader Value) : Reader Value := fun cursor =>
  let cursor := cursor.skipSpace
  match cursor.rest with
  | '\x7d' :: _ => .ok (.obj [], cursor.skip 1)
  | _ =>
      match fields size inner (size + 1) [] cursor with
      | .error problem => .error problem
      | .ok (fs, cursor) => .ok (.obj fs, cursor)

/-- Reads a value; `inner?` reads the values inside it, unless the limit of
nesting is reached. -/
def valueWith (size : Nat) (inner? : Option (Reader Value)) : Reader Value := fun cursor =>
  match cursor.rest, inner? with
  | '"' :: _, _ =>
      match string size (cursor.skip 1) with
      | .error problem => .error problem
      | .ok (s, cursor) => .ok (.str s, cursor)
  | '[' :: _, some inner => array size inner (cursor.skip 1)
  | '[' :: _, none => .error .deepArray
  | '\x7b' :: _, some inner => object size inner (cursor.skip 1)
  | '\x7b' :: _, none => .error .deepObject
  | _, _ => scalar cursor

/-- Reads a value in which arrays and objects are nested at most `depth` deep, in a
text of at most `size` characters. -/
def value (size : Nat) : Nat → Reader Value
  | 0 => valueWith size none
  | depth + 1 => valueWith size (some (value size depth))

/-- Reads a whole text as one value. -/
def document (nesting : Nat) (text : List Char) : Except Problem Value :=
  match text with
  | c :: _ =>
      if c.toNat = 0xFEFF then .error (.wrong .byteOrderMark 0)
      else whole
  | [] => whole
where
  whole : Except Problem Value :=
    match value text.length nesting (Cursor.skipSpace ⟨text, 0⟩) with
    | .error problem => .error problem
    | .ok (v, cursor) =>
        let cursor := cursor.skipSpace
        match cursor.rest with
        | [] => .ok v
        | _ => .error (.wrong .extraData cursor.position)

/-- The report of a problem in a text: its wording, line, column and position. -/
def Problem.message (text : List Char) : Problem → String
  | .wrong cause position =>
      let before := text.take position
      let line := before.count '\n' + 1
      let column := (before.reverse.takeWhile (· != '\n')).length + 1
      cause.text ++ s!": line {line} column {column} (char {position})"
  | .longInteger digits =>
      s!"Exceeds the limit ({integerDigitLimit} digits) for integer string conversion: " ++
        s!"value has {digits} digits; use sys.set_int_max_str_digits() to increase the limit"
  | .deepArray =>
      "maximum recursion depth exceeded while decoding a JSON array from a unicode string"
  | .deepObject =>
      "maximum recursion depth exceeded while decoding a JSON object from a unicode string"

/-- Why a text is not a JSON document, with its report. -/
structure ReadError where
  problem : Problem
  message : String
  deriving DecidableEq, Repr

/-- The value of a JSON text in which arrays and objects are nested at most `nesting`
deep. -/
def parse (nesting : Nat) (text : String) : Except ReadError Value :=
  match document nesting text.toList with
  | .ok v => .ok v
  | .error problem => .error ⟨problem, problem.message text.toList⟩

end Docwright.Json
