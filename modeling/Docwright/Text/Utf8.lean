import Docwright.Text.Hex

/-!
# UTF-8

Decoding reads one byte at a time. Between two bytes the decoder is either ready
for a new character or within one, and then it knows what the next byte may be.
`pieces` cuts any sequence of bytes into characters and ill-formed parts, each
part as long as it could still have become a character; `decodeLenient` keeps
the characters and `decode` refuses the first ill-formed part, with its position
and the reason.
-/

namespace Docwright.Text.Utf8

/-- Why a part of the bytes is not a character. -/
inductive Reason where
  | start
  | continuation
  | truncated
  deriving DecidableEq, Repr

/-- A character or an ill-formed part of a sequence of bytes. -/
inductive Piece where
  | char (c : Char)
  | bad (bytes : List UInt8) (reason : Reason)
  deriving DecidableEq, Repr

/-- What the decoder knows between two bytes: nothing, or the bytes of the
current character so far, their value, how many are to come, and the interval of
the next one. -/
inductive State where
  | ready
  | within (seen : List UInt8) (value more low high : Nat)
  deriving DecidableEq, Repr

/-- The step of a decoder that is ready. -/
def lead (b : UInt8) : State × List Piece :=
  let n := b.toNat
  if n < 0x80 then (.ready, [.char (Char.ofNat n)])
  else if n < 0xC2 then (.ready, [.bad [b] .start])
  else if n < 0xE0 then (.within [b] (n - 0xC0) 1 0x80 0xBF, [])
  else if n < 0xF0 then
    (.within [b] (n - 0xE0) 2 (if n = 0xE0 then 0xA0 else 0x80)
      (if n = 0xED then 0x9F else 0xBF), [])
  else if n < 0xF5 then
    (.within [b] (n - 0xF0) 3 (if n = 0xF0 then 0x90 else 0x80)
      (if n = 0xF4 then 0x8F else 0xBF), [])
  else (.ready, [.bad [b] .start])

/-- The step of the decoder on one byte. A byte that cannot continue the current
character ends it as ill-formed and is then read anew. -/
def step (state : State) (b : UInt8) : State × List Piece :=
  match state with
  | .ready => lead b
  | .within seen value more low high =>
      let n := b.toNat
      if low ≤ n ∧ n ≤ high then
        let value := value * 64 + (n - 0x80)
        if more ≤ 1 then (.ready, [.char (Char.ofNat value)])
        else (.within (seen ++ [b]) value (more - 1) 0x80 0xBF, [])
      else
        let (state, found) := lead b
        (state, .bad seen .continuation :: found)

/-- The pieces of the remaining bytes, after the pieces already found, which are
kept in reverse. -/
def piecesFrom : List UInt8 → State → List Piece → List Piece
  | [], .ready, found => found.reverse
  | [], .within seen _ _ _ _, found => (.bad seen .truncated :: found).reverse
  | b :: rest, state, found =>
      let (state, new) := step state b
      piecesFrom rest state (new.reverse ++ found)

def pieces (bytes : List UInt8) : List Piece := piecesFrom bytes .ready []

def Piece.char? : Piece → Option Char
  | .char c => some c
  | .bad _ _ => none

/-- The characters of a sequence of bytes; ill-formed parts are dropped. -/
def decodeLenient (bytes : List UInt8) : List Char :=
  (pieces bytes).filterMap Piece.char?

/-- The first ill-formed part of a sequence of bytes. -/
structure DecodeError where
  position : Nat
  bytes : List UInt8
  reason : Reason
  deriving DecidableEq, Repr

/-- Collects characters up to the first ill-formed part. `position` counts the
bytes before the current piece and `seen` holds the characters in reverse. -/
def collect : List Piece → Nat → List Char → Except DecodeError (List Char)
  | [], _, seen => .ok seen.reverse
  | .char c :: rest, position, seen => collect rest (position + c.utf8Size) (c :: seen)
  | .bad bytes reason :: _, position, _ => .error ⟨position, bytes, reason⟩

/-- The characters of a sequence of bytes that is well-formed throughout. -/
def decode (bytes : List UInt8) : Except DecodeError (List Char) :=
  collect (pieces bytes) 0 []

def encode (cs : List Char) : List UInt8 := cs.flatMap String.utf8EncodeChar

@[simp] theorem encode_nil : encode [] = [] := rfl

def Reason.text : Reason → String
  | .start => "invalid start byte"
  | .continuation => "invalid continuation byte"
  | .truncated => "unexpected end of data"

/-- The report of an ill-formed part: a single byte by its value, several by
their positions. -/
def DecodeError.message (e : DecodeError) : String :=
  let place :=
    match e.bytes with
    | [b] =>
        "byte 0x" ++ String.ofList (hexDigits 2 b.toNat) ++ s!" in position {e.position}"
    | bytes => s!"bytes in position {e.position}-{e.position + bytes.length - 1}"
  "'utf-8' codec can't decode " ++ place ++ ": " ++ e.reason.text

end Docwright.Text.Utf8
