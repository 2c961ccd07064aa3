import Docwright.Json.Literal
import Docwright.Service.Failure

/-!
# Replies of services

The writing service answers with a list of content blocks, of which the first
counts and is taken as it is, whatever value its text field holds, and the
drafting service with a list of parts, whose texts are joined, and possibly with
feedback on the prompt. The grammar service answers each query on a parsed file
with spans of bytes under capture names.
-/

namespace Docwright

/-- A block or a part of a reply: something with a text field, which holds a text
or else another value, or something without one. -/
inductive Block where
  | text (value : Json.Value)
  | other
  deriving DecidableEq, Repr

structure WriterReply where
  /-- The content blocks, if the reply has a list of them. -/
  blocks : Option (List Block)
  /-- How the whole reply is shown in reports. -/
  shown : String
  deriving DecidableEq, Repr

/-- What the text field of the first block holds, if there is a block with one. -/
def WriterReply.firstText? (reply : WriterReply) : Option Json.Value :=
  match reply.blocks with
  | some (.text value :: _) => some value
  | _ => none

/-- What the drafting service says about a prompt. -/
structure Feedback where
  /-- Why the prompt was blocked, if it was. -/
  reason : Json.Value
  message : Json.Value

def Feedback.isBlocked (feedback : Feedback) : Bool := feedback.reason.isPresent

structure DrafterReply where
  /-- The parts, if the reply has a list of them. -/
  parts : Option (List Block)
  feedback : Option Feedback
  /-- How the whole reply is shown in reports. -/
  shown : String

/-- The feedback of a reply that says that the prompt was blocked. -/
def DrafterReply.blocked? (reply : DrafterReply) : Option Feedback :=
  reply.feedback.filter (·.isBlocked)

/-- The bytes from `start` up to `stop`; an offset below zero counts from the end
of the content, and one that is not given is that end of the content itself. -/
structure Span where
  start : Option Int
  stop : Option Int
  deriving DecidableEq, Repr

abbrev Captures := List (String × List Span)

/-- A parsed file: the answers to the queries that may be put to it. -/
structure ParsedFile where
  answers : List (String × Except Failure Captures) := []

/-- The answer of a parsed file to a query; a query it does not know finds
nothing. -/
def ParsedFile.answer (file : ParsedFile) (query : String) : Except Failure Captures :=
  match file.answers.find? (·.1 == query) with
  | some (_, answer) => answer
  | none => .ok []

def spansOf (captures : Captures) (name : String) : List Span :=
  match captures.find? (·.1 == name) with
  | some (_, spans) => spans
  | none => []

end Docwright
