import Docwright.Job
import Docwright.Text.Trim

/-!
# What is found in a source file

A definition is an object that says which query to put to a parsed file and which of
its captures count. `extract` puts the query of every definition, in order, and lists under
each key the captured texts, sorted and without repetition. A query that fails
is reported and finds nothing; a definition without its query or its captures
stops the job. The names of the captures are the members of any value that has
members, and where one of them cannot be a name that is reported and those
before it count.

The text of a span is made of the characters that lie wholly inside it.
-/

namespace Docwright

/-- The position of an offset in a content of `length` bytes. An offset below
zero counts from the end, and none leads before the start. -/
def Span.position (length : Nat) (offset : Int) : Nat :=
  if offset < 0 then (length + offset).toNat else offset.toNat

/-- The bytes of a span; nothing if it ends before it starts. -/
def Span.bytes (span : Span) (content : List UInt8) : List UInt8 :=
  let start := Span.position content.length (span.start.getD 0)
  let stop := Span.position content.length (span.stop.getD content.length)
  (content.drop start).take (stop - start)

/-- The text of a span; ill-formed parts at its ends or inside are dropped. -/
def Span.text (span : Span) (content : List UInt8) : String :=
  String.ofList (Text.Utf8.decodeLenient (span.bytes content))

namespace Survey

def fieldIn (value : Json.Value) (name : String) : Except Fault Json.Value :=
  match value with
  | .obj fields =>
      match Json.fieldOf? name fields with
      | some found => .ok found
      | none => .error (.noField name)
  | other => .error (.noFields other)

def definitionOf (query : Json.Value) (captures : List String) : Json.Value :=
  .obj [("query_string", query), ("capture_names", .texts captures)]

abbrev Findings := List (String × List String)

/-- The keys whose texts are paths. -/
def holdsPaths (key : String) : Bool := key == "includes" || key == "imports"

/-- The marks that enclose a path in a directive. -/
def isPathMark (c : Char) : Bool := c == '"' || c == '<' || c == '>'

/-- A captured text as it is listed under a key: paths lose their marks. -/
def listedText (key text : String) : String :=
  if holdsPaths key then String.ofList (Text.trimWhere isPathMark text.toList) else text

/-- The texts of the captures that count, in order and without repetition. -/
def capturedTexts (content : List UInt8) (key : String) (names : List String)
    (captures : Captures) : List String :=
  Text.sortedDistinct <|
    (names.flatMap (spansOf captures)).map fun span => listedText key (span.text content)

open Job

def reportFailure (key : String) (captures : Json.Value) (fault : Fault) : Job Unit :=
  let shown := captures.display
  say <| s!"Error executing query for '{key}' (capture '{shown}'): " ++
    s!"{fault.kind} - {fault.message}"

/-- The names of captures before the first that cannot be one. -/
def usableNames (members : List Json.Value) : List String :=
  (members.takeWhile (·.isAtom)).filterMap (·.text?)

/-- What one definition finds in a parsed file. -/
def extractOne (content : List UInt8) (file : ParsedFile) (key : String)
    (definition : Json.Value) : Job (String × List String) := do
  let text ← ofResult (fieldIn definition "query_string")
  let names ← ofResult (fieldIn definition "capture_names")
  if !text.isPresent || !names.isPresent then return (key, [])
  match ← attempt (query file text), names.members? with
  | .error fault, _ =>
      reportFailure key names fault
      return (key, [])
  | .ok _, none =>
      reportFailure key names (.noMembers names.kindWord)
      return (key, [])
  | .ok captures, some members =>
      if let some member := members.find? (!·.isAtom) then
        reportFailure key names (.notName member.kindWord)
      return (key, capturedTexts content key (usableNames members) captures)

def extract (content : List UInt8) (definitions : List (String × Json.Value)) :
    Job Findings := do
  let file ← parse content
  definitions.mapM fun (key, definition) => extractOne content file key definition

end Survey

end Docwright
