import Docwright.Disk.Resolve
import Docwright.Json.Reader
import Docwright.Service.Failure
import Docwright.Text.Utf8

/-!
# Faults

A fault is the reason why a job stops. Its kind and its message stand in the
reports of the jobs that go on after it. Two faults are not caught by any job:
an interruption, and the end of the run with an exit code.
-/

namespace Docwright

/-- Why a job stops. -/
inductive Fault where
  /-- The disk refused an operation on a path. -/
  | disk (error : DiskError) (path : String)
  /-- A path with a null character was given to the disk. -/
  | nullInPath
  /-- More folders lie one inside the other than can be made or visited at once. -/
  | deepPath
  /-- A file is not text. -/
  | notText (error : Text.Utf8.DecodeError)
  /-- A text is not JSON. -/
  | notJson (error : Json.ReadError)
  /-- A service failed. -/
  | service (failure : Failure)
  /-- A definition lacks a field. -/
  | noField (name : String)
  /-- A value of that kind has no such member. -/
  | noMember (kind member : String)
  /-- A value of that kind has no length. -/
  | noLength (kind : String)
  /-- The value has no named fields. -/
  | noFields (value : Json.Value)
  /-- A value of that kind has no members to go through. -/
  | noMembers (kind : String)
  /-- A value of that kind cannot be looked up as a name. -/
  | notName (kind : String)
  /-- A value of that kind cannot be written to a file. -/
  | notWritten (kind : String)
  /-- Nothing can be added to a value of that kind. -/
  | noSum (kind : String)
  /-- Of the texts to be joined the one at `index` is a value of that kind. -/
  | noText (index : Nat) (kind : String)
  /-- The run ends with an exit code. -/
  | exit (code : Nat)
  deriving DecidableEq, Repr

namespace Fault

def kind : Fault → String
  | .disk error _ => error.kind
  | .nullInPath => "ValueError"
  | .deepPath => "RecursionError"
  | .notText _ => "UnicodeDecodeError"
  | .notJson error =>
      match error.problem with
      | .wrong _ _ => "JSONDecodeError"
      | .longInteger _ => "ValueError"
      | .deepArray => "RecursionError"
      | .deepObject => "RecursionError"
  | .service failure => failure.kind
  | .noField _ => "KeyError"
  | .noMember _ _ => "AttributeError"
  | .noLength _ => "TypeError"
  | .noFields _ => "TypeError"
  | .noMembers _ => "TypeError"
  | .notName _ => "TypeError"
  | .notWritten _ => "TypeError"
  | .noSum _ => "TypeError"
  | .noText _ _ => "TypeError"
  | .exit _ => "SystemExit"

def message : Fault → String
  | .disk error path => s!"[Errno {error.number}] {error.text}: " ++ Text.quote path
  | .nullInPath => "embedded null byte"
  | .deepPath => "maximum recursion depth exceeded"
  | .notText error => error.message
  | .notJson error => error.message
  | .service failure => failure.message
  | .noField name => Text.quote name
  | .noMember kind member => s!"'{kind}' object has no attribute '{member}'"
  | .noLength kind => s!"object of type '{kind}' has no len()"
  | .noFields (.str _) => "string indices must be integers, not 'str'"
  | .noFields (.arr _) => "list indices must be integers or slices, not str"
  | .noFields value => "'" ++ value.kindWord ++ "' object is not subscriptable"
  | .noMembers kind => s!"'{kind}' object is not iterable"
  | .notName kind => s!"unhashable type: '{kind}'"
  | .notWritten kind => s!"write() argument must be str, not {kind}"
  | .noSum kind => s!"unsupported operand type(s) for +=: '{kind}' and 'str'"
  | .noText index kind => s!"sequence item {index}: expected str instance, {kind} found"
  | .exit code => toString code

/-- The fault can be caught: it is neither an interruption nor the end of the
run. -/
def isOrdinary : Fault → Bool
  | .service (.interruption _ _) => false
  | .exit _ => false
  | _ => true

def isDiskError : Fault → Bool
  | .disk _ _ => true
  | _ => false

end Fault

/-- The texts of a list that holds nothing else; `index` counts the values before
it. -/
def textsFrom : Nat → List Json.Value → Except Fault (List String)
  | _, [] => .ok []
  | index, .str text :: rest =>
      match textsFrom (index + 1) rest with
      | .ok texts => .ok (text :: texts)
      | .error fault => .error fault
  | index, other :: _ => .error (.noText index other.kindWord)

end Docwright
