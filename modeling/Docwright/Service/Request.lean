import Docwright.Json.Value

/-!
# Requests to services

Everything that a run asks of the outside world, apart from its disk, is a
request. A run is judged by the requests it makes, in order, and by what it
leaves on the disk.
-/

namespace Docwright

/-- What the drafting service is told about its answers. -/
structure DraftModel where
  name : String
  /-- Categories of content and the threshold above which each is blocked. -/
  safety : List (String × String)
  temperature : Binary64
  maxTokens : Nat
  deriving DecidableEq, Repr

/-- A request to a service. What is handed on to a service as it was given may be
any value. -/
inductive Request where
  | write (model maxTokens prompt : Json.Value)
  | draft (prompt : Json.Value)
  | pause (seconds : Nat)
  | useKey (key : String)
  | useModel (model : DraftModel)
  | loadIndex (folder : String)
  | openIndex (limit : Nat)
  | search (limit : Nat) (text : String)
  | readDocuments (folder : String)
  | buildIndex (documents : List Json.Value)
  | saveIndex (folder : String)
  | loadLanguage (name : String)
  | loadParser (name : String)
  | parse (size : Nat)
  | query (query : Json.Value)
  deriving DecidableEq, Repr

end Docwright
