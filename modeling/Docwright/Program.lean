import Docwright.Component
import Docwright.Manual
import Docwright.Notes
import Docwright.Overview
import Docwright.ReferenceIndex
import Docwright.Survey
import Docwright.Text.Trim

/-!
# Programs

The six steps from a source tree to a manual, each run as a program of its own
with its usual settings. A program that needs the writing service first connects
to it, and the one that needs the drafting service first looks for its key; if
that fails the program ends with exit code one.
-/

namespace Docwright

/-- The steps from a source tree to a manual. -/
inductive Program where
  | survey
  | notes
  | referenceIndex
  | components
  | overview
  | manual
  deriving DecidableEq, Repr

/-- The keys in the environment of a program. -/
structure Environment where
  draftKey : Option String := none
  /-- The key that is used if the first one is not set. -/
  otherDraftKey : Option String := none
  deriving DecidableEq, Repr

namespace Program

open Job

/-- Connects to the writing service and goes on; `report` is said if there is no
connection. -/
def connected (report : Fault → List String) (job : Job Unit) : Job Unit := do
  let connect : Job Unit := do ofAnswer (← get).services.connection
  match ← attempt connect with
  | .ok () => job
  | .error fault =>
      (report fault).forM say
      throw (.exit 1)

def connectionReport (fault : Fault) : List String :=
  [s!"Failed to initialize Anthropic client: {fault.message}. Ensure ANTHROPIC_API_KEY is set."]

def notesConnectionReport (fault : Fault) : List String :=
  [s!"Failed to initialize Anthropic client: {fault.message}",
    "Please ensure ANTHROPIC_API_KEY is set in your .env file and is correct."]

def draftKey (environment : Environment) : Job String := do
  match Text.nonempty? environment.draftKey with
  | some key => return key
  | none =>
      say "GOOGLE_API_KEY not found, trying GEMINI_API_KEY..."
      match Text.nonempty? environment.otherDraftKey with
      | some key => return key
      | none =>
          say "Error: GOOGLE_API_KEY not found in .env file."
          throw (.exit 1)

def run (environment : Environment) : Program → Job Unit
  | .survey => Survey.run {}
  | .notes => connected notesConnectionReport (Notes.run {})
  | .referenceIndex => ReferenceIndex.run {}
  | .components => connected connectionReport (Component.run {})
  | .overview => connected connectionReport (Overview.run {})
  | .manual => do
      ask (.useKey (← draftKey environment))
      ask (.useModel Manual.draftModel)
      Manual.run {}

end Program

end Docwright
