import Docwright.Notes.Prompt
import Docwright.Survey.Queries
import Docwright.Text.Trim
import Docwright.Completion

/-!
# Notes on source files

Every source file that has no notes yet gets some. The notes are asked for from
the content of the file; then the reference index is searched with the start of
the content, and if it finds something an addendum is asked for, which may be
declined. Notes and addendum are saved as one Markdown file.

What the service gives for notes is taken for any value that counts as present. One
that is not a text cannot be written, so it leaves an empty file, unless an addendum
cannot be added to it; and an addendum that is not a text cannot be read. These two
faults end the run, and so does a failure to open the index for a search.

The separators between found texts, and between notes and addendum, are written
with a backslash and the letter `n` and hold no line break.
-/

namespace Docwright.Notes

open Job

/-- Where sources and notes are, and how notes are asked for. -/
structure Settings where
  model : Json.Value := .str Completion.modelName
  notesTokens : Json.Value := .int 4000
  addendumTokens : Json.Value := .int 1000
  sourceFolder : String := "./src"
  notesFolder : String := "./file_notes"
  indexFolder : String := "./rag_index"
  extensions : List String := Survey.sourceExtensions
  deriving Repr

/-- Asks for a text and says what an error status may mean. -/
def complete (prompt maxTokens model : Json.Value) : Job Json.Value :=
  Completion.request model maxTokens prompt (fun _ => pure ()) fun code _ =>
    if code = 401 then say "Please check your ANTHROPIC_API_KEY."
    else if code = 404 then
      say s!"Model '{model}' might not be available or the API endpoint is incorrect."
    else pure ()

def firstNotes (settings : Settings) (content path : String) : Job Json.Value := do
  say s!"Generating initial notes for {path} using {settings.model}..."
  complete (.str (notesPrompt content path)) settings.notesTokens settings.model

def searchLimit : Nat := 3

def foundSeparator : String := "\\n\\n---\\n\\n"

/-- The start of a text on one line. -/
def opening (text : String) : String :=
  String.ofList ((text.toList.take 100).map fun c => if c = '\n' then ' ' else c)

/-- Searches the reference index; the found texts are joined. A failure to open the
index is not caught. -/
def consult (text : String) : Job (Option String) := do
  let start := opening text
  say s!"Querying RAG index with text starting: '{start}...'"
  openIndex searchLimit
  match ← attempt (search searchLimit text) with
  | .error fault =>
      say s!"Error querying RAG index: {fault.message}"
      return none
  | .ok [] =>
      say "No relevant nodes found in RAG index for this query."
      return none
  | .ok found =>
      say s!"Retrieved {found.length} node(s) from RAG index."
      match textsFrom 0 found with
      | .ok texts => return some (String.intercalate foundSeparator texts)
      | .error fault =>
          say s!"Error querying RAG index: {fault.message}"
          return none

/-- The phrase by which an addendum is declined. -/
def declined : String := "NO_ADDENDUM_NEEDED"

def occursIn (part : List Char) : List Char → Bool
  | [] => part.isEmpty
  | c :: rest => part.isPrefixOf (c :: rest) || occursIn part rest

def isDeclined (addendum : String) : Bool := occursIn declined.toList addendum.toList

/-- The addendum that is given, or null if it is declined. What counts as present has
to be a text. -/
def acceptAddendum (given : Json.Value) : Except Fault Json.Value :=
  match given.present? with
  | none => .ok given
  | some (.str text) => .ok (if isDeclined text then .null else given)
  | some other => .error (.noMember other.kindWord "strip")

def addendum (settings : Settings) (notes : Json.Value) (found path : String) :
    Job Json.Value := do
  say s!"Generating RAG addendum for {path} using {settings.model}..."
  let prompt := addendumPrompt notes.display found path
  let given ← complete (.str prompt) settings.addendumTokens settings.model
  ofResult (acceptAddendum given)

def addendumSeparator : String := "\\n\\n## RAG Addendum\\n"

/-- The notes with more text at their end. A list is extended by the characters of
the text, and nothing can be added to a value of any other kind. -/
def extended (notes : Json.Value) (more : String) : Except Fault Json.Value :=
  match notes with
  | .str text => .ok (.str (text ++ more))
  | .arr elements => .ok (.arr (elements ++ more.toList.map fun c => .str (String.ofList [c])))
  | other => .error (.noSum other.kindWord)

def searchedLength : Nat := 5000

def searchedStart (content : String) : String :=
  String.ofList (content.toList.take searchedLength)

/-- The notes with the addendum, if there is one. -/
def withAddendum (settings : Settings) (notes : Json.Value) (content path : String) :
    Job Json.Value := do
  match Text.nonempty? (← consult (searchedStart content)) with
  | none =>
      say s!"No relevant information found in RAG index to generate an addendum for {path}."
      return notes
  | some found =>
      match Text.nonempty? (← addendum settings notes found path).text? with
      | none =>
          say s!"No RAG addendum deemed necessary or generated for {path}."
          return notes
      | some added =>
          let both ← ofResult (extended notes (addendumSeparator ++ added))
          say s!"RAG addendum added for {path}."
          return both

/-- Saves notes and tells whether that succeeded. -/
def save (path : String) (notes : Json.Value) : Job Bool := do
  match ← attempt (writeValue path notes) with
  | .ok () =>
      say s!"Successfully saved notes to {path}"
      return true
  | .error fault =>
      say s!"Error writing notes to {path}: {fault.message}"
      return false

/-- Takes notes on the content of a file and tells whether they were saved. -/
def annotateContent (settings : Settings) (path notesPath content : String) : Job Bool := do
  if Text.isBlankText content then
    say s!"File {path} is empty. Skipping."
    return false
  match (← firstNotes settings content path).present? with
  | none =>
      say s!"Failed to generate initial notes for {path}. Skipping."
      return false
  | some notes => save notesPath (← withAddendum settings notes content path)

/-- Takes notes on a file that has none and tells whether they were saved. -/
def annotate (settings : Settings) (path notesPath : String) : Job Bool := do
  if ← hasItem notesPath then
    say s!"Notes for {path} already exist at {notesPath}. Skipping."
    return false
  say s!"\\nProcessing file: {path}"
  match ← attempt (readTextLenient path) with
  | .error fault =>
      say s!"Error reading file {path}: {fault.message}"
      return false
  | .ok content => annotateContent settings path notesPath content

/-- The name is that of a source file. -/
def Settings.selects (settings : Settings) (name : String) : Bool :=
  settings.extensions.any (Path.hasEnding · name)

def Settings.notesPath (settings : Settings) (name : String) : String :=
  Path.join settings.notesFolder (name ++ ".md")

/-- Takes notes on the files of a folder and counts those that were saved. -/
def visit (settings : Settings) (count : Nat) (folder : Disk.Folder) : Job Nat := do
  let names := (← disk).fileNames folder
  (names.filter settings.selects).foldlM (fun count name => do
    let saved ← annotate settings (Path.join folder.path name) (settings.notesPath name)
    return if saved then count + 1 else count) count

/-- Makes the folder of the notes, if it is missing, and tells whether notes can
be saved. -/
def prepare (settings : Settings) : Job Bool := do
  if ← hasItem settings.notesFolder then return true
  match ← attempt (makeFolders settings.notesFolder) with
  | .ok () =>
      say s!"Created directory: {settings.notesFolder}"
      return true
  | .error fault =>
      if !fault.isDiskError then throw fault
      say s!"Error creating directory {settings.notesFolder}: {fault.message}"
      say "Please check permissions or create the directory manually."
      return false

def loadIndex (settings : Settings) : Job Unit := do
  ask (.loadIndex settings.indexFolder)
  ofAnswer (← get).services.indexLoad

/-- Takes notes on the source tree once the reference index is loaded. -/
def annotateAll (settings : Settings) : Job Unit := do
  let count ← visitFolders settings.sourceFolder (visit settings) 0
  say s!"\\nAnnotation process completed. Processed {count} new files."

/-- Takes notes on every source file that has none. -/
def run (settings : Settings) : Job Unit := do
  if !(← hasItem settings.sourceFolder) then
    say s!"Source directory '{settings.sourceFolder}' not found."
  else if !(← prepare settings) then
    pure ()
  else if !(← hasItem settings.indexFolder) then
    say <| s!"RAG index directory '{settings.indexFolder}' not found. " ++
      "Please run build_rag_index.py first."
  else
    say "Loading RAG index..."
    match ← attempt (loadIndex settings) with
    | .error fault => say s!"Failed to load RAG index: {fault.message}"
    | .ok () =>
        say "RAG index loaded successfully."
        annotateAll settings

end Docwright.Notes
