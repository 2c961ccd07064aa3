import Docwright.Component.Prompt
import Docwright.Survey.Queries

/-!
# Component pages

The structure file lists the source files. A header and the implementation
beside it, of the same stem, are one component; every other source file is a
component of its own. In a first round the pairs get their pages, in a second
one the files that were not part of a pair; both rounds follow the order of the
structure file, and a file that was handled once is not handled again. What the
service gives for a page is saved if it counts as present; where that is not a text,
saving fails and leaves an empty file.
-/

namespace Docwright.Component

open Docwright.Json
open Job

/-- Where structure, notes and pages are, and how pages are asked for. -/
structure Settings where
  model : Value := .str Completion.modelName
  maxTokens : Value := .int 4000
  notesFolder : String := "./file_notes"
  pageFolder : String := "./intermediate_docs"
  structureFile : String := "./repo_structure.json"
  extensions : List String := Survey.sourceExtensions
  deriving Repr

def complete (settings : Settings) (prompt : Value) : Job Value :=
  Completion.request settings.model settings.maxTokens prompt (fun _ => pure ())
    fun _ _ => pure ()

/-- The value of a JSON file, or null if there is none that can be read. -/
def loadJson (path : String) : Job Value := do
  if !(← hasItem path) then
    say s!"Error: File {path} not found."
    return .null
  match ← attempt (readJson path) with
  | .ok value => return value
  | .error fault =>
      say s!"Error reading JSON from {path}: {fault.message}"
      return .null

/-- The notes on a file, if there are any that can be read. -/
def notesOn (settings : Settings) (name : String) : Job (Option String) := do
  let path := Path.join settings.notesFolder (name ++ ".md")
  if !(← hasItem path) then
    say s!"Note file not found: {path}"
    return none
  match ← attempt (readText path) with
  | .ok notes => return some notes
  | .error fault =>
      say s!"Error reading notes from {path}: {fault.message}"
      return none

def pairPage (settings : Settings) (headerPath sourcePath : String)
    (headerNotes sourceNotes : Option String) (header source : Value) : Job Value := do
  let headerOutline ← ofResult (outlineIfPresent header)
  let sourceOutline ← ofResult (outlineIfPresent source)
  let prompt := pairPrompt headerPath sourcePath
    (notesOr "No notes available for header file." headerNotes)
    (notesOr "No notes available for implementation file." sourceNotes)
    headerOutline sourceOutline
  let headerName := Path.base headerPath
  let sourceName := Path.base sourcePath
  say s!"Generating intermediate doc for {headerName} and {sourceName}..."
  complete settings (.str prompt)

def singlePage (settings : Settings) (path : String) (notes : Option String)
    (entry : Value) : Job Value := do
  let outline ← ofResult (outlineOf entry)
  let prompt := singlePrompt path (notesOr "No notes available for this file." notes) outline
  let name := Path.base path
  say s!"Generating intermediate doc for single file: {name}..."
  complete settings (.str prompt)

/-- Which files were handled and how many pages were saved. -/
structure Progress where
  handled : List String := []
  saved : Nat := 0
  deriving DecidableEq, Repr

def Progress.handle (progress : Progress) (paths : List String) : Progress :=
  { progress with handled := progress.handled ++ paths }

/-- Saves a page; `word` names its sort in the report. -/
def save (progress : Progress) (word path : String) (page : Value) : Job Progress := do
  match ← attempt (writeValue path page) with
  | .ok () =>
      say s!"Saved {word} doc to {path}"
      return { progress with saved := progress.saved + 1 }
  | .error fault =>
      say s!"Error writing {word} doc {path}: {fault.message}"
      return progress

def siblingOf (headerPath : String) : String :=
  Path.join (Path.parent headerPath) (Path.stem (Path.base headerPath) ++ ".cpp")

/-- Handles a header whose implementation is listed too. -/
def handlePair (settings : Settings) (progress : Progress) (headerPath sourcePath : String)
    (header source : Value) : Job Progress := do
  let headerName := Path.base headerPath
  let sourceName := Path.base sourcePath
  say s!"Found pair: {headerName} and {sourceName}"
  let headerNotes ← notesOn settings headerName
  let sourceNotes ← notesOn settings sourceName
  if headerNotes.isNone && sourceNotes.isNone then
    say s!"Skipping pair {headerName}/{sourceName} due to missing notes for both."
    return progress.handle [headerPath, sourcePath]
  let given ← pairPage settings headerPath sourcePath headerNotes sourceNotes header source
  let progress ←
    match given.present? with
    | some page =>
        save progress "combined"
          (Path.join settings.pageFolder (Path.stem headerName ++ "_pair.md")) page
    | none =>
        say s!"Failed to generate combined doc for {headerName} and {sourceName}."
        pure progress
  return progress.handle [headerPath, sourcePath]

/-- The first round at one file: pairs only. -/
def pairRound (settings : Settings) (files : List (String × Value)) (progress : Progress)
    (file : String × Value) : Job Progress := do
  let (path, entry) := file
  if progress.handled.contains path then return progress
  if Path.extension (Path.base path) = ".h" then
    let sibling := siblingOf path
    match fieldOf? sibling files with
    | some source => handlePair settings progress path sibling entry source
    | none => return progress
  else return progress

/-- Handles a file that is not part of a pair. -/
def handleSingle (settings : Settings) (progress : Progress) (path : String) (entry : Value) :
    Job Progress := do
  let name := Path.base path
  match Text.nonempty? (← notesOn settings name) with
  | none =>
      say s!"Skipping standalone file {name} due to missing notes."
      return progress.handle [path]
  | some notes =>
      let progress ←
        match (← singlePage settings path (some notes) entry).present? with
        | some page =>
            save progress "single file"
              (Path.join settings.pageFolder (name ++ "_single.md")) page
        | none =>
            say s!"Failed to generate single doc for {name}."
            pure progress
      return progress.handle [path]

/-- The second round at one file: source files that are left. -/
def singleRound (settings : Settings) (progress : Progress) (file : String × Value) :
    Job Progress := do
  let (path, entry) := file
  if progress.handled.contains path then return progress
  if settings.extensions.contains (Path.extension (Path.base path)) then
    handleSingle settings progress path entry
  else return progress

def document (settings : Settings) (files : List (String × Value)) : Job Unit := do
  let progress ← files.foldlM (pairRound settings files) {}
  say "\nStarting Strategy 2: Processing standalone C++ files..."
  let progress ← files.foldlM (singleRound settings) progress
  say <| "\nIntermediate documentation generation process completed. " ++
    s!"Generated {progress.saved} documents."

def run (settings : Settings) : Job Unit := do
  let listing ← loadJson settings.structureFile
  if !listing.isPresent then
    say "Exiting: Repo structure file not loaded."
  else
    if !(← hasItem settings.pageFolder) then
      makeFolders settings.pageFolder
      say s!"Created directory: {settings.pageFolder}"
    say "\nStarting Strategy 1: Pairing .h and .cpp files..."
    match listing with
    | .obj files => document settings files
    | other => throw (.noMember other.kindWord "items")

end Docwright.Component
