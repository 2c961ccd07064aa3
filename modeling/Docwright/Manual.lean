import Docwright.Completion
import Docwright.Manual.Contents
import Docwright.Manual.Draft
import Docwright.Manual.Prompt
import Docwright.Manual.SectionName
import Docwright.Text.Quoted
import Docwright.Text.Trim

/-!
# The manual

The manual is written from the overview of the project. A table of contents is
asked for and saved; if none is obtained, the one saved before is used. Then
every section of the table that has no file yet is asked for and saved, in
order.
-/

namespace Docwright.Manual

open Job

/-- Where overview, table of contents and sections are, and who drafts them. -/
structure Settings where
  model : Json.Value := .str "gemini-1.5-flash-latest"
  overviewFolder : String := "./high-level-overview"
  overviewFile : String := "./high-level-overview/project_overview.md"
  contentsFile : String := "./high-level-overview/TABLE_OF_CONTENTS.md"
  manualFolder : String := "./final_documentation"
  deriving Repr

/-- What the drafting service is told about its answers. -/
def draftModel : DraftModel where
  name := "gemini-1.5-flash-latest"
  safety :=
    [("HARM_CATEGORY_HARASSMENT", "BLOCK_NONE"), ("HARM_CATEGORY_HATE_SPEECH", "BLOCK_NONE"),
      ("HARM_CATEGORY_SEXUALLY_EXPLICIT", "BLOCK_NONE"),
      ("HARM_CATEGORY_DANGEROUS_CONTENT", "BLOCK_NONE")]
  temperature := .ofDecimal false 2 (-1)
  maxTokens := 8192

/-- The text of a file, if there is one that can be read. -/
def loadFile (path : String) : Job (Option String) := do
  if !(← hasItem path) then
    say s!"Error: File {path} not found."
    return none
  match ← attempt (readText path) with
  | .ok text => return some text
  | .error fault =>
      say s!"Error reading file {path}: {fault.message}"
      return none

/-- The section titles of a table of contents, with a report of what was
found. -/
def readContents (contents : String) : Job (List String) := do
  if (headingTitles contents.toList).isEmpty then
    say "No H1/H2/H3 headers found in ToC, trying to parse list items..."
  let titles := sectionTitles contents
  say <| s!"Parsed ToC. Found {titles.length} sections: " ++ Text.quoteList titles
  return titles

def Settings.sectionPath (settings : Settings) (title : String) : String :=
  Path.join settings.manualFolder (sectionName title)

def saveSection (title path text : String) : Job Unit := do
  match ← attempt (writeText path text) with
  | .ok () => say s!"Content for section '{title}' saved to {path}"
  | .error fault => say s!"Error writing section '{title}' to {path}: {fault.message}"

/-- Asks for a section and saves it, unless it has a file already. -/
def writeSection (settings : Settings) (overview contents title : String) : Job Unit := do
  let path := settings.sectionPath title
  if ← hasItem path then
    say s!"Skipping section '{title}', output file already exists: {path}"
  else
    let prompt := sectionPrompt title overview contents
    match Text.nonempty? (← complete settings.model (.str prompt)) with
    | some text => saveSection title path text
    | none =>
        say s!"Failed to generate content for section '{title}'. Moving to next section."

/-- Writes the sections; `number` is that of the next one of `total`. -/
def writeSections (settings : Settings) (overview contents : String) (total : Nat) :
    Nat → List String → Job Unit
  | _, [] => pure ()
  | number, title :: rest => do
      say s!"\n--- Generating content for section {number}/{total}: '{title}' ---"
      writeSection settings overview contents title
      writeSections settings overview contents total (number + 1) rest

def saveContents (settings : Settings) (contents : String) : Job Unit := do
  match ← attempt (writeText settings.contentsFile contents) with
  | .ok () => say s!"Table of Contents saved to {settings.contentsFile}"
  | .error fault =>
      say s!"Error writing ToC to {settings.contentsFile}: {fault.message}"
      say <| "Proceeding without saving ToC, but section generation might fail " ++
        "or use a stale ToC."

def savedContents (settings : Settings) : Job (Option String) := do
  say <| "Failed to generate Table of Contents. " ++
    "Attempting to load existing ToC if available."
  if !(← hasItem settings.contentsFile) then
    say "No existing ToC found. Cannot proceed."
    return none
  say s!"Loading existing ToC from {settings.contentsFile}"
  match Text.nonempty? (← loadFile settings.contentsFile) with
  | some contents => return some contents
  | none =>
      say "Failed to load existing ToC. Cannot proceed."
      return none

/-- The table of contents: a new one, or the one saved before. -/
def obtainContents (settings : Settings) (overview : String) : Job (Option String) := do
  match Text.nonempty? (← complete settings.model (.str (contentsPrompt overview))) with
  | some contents =>
      saveContents settings contents
      return some contents
  | none => savedContents settings

def writeManual (settings : Settings) (overview contents : String) : Job Unit := do
  say "\n--- Generating Content for Each Section from ToC ---"
  let titles ← readContents contents
  if titles.isEmpty then
    say "No sections found in the ToC. Cannot generate individual documents."
  else
    writeSections settings overview contents titles.length 1 titles
    say "\n--- Final documentation generation process completed using Gemini API ---"

def run (settings : Settings) : Job Unit := do
  match Text.nonempty? (← loadFile settings.overviewFile) with
  | none => say "Exiting: Project overview content not loaded."
  | some overview =>
      if !(← hasItem settings.manualFolder) then
        makeFolders settings.manualFolder
        say s!"Created directory: {settings.manualFolder}"
      say "\n--- Generating Table of Contents ---"
      match ← obtainContents settings overview with
      | none => pure ()
      | some contents => writeManual settings overview contents

end Docwright.Manual
