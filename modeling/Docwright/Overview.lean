import Docwright.Completion
import Docwright.Json.Writer
import Docwright.Overview.Digest
import Docwright.Text.Trim

/-!
# The overview of a project

The overview is asked for from the structure file, the component pages and the
notes on files. Whatever of these is missing or cannot be read is left out or
replaced by a remark, and the overview is asked for all the same. What the service
gives for it is saved if it counts as present; where that is not a text, saving fails
and leaves an empty file.
-/

namespace Docwright.Overview

open Job

/-- Where the material and the overview are, and how it is asked for. -/
structure Settings where
  model : Json.Value := .str Completion.modelName
  maxTokens : Json.Value := .int 8000
  /-- The number of characters that the material may have. -/
  budget : Int := 540000
  notesFolder : String := "./file_notes"
  pageFolder : String := "./intermediate_docs"
  overviewFolder : String := "./high-level-overview"
  structureFile : String := "./repo_structure.json"
  deriving Repr

/-- Reports the length of what is given for a prompt, which has to have one. -/
def receive (given : Json.Value) : Job Unit := do
  let length ← lengthOf given
  say s!"Received completion from Anthropic. Output length (chars): {length}"

/-- Asks for a text and reports the lengths of the prompt and of what is given. -/
def complete (model prompt maxTokens : Json.Value) : Job Json.Value := do
  let length ← lengthOf prompt
  say <| s!"Sending prompt to Anthropic ({model}). " ++
    s!"Prompt length (chars): {length}, Max new tokens: {maxTokens}"
  Completion.request model maxTokens prompt receive fun _ body => say s!"Error details: {body}"

/-- One Markdown file in the material. -/
def block (name content : String) : String :=
  "\n\n--- Content from: " ++ name ++ " ---\n" ++ content

/-- The block of a Markdown file, if the file can be read. -/
def loadBlock (folder name : String) : Job (Option String) := do
  let path := Path.join folder name
  match ← attempt (readText path) with
  | .ok content =>
      say s!"  Loaded: {name} ({content.length} chars)"
      return some (block name content)
  | .error fault =>
      say s!"Error reading {path}: {fault.message}"
      return none

/-- The blocks of the Markdown files in a folder, in the order of their names. -/
def loadFolder (folder : String) : Job String := do
  if !(← hasItem folder) then
    say s!"Warning: Directory {folder} not found for loading markdown."
    return ""
  say s!"Loading all markdown from: {folder}"
  let names := (Text.sortedDistinct (← listFolder folder)).filter (Path.hasEnding ".md")
  let blocks ← names.mapM (loadBlock folder)
  return String.join (blocks.filterMap id)

/-- The text of the structure in the material. -/
def loadStructure (settings : Settings) : Job String := do
  let path := settings.structureFile
  if !(← hasItem path) then
    say s!"Warning: {path} not found."
    return "Repository structure file not found."
  match ← attempt (readJson path) with
  | .ok value =>
      let text := value.write 2
      say s!"Loaded repository structure: {path} ({text.length} chars)"
      return text
  | .error fault =>
      say s!"Error reading {path}: {fault.message}"
      return "\x7b\x7d\nError loading repository structure."

def structureSection (text : String) : String :=
  "## Repository Structure:\n```json\n" ++ text ++ "\n```"

/-- The material, cut down to the budget if it has to be. -/
def assemble (settings : Settings) (digest : Digest) : Job String := do
  let length := digest.full.length
  if digest.exceeds settings.budget then
    say <| s!"Warning: Combined input text is very long ({length} chars). " ++
      "Attempting to truncate intelligently."
    if digest.structureExceeds settings.budget then
      say <| "Warning: Even repo structure is too long for truncation limit. " ++
        "Taking what fits."
    let cut := digest.cut settings.budget
    say s!"Truncated input text to {cut.length} chars."
    return String.ofList cut
  return String.ofList digest.full

def overviewPrompt (material : String) : String :=
  String.intercalate "\n" [
    "You are an AI assistant tasked with generating a high-level overview Markdown " ++
      "document for a C++ software project.",
    "Your goal is to synthesize all provided information into a single, coherent " ++
      "high-level overview. This document should:",
    "- Start with an introduction to the project's likely purpose and overall architecture.",
    "- Describe the main components/modules and their primary responsibilities.",
    "- Explain how these components generally interact, based on the structural " ++
      "information (like includes) and functional descriptions from the notes.",
    "- Be structured logically with clear Markdown headings and subheadings (e.g., ## " ++
      "Introduction, ## Architecture Overview, ### Component X, ### Component Y, ## " ++
      "Data Structures, ## Key Algorithms, ## Dependencies, etc.).",
    "- This overview will serve as the primary source material for later generating a " ++
      "detailed Table of Contents and section-by-section documentation for a complete " ++
      "technical manual.",
    "- Maintain a dry, technical, and rigorous engineering tone. Be precise. Cut " ++
      "fluff and filler words.",
    "- The project name seems to be related to \"TritonCTS\" or a similar system, " ++
      "likely for clock tree synthesis in electronic design.",
    "",
    "Provided materials (potentially truncated if too long):",
    s!"{material}",
    "",
    "---",
    "Generate the comprehensive high-level overview in Markdown format. Ensure the " ++
      "output is well-structured and detailed enough to form the backbone of a " ++
      "technical manual.",
    ""]

def writeOverview (path : String) (overview : Json.Value) : Job Unit := do
  writeValue path overview
  let length ← lengthOf overview
  say s!"High-level overview saved to {path} ({length} chars)"

def save (settings : Settings) (overview : Json.Value) : Job Unit := do
  let path := Path.join settings.overviewFolder "project_overview.md"
  match ← attempt (writeOverview path overview) with
  | .ok () => pure ()
  | .error fault => say s!"Error writing overview to {path}: {fault.message}"

def loadDigest (settings : Settings) : Job Digest := do
  let structureText ← loadStructure settings
  let notes ← loadFolder settings.notesFolder
  let pages ← loadFolder settings.pageFolder
  return ⟨(structureSection structureText).toList, pages.toList, notes.toList⟩

def run (settings : Settings) : Job Unit := do
  if !(← hasItem settings.overviewFolder) then
    makeFolders settings.overviewFolder
    say s!"Created directory: {settings.overviewFolder}"
  say "\nLoading data for high-level overview generation..."
  let digest ← loadDigest settings
  let material ← assemble settings digest
  say "\nGenerating high-level overview document (this may take a while)..."
  let prompt := overviewPrompt material
  match (← complete settings.model (.str prompt) settings.maxTokens).present? with
  | some overview => save settings overview
  | none => say "Failed to generate high-level overview content from Anthropic."

end Docwright.Overview
