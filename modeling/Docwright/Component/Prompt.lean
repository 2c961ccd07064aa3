import Docwright.Completion
import Docwright.Job
import Docwright.Text.Trim

/-!
# Prompts for component pages

A page is asked for with the notes on its files and an outline of each: the
includes, functions and classes that the structure file lists for it, shown as
they stand there. A list that an entry lacks is shown as empty. In the prompt
for a pair an entry that is not there, or is empty, is shown as not available; an
entry of any other kind than an object stops the job.
-/

namespace Docwright.Component

open Docwright.Json

/-- The lists of an entry as a prompt shows them. -/
structure Outline where
  includes : String
  functions : String
  classes : String
  deriving DecidableEq, Repr

def Outline.ofFields (fields : List (String × Value)) : Outline :=
  let shown := fun name => ((fieldOf? name fields).getD (.arr [])).display
  ⟨shown "includes", shown "functions", shown "classes"⟩

def Outline.unavailable : Outline := ⟨"N/A", "N/A", "N/A"⟩

/-- The outline of an entry, which has to be an object. -/
def outlineOf : Value → Except Fault Outline
  | .obj fields => .ok (.ofFields fields)
  | entry => .error (.noMember entry.kindWord "get")

/-- The outline of an entry that may be absent or empty. -/
def outlineIfPresent (entry : Value) : Except Fault Outline :=
  if entry.isPresent then outlineOf entry else .ok .unavailable

def pairPrompt (headerPath sourcePath headerNotes sourceNotes : String)
    (header source : Outline) : String :=
  String.intercalate "\n" [
    "Generate an intermediate technical documentation page in Markdown for the " ++
      "following related C++ files:",
    s!"Header File: {headerPath}",
    s!"Implementation File: {sourcePath}",
    "",
    "Combined Goal: Briefly explain the overall purpose of this pair of files, how " ++
      "they relate (e.g., class declaration in .h, definition in .cpp), and summarize " ++
      "their key functionalities. Merge and synthesize the provided notes. Be technical " ++
      "and rigorous, avoid fluff.",
    "",
    "Header File Notes:",
    "---",
    s!"{headerNotes}",
    "---",
    "",
    "Header File Structure (from tree-sitter analysis):",
    s!"Includes: {header.includes}",
    s!"Functions: {header.functions}",
    s!"Classes: {header.classes}",
    "---",
    "",
    "Implementation File Notes:",
    "---",
    s!"{sourceNotes}",
    "---",
    "",
    "Implementation File Structure (from tree-sitter analysis):",
    s!"Includes: {source.includes}",
    s!"Functions: {source.functions}",
    s!"Classes: {source.classes} ",
    "---",
    "",
    "Produce a concise Markdown document for these combined files. Focus on their " ++
      "joint role and key aspects.",
    "Output only the Markdown content.",
    ""]

def singlePrompt (path notes : String) (outline : Outline) : String :=
  String.intercalate "\n" [
    s!"The following are notes and structural information for the C++ file: {path}",
    "",
    "File Notes:",
    "---",
    s!"{notes}",
    "---",
    "",
    "File Structure (from tree-sitter analysis):",
    s!"Includes: {outline.includes}",
    s!"Functions: {outline.functions}",
    s!"Classes: {outline.classes}",
    "---",
    "",
    "Briefly summarize this file's role and key aspects based on the provided " ++
      "information, in Markdown format. Be technical and rigorous, avoid fluff.",
    "This will serve as an intermediate documentation page for this single file.",
    "Output only the Markdown content.",
    ""]

/-- The notes, or a remark that there are none. -/
def notesOr (remark : String) (notes : Option String) : String :=
  (Text.nonempty? notes).getD remark

end Docwright.Component
