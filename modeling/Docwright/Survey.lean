import Docwright.Survey.Queries
import Docwright.Survey.Structure

/-!
# The survey of a repository

The survey visits the folders of the source tree, analyses every file with the
extension of a C++ source and saves the structure. A file that cannot be read or
parsed gets an entry with its error, and the survey goes on with the next one. A
tree without such files leaves the structure file as it was.
-/

namespace Docwright.Survey

open Job

/-- Where the survey looks, what it looks for and where it saves. -/
structure Settings where
  sourceFolder : String := "./src"
  structureFile : String := "./repo_structure.json"
  extensions : List String := sourceExtensions
  includeQuery : Json.Value := .str Survey.includeQuery
  functionQuery : Json.Value := .str Survey.functionQuery
  classQuery : Json.Value := .str Survey.classQuery
  deriving Repr

def Settings.definitions (settings : Settings) : List (String × Json.Value) :=
  [("includes", definitionOf settings.includeQuery ["include_path"]),
    ("functions", definitionOf settings.functionQuery ["function_name"]),
    ("classes", definitionOf settings.classQuery ["class_name"])]

/-- The blank characters of ASCII, as bytes. -/
def isBlankByte (b : UInt8) : Bool :=
  (Nat.ble 9 b.toNat && Nat.ble b.toNat 13) || b.toNat == 32

/-- The entry of a source file that can be read and parsed. -/
def analyse (settings : Settings) (path : String) : Job Entry := do
  let content ← readBytes path
  if content.all isBlankByte then
    say s!"File {path} is empty. Skipping analysis."
    return .blank
  return .analysed (← extract content settings.definitions)

def entryOf (settings : Settings) (path : String) : Job Entry := do
  say s!"Analyzing C++-like file: {path}"
  match ← attempt (analyse settings path) with
  | .ok entry => return entry
  | .error fault =>
      say s!"Error analyzing file {path}: {fault.kind} - {fault.message}"
      return .failed fault.message

/-- The name is that of a source file. -/
def Settings.selects (settings : Settings) (name : String) : Bool :=
  settings.extensions.contains (Path.extension name)

def visit (settings : Settings) (found : Structure) (folder : Disk.Folder) :
    Job Structure := do
  let names := (← disk).fileNames folder
  (names.filter settings.selects).foldlM (fun found name => do
    let path := Path.join folder.path name
    return found ++ [(path, ← entryOf settings path)]) found

def survey (settings : Settings) : Job Structure :=
  visitFolders settings.sourceFolder (visit settings) []

def save (settings : Settings) (found : Structure) : Job Unit := do
  match ← attempt (writeText settings.structureFile found.text) with
  | .ok () =>
      say s!"Repository structure analysis saved to {settings.structureFile}"
      say s!"Analyzed {found.length} files."
  | .error fault =>
      say s!"Error writing repository structure to {settings.structureFile}: {fault.message}"

def loadGrammar : Job Unit := do
  ask (.loadLanguage "cpp")
  ofAnswer (← get).services.language
  ask (.loadParser "cpp")
  ofAnswer (← get).services.parserLoad

def run (settings : Settings) : Job Unit := do
  say "Loading languages from tree-sitter-language-pack..."
  match ← attempt loadGrammar with
  | .error fault =>
      say s!"Error loading languages/parsers from tree-sitter-language-pack: {fault.message}"
      say "Ensure 'tree-sitter-language-pack' is installed correctly."
  | .ok () =>
      say "C++ language and parser loaded."
      if !(← hasItem settings.sourceFolder) then
        say s!"Source directory '{settings.sourceFolder}' not found."
      else
        say s!"Analyzing repository structure in '{settings.sourceFolder}'..."
        let found ← survey settings
        if found.isEmpty then say "No valid source files found to analyze."
        else save settings found

end Docwright.Survey
