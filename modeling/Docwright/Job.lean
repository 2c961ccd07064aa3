import Docwright.Disk.Walk
import Docwright.Fault
import Docwright.Service.Feed
import Docwright.Service.Reply
import Docwright.Service.Request
import Docwright.Text.Lines

/-!
# Jobs

A job runs at a site: a disk, the answers that the services will give, what the
stack of its caller leaves to it, the lines said so far and the requests made so
far. It changes the site and ends with a result or with a fault; the changes made
before a fault stay. A file that is written is opened first, which empties it, so a
value that cannot be written leaves an empty file.
-/

namespace Docwright

/-- The answers that the services will give. -/
structure Services where
  writer : Feed WriterReply
  drafter : Feed DrafterReply
  /-- Opening the reference index for a search. -/
  openings : Feed Unit := ⟨[], .ok ()⟩
  /-- The texts that a search of the reference index finds. -/
  searches : Feed (List Json.Value)
  parser : Feed ParsedFile
  /-- Connecting to the writing service. -/
  connection : Except Failure Unit := .ok ()
  /-- Loading the grammar of a language. -/
  language : Except Failure Unit := .ok ()
  /-- Loading the parser of a language. -/
  parserLoad : Except Failure Unit := .ok ()
  /-- The reference documents. -/
  documents : Except Failure (List Json.Value) := .ok []
  indexLoad : Except Failure Unit := .ok ()
  indexBuild : Except Failure Unit := .ok ()
  indexSave : Except Failure Unit := .ok ()

/-- How deep a job may go before the stack is used up. That is for its caller and
for the machine it runs on to say. -/
structure Limits where
  /-- A walk may go down so many levels below the folder it starts in; if none is
  given it may go down to the end. -/
  levels : Option Nat
  /-- So many missing folders may be made on the way to a folder. -/
  folders : Nat
  /-- Arrays and objects may be nested this deep in a file that is read. -/
  nesting : Nat
  /-- The lists of an entry of the structure file can be read. -/
  three_le_nesting : 3 ≤ nesting

structure Site where
  disk : Disk
  services : Services
  limits : Limits
  /-- The lines said so far. -/
  said : List String := []
  /-- The requests made so far. -/
  asked : List Request := []

/-- A job with a result of type `α`. -/
abbrev Job (α : Type) := EStateM Fault Site α

namespace Job

variable {α : Type}

def say (line : String) : Job Unit :=
  modify fun site => { site with said := site.said ++ [line] }

def ask (request : Request) : Job Unit :=
  modify fun site => { site with asked := site.asked ++ [request] }

/-- The result of a job, or the fault that it stopped with, if it can be
caught. -/
def attempt (job : Job α) : Job (Except Fault α) := fun site =>
  match job site with
  | .ok a site => .ok (.ok a) site
  | .error fault site =>
      if fault.isOrdinary then .ok (.error fault) site else .error fault site

def ofResult : Except Fault α → Job α
  | .ok a => pure a
  | .error fault => throw fault

/-- The number of parts of a value, which has to have parts. -/
def lengthOf (value : Json.Value) : Job Nat :=
  match value.length? with
  | some length => pure length
  | none => throw (.noLength value.kindWord)

/-- The result, or the fault of a failure. -/
def ofAnswer : Except Failure α → Job α
  | .ok a => pure a
  | .error failure => throw (.service failure)

def ofDisk (path : String) : Except DiskError α → Job α
  | .ok a => pure a
  | .error error => throw (.disk error path)

def disk : Job Disk := do return (← get).disk

/-- No disk operation takes a path with a null character. -/
def checkPath (path : String) : Job Unit :=
  if path.toList.any (·.toNat == 0) then throw .nullInPath else pure ()

/-- Something stands where the path leads. -/
def hasItem (path : String) : Job Bool := do
  if path.toList.any (·.toNat == 0) then return false
  return (← disk).hasItem path

def readBytes (path : String) : Job (List UInt8) := do
  checkPath path
  ofDisk path ((← disk).read? path)

/-- The text of a file, which has to be well-formed, with unified newlines. -/
def readText (path : String) : Job String := do
  match Text.Utf8.decode (← readBytes path) with
  | .ok cs => return String.ofList (Text.unifyNewlines cs)
  | .error error => throw (.notText error)

/-- The text of a file without its ill-formed parts, with unified newlines. -/
def readTextLenient (path : String) : Job String := do
  return String.ofList (Text.unifyNewlines (Text.Utf8.decodeLenient (← readBytes path)))

def readJson (path : String) : Job Json.Value := do
  match Json.parse (← get).limits.nesting (← readText path) with
  | .ok value => return value
  | .error error => throw (.notJson error)

/-- Makes a change of the disk that belongs to a path. -/
def changeDisk (path : String) (change : Disk → Except DiskError Disk) : Job Unit := do
  checkPath path
  let changed ← ofDisk path (change (← disk))
  modify fun site => { site with disk := changed }

/-- Opens the file at a path for writing, which makes or empties it. -/
def openFile (path : String) : Job Place := do
  checkPath path
  let place ← ofDisk path ((← disk).fileFor? path)
  modify fun site => { site with disk := site.disk.insert place (.file []) }
  return place

/-- Makes the bytes the content of the opened file at a place. -/
def fill (place : Place) (content : List UInt8) : Job Unit :=
  modify fun site => { site with disk := site.disk.insert place (.file content) }

/-- Makes the value the content of the file at the path, which it is only if it is a
text. -/
def writeValue (path : String) (value : Json.Value) : Job Unit := do
  let place ← openFile path
  match value with
  | .str text => fill place (Text.Utf8.encode text.toList)
  | other => throw (.notWritten other.kindWord)

/-- Makes the text the content of the file at the path. -/
def writeText (path text : String) : Job Unit := writeValue path (.str text)

def listFolder (path : String) : Job (List String) := do
  checkPath path
  ofDisk path ((← disk).list? path)

def makeFolder (path : String) : Job Unit := changeDisk path (·.makeFolder? path)

/-- Makes a folder and first those that lead to it, as far as they are missing, at
most `depth` in all. A folder that came to be there in the meantime is accepted
on the way, and a path that ends in a dot needs no folder of its own then. -/
def makeFoldersWithin : Nat → String → Job Unit
  | 0, _ => throw .deepPath
  | depth + 1, path => do
      let (head, tail) :=
        if (Path.base path).isEmpty then
          (Path.parent (Path.parent path), Path.base (Path.parent path))
        else (Path.parent path, Path.base path)
      if head.isEmpty || tail.isEmpty then makeFolder path
      else if ← hasItem head then makeFolder path
      else
        match ← attempt (makeFoldersWithin depth head) with
        | .ok () => pure ()
        | .error (.disk .present _) => pure ()
        | .error fault => throw fault
        if tail = "." then pure () else makeFolder path

def makeFolders (path : String) : Job Unit := do
  makeFoldersWithin ((← get).limits.folders + 1) path

/-- Visits the folders from the one at a path downwards, in turn. -/
def visitFolders (path : String) (visit : α → Disk.Folder → Job α) (start : α) : Job α := do
  let walk := (← disk).walk (← get).limits.levels path
  let result ← walk.folders.foldlM visit start
  if walk.complete then return result else throw .deepPath

def write (model maxTokens prompt : Json.Value) : Job WriterReply := do
  ask (.write model maxTokens prompt)
  let feed := (← get).services.writer
  modify fun site => { site with services := { site.services with writer := feed.tail } }
  ofAnswer feed.head

def draft (prompt : Json.Value) : Job DrafterReply := do
  ask (.draft prompt)
  let feed := (← get).services.drafter
  modify fun site => { site with services := { site.services with drafter := feed.tail } }
  ofAnswer feed.head

/-- Opens the reference index for a search. -/
def openIndex (limit : Nat) : Job Unit := do
  ask (.openIndex limit)
  let feed := (← get).services.openings
  modify fun site => { site with services := { site.services with openings := feed.tail } }
  ofAnswer feed.head

def search (limit : Nat) (text : String) : Job (List Json.Value) := do
  ask (.search limit text)
  let feed := (← get).services.searches
  modify fun site => { site with services := { site.services with searches := feed.tail } }
  ofAnswer feed.head

def parse (content : List UInt8) : Job ParsedFile := do
  ask (.parse content.length)
  let feed := (← get).services.parser
  modify fun site => { site with services := { site.services with parser := feed.tail } }
  ofAnswer feed.head

/-- Puts a query to a parsed file. One that is not a text finds nothing, and one
that cannot be looked up is refused before it is put. -/
def query (file : ParsedFile) (value : Json.Value) : Job Captures := do
  if !value.isAtom then throw (.notName value.kindWord)
  ask (.query value)
  match value with
  | .str text => ofAnswer (file.answer text)
  | _ => return []

end Job

end Docwright
