import Docwright.Disk.Basic
import Docwright.Disk.Path

/-!
# What a path leads to

A path is followed part by part. An empty part or a dot stays in the current
folder, two dots go to the folder above, and a name goes to the item of that
name; a link on the way is replaced by its target, and a locked folder is not
entered. Above the working folder there are only folders in which nothing is
found, which `none` stands for.

What happens at the last name depends on the purpose: a link there is followed
or taken for itself, and where a new file is to stand a slash behind the last
name is refused. The last name may come from the path or from a link that stood
at its end, and a slash is refused behind either, before anything is looked up
under that name.

`advance` follows the parts up to the first link, by recursion on the parts, and
`follow` goes on behind the link, by recursion on the number of links that may
still be met. On the way the names passed so far are kept with the last one
first, and the entries of the current folder are at hand, so that a step looks
at one folder only.
-/

namespace Docwright

/-- Why the disk refuses an operation. -/
inductive DiskError where
  | missing
  | present
  | notFolder
  | isFolder
  | longName
  | manyLinks
  | denied
  deriving DecidableEq, Repr

def DiskError.number : DiskError → Nat
  | .missing => 2
  | .denied => 13
  | .present => 17
  | .notFolder => 20
  | .isFolder => 21
  | .longName => 36
  | .manyLinks => 40

def DiskError.text : DiskError → String
  | .missing => "No such file or directory"
  | .denied => "Permission denied"
  | .present => "File exists"
  | .notFolder => "Not a directory"
  | .isFolder => "Is a directory"
  | .longName => "File name too long"
  | .manyLinks => "Too many levels of symbolic links"

def DiskError.kind : DiskError → String
  | .missing => "FileNotFoundError"
  | .denied => "PermissionError"
  | .present => "FileExistsError"
  | .notFolder => "NotADirectoryError"
  | .isFolder => "IsADirectoryError"
  | .longName => "OSError"
  | .manyLinks => "OSError"

namespace Disk

/-- A name may have this many bytes. -/
def nameLimit : Nat := 255

/-- A path must have fewer bytes than this. -/
def pathLimit : Nat := 4096

/-- This many links may be met on the way. -/
def linkLimit : Nat := 40

/-- What a path is followed for: the item behind all links, the item itself even
if it is a link, or a file to be written. -/
inductive Purpose where
  | find
  | claim
  | write
  deriving DecidableEq, Repr

/-- Where following a path ends: at an item, or in a folder that has no item of
the last name. -/
inductive Target where
  | found (place : Option Place) (item : Item)
  | vacant (folder : Place) (name : String)
  deriving DecidableEq, Repr

/-- Where following the parts of a path pauses: at its target, at a link with the
names passed before it and the parts that remain, or at an error. -/
inductive Stop where
  | target (target : Target)
  | link (passed : List String) (link : String) (rest : List String)
  | failed (error : DiskError)
  deriving DecidableEq, Repr

/-- The folder above. The names to it are listed from the last to the first. -/
def above : Option (List String) → Option (List String)
  | some (_ :: outer) => some outer
  | _ => none

/-- The entries of the folder that the names lead to, from the last to the first. -/
def inside (disk : Disk) : Option (List String) → Entries
  | some passed => disk.entriesAt passed.reverse
  | none => []

/-- Nothing but slashes is left of a path. -/
def onlySlashes (parts : List String) : Bool := parts.all (· == "")

/-- Follows parts from a folder with the given entries up to the first link that
is to be followed. -/
def advance (disk : Disk) (purpose : Purpose) :
    Option (List String) → Entries → List String → Stop
  | here, _, [] => .target (.found (here.map List.reverse) .folder)
  | here, entries, part :: rest =>
      if part = "" ∨ part = "." then advance disk purpose here entries rest
      else if part = ".." then advance disk purpose (above here) (disk.inside (above here)) rest
      else if purpose = .write ∧ rest ≠ [] ∧ onlySlashes rest = true then .failed .isFolder
      else if nameLimit < part.utf8ByteSize then .failed .longName
      else
        match here with
        | none => .failed .missing
        | some passed =>
            match entries.get? part with
            | none =>
                if onlySlashes rest then .target (.vacant passed.reverse part)
                else .failed .missing
            | some (.folder inner) => advance disk purpose (some (part :: passed)) inner rest
            | some (.file content) =>
                if rest.isEmpty then
                  .target (.found (some (part :: passed).reverse) (.file content))
                else .failed .notFolder
            | some (.locked asFolder) =>
                if rest = [] ∨ asFolder = true ∧ onlySlashes rest = true then
                  .target (.found (some (part :: passed).reverse) (.locked asFolder))
                else .failed (if asFolder then .denied else .notFolder)
            | some (.link target) =>
                if rest = [] ∧ purpose = .claim then
                  .target (.found (some (part :: passed).reverse) (.link target))
                else .link passed target rest

/-- Follows parts from a folder to the end. -/
def follow (disk : Disk) (purpose : Purpose) :
    Nat → Option (List String) → List String → Except DiskError Target
  | links, here, parts =>
      match advance disk purpose here (disk.inside here) parts with
      | .target target => .ok target
      | .failed error => .error error
      | .link passed target rest =>
          match links with
          | 0 => .error .manyLinks
          | links + 1 =>
              follow disk purpose links (if Path.isAbsolute target then none else some passed)
                (Path.parts target ++ rest)

/-- What parts lead to from the working folder, or from above it if the path is
absolute. -/
def resolveParts (disk : Disk) (purpose : Purpose) (absolute : Bool) (parts : List String) :
    Except DiskError Target :=
  follow disk purpose linkLimit (if absolute then none else some []) parts

/-- The parts of a path, if it is neither empty nor too long. -/
def partsOf (path : String) : Except DiskError (List String) :=
  if path.isEmpty then .error .missing
  else if pathLimit ≤ path.utf8ByteSize then .error .longName
  else .ok (Path.parts path)

def resolveFor (disk : Disk) (purpose : Purpose) (path : String) : Except DiskError Target :=
  match partsOf path with
  | .error error => .error error
  | .ok parts => disk.resolveParts purpose (Path.isAbsolute path) parts

/-- What a path leads to, behind all links. -/
def resolve (disk : Disk) (path : String) : Except DiskError Target :=
  disk.resolveFor .find path

end Disk

end Docwright
