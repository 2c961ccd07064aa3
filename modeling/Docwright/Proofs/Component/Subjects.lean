import Docwright.Component
import Docwright.Proofs.Data.Lists
import Docwright.Proofs.Disk.Beside
import Docwright.Proofs.Disk.Names
import Mathlib.Data.List.Nodup

/-!
# Subjects of component pages

A page is about a header with the implementation beside it, or about a single
file. `subjects` lists what pages are asked for, in order, as a function of the
structure file and of the notes that can be read: first the listed pairs of which
one half at least has notes, then the source files that are in no pair and have
notes that are not empty.

The paths of source files determine the folder and the name, so a header is told
from its implementation and two headers never share one. Therefore no file is part
of two subjects.
-/

namespace Docwright.Component

open Docwright.Disk
open Docwright.Json
open Docwright.Path

section Paths

def IsSourcePath (path : String) : Prop :=
  ∃ folder place name, LeadsTo folder ("src" :: place) ∧ IsName name ∧ path = Path.join folder name

variable {path other : String}

theorem IsSourcePath.isName_base (h : IsSourcePath path) : IsName (base path) := by
  obtain ⟨folder, place, name, hfolder, hname, rfl⟩ := h
  rw [hfolder.base_join hname.noSlash]
  exact hname

theorem not_mem_stem_append {name : String} (hname : IsName name) :
    '/' ∉ (stem name ++ ".cpp").toList := by
  rw [String.toList_append, List.mem_append]
  rintro (hstem | hending)
  · exact hname.noSlash (mem_of_mem_stem hstem)
  · exact absurd hending (by decide)

/-- The implementation is in the folder of the header and has its stem. -/
theorem siblingOf_join {folder name : String} {place : Place} (hfolder : LeadsTo folder place)
    (hname : IsName name) :
    siblingOf (Path.join folder name) = Path.join folder (stem name ++ ".cpp") := by
  rw [siblingOf, hfolder.base_join hname.noSlash, hfolder.parent_join hname.noSlash]

theorem base_siblingOf (h : IsSourcePath path) :
    base (siblingOf path) = stem (base path) ++ ".cpp" := by
  obtain ⟨folder, place, name, hfolder, hname, rfl⟩ := h
  rw [siblingOf_join hfolder hname, hfolder.base_join (not_mem_stem_append hname),
    hfolder.base_join hname.noSlash]

theorem extension_siblingOf (h : IsSourcePath path) (hheader : extension (base path) = ".h") :
    extension (base (siblingOf path)) = ".cpp" := by
  have hstem : ∃ c ∈ (stem (base path)).toList, c ≠ '.' := by
    apply exists_ne_dot_of_extension
    rw [hheader]
    decide
  rw [base_siblingOf h]
  exact extension_append hstem (e := "cpp") (by decide)

end Paths

abbrev Fields := List (String × Value)

/-- What a page is about: a header with the implementation beside it, or a single
file. -/
inductive Subject where
  | pair (header source : String × Fields)
  | single (file : String × Fields)
  deriving DecidableEq

namespace Subject

def paths : Subject → List String
  | .pair header source => [header.1, source.1]
  | .single file => [file.1]

def pageName : Subject → String
  | .pair header _ => stem (base header.1) ++ "_pair.md"
  | .single file => base file.1 ++ "_single.md"

/-- The prompt for a page; `notes` are those on a file of that name. -/
def prompt (notes : String → Option String) : Subject → String
  | .pair header source =>
      pairPrompt header.1 source.1
        (notesOr "No notes available for header file." (notes (base header.1)))
        (notesOr "No notes available for implementation file." (notes (base source.1)))
        (if header.2.isEmpty then .unavailable else .ofFields header.2)
        (if source.2.isEmpty then .unavailable else .ofFields source.2)
  | .single file =>
      singlePrompt file.1 (notesOr "No notes available for this file." (notes (base file.1)))
        (.ofFields file.2)

end Subject

section Listing

variable (notes : String → Option String) (listing : List (String × Fields))

/-- The implementation beside a header, if it is listed. -/
def source? (path : String) : Option (String × Fields) :=
  if extension (base path) = ".h" then
    (listing.lookup (siblingOf path)).map fun fields => (siblingOf path, fields)
  else none

/-- A header with its implementation, if there are notes on one of them. -/
def pair? (file : String × Fields) : Option Subject :=
  (source? listing file.1).bind fun source =>
    if (notes (base file.1)).isNone && (notes (base source.1)).isNone then none
    else some (.pair file source)

def pairPaths (file : String × Fields) : List String :=
  match source? listing file.1 with
  | some source => [file.1, source.1]
  | none => []

def pairedPaths : List String := listing.flatMap (pairPaths listing)

/-- A source file that is in no pair, if there are notes on it that are not
empty. -/
def single? (file : String × Fields) : Option Subject :=
  if file.1 ∈ pairedPaths listing then none
  else if extension (base file.1) ∈ Survey.sourceExtensions ∧
      (Text.nonempty? (notes (base file.1))).isSome then
    some (.single file)
  else none

/-- The subjects of the pages that are asked for. -/
def subjects : List Subject :=
  listing.filterMap (pair? notes listing) ++ listing.filterMap (single? notes listing)

variable {notes listing}

theorem source?_eq_some {path : String} {source : String × Fields}
    (h : source? listing path = some source) :
    extension (base path) = ".h" ∧ source.1 = siblingOf path ∧ source ∈ listing := by
  unfold source? at h
  by_cases hheader : extension (base path) = ".h"
  · rw [if_pos hheader] at h
    obtain ⟨fields, hfields, hsource⟩ := Option.map_eq_some_iff.1 h
    obtain ⟨before, rest, hlisting, _⟩ := List.lookup_eq_some_iff.1 hfields
    refine ⟨hheader, by simp only [← hsource], ?_⟩
    simp [hlisting, ← hsource]
  · rw [if_neg hheader] at h
    exact absurd h.symm (Option.some_ne_none source)

theorem mem_pairPaths {file : String × Fields} {path : String} :
    path ∈ pairPaths listing file ↔
      ∃ source, source? listing file.1 = some source ∧ (path = file.1 ∨ path = source.1) := by
  unfold pairPaths
  cases source? listing file.1 with
  | none => simp
  | some source => simp

theorem pair?_eq_some {file : String × Fields} {subject : Subject}
    (h : pair? notes listing file = some subject) :
    ∃ source, source? listing file.1 = some source ∧ subject = .pair file source := by
  obtain ⟨source, hsource, hsubject⟩ := Option.bind_eq_some_iff.1 h
  refine ⟨source, hsource, ?_⟩
  split at hsubject
  · exact absurd hsubject.symm (Option.some_ne_none subject)
  · exact (Option.some.inj hsubject).symm

theorem single?_eq_some {file : String × Fields} {subject : Subject}
    (h : single? notes listing file = some subject) :
    file.1 ∉ pairedPaths listing ∧ subject = .single file := by
  unfold single? at h
  split at h
  · exact absurd h.symm (Option.some_ne_none subject)
  · rename_i hpaired
    split at h
    · exact ⟨hpaired, (Option.some.inj h).symm⟩
    · exact absurd h.symm (Option.some_ne_none subject)

section Distinct

variable (hpaths : ∀ file ∈ listing, IsSourcePath file.1)

include hpaths

theorem ne_source {file other source : String × Fields} (hfile : file ∈ listing)
    (hheader : extension (base other.1) = ".h") (h : source? listing file.1 = some source) :
    other.1 ≠ source.1 := by
  intro hsame
  obtain ⟨hfileHeader, hsource, _⟩ := source?_eq_some h
  have hextension := extension_siblingOf (hpaths file hfile) hfileHeader
  rw [← hsource, ← hsame, hheader] at hextension
  exact absurd hextension (by decide)

end Distinct

end Listing

end Docwright.Component
