/-!
# The material for an overview

The material is put together from the structure of the repository, a heading and
the component pages, a heading and the notes, with an empty line between two
sections. If it is longer than the budget it is cut down: structure and first
heading are kept whole if they fit, then as much of the pages as fits, then the
second heading and as much of the notes as fits. A cut at a negative length
counts from the end of the text.
-/

namespace Docwright.Overview

/-- The sections of the material. -/
structure Digest where
  repository : List Char
  pages : List Char
  notes : List Char
  deriving DecidableEq, Repr

def separator : List Char := ['\n', '\n']

def pagesHeading : List Char := "## Intermediate Component Documentation:".toList

def notesHeading : List Char := "## Detailed Per-File Notes:".toList

def joined (sections : List (List Char)) : List Char := List.intercalate separator sections

/-- The text cut at a length, which counts from the end if it is negative. -/
def cutAt (length : Int) (cs : List Char) : List Char :=
  if 0 ≤ length then cs.take length.toNat else cs.take (cs.length - (-length).toNat)

namespace Digest

def full (digest : Digest) : List Char :=
  joined [digest.repository, pagesHeading, digest.pages, notesHeading, digest.notes]

/-- The sections of the structure that fit, and the budget that is left. -/
def structurePart (digest : Digest) (budget : Int) : List (List Char) × Int :=
  let needed : Int := digest.repository.length + pagesHeading.length + 4
  if needed ≤ budget then ([digest.repository, pagesHeading], budget - needed)
  else ([cutAt budget digest.repository], 0)

/-- The section of the pages that fits, and the budget that is left. -/
def pagesPart (digest : Digest) (budget : Int) : List (List Char) × Int :=
  if 0 < budget ∧ 0 < digest.pages.length then
    if digest.pages.length ≤ budget then
      ([digest.pages], budget - (digest.pages.length + 2))
    else ([cutAt budget digest.pages], 0)
  else ([], budget)

/-- The sections of the notes that fit. The heading is taken without a check, and
the notes are cut at what is left then. -/
def notesPart (digest : Digest) (budget : Int) : List (List Char) :=
  if 0 < budget ∧ 0 < digest.notes.length then
    let rest := budget - (notesHeading.length + 2)
    [notesHeading, if digest.notes.length ≤ rest then digest.notes else cutAt rest digest.notes]
  else []

def cutSections (digest : Digest) (budget : Int) : List (List Char) :=
  let (first, budget) := digest.structurePart budget
  let (second, budget) := digest.pagesPart budget
  first ++ second ++ digest.notesPart budget

def cut (digest : Digest) (budget : Int) : List Char := joined (digest.cutSections budget)

def exceeds (digest : Digest) (budget : Int) : Bool := budget < digest.full.length

/-- Not even structure and first heading fit into the budget. -/
def structureExceeds (digest : Digest) (budget : Int) : Bool :=
  budget < digest.repository.length + pagesHeading.length + 4

def material (digest : Digest) (budget : Int) : List Char :=
  if digest.exceeds budget then digest.cut budget else digest.full

end Digest

end Docwright.Overview
