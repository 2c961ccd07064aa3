import Docwright.Disk.Resolve
import Docwright.Proofs.Disk.Parts

/-!
# One part of a path

A part of a path stays in the current folder, goes to the one above, or is a name that is
looked up. A name can be refused before that: one that is too long, one that is looked for
above the working folder, and, where a file is to be written, the last one if a slash stands
behind it. None of this depends on what is on the disk. Once the name is looked up, the
entry that is found says how the path goes on (`lookUp`).

What is proved of following a path by induction on its parts goes by these cases.
-/

namespace Docwright.Disk

open Docwright.Path

variable {disk : Disk} {purpose : Purpose} {here : Option (List String)} {entries : Entries}
  {part : String} {rest : List String}

/-- A file is to be written and nothing but slashes stands behind its name. -/
def RefusesSlash (purpose : Purpose) (rest : List String) : Prop :=
  purpose = .write ∧ rest ≠ [] ∧ onlySlashes rest = true

instance (purpose : Purpose) (rest : List String) : Decidable (RefusesSlash purpose rest) :=
  inferInstanceAs (Decidable (_ ∧ _ ∧ _))

/-- How a path goes on behind a name under which that entry was found. -/
def lookUp (disk : Disk) (purpose : Purpose) (passed : List String) (name : String)
    (rest : List String) : Option Tree → Stop
  | none =>
      if onlySlashes rest then .target (.vacant passed.reverse name) else .failed .missing
  | some (.folder inner) => disk.advance purpose (some (name :: passed)) inner rest
  | some (.file content) =>
      if rest.isEmpty then .target (.found (some (name :: passed).reverse) (.file content))
      else .failed .notFolder
  | some (.locked asFolder) =>
      if rest = [] ∨ asFolder = true ∧ onlySlashes rest = true then
        .target (.found (some (name :: passed).reverse) (.locked asFolder))
      else .failed (if asFolder then .denied else .notFolder)
  | some (.link target) =>
      if rest = [] ∧ purpose = .claim then
        .target (.found (some (name :: passed).reverse) (.link target))
      else .link passed target rest

theorem not_refusesSlash_of_ne (h : purpose ≠ .write) : ¬ RefusesSlash purpose rest :=
  fun hrefuses => h hrefuses.1

theorem part_cases (part : String) : (part = "" ∨ part = ".") ∨ part = ".." ∨ IsStep part := by
  by_cases hstay : part = "" ∨ part = "."
  · exact .inl hstay
  · by_cases hup : part = ".."
    · exact .inr (.inl hup)
    · exact .inr (.inr ⟨fun h => hstay (.inl h), fun h => hstay (.inr h), hup⟩)

theorem advance_stay (h : part = "" ∨ part = ".") :
    disk.advance purpose here entries (part :: rest) = disk.advance purpose here entries rest := by
  conv => lhs; unfold advance
  exact if_pos h

theorem advance_up :
    disk.advance purpose here entries (".." :: rest) =
      disk.advance purpose (above here) (disk.inside (above here)) rest := by
  conv => lhs; unfold advance
  rw [if_neg (by decide), if_pos rfl]

section Step

variable (hstep : IsStep part)

include hstep

theorem advance_step :
    disk.advance purpose here entries (part :: rest) =
      if RefusesSlash purpose rest then .failed .isFolder
      else if nameLimit < part.utf8ByteSize then .failed .longName
      else
        match here with
        | none => .failed .missing
        | some passed => disk.lookUp purpose passed part rest (entries.get? part) := by
  unfold advance
  rw [if_neg (by simp [hstep.1, hstep.2.1]), if_neg hstep.2.2]
  cases here with
  | none => rfl
  | some passed =>
      cases entries.get? part with
      | none => rfl
      | some tree => cases tree <;> rfl

theorem advance_refused (h : RefusesSlash purpose rest) :
    disk.advance purpose here entries (part :: rest) = .failed .isFolder := by
  rw [advance_step hstep, if_pos h]

theorem advance_longName (h : ¬ RefusesSlash purpose rest)
    (hlong : nameLimit < part.utf8ByteSize) :
    disk.advance purpose here entries (part :: rest) = .failed .longName := by
  rw [advance_step hstep, if_neg h, if_pos hlong]

theorem advance_lookUp (h : ¬ RefusesSlash purpose rest)
    (hshort : part.utf8ByteSize ≤ nameLimit) (passed : List String) :
    disk.advance purpose (some passed) entries (part :: rest) =
      disk.lookUp purpose passed part rest (entries.get? part) := by
  rw [advance_step hstep, if_neg h, if_neg (Nat.not_lt.2 hshort)]

/-- Where no slash is refused a name fails on every disk and for every purpose, or it is
looked up. -/
theorem advance_step_cases (here : Option (List String)) :
    (∃ error, ∀ {disk : Disk} {purpose entries rest}, ¬ RefusesSlash purpose rest →
      disk.advance purpose here entries (part :: rest) = .failed error) ∨
    ∃ passed, here = some passed ∧ ∀ {disk : Disk} {purpose entries rest},
      ¬ RefusesSlash purpose rest → disk.advance purpose (some passed) entries (part :: rest) =
        disk.lookUp purpose passed part rest (entries.get? part) := by
  by_cases hlong : nameLimit < part.utf8ByteSize
  · exact .inl ⟨.longName, fun h => advance_longName hstep h hlong⟩
  cases here with
  | none =>
      refine .inl ⟨.missing, fun h => ?_⟩
      rw [advance_step hstep, if_neg h, if_neg hlong]
  | some passed =>
      exact .inr ⟨passed, rfl, fun h => advance_lookUp hstep h (Nat.not_lt.1 hlong) passed⟩

end Step

theorem inside_cons {passed : List String} {name : String} {tree : Tree}
    (h : (disk.inside (some passed)).get? name = some tree) :
    disk.inside (some (name :: passed)) = tree.entries := by
  rw [inside, List.reverse_cons]
  exact entriesAt_append h

end Docwright.Disk
