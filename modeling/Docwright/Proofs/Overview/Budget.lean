import Docwright.Proofs.Overview.Course

/-!
# The budget of the material

The material for an overview is cut down to a budget, but the cut does not always
meet it. The sections before the notes are accounted for to the character. Then
the heading of the notes is taken as soon as anything at all is left, and if what
is left is less than the heading and its separator need, the notes are cut at a
negative length, which counts from their end. So the material is longer than the
budget exactly if there are notes and the budget ends between the separator in
front of their heading and the one behind it.

`front` is what comes before the notes, `Overruns` is that condition, and the
main statement ties both to the request that a run sends.
-/

namespace Docwright.Overview

open Docwright.Job

@[simp]
theorem joined_singleton (part : List Char) : joined [part] = part := by
  rw [joined, List.intercalate_singleton]

theorem joined_cons_cons (first second : List Char) (rest : List (List Char)) :
    joined (first :: second :: rest) = first ++ (separator ++ joined (second :: rest)) := by
  rw [joined, joined, List.intercalate_cons_cons, List.append_assoc]

@[simp]
theorem length_joined_cons_cons (first second : List Char) (rest : List (List Char)) :
    (joined (first :: second :: rest)).length =
      first.length + 2 + (joined (second :: rest)).length := by
  rw [joined_cons_cons, List.length_append, List.length_append, ← Nat.add_assoc]
  rfl

theorem length_cutAt_le {length : Int} (h : 0 ≤ length) (cs : List Char) :
    ((cutAt length cs).length : Int) ≤ length := by
  rw [cutAt, if_pos h, List.length_take]
  omega

theorem length_cutAt_neg {length : Int} (h : length < 0) (cs : List Char) :
    (cutAt length cs).length = cs.length - (-length).toNat := by
  rw [cutAt, if_neg (by omega), List.length_take]
  omega

namespace Digest

/-- The sections before the notes; pages that are empty are left out. -/
def frontSections (digest : Digest) : List (List Char) :=
  digest.repository :: pagesHeading :: if digest.pages.isEmpty then [] else [digest.pages]

def front (digest : Digest) : List Char := joined digest.frontSections

/-- There are notes, and the budget ends after the separator in front of their
heading and before the end of the one behind it. -/
def Overruns (digest : Digest) (budget : Int) : Prop :=
  digest.notes ≠ [] ∧ digest.front.length + separator.length < budget ∧
    budget < digest.front.length + separator.length + notesHeading.length + separator.length

instance (digest : Digest) (budget : Int) : Decidable (digest.Overruns budget) :=
  inferInstanceAs (Decidable (_ ∧ _ ∧ _))

theorem length_front (digest : Digest) :
    digest.front.length = digest.repository.length + (pagesHeading.length + 2) +
      if digest.pages.isEmpty then 0 else digest.pages.length + 2 := by
  rw [front, frontSections]
  by_cases hpages : digest.pages.isEmpty = true
  · simp [hpages]
    omega
  · simp [hpages]
    omega

/-- The sections that a cut keeps before it comes to the notes. -/
def keptFront (digest : Digest) (budget : Int) : List (List Char) :=
  (digest.structurePart budget).1 ++ (digest.pagesPart (digest.structurePart budget).2).1

def spare (digest : Digest) (budget : Int) : Int :=
  (digest.pagesPart (digest.structurePart budget).2).2

theorem cutSections_eq (digest : Digest) (budget : Int) :
    digest.cutSections budget =
      digest.keptFront budget ++ digest.notesPart (digest.spare budget) := rfl

theorem length_notesHeading : notesHeading.length = 27 := by decide

theorem structurePart_cases (digest : Digest) (budget : Int) :
    (digest.repository.length + pagesHeading.length + 4 ≤ budget ∧
        digest.structurePart budget = ([digest.repository, pagesHeading],
          budget - (digest.repository.length + pagesHeading.length + 4))) ∨
      (budget < digest.repository.length + pagesHeading.length + 4 ∧
        digest.structurePart budget = ([cutAt budget digest.repository], 0)) := by
  by_cases h : (digest.repository.length + pagesHeading.length + 4 : Int) ≤ budget
  · exact Or.inl ⟨h, by rw [structurePart, if_pos h]⟩
  · exact Or.inr ⟨by omega, by rw [structurePart, if_neg h]⟩

theorem pagesPart_cases (digest : Digest) (left : Int) :
    (digest.pages.isEmpty = false ∧ (digest.pages.length : Int) ≤ left ∧
        digest.pagesPart left = ([digest.pages], left - (digest.pages.length + 2))) ∨
      (0 < left ∧ left < digest.pages.length ∧
        digest.pagesPart left = ([cutAt left digest.pages], 0)) ∨
      ((0 < left → digest.pages.isEmpty = true) ∧ digest.pagesPart left = ([], left)) := by
  by_cases h : 0 < left ∧ 0 < digest.pages.length
  · have hpages : digest.pages.isEmpty = false := by
      rw [List.isEmpty_eq_false_iff, ← List.length_pos_iff]
      exact h.2
    by_cases hfits : (digest.pages.length : Int) ≤ left
    · exact Or.inl ⟨hpages, hfits, by rw [pagesPart, if_pos h, if_pos hfits]⟩
    · exact Or.inr (Or.inl ⟨h.1, by omega, by rw [pagesPart, if_pos h, if_neg hfits]⟩)
  · refine Or.inr (Or.inr ⟨?_, by rw [pagesPart, if_neg h]⟩)
    intro hleft
    rw [List.isEmpty_iff, ← List.length_eq_zero_iff]
    omega

/-- The account of what comes before the notes. Either something is left, and
then the whole front was kept and the rest of the budget is what it has over the
front and a separator, or nothing is left, and then the budget does not reach
beyond the front and a separator and what was kept is within it. -/
theorem front_account (digest : Digest) {budget : Int} (hbudget : 0 ≤ budget) :
    (0 < digest.spare budget ∧ digest.keptFront budget = digest.frontSections ∧
        digest.front.length + 2 + digest.spare budget = budget) ∨
      (digest.spare budget ≤ 0 ∧ budget ≤ digest.front.length + 2 ∧
        (joined (digest.keptFront budget)).length ≤ budget) := by
  have hfront := digest.length_front
  unfold keptFront spare
  rcases structurePart_cases digest budget with ⟨hneeded, hstructure⟩ | ⟨hneeded, hstructure⟩
  · rw [hstructure]
    -- the structure is kept whole, and the pages are kept, cut or missing
    generalize hleft : budget - (digest.repository.length + pagesHeading.length + 4) = left
    rcases pagesPart_cases digest left with ⟨hpages, hfits, hpart⟩ | ⟨hpos, hfits, hpart⟩ |
      ⟨hnone, hpart⟩
    · simp only [hpages, Bool.false_eq_true, if_false] at hfront
      have hsections : [digest.repository, pagesHeading] ++ [digest.pages] =
          digest.frontSections := by simp [frontSections, hpages]
      rw [hpart]
      dsimp only
      rw [hsections]
      by_cases hpos : 0 < left - (digest.pages.length + 2)
      · exact Or.inl ⟨hpos, rfl, by omega⟩
      · refine Or.inr ⟨by omega, by omega, ?_⟩
        change (digest.front.length : Int) ≤ budget
        omega
    · have hcut := length_cutAt_le (Int.le_of_lt hpos) digest.pages
      have hpages : digest.pages.isEmpty = false := by
        rw [List.isEmpty_eq_false_iff, ← List.length_pos_iff]
        omega
      simp only [hpages, Bool.false_eq_true, if_false] at hfront
      refine Or.inr ⟨by simp [hpart], by omega, ?_⟩
      simp [hpart]
      omega
    · by_cases hpos : 0 < left
      · have hpages := hnone hpos
        simp only [hpages, if_true] at hfront
        refine Or.inl ⟨by simp [hpart, hpos], by simp [hpart, frontSections, hpages], ?_⟩
        rw [hpart]
        omega
      · refine Or.inr ⟨by simp [hpart]; omega, by omega, ?_⟩
        simp [hpart]
        omega
  · have hcut := length_cutAt_le hbudget digest.repository
    have hpart : digest.pagesPart 0 = ([], 0) := by simp [pagesPart]
    rw [hstructure]
    refine Or.inr ⟨by simp [hpart], by omega, ?_⟩
    simpa [hpart] using hcut

def keptNotes (digest : Digest) (rest : Int) : List Char :=
  if digest.notes.length ≤ rest then digest.notes else cutAt rest digest.notes

theorem notesPart_of_pos {digest : Digest} {left : Int} (hleft : 0 < left)
    (hnotes : digest.notes ≠ []) :
    digest.notesPart left =
      [notesHeading, digest.keptNotes (left - (notesHeading.length + 2))] := by
  have hlength : 0 < digest.notes.length := List.length_pos_iff.2 hnotes
  rw [notesPart, if_pos ⟨hleft, hlength⟩]
  rfl

theorem notesPart_of_not_pos {digest : Digest} {left : Int}
    (h : ¬ (0 < left ∧ digest.notes ≠ [])) : digest.notesPart left = [] := by
  rw [notesPart, if_neg]
  rw [List.length_pos_iff]
  exact h

/-- The notes that are kept fit into what is left, unless that is negative: then
as many are kept as if the missing characters were cut from their end. -/
theorem length_keptNotes (digest : Digest) (rest : Int) :
    (0 ≤ rest ∧ ((digest.keptNotes rest).length : Int) ≤ rest) ∨
      (rest < 0 ∧ (digest.keptNotes rest).length = digest.notes.length - (-rest).toNat) := by
  unfold keptNotes
  by_cases hrest : 0 ≤ rest
  · left
    split
    · exact ⟨hrest, by assumption⟩
    · exact ⟨hrest, length_cutAt_le hrest _⟩
  · right
    rw [if_neg (by omega)]
    exact ⟨by omega, length_cutAt_neg (by omega) _⟩

theorem length_cut_of_spare_pos {digest : Digest} {budget : Int} (hbudget : 0 ≤ budget)
    (hspare : 0 < digest.spare budget) (hnotes : digest.notes ≠ []) :
    (digest.cut budget).length = digest.front.length + 31 +
      (digest.keptNotes (digest.spare budget - (notesHeading.length + 2))).length := by
  rcases front_account digest hbudget with ⟨_, hkept, _⟩ | ⟨hnone, _⟩
  · rw [cut, cutSections_eq, hkept, notesPart_of_pos hspare hnotes, front, frontSections]
    by_cases hpages : digest.pages.isEmpty = true
    · simp [hpages, length_notesHeading]
      omega
    · simp [hpages, length_notesHeading]
      omega
  · omega

theorem length_cut_le_iff (digest : Digest) {budget : Int} (hbudget : 0 ≤ budget) :
    ((digest.cut budget).length : Int) ≤ budget ↔ ¬ digest.Overruns budget := by
  have hheading := length_notesHeading
  have hseparator : separator.length = 2 := rfl
  unfold Overruns
  rcases front_account digest hbudget with ⟨hspare, hkept, hleft⟩ | ⟨hspare, hreach, hkept⟩
  · by_cases hnotes : digest.notes = []
    · have hpart : digest.notesPart (digest.spare budget) = [] :=
        notesPart_of_not_pos (by simp [hnotes])
      rw [cut, cutSections_eq, hkept, hpart, List.append_nil]
      change (digest.front.length : Int) ≤ budget ↔ _
      simp [hnotes]
      omega
    · have hlength := length_cut_of_spare_pos hbudget hspare hnotes
      rcases length_keptNotes digest (digest.spare budget - (notesHeading.length + 2)) with
        ⟨hrest, hnotesLength⟩ | ⟨hrest, _⟩
      · constructor
        · intro _
          omega
        · intro _
          omega
      · -- what is left ends inside the heading, and the notes are cut at a negative length
        constructor
        · intro _
          omega
        · intro hfits
          exact absurd ⟨hnotes, by omega, by omega⟩ hfits
  · have hpart : digest.notesPart (digest.spare budget) = [] :=
      notesPart_of_not_pos (by omega)
    rw [cut, cutSections_eq, hpart, List.append_nil]
    constructor
    · intro _
      omega
    · intro _
      exact hkept

theorem length_full (digest : Digest) :
    digest.full.length = digest.repository.length + pagesHeading.length + digest.pages.length +
      notesHeading.length + digest.notes.length + 8 := by
  rw [full]
  simp
  omega

theorem length_material_le_iff (digest : Digest) {budget : Int} (hbudget : 0 ≤ budget) :
    ((digest.material budget).length : Int) ≤ budget ↔ ¬ digest.Overruns budget := by
  by_cases hexceeds : digest.exceeds budget = true
  · rw [material, if_pos hexceeds]
    exact length_cut_le_iff digest hbudget
  · have hfits : (digest.full.length : Int) ≤ budget := by
      simpa [exceeds] using hexceeds
    rw [material, if_neg hexceeds]
    constructor
    · intro _ hover
      have hseparator : separator.length = 2 := rfl
      have hfull := digest.length_full
      have hfront := digest.length_front
      obtain ⟨_, _, hend⟩ := hover
      split at hfront
      · omega
      · omega
    · intro _
      exact hfits

/-- Where the heading overruns the budget, the material has at least as many
characters too many as the notes have in all. -/
theorem length_material_of_overruns {digest : Digest} {budget : Int} (hbudget : 0 ≤ budget)
    (h : digest.Overruns budget) :
    budget + digest.notes.length ≤ (digest.material budget).length := by
  have hlong : ¬ ((digest.material budget).length : Int) ≤ budget := by
    rw [length_material_le_iff digest hbudget]
    exact not_not_intro h
  obtain ⟨hnotes, hstart, hend⟩ := h
  have hseparator : separator.length = 2 := rfl
  have hheading := length_notesHeading
  unfold material at hlong ⊢
  split at hlong
  · rename_i hexceeds
    rw [if_pos hexceeds]
    rcases front_account digest hbudget with ⟨hspare, _, hleft⟩ | ⟨_, hreach, _⟩
    · have hlength := length_cut_of_spare_pos hbudget hspare hnotes
      rcases length_keptNotes digest (digest.spare budget - (notesHeading.length + 2)) with
        ⟨hrest, _⟩ | ⟨_, hkept⟩
      · omega
      · omega
    · omega
  · rename_i hexceeds
    exact absurd (by simpa [exceeds] using hexceeds) hlong

end Digest

/-- A run sends one request, or none if the material could not be loaded. The
material in it is within the budget exactly if the heading of the notes does not
overrun it, and otherwise exceeds it by the length of the notes or more. -/
theorem run_material_within_budget_iff (settings : Settings) (limit : Nat) :
    (∀ site,
      match gather { settings with budget := limit } site with
      | .error _ _ =>
          (after (run { settings with budget := limit }) site).asked = site.asked
      | .ok digest _ =>
          (after (run { settings with budget := limit }) site).asked = site.asked ++
            [.write settings.model settings.maxTokens
              (.str (overviewPrompt (String.ofList (digest.material limit))))]) ∧
      ∀ digest : Digest,
        ((String.ofList (digest.material limit)).length ≤ limit ↔ ¬ digest.Overruns limit) ∧
          (digest.Overruns limit →
            limit + digest.notes.length ≤ (String.ofList (digest.material limit)).length) := by
  constructor
  · intro site
    have hasked := (gather_keeps_asked { settings with budget := limit }).after_eq site
    split
    · rename_i hgather
      rw [run_eq, after_bind_error hgather]
      rw [after_error hgather] at hasked
      exact hasked
    · rename_i digest left hgather
      rw [run_eq, after_bind_ok hgather, request_asked]
      rw [after_ok hgather] at hasked
      rw [hasked]
  · intro digest
    have hlimit : (0 : Int) ≤ limit := Int.natCast_nonneg limit
    rw [String.length_ofList]
    constructor
    · rw [← Digest.length_material_le_iff digest hlimit]
      exact Int.ofNat_le.symm
    · intro hover
      exact_mod_cast Digest.length_material_of_overruns hlimit hover

def oneNoteSite : Site where
  disk := ⟨[("file_notes", .folder [("n.md", .file [120])])]⟩
  services := .failing
  limits := .ample

def oneNoteDigest : Digest where
  repository := (structureSection "Repository structure file not found.").toList
  pages := []
  notes := (block "n.md" "x").toList

/-- With one file of notes and a budget of 118 characters a run sends material of
148 characters. -/
theorem run_material_exceeds_budget :
    (after (run { budget := 118 }) oneNoteSite).asked =
        [.write (.str Completion.modelName) (.int 8000)
          (.str (overviewPrompt (String.ofList (oneNoteDigest.material 118))))] ∧
      (String.ofList (oneNoteDigest.material 118)).length = 148 := by
  have hresult : (result (gather { budget := 118 }) oneNoteSite).toOption = some oneNoteDigest := by
    decide +kernel
  have hgather := apply_eq_ok (result_eq_ok hresult)
  have hasked := (gather_keeps_asked { budget := 118 }).after_eq oneNoteSite
  constructor
  · rw [run_eq, after_bind_ok hgather, request_asked, hasked]
    rfl
  · rw [String.length_ofList]
    decide +kernel

end Docwright.Overview
