import Docwright.Proofs.Overview.Budget

/-!
# What a cut keeps of the material

A cut goes through the sections in the order of their importance: the structure, the
pages, the notes. It keeps the first of them whole, a part of the next one, and nothing of
those after it (`IsCutOf`); only pages that are empty are passed over, together with the
separator after them. So the material that is sent is the start of the full material,
even where the notes are cut at a negative length.

Nor is a cut wasteful. It leaves the most of the budget unused if the structure fits and
the heading of the pages with its separators misses it by one character, which is 43
characters (`budget_le_length_cut`).
-/

namespace Docwright.Overview

open Docwright.Job

/-- The request for the overview that is made when the material is loaded. -/
def Settings.request (settings : Settings) (digest : Digest) : Request :=
  .write settings.model settings.maxTokens
    (.str (overviewPrompt (String.ofList (digest.material settings.budget))))

theorem asked_run (settings : Settings) (site : Site) :
    (after (run settings) site).asked = site.asked ++
      ((result (gather settings) site).toOption.map settings.request).toList := by
  have hasked := (gather_keeps_asked settings).after_eq site
  rw [run_eq]
  cases hgather : gather settings site with
  | ok digest left =>
      rw [after_ok hgather] at hasked
      rw [after_bind_ok hgather, request_asked, hasked, result_ok hgather]
      rfl
  | error fault left =>
      rw [after_error hgather] at hasked
      rw [after_bind_error hgather, hasked, result_error hgather]
      exact (List.append_nil _).symm

section Sections

variable {whole : List (List Char)} {part next : List Char} {kept sections : List (List Char)}

/-- The first sections are kept whole, then a part of the next one and nothing of those
after it. -/
def IsCutOf (kept sections : List (List Char)) : Prop :=
  ∃ whole part next rest, kept = whole ++ [part] ∧ sections = whole ++ next :: rest ∧ part <+: next

theorem IsCutOf.single (hpart : part <+: next) (rest : List (List Char)) :
    IsCutOf [part] (next :: rest) :=
  ⟨[], part, next, rest, rfl, rfl, hpart⟩

theorem IsCutOf.cons (h : IsCutOf kept sections) (first : List Char) :
    IsCutOf (first :: kept) (first :: sections) := by
  obtain ⟨whole, part, next, rest, rfl, rfl, hpart⟩ := h
  exact ⟨first :: whole, part, next, rest, rfl, rfl, hpart⟩

theorem IsCutOf.append (h : IsCutOf kept sections) (whole : List (List Char)) :
    IsCutOf (whole ++ kept) (whole ++ sections) := by
  induction whole with
  | nil => exact h
  | cons first whole ih => exact ih.cons first

theorem IsCutOf.joined_isPrefix (h : IsCutOf kept sections) : joined kept <+: joined sections := by
  obtain ⟨whole, part, next, rest, rfl, rfl, hpart⟩ := h
  induction whole with
  | nil =>
      have hnext : next <+: joined (next :: rest) := by
        cases rest with
        | nil => exact (joined_singleton next).symm ▸ List.prefix_rfl
        | cons second rest =>
            rw [joined_cons_cons]
            exact List.prefix_append _ _
      rw [List.nil_append, List.nil_append, joined_singleton]
      exact hpart.trans hnext
  | cons first whole ih =>
      obtain ⟨second, others, hkept⟩ := List.exists_cons_of_ne_nil
        (show whole ++ [part] ≠ [] by simp)
      obtain ⟨third, more, hall⟩ := List.exists_cons_of_ne_nil
        (show whole ++ next :: rest ≠ [] by simp)
      rw [hkept, hall] at ih
      rw [List.cons_append, List.cons_append, hkept, hall, joined_cons_cons, joined_cons_cons]
      exact (List.prefix_append_right_inj first).2 ((List.prefix_append_right_inj separator).2 ih)

theorem cutAt_isPrefix (length : Int) (cs : List Char) : cutAt length cs <+: cs := by
  unfold cutAt
  split
  · exact List.take_prefix _ _
  · exact List.take_prefix _ _

end Sections

namespace Digest

/-- The sections in the order of their importance; pages that are empty are left out. -/
def ranked (digest : Digest) : List (List Char) :=
  digest.frontSections ++ [notesHeading, digest.notes]

theorem joined_ranked_of_pages {digest : Digest} (hpages : digest.pages ≠ []) :
    joined digest.ranked = digest.full := by
  have hsome : digest.pages.isEmpty = false := List.isEmpty_eq_false_iff.2 hpages
  simp [ranked, frontSections, full, hsome]

theorem keptFront_isCutOf (digest : Digest) (budget : Int) (rest : List (List Char)) :
    IsCutOf (digest.keptFront budget) (digest.frontSections ++ rest) := by
  unfold keptFront frontSections
  rcases structurePart_cases digest budget with ⟨_, hstructure⟩ | ⟨_, hstructure⟩
  · rw [hstructure]
    generalize budget - (digest.repository.length + pagesHeading.length + 4 : Int) = left
    have hheading : IsCutOf [digest.repository, pagesHeading]
        (digest.repository :: pagesHeading ::
          ((if digest.pages.isEmpty then [] else [digest.pages]) ++ rest)) :=
      (IsCutOf.single List.prefix_rfl _).cons digest.repository
    rcases pagesPart_cases digest left with ⟨hpages, _, hpart⟩ | ⟨hpos, hlong, hpart⟩ | ⟨_, hpart⟩
    · rw [hpart, hpages]
      exact (IsCutOf.single List.prefix_rfl rest).append [digest.repository, pagesHeading]
    · have hpages : digest.pages.isEmpty = false := by
        rw [List.isEmpty_eq_false_iff, ← List.length_pos_iff]
        omega
      rw [hpart, hpages]
      exact (IsCutOf.single (cutAt_isPrefix left digest.pages) rest).append
        [digest.repository, pagesHeading]
    · rw [hpart]
      exact hheading
  · have hpart : digest.pagesPart 0 = ([], 0) := by simp [pagesPart]
    rw [hstructure, hpart]
    exact IsCutOf.single (cutAt_isPrefix budget digest.repository) _

theorem keptNotes_isPrefix (digest : Digest) (rest : Int) :
    digest.keptNotes rest <+: digest.notes := by
  unfold keptNotes
  split
  · exact List.prefix_rfl
  · exact cutAt_isPrefix rest digest.notes

theorem cutSections_isCutOf (digest : Digest) {budget : Int} (hbudget : 0 ≤ budget) :
    IsCutOf (digest.cutSections budget) digest.ranked := by
  rw [cutSections_eq]
  by_cases hnotes : 0 < digest.spare budget ∧ digest.notes ≠ []
  · -- The heading of the notes comes up only after all that is before it was kept.
    rcases front_account digest hbudget with ⟨_, hkept, _⟩ | ⟨hspare, _⟩
    · rw [hkept, notesPart_of_pos hnotes.1 hnotes.2]
      exact ((IsCutOf.single (digest.keptNotes_isPrefix _) []).cons notesHeading).append
        digest.frontSections
    · omega
  · rw [notesPart_of_not_pos hnotes, List.append_nil]
    exact digest.keptFront_isCutOf budget _

theorem cut_isPrefix (digest : Digest) {budget : Int} (hbudget : 0 ≤ budget) :
    digest.cut budget <+: joined digest.ranked :=
  (digest.cutSections_isCutOf hbudget).joined_isPrefix

theorem length_pagesHeading : pagesHeading.length = 40 := by decide

theorem length_cutAt {length : Int} (h : 0 ≤ length) (cs : List Char) :
    ((cutAt length cs).length : Int) = min length cs.length := by
  rw [cutAt, if_pos h, List.length_take]
  omega

/-- If nothing is left for the notes, what was kept before them misses the budget by 43
characters at most. -/
theorem budget_le_keptFront (digest : Digest) {budget : Int} (hbudget : 0 ≤ budget)
    (hspare : digest.spare budget ≤ 0) :
    budget ≤ (joined (digest.keptFront budget)).length + 43 := by
  have hheading := length_pagesHeading
  unfold spare at hspare
  unfold keptFront
  rcases structurePart_cases digest budget with ⟨hneeded, hstructure⟩ | ⟨hneeded, hstructure⟩
  · rw [hstructure] at hspare ⊢
    generalize hleft : budget - (digest.repository.length + pagesHeading.length + 4 : Int) = left
      at hspare ⊢
    rcases pagesPart_cases digest left with ⟨_, hfits, hpart⟩ | ⟨hpos, hlong, hpart⟩ | ⟨_, hpart⟩
    · rw [hpart] at hspare ⊢
      simp only [List.cons_append, List.nil_append, length_joined_cons_cons, joined_singleton]
      omega
    · have hcut := length_cutAt (Int.le_of_lt hpos) digest.pages
      rw [hpart]
      simp only [List.cons_append, List.nil_append, length_joined_cons_cons, joined_singleton]
      omega
    · rw [hpart] at hspare ⊢
      simp only [List.append_nil, length_joined_cons_cons, joined_singleton]
      omega
  · have hpart : digest.pagesPart 0 = ([], 0) := by simp [pagesPart]
    have hcut := length_cutAt hbudget digest.repository
    rw [hstructure, hpart]
    simp only [List.append_nil, joined_singleton]
    omega

/-- The full material has at most two separators, a heading and the notes after what comes
before the notes, and one separator more if there are no pages. -/
theorem length_full_le (digest : Digest) :
    digest.full.length ≤ digest.front.length + digest.notes.length + 33 := by
  have hheading := length_notesHeading
  have hfull := digest.length_full
  have hfront := digest.length_front
  split at hfront
  · rename_i hpages
    have hnone : digest.pages.length = 0 := by simpa using hpages
    omega
  · omega

theorem le_length_keptNotes (digest : Digest) {rest : Int} (h : rest < digest.notes.length) :
    rest ≤ (digest.keptNotes rest).length := by
  unfold keptNotes
  rw [if_neg (by omega)]
  by_cases hrest : 0 ≤ rest
  · have hcut := length_cutAt hrest digest.notes
    omega
  · omega

theorem budget_le_length_cut (digest : Digest) {budget : Int} (hbudget : 0 ≤ budget)
    (hexceeds : budget < digest.full.length) : budget ≤ (digest.cut budget).length + 43 := by
  rcases front_account digest hbudget with ⟨hspare, hkept, hleft⟩ | ⟨hspare, _⟩
  · have hheading := length_notesHeading
    have hbeyond := digest.length_full_le
    by_cases hnotes : digest.notes = []
    · have hpart : digest.notesPart (digest.spare budget) = [] :=
        notesPart_of_not_pos (by simp [hnotes])
      rw [cut, cutSections_eq, hkept, hpart, List.append_nil]
      change budget ≤ digest.front.length + 43
      simp only [hnotes, List.length_nil] at hbeyond
      omega
    · have hlength := length_cut_of_spare_pos hbudget hspare hnotes
      by_cases hfits : (digest.notes.length : Int) ≤
          digest.spare budget - (notesHeading.length + 2)
      · rw [keptNotes, if_pos hfits] at hlength
        omega
      · have hroom := digest.le_length_keptNotes (Int.not_le.1 hfits)
        omega
  · have hpart : digest.notesPart (digest.spare budget) = [] := notesPart_of_not_pos (by omega)
    rw [cut, cutSections_eq, hpart, List.append_nil]
    exact digest.budget_le_keptFront hbudget hspare

/-- Where all of the structure fits but not the heading after it, the cut ends there. -/
theorem cut_eq_repository {digest : Digest} {budget : Int}
    (hfits : digest.repository.length ≤ budget)
    (hheading : budget < digest.repository.length + pagesHeading.length + 4) :
    digest.cut budget = digest.repository := by
  have hwhole : cutAt budget digest.repository = digest.repository := by
    rw [cutAt, if_pos (by omega), List.take_of_length_le (by omega)]
  have hstructure : digest.structurePart budget = ([digest.repository], 0) := by
    rw [structurePart, if_neg (by omega), hwhole]
  simp [cut, cutSections, hstructure, pagesPart, notesPart]

end Digest

/-- A run sends one request, or none if the material could not be loaded. If the material
in it had to be cut, the first sections were kept whole, then a part of the next one and
nothing of those after it. So it is the start of the full material, or, if there are no
pages, of the material without their section. -/
theorem run_keeps_sections_in_order (settings : Settings) (limit : Nat) :
    (∀ site,
      (after (run { settings with budget := limit }) site).asked = site.asked ++
        ((result (gather { settings with budget := limit }) site).toOption.map
          ({ settings with budget := limit } : Settings).request).toList) ∧
      ∀ digest : Digest, digest.exceeds limit = true →
        digest.material limit = joined (digest.cutSections limit) ∧
          IsCutOf (digest.cutSections limit) digest.ranked ∧
          (digest.pages ≠ [] → digest.material limit <+: digest.full) ∧
          (digest.pages = [] → digest.material limit <+:
            joined [digest.repository, pagesHeading, notesHeading, digest.notes]) := by
  refine ⟨asked_run _, fun digest hexceeds => ?_⟩
  have hlimit : (0 : Int) ≤ limit := Int.natCast_nonneg limit
  have hcut : digest.material limit = joined (digest.cutSections limit) := by
    rw [Digest.material, if_pos hexceeds, Digest.cut]
  have hstart : digest.material limit <+: joined digest.ranked := by
    rw [hcut]
    exact digest.cut_isPrefix hlimit
  refine ⟨hcut, digest.cutSections_isCutOf hlimit, fun hpages => ?_, fun hpages => ?_⟩
  · rwa [Digest.joined_ranked_of_pages hpages] at hstart
  · have hranked : digest.ranked =
        [digest.repository, pagesHeading, notesHeading, digest.notes] := by
      simp [Digest.ranked, Digest.frontSections, hpages]
    rwa [hranked] at hstart

/-- Material of one character of structure, one of pages and twenty of notes. -/
def sampleDigest : Digest where
  repository := ['s']
  pages := ['p']
  notes := List.replicate 20 'n'

/-- With a budget of 60 characters the notes are cut at a negative length, and what is sent
is still the start of the full material: structure, pages and three characters of notes. -/
theorem run_keeps_sections_in_order_sample :
    sampleDigest.exceeds 60 = true ∧ sampleDigest.material 60 <+: sampleDigest.full ∧
      sampleDigest.cutSections 60 = [['s'], pagesHeading, ['p'], notesHeading, ['n', 'n', 'n']] := by
  have hexceeds : sampleDigest.exceeds 60 = true := by decide
  obtain ⟨_, hdigest⟩ := run_keeps_sections_in_order {} 60
  obtain ⟨_, _, hpages, _⟩ := hdigest sampleDigest hexceeds
  exact ⟨hexceeds, hpages (by decide), by decide⟩

/-- A run sends one request, or none if the material could not be loaded. If the material
in it had to be cut, at most 43 characters of the budget are not used. The bound is met
wherever the budget has room for the structure and 43 characters more. -/
theorem run_material_uses_budget (settings : Settings) (limit : Nat) :
    (∀ site,
      (after (run { settings with budget := limit }) site).asked = site.asked ++
        ((result (gather { settings with budget := limit }) site).toOption.map
          ({ settings with budget := limit } : Settings).request).toList) ∧
      (∀ digest : Digest, digest.exceeds limit = true →
        limit ≤ (String.ofList (digest.material limit)).length + 43) ∧
      ∀ digest : Digest, digest.repository.length + 43 = limit →
        digest.exceeds limit = true ∧
          (String.ofList (digest.material limit)).length + 43 = limit := by
  refine ⟨asked_run _, fun digest hexceeds => ?_, fun digest hroom => ?_⟩
  · have hlong : (limit : Int) < digest.full.length := by
      simpa [Digest.exceeds] using hexceeds
    have huses := digest.budget_le_length_cut (Int.natCast_nonneg limit) hlong
    rw [String.length_ofList, Digest.material, if_pos hexceeds]
    omega
  · have hpages := Digest.length_pagesHeading
    have hexceeds : digest.exceeds limit = true := by
      have hfull := digest.length_full
      simp only [Digest.exceeds, decide_eq_true_eq]
      omega
    refine ⟨hexceeds, ?_⟩
    rw [String.length_ofList, Digest.material, if_pos hexceeds,
      Digest.cut_eq_repository (by omega) (by omega)]
    exact hroom

/-- With a budget of 44 characters nothing but the one character of structure is sent. -/
theorem run_material_uses_budget_sample :
    sampleDigest.exceeds 44 = true ∧ sampleDigest.material 44 = ['s'] ∧
      44 ≤ (String.ofList (sampleDigest.material 44)).length + 43 := by
  have hexceeds : sampleDigest.exceeds 44 = true := by decide
  obtain ⟨_, huses, _⟩ := run_material_uses_budget {} 44
  exact ⟨hexceeds, by decide, huses sampleDigest hexceeds⟩

end Docwright.Overview
