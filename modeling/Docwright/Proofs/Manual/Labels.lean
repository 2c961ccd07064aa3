import Docwright.Proofs.Manual.Grammar

/-!
# Labels that are left

Numbers of more than one level are chains of labels, as in `1.2.` or `A. 1.`. Cleaning a
title takes one label away, so of a chain the first one goes and the others stay: a text that
begins with `n` labels gives a title that begins with `n - 1` of them. The titles of a table
of contents are free of labels exactly if none of the texts they come from begins with two.
-/

namespace Docwright.Manual

open Docwright.Job
open Docwright.Text

variable {n : ℕ} {text bare : List Char}

/-- The text begins with so many labels, one after the other, each with the blanks after
it. -/
inductive Labelled : ℕ → List Char → Prop
  | none {text : List Char} (h : ¬HasLabel text) : Labelled 0 text
  | label {n : ℕ} {label gap bare : List Char} (hlabel : IsLabel label)
      (hgap : ∀ c ∈ gap, isBlank c = true) (hbare : StartsOutside isBlank bare)
      (h : Labelled n bare) : Labelled (n + 1) (label ++ gap ++ bare)

theorem exists_labelled (text : List Char) : ∃ n, Labelled n text := by
  -- On the length: what follows a label is shorter.
  induction hlength : text.length using Nat.strong_induction_on generalizing text with
  | _ length ih =>
      obtain ⟨bare, hunlabels⟩ : ∃ bare, Unlabels text bare := ⟨_, unlabels_iff.2 rfl⟩
      cases hunlabels with
      | none h => exact ⟨0, .none h⟩
      | @label label gap _ hlabel hgap hbare =>
          have hshorter : bare.length < length := by
            have hsome := List.length_pos_iff.2 hlabel.ne_nil
            rw [← hlength, List.length_append, List.length_append]
            omega
          obtain ⟨n, hn⟩ := ih bare.length hshorter bare rfl
          exact ⟨n + 1, .label hlabel hgap hbare hn⟩

theorem Labelled.hasLabel_iff (h : Labelled n text) : HasLabel text ↔ 1 ≤ n := by
  cases h with
  | none h => simpa using h
  | @label n label gap bare hlabel hgap hbare h =>
      have hhas : HasLabel (label ++ gap ++ bare) :=
        ⟨label, gap ++ bare, hlabel, List.append_assoc _ _ _⟩
      simpa using hhas

theorem Labelled.pred (h : Labelled n text) : Labelled (n - 1) (dropLabel text) := by
  cases h with
  | none h =>
      rw [dropLabel_of_not_hasLabel h]
      exact .none h
  | label hlabel hgap hbare h =>
      rw [unlabels_iff.1 (.label hlabel hgap hbare)]
      exact h

theorem trim_dropLabel (h : trim text = text) : trim (dropLabel text) = dropLabel text := by
  have hends := isTrimOf_iff.2 h
  obtain ⟨bare, hunlabels⟩ : ∃ bare, Unlabels text bare := ⟨_, unlabels_iff.2 rfl⟩
  rw [unlabels_iff.1 hunlabels]
  cases hunlabels with
  | none hlabel => exact h
  | @label label gap _ hlabel hgap hbare =>
      have hlast : StartsOutside isBlank (bare.reverse ++ (label ++ gap).reverse) := by
        rw [← List.reverse_append]
        exact hends.last
      exact trimWhere_eq_self hbare hlast.of_append

theorem cleanTitle_eq (text : List Char) : cleanTitle text = dropLabel (trim text) :=
  trim_dropLabel (trim_trim text)

theorem cleanTitle_cleanTitle (text : List Char) :
    cleanTitle (cleanTitle text) = dropLabel (cleanTitle text) := by
  rw [cleanTitle_eq (cleanTitle text), cleanTitle_eq text, trim_dropLabel (trim_trim text)]

/-- A title has one label less than the text that gives it. -/
theorem Labelled.title (h : Labelled n (trim text)) : Labelled (n - 1) (cleanTitle text) := by
  rw [cleanTitle_eq]
  exact h.pred

/-- Only a text with two labels gives a title with one. -/
theorem Labelled.hasLabel_title_iff (h : Labelled n (trim text)) :
    HasLabel (cleanTitle text) ↔ 2 ≤ n := by
  rw [h.title.hasLabel_iff]
  omega

def AtMostOneLabel (text : List Char) : Prop := ∀ n, Labelled n (trim text) → n ≤ 1

theorem atMostOneLabel_iff : AtMostOneLabel text ↔ ¬HasLabel (cleanTitle text) := by
  constructor
  · intro h
    obtain ⟨n, hn⟩ := exists_labelled (trim text)
    rw [hn.hasLabel_title_iff]
    exact Nat.not_le.2 (Nat.lt_succ_of_le (h n hn))
  · intro h n hn
    rw [hn.hasLabel_title_iff] at h
    exact Nat.le_of_lt_succ (Nat.not_le.1 h)

theorem atMostOneLabel_iff_cleanTitle_eq :
    AtMostOneLabel text ↔ cleanTitle (cleanTitle text) = cleanTitle text := by
  rw [atMostOneLabel_iff, cleanTitle_cleanTitle, hasLabel_iff_dropLabel_ne, not_not]

/-- The titles read from a table of contents come, one by one, from the texts of its headings
or of its list items, and each has one label less in front than its text. No title begins
with a label, and no title is changed by another cleaning, exactly if each of the texts
begins with one label at most. -/
theorem readContents_drops_one_label (contents : String) (site : Site) :
    ∃ found ls texts, result (readContents contents) site = .ok found ∧
      HasLines contents.toList ls ∧ Listed (Yields IsHeading) (Yields IsItem) ls texts ∧
      List.Forall₂ (fun text title => ∃ n, Labelled n (trim text) ∧ Labelled (n - 1) title)
        texts (found.map String.toList) ∧
      ((∀ title ∈ found.map String.toList, ¬HasLabel title) ↔
        ∀ text ∈ texts, AtMostOneLabel text) ∧
      ((∀ title ∈ found.map String.toList, cleanTitle title = title) ↔
        ∀ text ∈ texts, AtMostOneLabel text) := by
  refine ⟨sectionTitles contents, lines contents.toList, sources contents.toList,
    (readContents_ends contents site).1, hasLines_iff.2 rfl, listed_sources _, ?_⟩
  rw [toList_sectionTitles, titles_eq]
  refine ⟨?_, ?_, ?_⟩
  · rw [List.forall₂_map_right_iff, List.forall₂_same]
    intro text _
    obtain ⟨n, hn⟩ := exists_labelled (trim text)
    exact ⟨n, hn, hn.title⟩
  · rw [List.forall_mem_map]
    exact forall₂_congr fun text _ => atMostOneLabel_iff.symm
  · rw [List.forall_mem_map]
    exact forall₂_congr fun text _ => atMostOneLabel_iff_cleanTitle_eq.symm

/-- A number of two levels loses the first, and the second still stands before the title. -/
theorem readContents_keeps_second_label :
    result (readContents "## 1.2. Scope")
        { disk := ⟨[]⟩, services := Services.failing, limits := .ample } =
        .ok ["2. Scope"] ∧
      HasLabel "2. Scope".toList ∧ cleanTitle "2. Scope".toList = "Scope".toList := by
  have htitles : sectionTitles "## 1.2. Scope" = ["2. Scope"] := by decide +kernel
  refine ⟨?_, by decide, by decide⟩
  rw [← htitles]
  exact (readContents_ends _ _).1

end Docwright.Manual
