import Docwright.Manual.Contents
import Docwright.Proofs.Text.Trim

/-!
# Labels and titles

What the cleaning of a title does, said without the order of its steps: a label is a number
or a letter with a full stop, `Unlabels` relates a text to what remains of it without one
label in front, and `GivesTitle` puts this between two trimmings. `givesTitle_iff` says that
`cleanTitle` finds just that title.
-/

namespace Docwright.Manual

open Docwright.Text

variable {label gap text rest bare title : List Char} {c : Char}

theorem not_isDigit_of_isLatinLetter (h : isLatinLetter c = true) : isDigit c = false :=
  inRanges_eq_false_of_apart (by decide) h

/-- A label: a number or a letter, with a full stop. -/
inductive IsLabel : List Char → Prop
  | number {digits : List Char} (hsome : digits ≠ []) (hdigits : ∀ c ∈ digits, isDigit c = true) :
      IsLabel (digits ++ ['.'])
  | letter {c : Char} (hletter : isLatinLetter c = true) : IsLabel [c, '.']

def HasLabel (text : List Char) : Prop := ∃ label rest, IsLabel label ∧ text = label ++ rest

theorem afterNumber?_append {digits : List Char} (hsome : digits ≠ [])
    (hdigits : ∀ c ∈ digits, isDigit c = true) (rest : List Char) :
    afterNumber? (digits ++ '.' :: rest) = some rest := by
  have hstop : StartsOutside isDigit ('.' :: rest) := by
    intro c hc
    rw [← Option.some.inj hc]
    decide
  obtain ⟨first, more, rfl⟩ := List.exists_cons_of_ne_nil hsome
  unfold afterNumber?
  rw [takeWhile_append_eq hdigits hstop, dropWhile_append_eq hdigits hstop]
  rfl

theorem hasLabel_of_afterNumber? (h : afterNumber? text = some rest) : HasLabel text := by
  unfold afterNumber? at h
  split at h
  · rename_i first more behind htake hdrop
    refine ⟨text.takeWhile isDigit ++ ['.'], behind, .number ?_ ?_, ?_⟩
    · rw [htake]
      exact List.cons_ne_nil first more
    · exact fun c hc => List.mem_takeWhile_imp hc
    · rw [List.append_assoc, List.singleton_append, ← hdrop, List.takeWhile_append_dropWhile]
  · exact absurd h (by simp)

theorem hasLabel_of_afterLetter? (h : afterLetter? text = some rest) : HasLabel text := by
  unfold afterLetter? at h
  split at h
  · rename_i c behind
    by_cases hletter : isLatinLetter c = true
    · exact ⟨[c, '.'], behind, .letter hletter, rfl⟩
    · exact absurd h (by simp [hletter])
  · exact absurd h (by simp)

theorem dropLabel_of_isLabel (h : IsLabel label) (rest : List Char) :
    dropLabel (label ++ rest) = rest.dropWhile isBlank := by
  unfold dropLabel
  cases h with
  | number hsome hdigits =>
      rw [List.append_assoc, List.singleton_append, afterNumber?_append hsome hdigits]
  | @letter c hletter =>
      -- A letter is no digit, so the text is not taken to begin with a number.
      have hnumber : afterNumber? ([c, '.'] ++ rest) = none := by
        simp [afterNumber?, not_isDigit_of_isLatinLetter hletter]
      have hafter : afterLetter? ([c, '.'] ++ rest) = some rest := by
        simp [afterLetter?, hletter]
      rw [hnumber, hafter]

theorem dropLabel_of_not_hasLabel (h : ¬HasLabel text) : dropLabel text = text := by
  unfold dropLabel
  cases hnumber : afterNumber? text with
  | some rest => exact absurd (hasLabel_of_afterNumber? hnumber) h
  | none =>
      cases hletter : afterLetter? text with
      | some rest => exact absurd (hasLabel_of_afterLetter? hletter) h
      | none => rfl

theorem IsLabel.ne_nil (h : IsLabel label) : label ≠ [] := by
  cases h with
  | number hsome hdigits => simp
  | letter hletter => simp

theorem hasLabel_iff_dropLabel_ne : HasLabel text ↔ dropLabel text ≠ text := by
  constructor
  · rintro ⟨label, rest, hlabel, rfl⟩ hsame
    rw [dropLabel_of_isLabel hlabel] at hsame
    have hlength := congrArg List.length hsame
    have hdrop := rest.length_dropWhile_le isBlank
    have hsome := List.length_pos_iff.2 hlabel.ne_nil
    rw [List.length_append] at hlength
    omega
  · intro h
    by_contra hlabel
    exact h (dropLabel_of_not_hasLabel hlabel)

instance (text : List Char) : Decidable (HasLabel text) :=
  decidable_of_iff _ hasLabel_iff_dropLabel_ne.symm

/-- `bare` is the text without one label in front and the blanks after it; a text without a
label stays as it is. -/
inductive Unlabels : List Char → List Char → Prop
  | label {label gap bare : List Char} (hlabel : IsLabel label)
      (hgap : ∀ c ∈ gap, isBlank c = true) (hbare : StartsOutside isBlank bare) :
      Unlabels (label ++ gap ++ bare) bare
  | none {text : List Char} (h : ¬HasLabel text) : Unlabels text text

theorem unlabels_iff : Unlabels text bare ↔ dropLabel text = bare := by
  constructor
  · rintro (⟨hlabel, hgap, hbare⟩ | h)
    · rw [List.append_assoc, dropLabel_of_isLabel hlabel, dropWhile_append_eq hgap hbare]
    · exact dropLabel_of_not_hasLabel h
  · rintro rfl
    by_cases h : HasLabel text
    · obtain ⟨label, rest, hlabel, rfl⟩ := h
      have hsplit : label ++ rest =
          label ++ rest.takeWhile isBlank ++ rest.dropWhile isBlank := by
        rw [List.append_assoc, List.takeWhile_append_dropWhile]
      rw [dropLabel_of_isLabel hlabel, hsplit]
      exact .label hlabel (fun c hc => List.mem_takeWhile_imp hc) (startsOutside_dropWhile _ _)
    · rw [dropLabel_of_not_hasLabel h]
      exact .none h

/-- The text gives the title: it is what remains, if anything does, of the trimmed text
without a label, trimmed again. -/
structure GivesTitle (text title : List Char) : Prop where
  nonempty : title ≠ []
  cleaned : ∃ trimmed bare, IsTrimOf isBlank trimmed text ∧ Unlabels trimmed bare ∧
    IsTrimOf isBlank title bare

theorem givesTitle_iff : GivesTitle text title ↔ title ≠ [] ∧ cleanTitle text = title := by
  constructor
  · rintro ⟨hne, trimmed, bare, htrimmed, hbare, htitle⟩
    rw [isTrimOf_iff] at htrimmed htitle
    rw [unlabels_iff] at hbare
    refine ⟨hne, ?_⟩
    rw [cleanTitle, trim, trim, htrimmed, hbare, htitle]
  · rintro ⟨hne, rfl⟩
    exact ⟨hne, trim text, dropLabel (trim text), isTrimOf_trimWhere _ _, unlabels_iff.2 rfl,
      isTrimOf_trimWhere _ _⟩

end Docwright.Manual
