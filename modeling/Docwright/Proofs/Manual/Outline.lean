import Docwright.Proofs.Manual.Grammar

/-!
# Writing a table of contents

An outline is a list of rows, in any order: headings, each with its level, its title and
possibly a label before the title, and other lines, which do not look like headings. Its rows
are written one to a line. If there is a heading at all, reading what was written gives the
titles back, each as often as it occurs and in the same order.
-/

namespace Docwright.Manual

open Docwright.Job
open Docwright.Text

/-- A title that can be written in a heading: a trimmed text on one line, without marks, that
does not begin with a label of its own. -/
structure Title where
  chars : List Char
  nonempty : chars ≠ []
  trimmed : trim chars = chars
  noMark : '#' ∉ chars
  oneLine : ∀ c ∈ chars, isLineEnd c = false
  noLabel : ¬HasLabel chars

/-- A row of an outline. The first character of another line that is not blank, if there is
one, is not a mark. -/
inductive Row where
  | heading (level : ℕ) (hlevel : 1 ≤ level ∧ level ≤ 3)
      (label? : Option { label // IsLabel label }) (title : Title)
  | other (line : List Char) (oneLine : ∀ c ∈ line, isLineEnd c = false)
      (unmarked : line.find? (!isBlank ·) ≠ some '#')

def Title.labelled (title : Title) : Option { label // IsLabel label } → List Char
  | none => title.chars
  | some label => label.val ++ ' ' :: title.chars

def Row.line : Row → List Char
  | .heading level _ label? title => List.replicate level '#' ++ ' ' :: title.labelled label?
  | .other line _ _ => line

def Row.title? : Row → Option (List Char)
  | .heading _ _ _ title => some title.chars
  | .other _ _ _ => none

def outline (rows : List Row) : String :=
  String.ofList (['\n'].intercalate (rows.map Row.line))

def outlineTitles (rows : List Row) : List (List Char) := rows.filterMap Row.title?

theorem isBlank_gap : ∀ c ∈ [' '], isBlank c = true := List.forall_mem_singleton.2 (by decide)

theorem not_isLineEnd_of_any {line : List Char} (h : line.any isLineEnd = false) :
    ∀ c ∈ line, isLineEnd c = false :=
  fun c hc => eq_false_of_ne_true (List.any_eq_false.1 h c hc)

section Labels

variable {label : List Char} {c : Char}

theorem IsLabel.chars (h : IsLabel label) (hc : c ∈ label) :
    isDigit c = true ∨ isLatinLetter c = true ∨ c = '.' := by
  cases h with
  | number hsome hdigits =>
      rcases List.mem_append.1 hc with hdigit | hstop
      · exact Or.inl (hdigits c hdigit)
      · exact Or.inr (Or.inr (List.mem_singleton.1 hstop))
  | letter hletter =>
      rcases List.mem_cons.1 hc with rfl | hstop
      · exact Or.inr (Or.inl hletter)
      · exact Or.inr (Or.inr (List.mem_singleton.1 hstop))

theorem IsLabel.not_isBlank (h : IsLabel label) (hc : c ∈ label) : isBlank c = false := by
  rcases h.chars hc with hdigit | hletter | rfl
  · exact inRanges_eq_false_of_apart (by decide) hdigit
  · exact inRanges_eq_false_of_apart (by decide) hletter
  · decide

theorem IsLabel.not_isLineEnd (h : IsLabel label) (hc : c ∈ label) : isLineEnd c = false := by
  rcases h.chars hc with hdigit | hletter | rfl
  · exact inRanges_eq_false_of_apart (by decide) hdigit
  · exact inRanges_eq_false_of_apart (by decide) hletter
  · decide

theorem IsLabel.not_mem_mark (h : IsLabel label) : '#' ∉ label := by
  intro hc
  rcases h.chars hc with hdigit | hletter | hstop
  · exact absurd hdigit (by decide)
  · exact absurd hletter (by decide)
  · exact absurd hstop (by decide)

end Labels

namespace Title

variable (title : Title) (label? : Option { label // IsLabel label })

theorem isTrimOf_chars : IsTrimOf isBlank title.chars title.chars := isTrimOf_iff.2 title.trimmed

theorem labelled_ne_nil : title.labelled label? ≠ [] := by
  cases label? with
  | none => exact title.nonempty
  | some label => simp [labelled]

theorem not_mem_mark_labelled : '#' ∉ title.labelled label? := by
  cases label? with
  | none => exact title.noMark
  | some label =>
      have hlabel := label.property.not_mem_mark
      simp [labelled, hlabel, title.noMark]

theorem not_isLineEnd_labelled : ∀ c ∈ title.labelled label?, isLineEnd c = false := by
  cases label? with
  | none => exact title.oneLine
  | some label =>
      intro c hc
      rcases List.mem_append.1 hc with hlabel | hrest
      · exact label.property.not_isLineEnd hlabel
      · rcases List.mem_cons.1 hrest with rfl | htitle
        · decide
        · exact title.oneLine c htitle

theorem isTrimOf_labelled : IsTrimOf isBlank (title.labelled label?) (title.labelled label?) := by
  cases label? with
  | none => exact title.isTrimOf_chars
  | some label =>
      refine ⟨⟨[], [], by simp, by simp, by simp⟩, ?_, ?_⟩
      · refine StartsOutside.append label.property.ne_nil (fun c hc => ?_) _
        exact label.property.not_isBlank (List.mem_of_mem_head? hc)
      · rw [labelled, List.reverse_append, List.reverse_cons, List.append_assoc]
        exact title.isTrimOf_chars.last.append (by simpa using title.nonempty) _

theorem unlabels_labelled : Unlabels (title.labelled label?) title.chars := by
  cases label? with
  | none => exact .none title.noLabel
  | some label =>
      have hsplit : title.labelled (some label) = label.val ++ [' '] ++ title.chars := by
        simp [labelled]
      rw [hsplit]
      exact .label label.property isBlank_gap title.isTrimOf_chars.first

theorem givesTitle_labelled : GivesTitle (title.labelled label?) title.chars :=
  ⟨title.nonempty, _, _, title.isTrimOf_labelled label?, title.unlabels_labelled label?,
    title.isTrimOf_chars⟩

end Title

namespace Row

theorem not_isLineEnd_line (row : Row) : ∀ c ∈ row.line, isLineEnd c = false := by
  cases row with
  | heading level hlevel label? title =>
      intro c hc
      rcases List.mem_append.1 hc with hmark | hrest
      · rw [List.eq_of_mem_replicate hmark]
        decide
      · rcases List.mem_cons.1 hrest with rfl | htext
        · decide
        · exact title.not_isLineEnd_labelled label? c htext
  | other line oneLine unmarked => exact oneLine

theorem isHeading_line (level : ℕ) (hlevel : 1 ≤ level ∧ level ≤ 3)
    (label? : Option { label // IsLabel label }) (title : Title) :
    IsHeading (Row.heading level hlevel label? title).line (title.labelled label?) := by
  have hsplit : (Row.heading level hlevel label? title).line =
      [] ++ List.replicate level '#' ++ [' '] ++ (title.labelled label? ++ []) := by
    simp [line]
  rw [hsplit]
  exact .intro (by simp) hlevel (by simp) isBlank_gap (title.labelled_ne_nil label?)
    (title.isTrimOf_labelled label?).first (title.not_mem_mark_labelled label?) (Or.inl rfl)

end Row

theorem find?_of_isHeading {line text : List Char} (h : IsHeading line text) :
    line.find? (!isBlank ·) = some '#' := by
  cases h with
  | @intro indent gap _ rest level hindent hlevel =>
      rw [List.find?_not_eq_head?_dropWhile, List.append_assoc, List.append_assoc,
        dropWhile_append_eq hindent (startsOutside_marks hlevel.1 _)]
      obtain ⟨n, rfl⟩ := Nat.exists_eq_add_one.2 hlevel.1
      rfl

/-- The lines of an outline contribute the titles of its headings. -/
theorem gathered_outline (rows : List Row) :
    Gathered (Contributes IsHeading) (rows.map Row.line) (outlineTitles rows) := by
  induction rows with
  | nil => exact .nil
  | cons row rows ih =>
      cases row with
      | heading level hlevel label? title =>
          exact .gives ⟨_, Row.isHeading_line level hlevel label? title,
            title.givesTitle_labelled label?⟩ ih
      | other line oneLine unmarked =>
          refine .skips ?_ ih
          rintro title ⟨text, hheading, _⟩
          exact unmarked (find?_of_isHeading hheading)

/-- The headings of a written outline contribute its titles; an empty line at its end, which
is no line any more, is no heading either. -/
theorem gathered_lines_outline (rows : List Row) :
    Gathered (Contributes IsHeading) (lines (outline rows).toList) (outlineTitles rows) := by
  have hlines : ∀ line ∈ rows.map Row.line, ∀ c ∈ line, isLineEnd c = false := by
    intro line hline
    obtain ⟨row, _, rfl⟩ := List.mem_map.1 hline
    exact row.not_isLineEnd_line
  have hrows := gathered_outline rows
  rw [gathered_iff (contributes_iff heading?_recognises)] at hrows ⊢
  rw [outline, String.toList_ofList, ← hrows]
  rcases lines_intercalate hlines with hsame | hmore
  · rw [← hsame]
  · conv_rhs => rw [hmore]
    simp [source?, heading?]

/-- An outline with a heading is read as its titles, in order. -/
theorem readContents_outline (rows : List Row) (hsome : outlineTitles rows ≠ []) (site : Site) :
    result (readContents (outline rows)) site = .ok ((outlineTitles rows).map String.ofList) := by
  have htitles := listed_titles_iff.1 (.headings hsome (gathered_lines_outline rows))
  rw [(readContents_ends (outline rows) site).1, sectionTitles, ← htitles]

/-- A title of digits, stops and a hyphen. -/
def releaseTitle : Title where
  chars := "1 - 2.0.".toList
  nonempty := by decide
  trimmed := by decide
  noMark := by decide
  oneLine := not_isLineEnd_of_any (by decide)
  noLabel := by decide

/-- The title twice, after a number and after a letter, among lines that give no title. -/
def releaseRows : List Row :=
  [.other "* x".toList (not_isLineEnd_of_any (by decide)) (by decide),
    .heading 2 (by decide)
      (some ⟨['1', '2'] ++ ['.'], .number (by decide) (List.all_eq_true.1 (by decide))⟩)
      releaseTitle,
    .other " \t".toList (not_isLineEnd_of_any (by decide)) (by decide),
    .heading 3 (by decide) (some ⟨['B', '.'], .letter (by decide)⟩) releaseTitle,
    .other "see # 3".toList (not_isLineEnd_of_any (by decide)) (by decide)]

theorem readContents_outline_release :
    outline releaseRows = "* x\n## 12. 1 - 2.0.\n \t\n### B. 1 - 2.0.\nsee # 3" ∧
      result (readContents "* x\n## 12. 1 - 2.0.\n \t\n### B. 1 - 2.0.\nsee # 3")
        { disk := ⟨[]⟩, services := Services.failing, limits := .ample } =
      .ok ["1 - 2.0.", "1 - 2.0."] := by
  have houtline :
      outline releaseRows = "* x\n## 12. 1 - 2.0.\n \t\n### B. 1 - 2.0.\nsee # 3" := by
    decide
  refine ⟨houtline, ?_⟩
  rw [← houtline]
  exact readContents_outline releaseRows (by decide) _

end Docwright.Manual
