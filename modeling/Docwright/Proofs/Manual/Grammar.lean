import Docwright.Proofs.Manual.TakenUp
import Docwright.Proofs.Manual.Titles
import Docwright.Proofs.Text.Lines

/-!
# The grammar of a table of contents

Headings and list items are forms of lines, `IsHeading` and `IsItem`, each with the text
that stands in it. A line contributes the title that its text gives, if it is of the form
and the text gives one; `Gathered` puts together what all lines give, in order. The titles
of a table of contents are the contributions of its headings, or those of its list items if
no heading contributes (`Listed`), and reading the table finds just these.
-/

namespace Docwright.Manual

open Docwright.Job
open Docwright.Text

variable {line text body title : List Char} {ls found : List (List Char)}

/-- A heading with its text. After blanks there are one to three marks and at least one
blank, and then the text up to the next mark, or to the end of the line. It begins with
neither a blank nor a mark. -/
inductive IsHeading : List Char → List Char → Prop
  | intro {indent gap text rest : List Char} {level : ℕ}
      (hindent : ∀ c ∈ indent, isBlank c = true) (hlevel : 1 ≤ level ∧ level ≤ 3)
      (hsome : gap ≠ []) (hgap : ∀ c ∈ gap, isBlank c = true)
      (htext : text ≠ []) (hstart : StartsOutside isBlank text) (hmark : '#' ∉ text)
      (hrest : rest = [] ∨ rest.head? = some '#') :
      IsHeading (indent ++ List.replicate level '#' ++ gap ++ (text ++ rest)) text

/-- A list item with its text. After blanks there are a bullet and at least one blank, and
then the text up to the end of the line. It does not begin with a blank. -/
inductive IsItem : List Char → List Char → Prop
  | intro {indent gap text : List Char} {bullet : Char}
      (hindent : ∀ c ∈ indent, isBlank c = true) (hbullet : bullet = '*' ∨ bullet = '-')
      (hsome : gap ≠ []) (hgap : ∀ c ∈ gap, isBlank c = true)
      (htext : text ≠ []) (hstart : StartsOutside isBlank text) :
      IsItem (indent ++ [bullet] ++ gap ++ text) text

theorem afterBlanks?_append {gap : List Char} (hsome : gap ≠ [])
    (hgap : ∀ c ∈ gap, isBlank c = true) (hbody : StartsOutside isBlank body) :
    afterBlanks? (gap ++ body) = some body := by
  obtain ⟨first, gap, rfl⟩ := List.exists_cons_of_ne_nil hsome
  obtain ⟨hfirst, hgap⟩ := List.forall_mem_cons.1 hgap
  rw [List.cons_append, afterBlanks?, if_pos hfirst, dropWhile_append_eq hgap hbody]

theorem exists_gap_of_afterBlanks? {cs : List Char} (h : afterBlanks? cs = some body) :
    StartsOutside isBlank body ∧
      ∃ gap, gap ≠ [] ∧ (∀ c ∈ gap, isBlank c = true) ∧ cs = gap ++ body := by
  unfold afterBlanks? at h
  split at h
  · rename_i first cs
    by_cases hfirst : isBlank first = true
    · rw [if_pos hfirst] at h
      obtain rfl := Option.some.inj h
      refine ⟨startsOutside_dropWhile _ _, first :: cs.takeWhile isBlank,
        List.cons_ne_nil _ _, ?_, ?_⟩
      · rw [List.forall_mem_cons]
        exact ⟨hfirst, fun c hc => List.mem_takeWhile_imp hc⟩
      · rw [List.cons_append, List.takeWhile_append_dropWhile]
    · exact absurd h (by simp [hfirst])
  · exact absurd h (by simp)

theorem isBlank_mark : isBlank '#' = false := by decide

theorem startsOutside_marks {level : ℕ} (hlevel : 1 ≤ level) (rest : List Char) :
    StartsOutside isBlank (List.replicate level '#' ++ rest) := by
  obtain ⟨n, rfl⟩ := Nat.exists_eq_add_one.2 hlevel
  exact startsOutside_cons isBlank_mark _

theorem startsOutside_mark_of_blank {gap : List Char} (hsome : gap ≠ [])
    (hgap : ∀ c ∈ gap, isBlank c = true) (rest : List Char) :
    StartsOutside (· == '#') (gap ++ rest) := by
  refine StartsOutside.append hsome (fun c hc => ?_) rest
  have hblank := hgap c (List.mem_of_mem_head? hc)
  rw [beq_eq_false_iff_ne]
  rintro rfl
  rw [isBlank_mark] at hblank
  exact absurd hblank (by decide)

theorem heading?_of_isHeading (h : IsHeading line text) : heading? line = some text := by
  cases h with
  | @intro indent gap _ rest level hindent hlevel hsome hgap htext hstart hmark hrest =>
      have hbody : StartsOutside isBlank (text ++ rest) := hstart.append htext rest
      have hmarks : ∀ c ∈ List.replicate level '#', (c == '#') = true := by
        intro c hc
        rw [List.eq_of_mem_replicate hc]
        rfl
      have hunmarked : ∀ c ∈ text, (c != '#') = true := by
        intro c hc
        rw [bne_iff_ne]
        rintro rfl
        exact hmark hc
      have hend : StartsOutside (· != '#') rest := by
        rcases hrest with rfl | hhead
        · exact fun c hc => absurd hc (by simp)
        · intro c hc
          rw [Option.mem_def, hhead] at hc
          rw [← Option.some.inj hc]
          rfl
      unfold heading?
      dsimp only
      rw [List.append_assoc, List.append_assoc,
        dropWhile_append_eq hindent (startsOutside_marks hlevel.1 _),
        takeWhile_append_eq hmarks (startsOutside_mark_of_blank hsome hgap _),
        List.length_replicate, if_pos hlevel, List.drop_left' (by simp),
        afterBlanks?_append hsome hgap hbody, Option.map_some, takeWhile_append_eq hunmarked hend]

theorem isHeading_of_heading? (h : heading? line = some text) (htext : text ≠ []) :
    IsHeading line text := by
  unfold heading? at h
  dsimp only at h
  generalize hmarked : line.dropWhile isBlank = marked at h
  generalize hlevel : (marked.takeWhile (· == '#')).length = level at h
  by_cases hrange : 1 ≤ level ∧ level ≤ 3
  · rw [if_pos hrange, Option.map_eq_some_iff] at h
    obtain ⟨body, hafter, rfl⟩ := h
    obtain ⟨hstart, gap, hsome, hgap, hdrop⟩ := exists_gap_of_afterBlanks? hafter
    have hmarks : marked.take level = List.replicate level '#' := by
      have htake := List.prefix_iff_eq_take.1 (List.takeWhile_prefix (l := marked) (· == '#'))
      rw [hlevel] at htake
      rw [← htake, List.eq_replicate_iff]
      exact ⟨hlevel, fun c hc => by simpa using List.mem_takeWhile_imp hc⟩
    have hline : line = line.takeWhile isBlank ++ List.replicate level '#' ++ gap ++
        (body.takeWhile (· != '#') ++ body.dropWhile (· != '#')) := by
      rw [List.takeWhile_append_dropWhile, List.append_assoc, List.append_assoc, ← hdrop, ← hmarks,
        List.take_append_drop, ← hmarked, List.takeWhile_append_dropWhile]
    rw [hline]
    refine .intro (fun c hc => List.mem_takeWhile_imp hc) hrange hsome hgap htext ?_ ?_ ?_
    · apply StartsOutside.of_append
      rw [List.takeWhile_append_dropWhile]
      exact hstart
    · intro hmark
      exact absurd (List.mem_takeWhile_imp hmark) (by decide)
    · have hend := startsOutside_dropWhile (· != '#') body
      cases hrest : body.dropWhile (· != '#') with
      | nil => exact Or.inl rfl
      | cons c rest =>
          rw [hrest] at hend
          have hc : (c != '#') = false := hend c rfl
          rw [bne_eq_false_iff_eq.1 hc]
          exact Or.inr rfl
  · rw [if_neg hrange] at h
    exact absurd h (by simp)

theorem item?_of_isItem (h : IsItem line text) : item? line = some text := by
  cases h with
  | @intro indent gap _ bullet hindent hbullet hsome hgap htext hstart =>
      have hblank : StartsOutside isBlank ([bullet] ++ (gap ++ text)) := by
        rcases hbullet with rfl | rfl
        · exact startsOutside_cons (by decide) _
        · exact startsOutside_cons (by decide) _
      have hafter := afterBlanks?_append hsome hgap hstart
      unfold item?
      rw [List.append_assoc, List.append_assoc, dropWhile_append_eq hindent hblank]
      rcases hbullet with rfl | rfl
      · exact hafter
      · exact hafter

theorem isItem_of_item? (h : item? line = some text) (htext : text ≠ []) : IsItem line text := by
  have hitem : ∀ bullet rest, bullet = '*' ∨ bullet = '-' →
      line.dropWhile isBlank = bullet :: rest → afterBlanks? rest = some text →
      IsItem line text := by
    intro bullet rest hbullet hdrop hafter
    obtain ⟨hstart, gap, hsome, hgap, rfl⟩ := exists_gap_of_afterBlanks? hafter
    have hline : line = line.takeWhile isBlank ++ [bullet] ++ gap ++ text := by
      rw [List.append_assoc, List.append_assoc, List.singleton_append, ← hdrop,
        List.takeWhile_append_dropWhile]
    rw [hline]
    exact .intro (fun c hc => List.mem_takeWhile_imp hc) hbullet hsome hgap htext hstart
  unfold item? at h
  split at h
  · rename_i rest hdrop
    exact hitem '*' rest (Or.inl rfl) hdrop h
  · rename_i rest hdrop
    exact hitem '-' rest (Or.inr rfl) hdrop h
  · exact absurd h (by simp)

/-- The lines that are read with a text that is not empty are those of the form. -/
def Recognises (read : List Char → Option (List Char)) (IsForm : List Char → List Char → Prop) :
    Prop :=
  ∀ line text, IsForm line text ↔ read line = some text ∧ text ≠ []

theorem heading?_recognises : Recognises heading? IsHeading := by
  refine fun line text => ⟨fun h => ⟨heading?_of_isHeading h, ?_⟩,
    fun h => isHeading_of_heading? h.1 h.2⟩
  cases h with
  | intro hindent hlevel hsome hgap htext => exact htext

theorem item?_recognises : Recognises item? IsItem := by
  refine fun line text => ⟨fun h => ⟨item?_of_isItem h, ?_⟩, fun h => isItem_of_item? h.1 h.2⟩
  cases h with
  | intro hindent hbullet hsome hgap htext => exact htext

def Yields (IsForm : List Char → List Char → Prop) (line text : List Char) : Prop :=
  IsForm line text ∧ ∃ title, GivesTitle text title

def Contributes (IsForm : List Char → List Char → Prop) (line title : List Char) : Prop :=
  ∃ text, IsForm line text ∧ GivesTitle text title

/-- What the lines give, in order; a line that gives nothing is passed over. -/
inductive Gathered (Gives : List Char → List Char → Prop) :
    List (List Char) → List (List Char) → Prop
  | nil : Gathered Gives [] []
  | gives {line given : List Char} {ls found : List (List Char)} (h : Gives line given)
      (hrest : Gathered Gives ls found) : Gathered Gives (line :: ls) (given :: found)
  | skips {line : List Char} {ls found : List (List Char)} (h : ∀ given, ¬Gives line given)
      (hrest : Gathered Gives ls found) : Gathered Gives (line :: ls) found

/-- What the headings among the lines give, or, if none of them gives anything, what the
list items do. -/
inductive Listed (Heading Item : List Char → List Char → Prop) (ls found : List (List Char)) :
    Prop
  | headings (hsome : found ≠ []) (h : Gathered Heading ls found)
  | items (hnone : Gathered Heading ls []) (h : Gathered Item ls found)

section Gathering

variable {Gives Heading Item : List Char → List Char → Prop}
  {give head item : List Char → Option (List Char)}

theorem gathered_iff (hgive : ∀ line given, Gives line given ↔ give line = some given) :
    Gathered Gives ls found ↔ ls.filterMap give = found := by
  constructor
  · intro h
    induction h with
    | nil => rfl
    | gives h hrest ih => rw [List.filterMap_cons_some ((hgive _ _).1 h), ih]
    | @skips line ls found h hrest ih =>
        have hnone : give line = none := by
          rw [Option.eq_none_iff_forall_ne_some]
          exact fun given hgiven => h given ((hgive line given).2 hgiven)
        rw [List.filterMap_cons_none hnone, ih]
  · rintro rfl
    induction ls with
    | nil => exact .nil
    | cons line ls ih =>
        cases hline : give line with
        | some given =>
            rw [List.filterMap_cons_some hline]
            exact .gives ((hgive line given).2 hline) ih
        | none =>
            rw [List.filterMap_cons_none hline]
            refine .skips (fun given hgiven => ?_) ih
            rw [hgive, hline] at hgiven
            exact absurd hgiven (by simp)

theorem listed_iff (hhead : ∀ line given, Heading line given ↔ head line = some given)
    (hitem : ∀ line given, Item line given ↔ item line = some given) :
    Listed Heading Item ls found ↔
      found = if ls.filterMap head = [] then ls.filterMap item else ls.filterMap head := by
  constructor
  · rintro (⟨hsome, h⟩ | ⟨hnone, h⟩)
    · rw [gathered_iff hhead] at h
      rw [h, if_neg hsome]
    · rw [gathered_iff hhead] at hnone
      rw [gathered_iff hitem] at h
      rw [if_pos hnone, h]
  · rintro rfl
    by_cases hnone : ls.filterMap head = []
    · rw [if_pos hnone]
      exact .items ((gathered_iff hhead).2 hnone) ((gathered_iff hitem).2 rfl)
    · rw [if_neg hnone]
      exact .headings hnone ((gathered_iff hhead).2 rfl)

end Gathering

section Reading

variable {read : List Char → Option (List Char)} {IsForm : List Char → List Char → Prop}

def source? (read : List Char → Option (List Char)) (line : List Char) : Option (List Char) :=
  (read line).filter fun text => !(cleanTitle text).isEmpty

theorem titlesBy_eq (read : List Char → Option (List Char)) (ls : List (List Char)) :
    titlesBy read ls = (ls.filterMap (source? read)).map cleanTitle := by
  rw [titlesBy, List.filter_map, List.filter_filterMap]
  rfl

theorem yields_iff (hform : Recognises read IsForm) (line text : List Char) :
    Yields IsForm line text ↔ source? read line = some text := by
  rw [Yields, hform, source?, Option.filter_eq_some_iff]
  constructor
  · rintro ⟨⟨hread, _⟩, title, hgives⟩
    obtain ⟨hne, rfl⟩ := givesTitle_iff.1 hgives
    exact ⟨hread, by simpa using hne⟩
  · rintro ⟨hread, hsome⟩
    have hne : cleanTitle text ≠ [] := by simpa using hsome
    refine ⟨⟨hread, ?_⟩, cleanTitle text, givesTitle_iff.2 ⟨hne, rfl⟩⟩
    rintro rfl
    exact hne rfl

theorem contributes_iff (hform : Recognises read IsForm) (line title : List Char) :
    Contributes IsForm line title ↔ (source? read line).map cleanTitle = some title := by
  rw [Option.map_eq_some_iff]
  constructor
  · rintro ⟨text, htext, hgives⟩
    exact ⟨text, (yields_iff hform line text).1 ⟨htext, title, hgives⟩, (givesTitle_iff.1 hgives).2⟩
  · rintro ⟨text, hsource, rfl⟩
    obtain ⟨htext, title, hgives⟩ := (yields_iff hform line text).2 hsource
    obtain ⟨hne, rfl⟩ := givesTitle_iff.1 hgives
    exact ⟨text, htext, hgives⟩

end Reading

def sources (contents : List Char) : List (List Char) :=
  if (lines contents).filterMap (source? heading?) = [] then
    (lines contents).filterMap (source? item?)
  else (lines contents).filterMap (source? heading?)

theorem titles_eq (contents : List Char) : titles contents = (sources contents).map cleanTitle := by
  unfold titles sources headingTitles itemTitles
  simp only [titlesBy_eq, List.isEmpty_iff, List.map_eq_nil_iff]
  split
  · rfl
  · rfl

/-- The titles that the grammar lists are the ones that are read. -/
theorem listed_titles_iff {contents : List Char} :
    Listed (Contributes IsHeading) (Contributes IsItem) (lines contents) found ↔
      found = titles contents := by
  rw [listed_iff (contributes_iff heading?_recognises) (contributes_iff item?_recognises),
    titles_eq, sources]
  simp only [← List.map_filterMap, List.map_eq_nil_iff, ← apply_ite (List.map cleanTitle)]

theorem listed_sources (contents : List Char) :
    Listed (Yields IsHeading) (Yields IsItem) (lines contents) (sources contents) :=
  (listed_iff (yields_iff heading?_recognises) (yields_iff item?_recognises)).2 rfl

theorem toList_sectionTitles (contents : String) :
    (sectionTitles contents).map String.toList = titles contents.toList := by
  rw [sectionTitles, List.map_map]
  simp [Function.comp_def]

/-- Reading a table of contents ends with a list of titles, and it is the one that the
grammar gives for the lines of the table: the titles of the headings of level one to three,
in order, or else the titles of the list items. -/
theorem readContents_lists_titles (contents : String) (site : Site) :
    ∃ found, result (readContents contents) site = .ok found ∧
      ∀ titles, (∃ ls, HasLines contents.toList ls ∧
          Listed (Contributes IsHeading) (Contributes IsItem) ls titles) ↔
        titles = found.map String.toList := by
  refine ⟨sectionTitles contents, (readContents_ends contents site).1, fun titles => ?_⟩
  simp only [hasLines_iff, exists_eq_left', listed_titles_iff, toList_sectionTitles]

example : sectionTitles "### 1. A b # c\n#### d\n#\n* e" = ["A b"] := by decide +kernel

example : sectionTitles "#\n## 1.\n\t- A. b # c\n-d" = ["b # c"] := by decide +kernel

end Docwright.Manual
