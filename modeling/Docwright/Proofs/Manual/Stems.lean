import Docwright.Proofs.Disk.Beside
import Docwright.Proofs.Disk.Inside
import Docwright.Proofs.Manual.Sections
import Docwright.Proofs.Text.Trim

/-!
# Stems of section names

`IsStem` is what every stem is: one to a hundred characters that a name keeps. A text of that form
is its own stem unless it ends in a full stop. A stem ends so only where the cut of a long name
falls behind a full stop (`CutAtStop`), since the full stops at the end are dropped before the cut;
taken for a title once more, such a stem changes, and then no more.
-/

namespace Docwright.Manual

open Docwright.Path
open Docwright.Text

def controlRanges : List (Nat × Nat) := [(0, 31), (127, 159)]

def isControl (c : Char) : Bool := inRanges controlRanges c

/-- What every stem is. -/
structure IsStem (text : List Char) : Prop where
  nonempty : text ≠ []
  short : text.length ≤ stemLimit
  kept : ∀ c ∈ text, isNameChar c = true

/-- The cut of the name falls behind a full stop. -/
def CutAtStop (title : List Char) : Prop :=
  stemLimit < (keptChars title).length ∧ (keptChars title)[stemLimit - 1]? = some '.'

section NameChar

variable {c : Char}

theorem isNameChar_iff : isNameChar c = true ↔ isWord c = true ∨ c = '-' ∨ c = '.' := by
  rw [isNameChar, Bool.or_eq_true, Bool.or_eq_true, beq_iff_eq, beq_iff_eq, or_assoc]

/-- A class of characters that has no word character, no hyphen and no full stop has none that a
name keeps. -/
theorem inRanges_eq_false_of_isNameChar {others : List (Nat × Nat)}
    (hword : (wordRanges.all fun range => others.all fun other =>
      decide (range.2 < other.1) || decide (other.2 < range.1)) = true)
    (hhyphen : inRanges others '-' = false) (hstop : inRanges others '.' = false)
    (h : isNameChar c = true) : inRanges others c = false := by
  obtain hc | rfl | rfl := isNameChar_iff.1 h
  · exact inRanges_eq_false_of_apart hword hc
  · exact hhyphen
  · exact hstop

theorem isBlank_of_isNameChar (h : isNameChar c = true) : isBlank c = false :=
  inRanges_eq_false_of_isNameChar (by decide +kernel) (by decide) (by decide) h

theorem isControl_of_isNameChar (h : isNameChar c = true) : isControl c = false :=
  inRanges_eq_false_of_isNameChar (by decide +kernel) (by decide) (by decide) h

end NameChar

variable {title text : List Char}

theorem stem_eq (title : List Char) :
    stem title =
      (if keptChars title = [] then untitledStem else keptChars title).take stemLimit := by
  simp only [stem, List.isEmpty_iff]

theorem trimEndWhere_isPrefix (p : Char → Bool) (text : List Char) : trimEndWhere p text <+: text := by
  rw [trimEndWhere, ← List.reverse_suffix, List.reverse_reverse]
  exact List.dropWhile_suffix p

theorem getLast?_keptChars (title : List Char) : (keptChars title).getLast? ≠ some '.' := by
  intro hlast
  rw [keptChars, trimEndWhere, List.getLast?_reverse] at hlast
  have hstart := startsOutside_dropWhile (· == '.')
    (((trim (dropHeadingMarks title)).map spell).filter isNameChar).reverse '.' hlast
  exact absurd hstart (by decide)

theorem isStem_stem (title : List Char) : IsStem (stem title) := by
  refine ⟨?_, ?_, fun c hc => isNameChar_of_mem_stem hc⟩
  · rw [stem_eq, Ne, List.take_eq_nil_iff, not_or]
    refine ⟨by decide, ?_⟩
    split
    · decide
    · assumption
  · rw [stem]
    exact List.length_take_le _ _

theorem keptChars_of_isNameChar (h : ∀ c ∈ text, isNameChar c = true) :
    keptChars text = trimEndWhere (· == '.') text := by
  have hspell : text.map spell = text := by
    rw [List.map_congr_left fun c hc => spell_eq_self (h c hc), List.map_id']
  have hmark : '#' ∉ text := fun hmem => absurd (h _ hmem) (by decide +kernel)
  have htrimmed : trim text = text := by
    refine trimWhere_eq_self (fun c hc => ?_) fun c hc => ?_
    · exact isBlank_of_isNameChar (h c (List.mem_of_head? hc))
    · exact isBlank_of_isNameChar (h c (List.mem_reverse.1 (List.mem_of_head? hc)))
  rw [keptChars_eq hmark htrimmed (hspell.symm ▸ h), hspell]

theorem IsStem.stem_eq_self (h : IsStem text) (hstop : text.getLast? ≠ some '.') :
    stem text = text := by
  have hkept : keptChars text = text := by
    rw [keptChars_of_isNameChar h.kept]
    refine trimEndWhere_eq_self fun c hc => ?_
    rw [beq_eq_false_iff_ne]
    rintro rfl
    exact hstop hc
  rw [stem_eq, hkept, if_neg h.nonempty, List.take_of_length_le h.short]

theorem dropHeadingMarks_sublist (title : List Char) : (dropHeadingMarks title).Sublist title := by
  have hmarked := List.dropWhile_sublist (l := title) isBlank
  unfold dropHeadingMarks
  dsimp only
  split
  · exact ((List.dropWhile_sublist _).trans (List.dropWhile_sublist _)).trans hmarked
  · exact List.Sublist.refl _

theorem keptChars_sublist (title : List Char) : (keptChars title).Sublist (title.map spell) := by
  have htrim : (trim (dropHeadingMarks title)).Sublist ((dropHeadingMarks title).dropWhile isBlank) :=
    (trimEndWhere_isPrefix _ _).sublist
  have hpart := (htrim.trans (List.dropWhile_sublist _)).trans (dropHeadingMarks_sublist title)
  exact (trimEndWhere_isPrefix _ _).sublist.trans (List.filter_sublist.trans (hpart.map spell))

/-- A stem ends in a full stop exactly if the cut left it there. -/
theorem getLast?_stem_eq_stop_iff : (stem title).getLast? = some '.' ↔ CutAtStop title := by
  rw [stem_eq, CutAtStop]
  by_cases hnil : keptChars title = []
  · rw [if_pos hnil, hnil]
    decide
  · rw [if_neg hnil]
    by_cases hlong : stemLimit < (keptChars title).length
    · rw [List.getLast?_eq_getElem?, List.length_take, min_eq_left hlong.le, List.getElem?_take]
      simp [hlong, show stemLimit - 1 < stemLimit by decide]
    · rw [List.take_of_length_le (by omega)]
      simp [hlong, getLast?_keptChars]

theorem not_cutAtStop_stem (title : List Char) : ¬ CutAtStop (stem title) := by
  rintro ⟨hlong, _⟩
  have hstem := isStem_stem title
  have hlength := (trimEndWhere_isPrefix (· == '.') (stem title)).length_le
  have hshort := hstem.short
  rw [keptChars_of_isNameChar hstem.kept] at hlong
  omega

theorem stem_stem_eq_iff : stem (stem title) = stem title ↔ ¬ CutAtStop title := by
  constructor
  · intro hsame hcut
    rw [← getLast?_stem_eq_stop_iff, ← hsame, getLast?_stem_eq_stop_iff] at hcut
    exact not_cutAtStop_stem title hcut
  · intro hcut
    exact (isStem_stem title).stem_eq_self (mt getLast?_stem_eq_stop_iff.1 hcut)

theorem stem_sublist (title : List Char) :
    (stem title).Sublist (title.map spell) ∨ stem title = untitledStem := by
  rw [stem_eq]
  split
  · exact .inr rfl
  · exact .inl ((List.take_sublist _ _).trans (keptChars_sublist title))

/-- The name of a section is safe to write under. Its stem has one to a hundred characters, all of
them word characters, hyphens and full stops; it is spelled from characters of the title in their
order, or the fixed one, and it is the title itself where that has the form already. So the name
has no slash of either kind, no blank and no control character, and it is none of the two names of
folders. Its path is that of the manual's folder and the name, and wherever that folder is, behind
links or not, the path leads to what stands under the name in it. -/
theorem sectionName_is_direct_child (title : String) :
    (∃ text : List Char, sectionName title = String.ofList text ++ ".md" ∧
      1 ≤ text.length ∧ text.length ≤ 100 ∧
      (∀ c ∈ text, isWord c = true ∨ c = '-' ∨ c = '.') ∧
      (text.Sublist (title.toList.map spell) ∨ text = untitledStem) ∧
      (IsStem title.toList → title.toList.getLast? ≠ some '.' → text = title.toList)) ∧
    (∀ c ∈ (sectionName title).toList,
      c ≠ '/' ∧ c ≠ '\\' ∧ isBlank c = false ∧ isControl c = false) ∧
    sectionName title ≠ "." ∧ sectionName title ≠ ".." ∧
    parent (Settings.sectionPath {} title) = "./final_documentation" ∧
    base (Settings.sectionPath {} title) = sectionName title ∧
    ∀ (disk : Disk) (folder : Place),
      disk.resolve "./final_documentation" = .ok (.found (some folder) .folder) →
        disk.resolveFor .claim (Settings.sectionPath {} title) =
          disk.childAt folder (sectionName title) := by
  have hstem := isStem_stem title.toList
  have hstep : IsStep (sectionName title) := isStep_append _ (by decide)
  have hslash : '/' ∉ (sectionName title).toList := not_mem_sectionName (by decide +kernel)
  have hstores : Settings.StoresAt {} ["final_documentation"] := storesAt_usual {}
  have hchars : ∀ c ∈ (sectionName title).toList, isNameChar c = true := by
    intro c hc
    cases hname : isNameChar c with
    | true => rfl
    | false => exact absurd hc (not_mem_sectionName hname)
  refine ⟨⟨stem title.toList, rfl, ?_, hstem.short, ?_, stem_sublist _, ?_⟩, ?_, hstep.2.1,
    hstep.2.2, hstores.leadsTo.parent_join hslash, hstores.leadsTo.base_join hslash, ?_⟩
  · exact List.length_pos_iff.2 hstem.nonempty
  · exact fun c hc => isNameChar_iff.1 (hstem.kept c hc)
  · exact IsStem.stem_eq_self
  · intro c hc
    refine ⟨?_, ?_, isBlank_of_isNameChar (hchars c hc), isControl_of_isNameChar (hchars c hc)⟩
    · rintro rfl
      exact hslash hc
    · rintro rfl
      exact not_mem_sectionName (by decide +kernel) hc
  · intro disk folder hfolder
    have hshort := hstores.short_sectionPath title
    have hpath := hstores.sectionPath_eq title
    rw [hpath] at hshort
    rw [hpath]
    exact Disk.resolveFor_claim_append hstep hslash hshort hfolder

def stemText (title : String) : String := String.ofList (stem title.toList)

theorem toList_stemText (title : String) : (stemText title).toList = stem title.toList :=
  String.toList_ofList

theorem sectionName_eq_iff {title other : String} :
    sectionName title = sectionName other ↔ stem title.toList = stem other.toList := by
  rw [sectionName, sectionName, String.append_left_inj, String.ofList_inj]

/-- A stem ends in no full stop, and taken for a title it gives its name again, exactly if the cut
does not fall behind a full stop. Taken for a title twice, it gives the name of the first time. -/
theorem sectionName_stem_eq_iff (title : String) :
    sectionName title = stemText title ++ ".md" ∧
      ((stemText title).toList.getLast? ≠ some '.' ↔ ¬ CutAtStop title.toList) ∧
      (sectionName (stemText title) = sectionName title ↔ ¬ CutAtStop title.toList) ∧
      sectionName (stemText (stemText title)) = sectionName (stemText title) := by
  refine ⟨rfl, ?_, ?_, ?_⟩
  · rw [toList_stemText, Ne, getLast?_stem_eq_stop_iff]
  · rw [sectionName_eq_iff, toList_stemText, stem_stem_eq_iff]
  · rw [sectionName_eq_iff, toList_stemText, toList_stemText]
    exact stem_stem_eq_iff.2 (not_cutAtStop_stem title.toList)

/-- A full stop at the hundredth place stays at the end of the stem, and is dropped from it when
the stem is taken for a title. -/
theorem stem_ends_in_stop :
    let title := String.ofList (List.replicate 99 'a' ++ ['.', 'b'])
    let cut := String.ofList (List.replicate 99 'a' ++ ['.'])
    sectionName title = cut ++ ".md" ∧
      sectionName cut = String.ofList (List.replicate 99 'a') ++ ".md" ∧
      sectionName cut ≠ sectionName title := by
  intro title cut
  have hkept : ∀ c ∈ List.replicate 99 'a' ++ ['.', 'b'], isNameChar c = true := by
    have hchars : ∀ c ∈ ['a', '.', 'b'], isNameChar c = true := List.all_eq_true.1 (by decide +kernel)
    intro c hc
    rcases List.mem_append.1 hc with ha | hrest
    · exact hchars c (List.eq_of_mem_replicate ha ▸ List.mem_cons_self)
    · exact hchars c (List.mem_cons_of_mem _ hrest)
  have htitle : stem title.toList = List.replicate 99 'a' ++ ['.'] := by
    rw [String.toList_ofList, stem_eq, keptChars_of_isNameChar hkept]
    decide
  have hcut : stem cut.toList = List.replicate 99 'a' := by
    have hpart : ∀ c ∈ List.replicate 99 'a' ++ ['.'], isNameChar c = true := by
      intro c hc
      exact hkept c ((List.take_sublist 100 _).subset hc)
    rw [String.toList_ofList, stem_eq, keptChars_of_isNameChar hpart]
    decide
  refine ⟨?_, ?_, ?_⟩
  · rw [sectionName, htitle]
  · rw [sectionName, hcut]
  · rw [Ne, sectionName_eq_iff, htitle, hcut]
    decide

end Docwright.Manual
