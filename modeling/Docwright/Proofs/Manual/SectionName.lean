import Docwright.Manual
import Docwright.Proofs.Disk.Names

/-!
# Where sections are stored

The name of a section's file is made of characters that a name keeps, so it holds
neither a slash nor a null character, and it is short: a section is stored
directly in the folder of the manual, whatever its title is.
-/

namespace Docwright.Manual

open Docwright.Path

theorem isNameChar_of_mem_stem {title : List Char} {c : Char} (h : c ∈ stem title) :
    isNameChar c = true := by
  have huntitled : untitledStem.all isNameChar = true := by decide +kernel
  have hchosen := List.mem_of_mem_take h
  split at hchosen
  · exact List.all_eq_true.1 huntitled c hchosen
  · rw [keptChars, Text.trimEndWhere, List.mem_reverse] at hchosen
    have hkept := (List.dropWhile_sublist _).subset hchosen
    rw [List.mem_reverse] at hkept
    exact (List.mem_filter.1 hkept).2

theorem not_mem_stem {title : List Char} {c : Char} (hc : isNameChar c = false) :
    c ∉ stem title := by
  intro h
  rw [isNameChar_of_mem_stem h] at hc
  exact absurd hc (by simp)

theorem not_mem_sectionName {title : String} {c : Char} (hc : isNameChar c = false) :
    c ∉ (sectionName title).toList := by
  have hending : ".md".toList.all isNameChar = true := by decide +kernel
  rw [sectionName, String.toList_append, String.toList_ofList, List.mem_append]
  rintro (hstem | hmd)
  · exact not_mem_stem hc hstem
  · rw [List.all_eq_true.1 hending c hmd] at hc
    exact absurd hc (by simp)

theorem leadsTo_sectionPath {settings : Settings} {place : Place}
    (hfolder : LeadsTo settings.manualFolder place) (title : String) :
    LeadsTo (settings.sectionPath title) (place ++ [sectionName title]) :=
  hfolder.join (isStep_append _ (by decide)) (not_mem_sectionName (by decide +kernel))

theorem utf8ByteSize_ofList_le {cs : List Char} {width : Nat}
    (h : ∀ c ∈ cs, c.utf8Size ≤ width) :
    (String.ofList cs).utf8ByteSize ≤ width * cs.length := by
  induction cs with
  | nil => simp
  | cons c rest ih =>
      have hc := h c List.mem_cons_self
      have hrest := ih fun d hd => h d (List.mem_cons_of_mem c hd)
      rw [String.ofList_cons, String.utf8ByteSize_append, String.utf8ByteSize_singleton,
        List.length_cons, Nat.mul_succ]
      omega

theorem utf8ByteSize_sectionName_le (title : String) :
    (sectionName title).utf8ByteSize ≤ 4 * stemLimit + 3 := by
  have hstem := utf8ByteSize_ofList_le fun c (_ : c ∈ stem title.toList) => c.utf8Size_le_four
  have hlength : (stem title.toList).length ≤ stemLimit := by
    rw [stem]
    exact List.length_take_le _ _
  rw [sectionName, String.utf8ByteSize_append, show ".md".utf8ByteSize = 3 by decide]
  omega

/-- The folder of the manual leads to a place, and sections in it have paths that
the disk takes. -/
structure Settings.StoresAt (settings : Settings) (place : Place) : Prop where
  leadsTo : LeadsTo settings.manualFolder place
  noNull : settings.manualFolder.toList.any (·.toNat == 0) = false
  short : settings.manualFolder.utf8ByteSize + 4 * stemLimit + 4 < Disk.pathLimit

namespace Settings.StoresAt

variable {settings : Settings} {place : Place} (h : settings.StoresAt place) (title : String)

include h

theorem sectionPath_eq :
    settings.sectionPath title = settings.manualFolder ++ "/" ++ sectionName title :=
  h.leadsTo.join_eq (not_mem_sectionName (by decide +kernel))

theorem noNull_sectionPath : (settings.sectionPath title).toList.any (·.toNat == 0) = false := by
  have hslash : "/".toList.any (·.toNat == 0) = false := by decide
  have hname : (sectionName title).toList.any (·.toNat == 0) = false := by
    rw [List.any_eq_false]
    intro c hc hnull
    have hzero : c = Char.ofNat 0 := by
      rw [← Char.ofNat_toNat c, beq_iff_eq.1 hnull]
    rw [hzero] at hc
    exact not_mem_sectionName (by decide +kernel) hc
  rw [h.sectionPath_eq, String.toList_append, String.toList_append, List.any_append,
    List.any_append, h.noNull, hslash, hname]
  rfl

theorem short_sectionPath : (settings.sectionPath title).utf8ByteSize < Disk.pathLimit := by
  have hname := utf8ByteSize_sectionName_le title
  have hshort := h.short
  rw [h.sectionPath_eq, String.utf8ByteSize_append, String.utf8ByteSize_append,
    show "/".utf8ByteSize = 1 by decide]
  omega

end Settings.StoresAt

/-- A title that its name spells in full: it has no low line, and beside spaces only
characters that a name keeps, and nothing is cut at its ends. -/
structure IsSpelled (title : List Char) : Prop where
  nonempty : title ≠ []
  kept : ∀ c ∈ title, c = ' ' ∨ isNameChar c = true ∧ c ≠ '_'
  trimmed : Text.trim title = title
  noStop : title.getLast? ≠ some '.'
  short : title.length ≤ stemLimit

instance (title : List Char) : Decidable (IsSpelled title) :=
  decidable_of_iff
    (title ≠ [] ∧ (title.all fun c => c == ' ' || isNameChar c && c != '_') = true ∧
      Text.trim title = title ∧ title.getLast? ≠ some '.' ∧ title.length ≤ stemLimit)
    ⟨fun ⟨hne, hkept, htrimmed, hstop, hshort⟩ =>
        ⟨hne, by simpa using hkept, htrimmed, hstop, hshort⟩,
      fun h => ⟨h.nonempty, by simpa using h.kept, h.trimmed, h.noStop, h.short⟩⟩

theorem trimEndWhere_eq_self {p : Char → Bool} {cs : List Char}
    (h : ∀ c, cs.getLast? = some c → p c = false) : Text.trimEndWhere p cs = cs := by
  rw [Text.trimEndWhere, List.reverse_eq_iff]
  rw [← List.head?_reverse] at h
  cases hreverse : cs.reverse with
  | nil => rfl
  | cons c rest =>
      rw [hreverse] at h
      rw [List.dropWhile_cons_of_neg (by simp [h c rfl])]

section Spelled

variable {title other : List Char} {c : Char}

theorem spell_eq_self (hname : isNameChar c = true) : spell c = c := by
  have hne : ∀ d, isNameChar d = false → c ≠ d := by
    rintro d hd rfl
    rw [hname] at hd
    exact absurd hd (by simp)
  rw [spell, if_neg (hne ' ' (by decide +kernel)), if_neg]
  rintro (hslash | hslash)
  · exact hne '/' (by decide +kernel) hslash
  · exact hne '\\' (by decide +kernel) hslash

theorem dropHeadingMarks_eq_self (h : '#' ∉ title) : dropHeadingMarks title = title := by
  unfold dropHeadingMarks
  dsimp only
  split
  · rename_i rest hmarked
    have hmem : '#' ∈ title.dropWhile Text.isBlank := by simp [hmarked]
    exact absurd ((List.dropWhile_sublist _).subset hmem) h
  · rfl

/-- Where nothing is trimmed and every character is kept, only full stops at the end go. -/
theorem keptChars_eq (hmark : '#' ∉ title) (htrimmed : Text.trim title = title)
    (hkept : ∀ c ∈ title.map spell, isNameChar c = true) :
    keptChars title = Text.trimEndWhere (· == '.') (title.map spell) := by
  rw [keptChars, dropHeadingMarks_eq_self hmark, htrimmed, List.filter_eq_self.2 hkept]

theorem IsSpelled.stem_eq (h : IsSpelled title) : stem title = title.map spell := by
  have hmark : '#' ∉ title := by
    intro hmem
    rcases h.kept _ hmem with hspace | ⟨hname, _⟩
    · exact absurd hspace (by decide)
    · exact absurd hname (by decide +kernel)
  have hkept : ∀ c ∈ title.map spell, isNameChar c = true := by
    intro c hc
    obtain ⟨d, hd, rfl⟩ := List.mem_map.1 hc
    rcases h.kept d hd with rfl | ⟨hname, _⟩
    · decide +kernel
    · rwa [spell_eq_self hname]
  have hlast : ∀ c, (title.map spell).getLast? = some c → (c == '.') = false := by
    intro c hc
    rw [List.getLast?_map, Option.map_eq_some_iff] at hc
    obtain ⟨d, hd, rfl⟩ := hc
    rw [beq_eq_false_iff_ne]
    rcases h.kept d (List.mem_of_getLast? hd) with rfl | ⟨hname, _⟩
    · decide
    · rw [spell_eq_self hname]
      rintro rfl
      exact h.noStop hd
  rw [stem, keptChars_eq hmark h.trimmed hkept, trimEndWhere_eq_self hlast,
    if_neg (by simpa using h.nonempty), List.take_of_length_le]
  rw [List.length_map]
  exact h.short

/-- The character that a name spells so, in a title without low lines. -/
def unspell (c : Char) : Char := if c = '_' then ' ' else c

theorem IsSpelled.map_unspell (h : IsSpelled title) : (title.map spell).map unspell = title := by
  have hback : ∀ c ∈ title, (unspell ∘ spell) c = id c := by
    intro c hc
    rw [Function.comp_apply]
    rcases h.kept c hc with rfl | ⟨hname, hline⟩
    · rfl
    · rw [spell_eq_self hname, unspell, if_neg hline]
      rfl
  rw [List.map_map, List.map_congr_left hback, List.map_id]

theorem sectionName_injective {title other : String} (h : IsSpelled title.toList)
    (hother : IsSpelled other.toList) (hname : sectionName title = sectionName other) :
    title = other := by
  have hstem : stem title.toList = stem other.toList := by
    have hlist := (String.append_left_inj _).1 hname
    simpa using congrArg String.toList hlist
  rw [h.stem_eq, hother.stem_eq] at hstem
  have hlist := congrArg (List.map unspell) hstem
  rw [h.map_unspell, hother.map_unspell] at hlist
  exact String.toList_inj.1 hlist

end Spelled

end Docwright.Manual
