import Docwright.Proofs.Disk.Names

/-!
# Files beside each other

The path of a file is that of its folder joined with its name, and both can be
read off it again. A name with an extension is its stem followed by the
extension, and another extension can be put in its place: the stem stays what it
was, because something other than full stops stands in it.
-/

namespace Docwright.Path

section Join

variable {folder name : String} {place : Place}

theorem LeadsTo.toList_join_reverse (h : LeadsTo folder place) (hslash : '/' ∉ name.toList) :
    (Path.join folder name).toList.reverse =
      name.toList.reverse ++ '/' :: folder.toList.reverse := by
  rw [h.join_eq hslash]
  simp

theorem ne_slash_of_mem_reverse (hslash : '/' ∉ name.toList) :
    ∀ c ∈ name.toList.reverse, (c != '/') = true := by
  intro c hc
  have hne : c ≠ '/' := by
    rintro rfl
    exact hslash (List.mem_reverse.1 hc)
  simpa using hne

theorem LeadsTo.base_join (h : LeadsTo folder place) (hslash : '/' ∉ name.toList) :
    base (Path.join folder name) = name := by
  rw [base, h.toList_join_reverse hslash,
    List.takeWhile_append_of_pos (ne_slash_of_mem_reverse hslash)]
  simp

theorem LeadsTo.parent_join (h : LeadsTo folder place) (hslash : '/' ∉ name.toList) :
    parent (Path.join folder name) = folder := by
  obtain ⟨c, cs, hreverse, hc⟩ := h.toList_reverse
  have hlist : folder.toList = cs.reverse ++ [c] := by
    rw [← List.reverse_reverse folder.toList, hreverse, List.reverse_cons]
  rw [parent, h.toList_join_reverse hslash,
    List.dropWhile_append_of_pos (ne_slash_of_mem_reverse hslash), hreverse]
  have hfolder : String.ofList (cs.reverse ++ [c]) = folder := by
    rw [← hlist, String.ofList_toList]
  simpa [hc] using hfolder

end Join

section Extension

theorem stem_append_extension (name : String) : stem name ++ extension name = name := by
  rw [stem, extension, ← String.ofList_append, List.take_append_drop, String.ofList_toList]

theorem exists_split_dots {s : List Char} (hs : ∃ c ∈ s, c ≠ '.') :
    ∃ dots c rest, s = dots ++ c :: rest ∧ (∀ d ∈ dots, (d == '.') = true) ∧ c ≠ '.' := by
  induction s with
  | nil => simp at hs
  | cons first rest ih =>
      by_cases hfirst : first = '.'
      · have hrest : ∃ c ∈ rest, c ≠ '.' := by simpa [hfirst] using hs
        obtain ⟨dots, c, others, rfl, hdots, hc⟩ := ih hrest
        exact ⟨first :: dots, c, others, rfl, by simpa [hfirst] using hdots, hc⟩
      · exact ⟨[], first, rest, rfl, by simp, hfirst⟩

/-- Full stops in front do not count; the last one after them does. -/
theorem extensionStart_eq {dots rest : List Char} {c : Char}
    (hdots : ∀ d ∈ dots, (d == '.') = true) (hc : c ≠ '.') :
    extensionStart (dots ++ c :: rest) =
      match (c :: rest).reverse.dropWhile (· != '.') with
      | [] => (dots ++ c :: rest).length
      | _ :: stem => dots.length + stem.length := by
  have hstart : (dots ++ c :: rest).takeWhile (· == '.') = dots := by
    rw [List.takeWhile_append_of_pos hdots]
    simp [hc]
  cases hback : (c :: rest).reverse.dropWhile (· != '.') with
  | nil => simp only [extensionStart, hstart, List.drop_left, hback]
  | cons dot stem => simp only [extensionStart, hstart, List.drop_left, hback]

theorem extensionStart_append {s e : List Char} (hs : ∃ c ∈ s, c ≠ '.') (he : '.' ∉ e) :
    extensionStart (s ++ '.' :: e) = s.length := by
  obtain ⟨dots, c, rest, rfl, hdots, hc⟩ := exists_split_dots hs
  have hend : ∀ d ∈ e.reverse, (d != '.') = true := by
    intro d hd
    have hne : d ≠ '.' := by
      rintro rfl
      exact he (List.mem_reverse.1 hd)
    simpa using hne
  have hlist : dots ++ c :: rest ++ '.' :: e = dots ++ c :: (rest ++ '.' :: e) := by simp
  have hback : (c :: (rest ++ '.' :: e)).reverse = e.reverse ++ '.' :: (c :: rest).reverse := by
    simp
  rw [hlist, extensionStart_eq hdots hc, hback, List.dropWhile_append_of_pos hend]
  simp

theorem extension_append {s e : String} (hs : ∃ c ∈ s.toList, c ≠ '.') (he : '.' ∉ e.toList) :
    extension (s ++ ("." ++ e)) = "." ++ e := by
  have hlist : (s ++ ("." ++ e)).toList = s.toList ++ '.' :: e.toList := by simp
  rw [extension, hlist, extensionStart_append hs he, List.drop_left, String.ofList_cons,
    String.ofList_toList]
  rfl

/-- Full stops before the only other part of a name begin no extension. -/
theorem extension_of_dots {dots e : String} (hdots : ∀ c ∈ dots.toList, c = '.')
    (he : '.' ∉ e.toList) (hne : e ≠ "") : extension (dots ++ ("." ++ e)) = "" := by
  obtain ⟨c, rest, hlist⟩ : ∃ c rest, e.toList = c :: rest :=
    List.exists_cons_of_ne_nil fun hnil => hne (String.toList_eq_nil_iff.1 hnil)
  rw [hlist] at he
  have hc : c ≠ '.' := fun hsame => he (hsame ▸ List.mem_cons_self)
  have hname : (dots ++ ("." ++ e)).toList = (dots.toList ++ ['.']) ++ c :: rest := by
    simp [hlist]
  have hfront : ∀ d ∈ dots.toList ++ ['.'], (d == '.') = true := by
    intro d hd
    obtain hdot | hlast := List.mem_append.1 hd
    · simpa using hdots d hdot
    · simpa using hlast
  have hback : (c :: rest).reverse.dropWhile (· != '.') = [] := by
    have hall : ∀ d ∈ (c :: rest).reverse, (d != '.') = true := by
      intro d hd
      have hother : d ≠ '.' := fun hsame => he (hsame ▸ List.mem_reverse.1 hd)
      simpa using hother
    rw [← List.append_nil (c :: rest).reverse, List.dropWhile_append_of_pos hall,
      List.dropWhile_nil]
  rw [extension, hname, extensionStart_eq hfront hc, hback, List.drop_length]

theorem hasEnding_iff {ending name : String} :
    hasEnding ending name = true ↔ ∃ front, name = front ++ ending := by
  rw [hasEnding, List.isPrefixOf_iff_prefix, List.reverse_prefix]
  constructor
  · rintro ⟨front, hfront⟩
    refine ⟨String.ofList front, ?_⟩
    rw [← String.toList_inj, String.toList_append, String.toList_ofList, hfront]
  · rintro ⟨front, rfl⟩
    rw [String.toList_append]
    exact List.suffix_append _ _

/-- Something other than full stops stands before an extension. -/
theorem exists_ne_dot_of_extension {name : String} (h : extension name ≠ "") :
    ∃ c ∈ (stem name).toList, c ≠ '.' := by
  have hnotAll : extensionStart name.toList ≠ name.toList.length := by
    intro hstart
    rw [extension, hstart, List.drop_length] at h
    exact h rfl
  have hsome : ∃ c ∈ name.toList, c ≠ '.' := by
    refine Decidable.byContradiction fun hnone => hnotAll ?_
    have hall : ∀ c ∈ name.toList, (c == '.') = true := by simpa using hnone
    have hdots : name.toList.takeWhile (· == '.') = name.toList := by
      rw [← List.append_nil name.toList, List.takeWhile_append_of_pos hall, List.takeWhile_nil]
    rw [extensionStart, hdots, List.drop_length]
    rfl
  obtain ⟨dots, c, rest, hname, hdots, hc⟩ := exists_split_dots hsome
  refine ⟨c, ?_, hc⟩
  rw [stem, String.toList_ofList]
  rw [hname, extensionStart_eq hdots hc] at hnotAll ⊢
  cases hback : (c :: rest).reverse.dropWhile (· != '.') with
  | nil =>
      rw [hback] at hnotAll
      exact absurd rfl hnotAll
  | cons last before =>
      cases before with
      | nil =>
          -- Then the full stop would be the character that is none.
          obtain ⟨front, hfront⟩ := List.dropWhile_suffix (· != '.') (l := (c :: rest).reverse)
          have hlast : last = c := by
            rw [hback, List.reverse_cons] at hfront
            simpa using (List.append_inj' hfront rfl).2
          have hdot := List.head_dropWhile_not (· != '.') (l := (c :: rest).reverse)
            (by rw [hback]; simp)
          simp only [hback, hlast, List.head_cons] at hdot
          exact absurd (by simpa using hdot) hc
      | cons next before => simp [List.take_length_add_append]

end Extension

end Docwright.Path

namespace Docwright.Disk

open Docwright.Path

variable {name : String}

theorem IsName.stem (h : IsName name) (hextension : extension name ≠ "") : IsName (stem name) := by
  obtain ⟨c, hc, hdot⟩ := exists_ne_dot_of_extension hextension
  refine ⟨⟨?_, ?_, ?_⟩, fun hslash => h.noSlash (mem_of_mem_stem hslash),
    fun d hd => h.noNull d (mem_of_mem_stem hd), ?_⟩
  · intro hstem
    simp [hstem] at hc
  · intro hstem
    simp [hstem, hdot] at hc
  · intro hstem
    simp [hstem, hdot] at hc
  · have hsize := congrArg String.utf8ByteSize (stem_append_extension name)
    have hshort := h.short
    rw [String.utf8ByteSize_append] at hsize
    omega

end Docwright.Disk
