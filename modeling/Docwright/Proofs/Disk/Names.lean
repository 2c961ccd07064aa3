import Docwright.Disk.Walk
import Docwright.Proofs.Disk.Plain

/-!
# Names for files

The names under which files are written are made from the names of other files,
from the last name of a path, and from parts of such names, by adding an ending.
None of them holds a slash, so joining one to a folder leads to a place directly
in that folder.

A folder lists every name once, at the position of the first entry that has it.
-/

namespace Docwright

section Firsts

variable {α β : Type} {l : List (String × α)} {entry : String × α}

theorem firsts_sublist (l : List (String × α)) : (firsts l).Sublist l := by
  induction l with
  | nil => exact List.Sublist.refl []
  | cons entry rest ih => exact List.Sublist.cons_cons entry (List.filter_sublist.trans ih)

theorem pairwise_firsts (l : List (String × α)) : (firsts l).Pairwise fun a b => a.1 ≠ b.1 := by
  induction l with
  | nil => exact List.Pairwise.nil
  | cons entry rest ih =>
      refine List.pairwise_cons.2 ⟨fun other hother => ?_, ih.filter _⟩
      have hne : other.1 ≠ entry.1 := by simpa using (List.mem_filter.1 hother).2
      exact hne.symm

theorem find?_of_mem_firsts (h : entry ∈ firsts l) :
    l.find? (fun other => other.1 = entry.1) = some entry := by
  induction l with
  | nil => exact absurd h (by simp [firsts])
  | cons first rest ih =>
      rcases List.mem_cons.1 h with rfl | hrest
      · simp
      · obtain ⟨hmem, hne⟩ := List.mem_filter.1 hrest
        have hfirst : first.1 ≠ entry.1 := fun hsame => by simp [hsame] at hne
        rw [List.find?_cons_of_neg (by simpa using hfirst), ih hmem]

theorem exists_mem_firsts (h : entry ∈ l) : ∃ found ∈ firsts l, found.1 = entry.1 := by
  induction l with
  | nil => exact absurd h (by simp)
  | cons first rest ih =>
      by_cases hfirst : first.1 = entry.1
      · exact ⟨first, List.mem_cons_self, hfirst⟩
      · have hrest : entry ∈ rest := by
          rcases List.mem_cons.1 h with rfl | hrest
          · exact absurd rfl hfirst
          · exact hrest
        obtain ⟨found, hfound, hname⟩ := ih hrest
        refine ⟨found, List.mem_cons_of_mem _ (List.mem_filter.2 ⟨hfound, ?_⟩), hname⟩
        simpa [hname] using Ne.symm hfirst

theorem firsts_map (f : String × α → β) (l : List (String × α)) :
    firsts (l.map fun entry => (entry.1, f entry)) =
      (firsts l).map fun entry => (entry.1, f entry) := by
  induction l with
  | nil => rfl
  | cons entry rest ih =>
      rw [List.map_cons, firsts, ih, List.filter_map, firsts, List.map_cons]
      rfl

end Firsts

namespace Disk

theorem exists_get?_of_mem {name : String} {entries : Entries}
    (h : name ∈ entries.map (·.1)) : ∃ tree, entries.get? name = some tree := by
  induction entries with
  | nil => exact absurd h (by simp)
  | cons entry rest ih =>
      obtain ⟨first, tree⟩ := entry
      by_cases hfirst : first = name
      · exact ⟨tree, by simp [Entries.get?, hfirst]⟩
      · have hrest : name ∈ rest.map (·.1) := by
          rcases List.mem_cons.1 h with hname | hname
          · exact absurd hname.symm hfirst
          · exact hname
        obtain ⟨found, hfound⟩ := ih hrest
        exact ⟨found, by simp [Entries.get?, hfirst, hfound]⟩

theorem exists_get?_of_mem_names {disk : Disk} {place : Place} {name : String}
    (h : name ∈ disk.names place) : ∃ item, disk.get? (place ++ [name]) = some item := by
  have hentry : name ∈ (disk.entriesAt place).map (·.1) :=
    ((firsts_sublist _).map _).subset h
  obtain ⟨tree, htree⟩ := exists_get?_of_mem hentry
  exact ⟨tree.item, by rw [get?_append, htree, Option.map_some]⟩

theorem mem_of_get? {name : String} {entries : Entries} {tree : Tree}
    (h : entries.get? name = some tree) : name ∈ entries.map (·.1) := by
  induction entries with
  | nil => exact absurd h (by simp [Entries.get?])
  | cons entry rest ih =>
      obtain ⟨first, inner⟩ := entry
      by_cases hfirst : first = name
      · simp [hfirst]
      · have hrest : Entries.get? name rest = some tree := by
          simpa [Entries.get?, hfirst] using h
        exact List.mem_cons_of_mem _ (ih hrest)

/-- The names in a folder are those under which something stands in it. -/
theorem mem_names_iff {disk : Disk} {place : Place} {name : String} :
    name ∈ disk.names place ↔ disk.get? (place ++ [name]) ≠ none := by
  constructor
  · intro h
    obtain ⟨item, hitem⟩ := exists_get?_of_mem_names h
    simp [hitem]
  · intro h
    rw [get?_append, Ne, Option.map_eq_none_iff] at h
    obtain ⟨tree, htree⟩ := Option.ne_none_iff_exists'.1 h
    obtain ⟨entry, hentry, hname⟩ := List.mem_map.1 (mem_of_get? htree)
    obtain ⟨found, hfound, hsame⟩ := exists_mem_firsts hentry
    exact List.mem_map.2 ⟨found, hfound, hsame.trans hname⟩

theorem nodup_names (disk : Disk) (place : Place) : (disk.names place).Nodup :=
  List.pairwise_map.2 (pairwise_firsts _)

theorem Plain.isName_of_mem_names {disk : Disk} (hplain : disk.Plain) {place : Place}
    {name : String} (h : name ∈ disk.names place) : IsName name := by
  obtain ⟨item, hget⟩ := exists_get?_of_mem_names h
  exact hplain.isName hget name (by simp)

theorem Plain.isName_of_mem_fileNames {disk : Disk} (hplain : disk.Plain) {folder : Folder}
    {name : String} (h : name ∈ disk.fileNames folder) : IsName name :=
  hplain.isName_of_mem_names (List.mem_filter.1 h).1

end Disk

namespace Path

theorem not_mem_base (path : String) : '/' ∉ (base path).toList := by
  intro h
  rw [base, String.toList_ofList, List.mem_reverse] at h
  have hslash := List.all_eq_true.1 List.all_takeWhile '/' h
  simp at hslash

theorem mem_of_mem_stem {name : String} {c : Char} (h : c ∈ (stem name).toList) :
    c ∈ name.toList := by
  rw [stem, String.toList_ofList] at h
  exact List.mem_of_mem_take h

theorem isStep_append (name : String) {ending : String} (h : 2 < ending.length) :
    IsStep (name ++ ending) := by
  have hlength : (name ++ ending).length = name.length + ending.length := by simp
  refine ⟨?_, ?_, ?_⟩
  · intro hname
    rw [hname] at hlength
    simp at hlength
    omega
  · intro hname
    rw [hname, show ".".length = 1 from rfl] at hlength
    omega
  · intro hname
    rw [hname, show "..".length = 2 from rfl] at hlength
    omega

/-- A name that holds no slash, with such an ending, leads into the folder. -/
theorem LeadsTo.join_append {folder name ending : String} {place : Place}
    (h : LeadsTo folder place) (hname : '/' ∉ name.toList) (hending : '/' ∉ ending.toList)
    (hlong : 2 < ending.length) :
    LeadsTo (Path.join folder (name ++ ending)) (place ++ [name ++ ending]) := by
  refine h.join (isStep_append name hlong) ?_
  rw [String.toList_append, List.mem_append]
  rintro (hslash | hslash)
  · exact hname hslash
  · exact hending hslash

end Path

end Docwright
