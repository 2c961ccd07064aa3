import Docwright.Disk.Path
import Docwright.Disk.Tree

/-!
# Paths that name a place

The paths that programs write to start with a dot and go on with one name after
the other: `LeadsTo path place` says that the parts of the path are the dot and
the names of the place. Such a path is neither empty nor absolute, and joining a
name that holds no slash extends its place by that name.
-/

namespace Docwright.Path

theorem splitAtSlashes_ne_nil (cs : List Char) : splitAtSlashes cs ≠ [] := by
  induction cs with
  | nil => simp [splitAtSlashes]
  | cons c rest ih =>
      unfold splitAtSlashes
      split
      · simp
      · split
        · simp
        · simp

theorem splitAtSlashes_append (cs ds : List Char) :
    splitAtSlashes (cs ++ '/' :: ds) = splitAtSlashes cs ++ splitAtSlashes ds := by
  induction cs with
  | nil => simp [splitAtSlashes]
  | cons c rest ih =>
      rw [List.cons_append, splitAtSlashes, splitAtSlashes, ih]
      by_cases hc : c = '/'
      · simp [hc]
      · simp only [hc, if_false]
        cases hrest : splitAtSlashes rest with
        | nil => exact absurd hrest (splitAtSlashes_ne_nil rest)
        | cons part parts => rfl

theorem splitAtSlashes_of_not_mem {cs : List Char} (h : '/' ∉ cs) : splitAtSlashes cs = [cs] := by
  induction cs with
  | nil => rfl
  | cons c rest ih =>
      have hc : c ≠ '/' := fun hc => h (by simp [hc])
      have hrest : '/' ∉ rest := fun hmem => h (by simp [hmem])
      rw [splitAtSlashes, if_neg hc, ih hrest]

theorem mem_of_mem_splitAtSlashes {cs part : List Char} {c : Char}
    (hpart : part ∈ splitAtSlashes cs) (hc : c ∈ part) : c ∈ cs ∧ c ≠ '/' := by
  induction cs generalizing part with
  | nil =>
      simp [splitAtSlashes] at hpart
      simp [hpart] at hc
  | cons d rest ih =>
      unfold splitAtSlashes at hpart
      split at hpart
      · rcases List.mem_cons.1 hpart with rfl | hpart
        · simp at hc
        · have hrest := ih hpart hc
          exact ⟨List.mem_cons_of_mem d hrest.1, hrest.2⟩
      · rename_i hd
        split at hpart
        · rename_i hnil
          exact absurd hnil (splitAtSlashes_ne_nil rest)
        · rename_i first parts hsplit
          rw [hsplit] at ih
          rcases List.mem_cons.1 hpart with rfl | hpart
          · rcases List.mem_cons.1 hc with rfl | hc
            · exact ⟨List.mem_cons_self, hd⟩
            · have hrest := ih List.mem_cons_self hc
              exact ⟨List.mem_cons_of_mem d hrest.1, hrest.2⟩
          · have hrest := ih (List.mem_cons_of_mem first hpart) hc
            exact ⟨List.mem_cons_of_mem d hrest.1, hrest.2⟩

theorem exists_mem_splitAtSlashes {cs : List Char} {c : Char} (h : c ∈ cs) (hc : c ≠ '/') :
    ∃ part ∈ splitAtSlashes cs, c ∈ part := by
  induction cs with
  | nil => exact absurd h (by simp)
  | cons d rest ih =>
      unfold splitAtSlashes
      rcases List.mem_cons.1 h with rfl | hrest
      · rw [if_neg hc]
        split
        · exact ⟨[c], List.mem_cons_self, List.mem_cons_self⟩
        · exact ⟨_, List.mem_cons_self, List.mem_cons_self⟩
      · obtain ⟨part, hpart, hmem⟩ := ih hrest
        split
        · exact ⟨part, List.mem_cons_of_mem _ hpart, hmem⟩
        · split
          · rename_i hnil
            exact absurd hnil (splitAtSlashes_ne_nil rest)
          · rename_i first parts hsplit
            rw [hsplit] at hpart
            rcases List.mem_cons.1 hpart with rfl | hpart
            · exact ⟨_, List.mem_cons_self, List.mem_cons_of_mem d hmem⟩
            · exact ⟨part, List.mem_cons_of_mem _ hpart, hmem⟩

/-- A part that goes to an item in the current folder. -/
def IsStep (part : String) : Prop := part ≠ "" ∧ part ≠ "." ∧ part ≠ ".."

/-- The parts of the path are a dot and the names of the place. -/
structure LeadsTo (path : String) (place : Place) : Prop where
  parts_eq : parts path = "." :: place
  isStep : ∀ name ∈ place, IsStep name

variable {path : String} {place : Place}

theorem parts_append (folder name : String) :
    parts (folder ++ "/" ++ name) = parts folder ++ parts name := by
  have hlist : (folder ++ "/" ++ name).toList = folder.toList ++ '/' :: name.toList := by simp
  rw [parts, hlist, splitAtSlashes_append, List.map_append, parts, parts]

theorem parts_of_not_mem {name : String} (h : '/' ∉ name.toList) : parts name = [name] := by
  rw [parts, splitAtSlashes_of_not_mem h, List.map_singleton, String.ofList_toList]

theorem mem_of_mem_parts {part : String} {c : Char} (hpart : part ∈ parts path)
    (hc : c ∈ part.toList) : c ∈ path.toList ∧ c ≠ '/' := by
  obtain ⟨cs, hcs, rfl⟩ := List.mem_map.1 hpart
  rw [String.toList_ofList] at hc
  exact mem_of_mem_splitAtSlashes hcs hc

namespace LeadsTo

theorem ne_empty (h : LeadsTo path place) : path.isEmpty = false := by
  have hparts := h.parts_eq
  cases hempty : path.isEmpty with
  | false => rfl
  | true =>
      have hpath : path = "" := by simpa using hempty
      rw [hpath, parts] at hparts
      simp [splitAtSlashes] at hparts

theorem not_isAbsolute (h : LeadsTo path place) : isAbsolute path = false := by
  have hparts := h.parts_eq
  unfold isAbsolute
  split
  · rename_i rest hpath
    rw [parts, hpath, splitAtSlashes] at hparts
    simp at hparts
  · rfl

theorem toList_reverse (h : LeadsTo path place) :
    ∃ c cs, path.toList.reverse = c :: cs ∧ c ≠ '/' := by
  cases hpath : path.toList.reverse with
  | nil =>
      have hempty := h.ne_empty
      rw [List.reverse_eq_nil_iff] at hpath
      simp [String.toList_eq_nil_iff.1 hpath] at hempty
  | cons c cs =>
      refine ⟨c, cs, rfl, ?_⟩
      rintro rfl
      have hlist : path.toList = cs.reverse ++ '/' :: [] := by
        rw [← List.reverse_reverse path.toList, hpath, List.reverse_cons]
      have hparts := h.parts_eq
      rw [parts, hlist, splitAtSlashes_append] at hparts
      have hlast : "" ∈ "." :: place := by
        rw [← hparts]
        simp [splitAtSlashes]
      rcases List.mem_cons.1 hlast with hdot | hname
      · exact absurd hdot (by decide)
      · exact (h.isStep "" hname).1 rfl

theorem join_eq (h : LeadsTo path place) {name : String} (hslash : '/' ∉ name.toList) :
    Path.join path name = path ++ "/" ++ name := by
  obtain ⟨c, cs, hreverse, hc⟩ := h.toList_reverse
  unfold Path.join
  rw [hreverse]
  split
  · simp_all
  · simp_all
  · simp_all
  · rfl

theorem join (h : LeadsTo path place) {name : String} (hname : IsStep name)
    (hslash : '/' ∉ name.toList) : LeadsTo (Path.join path name) (place ++ [name]) := by
  constructor
  · rw [h.join_eq hslash, parts_append, h.parts_eq, parts_of_not_mem hslash, List.cons_append]
  · intro part hpart
    rcases List.mem_append.1 hpart with hpart | hpart
    · exact h.isStep part hpart
    · rw [List.mem_singleton.1 hpart]
      exact hname

theorem mem_of_mem {name : String} {c : Char} (h : LeadsTo path place) (hname : name ∈ place)
    (hc : c ∈ name.toList) : c ∈ path.toList ∧ c ≠ '/' := by
  refine mem_of_mem_parts ?_ hc
  rw [h.parts_eq]
  exact List.mem_cons_of_mem _ hname

/-- The characters of a path are dots, slashes and those of its names. -/
theorem exists_mem_of_mem {c : Char} (h : LeadsTo path place) (hc : c ∈ path.toList) :
    c = '.' ∨ c = '/' ∨ ∃ name ∈ place, c ∈ name.toList := by
  by_cases hslash : c = '/'
  · exact Or.inr (Or.inl hslash)
  · obtain ⟨part, hpart, hmem⟩ := exists_mem_splitAtSlashes hc hslash
    have hin : String.ofList part ∈ "." :: place := by
      rw [← h.parts_eq]
      exact List.mem_map_of_mem hpart
    rcases List.mem_cons.1 hin with hdot | hname
    · have hlist : part = ['.'] := by
        simpa using congrArg String.toList hdot
      rw [hlist] at hmem
      exact Or.inl (List.mem_singleton.1 hmem)
    · exact Or.inr (Or.inr ⟨_, hname, by simpa using hmem⟩)

theorem noNull (h : LeadsTo path place)
    (hnames : ∀ name ∈ place, ∀ c ∈ name.toList, c.toNat ≠ 0) :
    path.toList.any (·.toNat == 0) = false := by
  refine List.any_eq_false.2 fun c hc hnull => ?_
  rcases h.exists_mem_of_mem hc with rfl | rfl | ⟨name, hname, hmem⟩
  · exact absurd hnull (by decide)
  · exact absurd hnull (by decide)
  · exact hnames name hname c hmem (by simpa using hnull)

end LeadsTo

end Docwright.Path
