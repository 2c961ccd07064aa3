import Docwright.Proofs.Disk.Access
import Docwright.Proofs.Disk.Inside
import Docwright.Proofs.Disk.Names
import Docwright.Proofs.Text.Order

/-!
# Entries added to a disk

A disk extends another one if every item of that is also on it. A path that found an item finds
it still, on every disk and behind all links, so a text that could be read is read as before. The
converse fails for links: one that led nowhere may lead to what was added.

`Gains` says that one entry was added, with all that is inside it. It speaks of what stands where
and not of the order in which a folder is listed.
-/

namespace Docwright

namespace Disk

open Docwright.Path

/-- Every item of the first disk is on the second. -/
def Extends (before after : Disk) : Prop :=
  ∀ place item, before.get? place = some item → after.get? place = some item

/-- The second disk has a new entry at the place, and nothing else is different. -/
structure Gains (before after : Disk) (place : Place) : Prop where
  absent : before.get? place = none
  present : after.get? place ≠ none
  elsewhere : ∀ other, ¬ place <+: other → after.get? other = before.get? other

/-- The same stands everywhere on both disks; the folders may be listed in other orders. -/
def SameView (disk other : Disk) : Prop := ∀ place, disk.get? place = other.get? place

variable {before after : Disk}

theorem Extends.of_gains {place : Place} (h : Gains before after place) :
    Extends before after := by
  intro other item hitem
  rw [h.elsewhere other, hitem]
  rintro ⟨rest, rfl⟩
  cases rest with
  | nil => simp [h.absent] at hitem
  | cons name rest =>
      have hfolder := get?_folder_of_append_cons hitem
      simp [h.absent] at hfolder

theorem Gains.of_insert {disk : Disk} {folder : Place} {name : String} (item : Item)
    (hfolder : disk.get? folder = some .folder) (habsent : disk.get? (folder ++ [name]) = none) :
    Gains disk (disk.insert (folder ++ [name]) item) (folder ++ [name]) := by
  have hget := fun place => disk.get?_insert folder place name item hfolder (by simp [habsent])
  refine ⟨habsent, by simp [hget], fun other hother => ?_⟩
  rw [hget, if_neg]
  rintro rfl
  exact hother List.prefix_rfl

theorem Extends.of_sameView (h : SameView before after) : Extends before after :=
  fun place _ hitem => (h place).symm.trans hitem

theorem SameView.symm (h : SameView before after) : SameView after before :=
  fun place => (h place).symm

theorem eq_of_item_eq {tree other : Tree} (h : other.item = tree.item)
    (hfolder : tree.item ≠ .folder) : other = tree := by
  cases tree with
  | folder entries => exact absurd rfl hfolder
  | file content => cases other <;> simp_all [Tree.item]
  | link target => cases other <;> simp_all [Tree.item]
  | locked asFolder => cases other <;> simp_all [Tree.item]

theorem exists_eq_folder {tree : Tree} (h : tree.item = .folder) :
    ∃ entries, tree = .folder entries := by
  cases tree with
  | folder entries => exact ⟨entries, rfl⟩
  | file content => simp [Tree.item] at h
  | link target => simp [Tree.item] at h
  | locked asFolder => simp [Tree.item] at h

namespace Extends

variable (h : Extends before after)

include h

theorem exists_entry {passed : List String} {name : String} {tree : Tree}
    (hentry : (before.inside (some passed)).get? name = some tree) :
    ∃ other, (after.inside (some passed)).get? name = some other ∧ other.item = tree.item := by
  have hitem : after.get? (passed.reverse ++ [name]) = some tree.item := by
    apply h
    rw [get?_append]
    exact congrArg (Option.map Tree.item) hentry
  rw [get?_append] at hitem
  exact Option.map_eq_some_iff.1 hitem

/-- Parts that lead to an item or a link lead to it still. -/
theorem advance_eq (purpose : Purpose) (here : Option (List String)) (parts : List String) :
    match before.advance purpose here (before.inside here) parts with
    | .target (.found place item) =>
        after.advance purpose here (after.inside here) parts = .target (.found place item)
    | .link passed target rest =>
        after.advance purpose here (after.inside here) parts = .link passed target rest
    | _ => True := by
  -- Along the parts; the entries at hand are those of the current folder on either disk.
  induction parts generalizing here with
  | nil => simp [advance]
  | cons part rest ih =>
      obtain hstay | rfl | hstep := part_cases part
      · rw [advance_stay hstay, advance_stay hstay]
        exact ih here
      · rw [advance_up, advance_up]
        exact ih (above here)
      by_cases hslash : RefusesSlash purpose rest
      · rw [advance_refused hstep hslash]
        trivial
      obtain ⟨error, hfailed⟩ | ⟨passed, rfl, hlookUp⟩ := advance_step_cases hstep here
      · rw [hfailed hslash]
        trivial
      rw [hlookUp hslash, hlookUp hslash]
      cases hentry : (before.inside (some passed)).get? part with
      | none =>
          cases hslashes : onlySlashes rest with
          | true => simp [lookUp, hslashes]
          | false => simp [lookUp, hslashes]
      | some tree =>
          obtain ⟨other, hother, hitem⟩ := h.exists_entry hentry
          rw [hother]
          -- The entry is of one sort on both disks.
          cases tree with
          | file content =>
              obtain rfl : other = .file content := eq_of_item_eq hitem (by simp [Tree.item])
              cases hempty : rest.isEmpty with
              | true => simp [lookUp, hempty]
              | false => simp [lookUp, hempty]
          | link target =>
              obtain rfl : other = .link target := eq_of_item_eq hitem (by simp [Tree.item])
              by_cases hclaim : rest = [] ∧ purpose = .claim
              · simp [lookUp, hclaim]
              · simp [lookUp, hclaim]
          | locked asFolder =>
              obtain rfl : other = .locked asFolder := eq_of_item_eq hitem (by simp [Tree.item])
              by_cases hends : rest = [] ∨ asFolder = true ∧ onlySlashes rest = true
              · simp [lookUp, hends]
              · simp [lookUp, hends]
          | folder inner =>
              obtain ⟨kept, rfl⟩ := exists_eq_folder hitem
              have hnext := ih (some (part :: passed))
              rwa [inside_cons hentry, inside_cons hother] at hnext

theorem follow_found (purpose : Purpose) (links : Nat) {here : Option (List String)}
    {parts : List String} {place : Option Place} {item : Item}
    (hfound : before.follow purpose links here parts = .ok (.found place item)) :
    after.follow purpose links here parts = .ok (.found place item) := by
  have hadvance := h.advance_eq purpose here parts
  unfold follow at hfound ⊢
  cases hstop : before.advance purpose here (before.inside here) parts with
  | failed error => simp [hstop] at hfound
  | target target =>
      rw [hstop] at hfound hadvance
      obtain rfl : target = .found place item := Except.ok.inj hfound
      rw [hadvance]
  | link passed target rest =>
      rw [hstop] at hfound hadvance
      rw [hadvance]
      cases links with
      | zero => simp at hfound
      | succ fewer => exact follow_found purpose fewer hfound
termination_by links

theorem resolve_found {path : String} {place : Option Place} {item : Item}
    (hfound : before.resolve path = .ok (.found place item)) :
    after.resolve path = .ok (.found place item) := by
  unfold resolve resolveFor at hfound ⊢
  cases hparts : partsOf path with
  | error error => simp [hparts] at hfound
  | ok parts =>
      rw [hparts] at hfound
      exact h.follow_found .find linkLimit hfound

theorem text?_eq_some {path text : String} (htext : before.text? path = some text) :
    after.text? path = some text := by
  unfold text? read? at htext ⊢
  cases hresolve : before.resolve path with
  | error error => simp [hresolve, Except.toOption] at htext
  | ok target =>
      cases target with
      | vacant folder name => simp [hresolve, Except.toOption] at htext
      | found place item =>
          rw [hresolve] at htext
          rw [h.resolve_found hresolve]
          exact htext

end Extends

theorem SameView.text?_eq (h : SameView before after) (path : String) :
    before.text? path = after.text? path := by
  apply Option.ext
  exact fun text => ⟨(Extends.of_sameView h).text?_eq_some,
    (Extends.of_sameView h.symm).text?_eq_some⟩

theorem SameView.mem_names_iff (h : SameView before after) {folder : Place} {name : String} :
    name ∈ before.names folder ↔ name ∈ after.names folder := by
  rw [Disk.mem_names_iff, Disk.mem_names_iff, h]

theorem SameView.sortedDistinct_names (h : SameView before after) (folder : Place) :
    Text.sortedDistinct (before.names folder) = Text.sortedDistinct (after.names folder) := by
  apply Text.eq_of_mem_iff_of_inOrder (Text.sortedDistinct_inOrder _)
    (Text.sortedDistinct_inOrder _)
  intro name
  rw [Text.mem_sortedDistinct_iff, Text.mem_sortedDistinct_iff, h.mem_names_iff]

theorem Gains.mem_names_iff {folder : Place} {name other : String}
    (h : Gains before after (folder ++ [name])) :
    other ∈ after.names folder ↔ other = name ∨ other ∈ before.names folder := by
  rw [Disk.mem_names_iff, Disk.mem_names_iff]
  by_cases hother : other = name
  · subst hother
    simp [h.present]
  · have hapart : ¬ folder ++ [name] <+: folder ++ [other] := by
      simpa using fun hname => hother hname.symm
    simp [h.elsewhere _ hapart, hother]

end Disk

def Item.text? : Item → Option String
  | .file content => Disk.textOf? content
  | _ => none

namespace Disk

/-- Behind the path of a folder the text of an entry is that of its item, unless the whole path is
too long. Only a link may give a text of another item. -/
theorem text?_join {disk : Disk} {path name : String} {folder : Place}
    (hfolder : disk.resolve path = .ok (.found (some folder) .folder)) (hname : IsName name)
    (hlink : ∀ target, disk.get? (folder ++ [name]) ≠ some (.link target)) :
    disk.text? (Path.join path name) =
      if (Path.join path name).utf8ByteSize < pathLimit then
        (disk.get? (folder ++ [name])).bind Item.text?
      else none := by
  by_cases hshort : (Path.join path name).utf8ByteSize < pathLimit
  · have hclaim := resolveFor_claim_join hname hshort hfolder
    rw [childAt, if_neg (Nat.not_lt.2 hname.short)] at hclaim
    have hresolve : disk.resolve (Path.join path name) =
        disk.resolveFor .claim (Path.join path name) := by
      apply resolve_eq_of_claim
      intro place target hfound
      rw [hclaim] at hfound
      split at hfound
      · rename_i item hitem
        obtain ⟨-, rfl⟩ := Target.found.inj (Except.ok.inj hfound)
        exact hlink target hitem
      · simp at hfound
    rw [if_pos hshort, text?, read?, hresolve, hclaim]
    cases hitem : disk.get? (folder ++ [name]) with
    | none => rfl
    | some item =>
        cases item with
        | file content => rfl
        | folder => rfl
        | link target => exact absurd hitem (hlink target)
        | locked asFolder => rfl
  · rw [if_neg hshort, text?, read?, resolve, resolveFor]
    cases hparts : partsOf (Path.join path name) with
    | error error => rfl
    | ok parts => exact absurd (partsOf_eq_ok hparts).2.1 hshort

end Disk

end Docwright
