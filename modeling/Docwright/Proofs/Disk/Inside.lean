import Docwright.Proofs.Disk.Plain

/-!
# A name in a folder

A path may pass links before it comes to a folder. A name behind it leads directly into the
folder: the path extended by the name is followed along the same parts and links, and then the
name is looked up there. So what such a path names, taken for itself even if it is a link, is an
item of the folder or a place in it where an item can be put. This holds on every disk, and also
if the path ends in a slash. Unless it is a link, what the path names is also what it leads to.
-/

namespace Docwright.Disk

open Docwright.Path

/-- What a name leads to in a folder, taken for itself. -/
def childAt (disk : Disk) (folder : Place) (name : String) : Except DiskError Target :=
  if nameLimit < name.utf8ByteSize then .error .longName
  else
    match disk.get? (folder ++ [name]) with
    | some item => .ok (.found (some (folder ++ [name])) item)
    | none => .ok (.vacant folder name)

theorem partsOf_eq_ok {path : String} {parts : List String} (h : partsOf path = .ok parts) :
    path ≠ "" ∧ path.utf8ByteSize < pathLimit ∧ parts = Path.parts path := by
  unfold partsOf at h
  split at h
  · simp at h
  · split at h
    · simp at h
    · rename_i hempty hlong
      exact ⟨by simpa using hempty, by omega, (Except.ok.inj h).symm⟩

variable {disk : Disk} {name : String}

section Name

variable (hname : IsStep name)

include hname

theorem advance_name (passed : List String) :
    disk.advance .claim (some passed) (disk.entriesAt passed.reverse) [name] =
      .ofResult (disk.childAt passed.reverse name) := by
  have hget := disk.get?_append passed.reverse name
  have hslash : ¬ RefusesSlash .claim [] := not_refusesSlash_of_ne (by decide)
  rw [childAt]
  by_cases hlong : nameLimit < name.utf8ByteSize
  · rw [if_pos hlong, advance_longName hname hslash hlong]
    rfl
  · rw [if_neg hlong, advance_lookUp hname hslash (Nat.not_lt.1 hlong), hget]
    cases hentry : (disk.entriesAt passed.reverse).get? name with
    | none => rfl
    | some tree =>
        cases tree with
        | file content => simp [lookUp, Tree.item, Stop.ofResult]
        | locked asFolder => simp [lookUp, Tree.item, Stop.ofResult]
        | folder inner => simp [lookUp, advance, Tree.item, Stop.ofResult]
        | link target => simp [lookUp, Tree.item, Stop.ofResult]

/-- Parts with a name behind them are followed to the same link, or to the same folder and into
it. -/
theorem advance_append (here : Option (List String)) (parts : List String) :
    match disk.advance .find here (disk.inside here) parts with
    | .target (.found (some folder) .folder) =>
        disk.advance .claim here (disk.inside here) (parts ++ [name]) =
          .ofResult (disk.childAt folder name)
    | .link passed target rest =>
        disk.advance .claim here (disk.inside here) (parts ++ [name]) =
          .link passed target (rest ++ [name])
    | _ => True := by
  -- Along the parts; the entries at hand are always those of the current folder.
  induction parts generalizing here with
  | nil =>
      cases here with
      | none => simp [advance]
      | some passed => exact advance_name hname passed
  | cons part rest ih =>
      rw [List.cons_append]
      obtain hstay | rfl | hstep := part_cases part
      · rw [advance_stay hstay, advance_stay hstay]
        exact ih here
      · rw [advance_up, advance_up]
        exact ih (above here)
      obtain ⟨error, hfailed⟩ | ⟨passed, rfl, hlookUp⟩ := advance_step_cases hstep here
      · rw [hfailed (not_refusesSlash_of_ne (by decide))]
        trivial
      rw [hlookUp (not_refusesSlash_of_ne (by decide)), hlookUp (not_refusesSlash_of_ne (by decide))]
      cases hentry : (disk.inside (some passed)).get? part with
      | none =>
          cases hslashes : onlySlashes rest with
          | true => simp [lookUp, hslashes]
          | false => simp [lookUp, hslashes]
      | some tree =>
          cases tree with
          | file content =>
              cases hempty : rest.isEmpty with
              | true => simp [lookUp, hempty]
              | false => simp [lookUp, hempty]
          | locked asFolder =>
              by_cases hends : rest = [] ∨ asFolder = true ∧ onlySlashes rest = true
              · simp [lookUp, hends]
              · simp [lookUp, hends]
          | link target => simp [lookUp]
          | folder inner =>
              have hnext := ih (some (part :: passed))
              rwa [inside_cons hentry] at hnext

theorem follow_append (links : Nat) {here : Option (List String)} {parts : List String}
    {folder : Place}
    (h : disk.follow .find links here parts = .ok (.found (some folder) .folder)) :
    disk.follow .claim links here (parts ++ [name]) = disk.childAt folder name := by
  have happend := @advance_append disk name hname here parts
  unfold follow at h ⊢
  cases hstop : disk.advance .find here (disk.inside here) parts with
  | failed error => simp [hstop] at h
  | target target =>
      rw [hstop] at h happend
      obtain rfl : target = .found (some folder) .folder := Except.ok.inj h
      rw [happend]
      cases disk.childAt folder name with
      | ok found => rfl
      | error error => rfl
  | link passed target rest =>
      rw [hstop] at h happend
      rw [happend]
      cases links with
      | zero => simp at h
      | succ fewer =>
          have hrest := follow_append fewer h
          rwa [List.append_assoc] at hrest
termination_by links

omit hname in
theorem isAbsolute_append {path : String} (hpath : path ≠ "") (rest : String) :
    isAbsolute (path ++ rest) = isAbsolute path := by
  obtain ⟨c, cs, hcs⟩ := List.exists_cons_of_ne_nil (mt String.toList_eq_nil_iff.1 hpath)
  rw [isAbsolute, isAbsolute, String.toList_append, hcs, List.cons_append]
  by_cases hc : c = '/'
  · simp [hc]
  · simp [hc]

theorem resolveFor_claim_append {path : String} {folder : Place} (hslash : '/' ∉ name.toList)
    (hshort : (path ++ "/" ++ name).utf8ByteSize < pathLimit)
    (h : disk.resolve path = .ok (.found (some folder) .folder)) :
    disk.resolveFor .claim (path ++ "/" ++ name) = disk.childAt folder name := by
  unfold resolve resolveFor at h
  cases hparts : partsOf path with
  | error error => simp [hparts] at h
  | ok parts =>
      obtain ⟨hpath, -, rfl⟩ := partsOf_eq_ok hparts
      have hall : partsOf (path ++ "/" ++ name) = .ok (Path.parts path ++ [name]) := by
        rw [partsOf, if_neg (by simp [hpath]), if_neg (by omega), parts_append,
          parts_of_not_mem hslash]
      rw [hparts] at h
      unfold resolveFor
      rw [hall, String.append_assoc, isAbsolute_append hpath]
      exact follow_append hname linkLimit h

end Name

theorem advance_find_eq {here : Option (List String)} {entries : Entries} {parts : List String}
    (h : ∀ place target,
      disk.advance .claim here entries parts ≠ .target (.found place (.link target))) :
    disk.advance .find here entries parts = disk.advance .claim here entries parts := by
  induction parts generalizing here entries with
  | nil => simp [advance]
  | cons part rest ih =>
      obtain hstay | rfl | hstep := part_cases part
      · rw [advance_stay hstay] at h ⊢
        rw [advance_stay hstay]
        exact ih h
      · rw [advance_up] at h ⊢
        rw [advance_up]
        exact ih h
      obtain ⟨error, hfailed⟩ | ⟨passed, rfl, hlookUp⟩ := advance_step_cases hstep here
      · rw [hfailed (not_refusesSlash_of_ne (by decide)),
          hfailed (not_refusesSlash_of_ne (by decide))]
      rw [hlookUp (not_refusesSlash_of_ne (by decide))] at h ⊢
      rw [hlookUp (not_refusesSlash_of_ne (by decide))]
      cases hentry : entries.get? part with
      | none => rfl
      | some tree =>
          rw [hentry] at h
          cases tree with
          | file content => rfl
          | locked asFolder => rfl
          | folder inner => exact ih h
          | link target =>
              have hrest : rest ≠ [] := by
                rintro rfl
                exact h (some (part :: passed).reverse) target (by simp [lookUp])
              simp [lookUp, hrest]

theorem follow_find_eq (links : Nat) {here : Option (List String)} {parts : List String}
    (h : ∀ place target, disk.follow .claim links here parts ≠ .ok (.found place (.link target))) :
    disk.follow .find links here parts = disk.follow .claim links here parts := by
  have hadvance : disk.advance .find here (disk.inside here) parts =
      disk.advance .claim here (disk.inside here) parts := by
    apply advance_find_eq
    intro place target hstop
    apply h place target
    unfold follow
    rw [hstop]
  unfold follow at h ⊢
  rw [hadvance]
  cases hstop : disk.advance .claim here (disk.inside here) parts with
  | target target => rfl
  | failed error => rfl
  | link passed target rest =>
      cases links with
      | zero => rfl
      | succ fewer =>
          rw [hstop] at h
          exact follow_find_eq fewer h
termination_by links

theorem resolve_eq_of_claim {path : String}
    (h : ∀ place target, disk.resolveFor .claim path ≠ .ok (.found place (.link target))) :
    disk.resolve path = disk.resolveFor .claim path := by
  unfold resolve resolveFor at *
  cases hparts : partsOf path with
  | error error => rfl
  | ok parts =>
      rw [hparts] at h
      exact follow_find_eq linkLimit h

/-- A slash behind parts that lead to a folder may be left out. -/
theorem advance_slash (here : Option (List String)) (entries : Entries) (parts : List String) :
    match disk.advance .find here entries (parts ++ [""]) with
    | .target (.found place .folder) =>
        disk.advance .find here entries parts = .target (.found place .folder)
    | .link passed target rest =>
        ∃ fewer, rest = fewer ++ [""] ∧
          disk.advance .find here entries parts = .link passed target fewer
    | _ => True := by
  induction parts generalizing here entries with
  | nil => simp [advance]
  | cons part rest ih =>
      rw [List.cons_append]
      obtain hstay | rfl | hstep := part_cases part
      · rw [advance_stay hstay, advance_stay hstay]
        exact ih here entries
      · rw [advance_up, advance_up]
        exact ih (above here) _
      obtain ⟨error, hfailed⟩ | ⟨passed, rfl, hlookUp⟩ := advance_step_cases hstep here
      · rw [hfailed (not_refusesSlash_of_ne (by decide))]
        trivial
      rw [hlookUp (not_refusesSlash_of_ne (by decide)), hlookUp (not_refusesSlash_of_ne (by decide))]
      cases hentry : entries.get? part with
      | none =>
          cases hslashes : onlySlashes (rest ++ [""]) with
          | true => simp [lookUp, hslashes]
          | false => simp [lookUp, hslashes]
      | some tree =>
          cases tree with
          | file content => simp [lookUp]
          | locked asFolder =>
              by_cases hends : asFolder = true ∧ onlySlashes (rest ++ [""]) = true
              · simp [lookUp, hends]
              · simp [lookUp, hends]
          | link target => simp [lookUp]
          | folder inner => exact ih (some (part :: passed)) inner

theorem follow_slash (links : Nat) {here : Option (List String)} {parts : List String}
    {place : Option Place}
    (h : disk.follow .find links here (parts ++ [""]) = .ok (.found place .folder)) :
    disk.follow .find links here parts = .ok (.found place .folder) := by
  have hslash := disk.advance_slash here (disk.inside here) parts
  unfold follow at h ⊢
  cases hstop : disk.advance .find here (disk.inside here) (parts ++ [""]) with
  | failed error => simp [hstop] at h
  | target target =>
      rw [hstop] at h hslash
      obtain rfl : target = .found place .folder := Except.ok.inj h
      rw [hslash]
  | link passed target rest =>
      rw [hstop] at h hslash
      obtain ⟨fewer, rfl, hlink⟩ := hslash
      rw [hlink]
      cases links with
      | zero => simp at h
      | succ less =>
          dsimp only at h ⊢
          rw [← List.append_assoc] at h
          exact follow_slash less h
termination_by links

theorem resolve_of_slash {path : String} {folder : Place}
    (h : disk.resolve (path ++ "/") = .ok (.found (some folder) .folder)) :
    disk.resolve path = .ok (.found (some folder) .folder) := by
  have hparts : Path.parts (path ++ "/") = Path.parts path ++ [""] := by
    have happend := parts_append path ""
    rwa [String.append_empty] at happend
  unfold resolve resolveFor at h ⊢
  cases hall : partsOf (path ++ "/") with
  | error error => simp [hall] at h
  | ok parts =>
      obtain ⟨-, hshort, rfl⟩ := partsOf_eq_ok hall
      rw [hall, hparts] at h
      by_cases hpath : path = ""
      · -- A slash alone leads above the working folder.
        subst hpath
        have habove : disk.resolveParts .find true (Path.parts "" ++ [""]) =
            .ok (.found none .folder) := by
          rw [show Path.parts "" = [""] from rfl]
          simp [resolveParts, follow, advance]
        exact absurd (habove.symm.trans h) (by simp)
      · have hsize : path.utf8ByteSize < pathLimit := by
          rw [String.utf8ByteSize_append] at hshort
          omega
        rw [isAbsolute_append hpath] at h
        rw [partsOf, if_neg (by simpa using hpath), if_neg (by omega)]
        exact follow_slash linkLimit h

theorem join_cases {path name : String} (hpath : path ≠ "") (hslash : '/' ∉ name.toList) :
    Path.join path name = path ++ "/" ++ name ∨
      ∃ front, path = front ++ "/" ∧ Path.join path name = front ++ "/" ++ name := by
  unfold Path.join
  split
  · rename_i rest _ hname
    exact absurd (hname ▸ List.mem_cons_self) hslash
  · rename_i hreverse _
    exact absurd (String.toList_eq_nil_iff.1 (List.reverse_eq_nil_iff.1 hreverse)) hpath
  · rename_i front hreverse _
    have hfront : path = String.ofList front.reverse ++ "/" := by
      rw [← String.toList_inj, ← List.reverse_inj, hreverse]
      simp
    exact .inr ⟨String.ofList front.reverse, hfront, congrArg (· ++ name) hfront⟩
  · exact .inl rfl

/-- A path to a folder, joined with a name, leads to what stands under the name there. -/
theorem resolveFor_claim_join {path name : String} {folder : Place} (hname : IsName name)
    (hshort : (Path.join path name).utf8ByteSize < pathLimit)
    (h : disk.resolve path = .ok (.found (some folder) .folder)) :
    disk.resolveFor .claim (Path.join path name) = disk.childAt folder name := by
  have hpath : path ≠ "" := by
    rintro rfl
    simp [resolve, resolveFor, partsOf] at h
  rcases join_cases hpath hname.noSlash with hjoin | ⟨front, rfl, hjoin⟩
  · rw [hjoin] at hshort ⊢
    exact resolveFor_claim_append hname.isStep hname.noSlash hshort h
  · rw [hjoin] at hshort ⊢
    exact resolveFor_claim_append hname.isStep hname.noSlash hshort (resolve_of_slash h)

end Docwright.Disk
