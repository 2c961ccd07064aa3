import Docwright.Overview
import Docwright.Proofs.Disk.Added
import Mathlib.Data.List.Basic

/-!
# The Markdown files of a folder

The text of a folder consists of the blocks of those of its Markdown files that can be read, in
the order of their names. An entry that is added to the folder inserts its block between the blocks
of the names before and behind its own, if it is a Markdown file that can be read; else it changes
nothing. Whatever the order in which the folder is listed, the text is the same.

All this supposes that the new entry makes no link in the folder readable. A link that leads to the
new entry could not be read without it, and its block is inserted too.
-/

namespace Docwright.Overview

open Docwright.Disk
open Docwright.Job

def blockOf? (disk : Disk) (path name : String) : Option String :=
  (disk.text? (Path.join path name)).map (block name)

def blocksOf (disk : Disk) (path : String) (names : List String) : String :=
  String.join (names.filterMap (blockOf? disk path))

theorem blocksOf_append (disk : Disk) (path : String) (names others : List String) :
    blocksOf disk path (names ++ others) =
      blocksOf disk path names ++ blocksOf disk path others := by
  rw [blocksOf, List.filterMap_append, String.join_append, blocksOf, blocksOf]

theorem blocksOf_congr {disk other : Disk} {path : String} {names : List String}
    (h : ∀ name ∈ names, disk.text? (Path.join path name) = other.text? (Path.join path name)) :
    blocksOf disk path names = blocksOf other path names := by
  refine congrArg String.join (List.filterMap_congr fun name hname => ?_)
  rw [blockOf?, blockOf?, h name hname]

def markdownNames (disk : Disk) (folder : Place) : List String :=
  (Text.sortedDistinct (disk.names folder)).filter (Path.hasEnding ".md")

section Load

variable {path : String} {folder : Place} {site : Site}

theorem loadBlock_ends {name : String}
    (hnull : (Path.join path name).toList.any (·.toNat == 0) = false) (site : Site) :
    Ends (loadBlock path name) site (.ok (blockOf? site.disk path name)) site := by
  obtain ⟨r, hread, htext⟩ := attempt_readText_ends hnull site
  rw [blockOf?, ← htext]
  refine hread.bind fun said => ?_
  cases r with
  | ok content => exact (Ends.say _).bind fun _ => .pure
  | error fault => exact (Ends.say _).bind fun _ => .pure

theorem noNull_join {name : String} (hpath : path.toList.any (·.toNat == 0) = false)
    (hname : IsName name) : (Path.join path name).toList.any (·.toNat == 0) = false := by
  have hnone : name.toList.any (·.toNat == 0) = false := by simpa using hname.noNull
  unfold Path.join
  split
  · exact hnone
  · exact hnone
  · rw [String.toList_append, List.any_append, hpath, hnone]
    rfl
  · rw [String.toList_append, String.toList_append, List.any_append, List.any_append, hpath, hnone]
    rfl

theorem loadFolder_ends (hpath : path.toList.any (·.toNat == 0) = false)
    (hfolder : site.disk.resolve path = .ok (.found (some folder) .folder))
    (hnames : ∀ name ∈ site.disk.names folder, IsName name) :
    Ends (loadFolder path) site
      (.ok (blocksOf site.disk path (markdownNames site.disk folder))) site := by
  have hitem : hasItem path site = .ok true site := by
    rw [hasItem_apply, hpath, Disk.hasItem, hfolder]
    rfl
  have hlist : ∀ said, listFolder path (saying site said) =
      .ok (site.disk.names folder) (saying site said) := by
    intro said
    unfold listFolder checkPath
    rw [hpath]
    change ofDisk path (site.disk.list? path) (saying site said) = _
    rw [list?, hfolder]
    rfl
  unfold loadFolder
  refine (Ends.intro hitem).bind fun said => ?_
  refine (Ends.say _).bind fun said => ?_
  refine (Ends.intro (hlist _)).bind fun said => ?_
  have hblocks : Ends ((markdownNames site.disk folder).mapM (loadBlock path)) (saying site said)
      (.ok ((markdownNames site.disk folder).map (blockOf? site.disk path))) site := by
    refine Ends.mapM (fun name hname said => ?_) said
    have hproper := hnames name (Text.mem_sortedDistinct_iff.1 (List.mem_filter.1 hname).1)
    exact (loadBlock_ends (noNull_join hpath hproper) _).respoken rfl
  refine hblocks.bind fun said => ?_
  rw [List.filterMap_map]
  exact .pure

/-- The text of a folder does not depend on the order in which it is listed. -/
theorem loadFolder_result {disk : Disk} (hpath : path.toList.any (·.toNat == 0) = false)
    (hfolder : disk.resolve path = .ok (.found (some folder) .folder))
    (hnames : ∀ name ∈ disk.names folder, IsName name) (hview : SameView site.disk disk) :
    result (loadFolder path) site = .ok (blocksOf disk path (markdownNames disk folder)) := by
  have hends := loadFolder_ends hpath ((Extends.of_sameView hview.symm).resolve_found hfolder)
    fun name hname => hnames name (hview.mem_names_iff.1 hname)
  rw [hends.1, markdownNames, hview.sortedDistinct_names, ← markdownNames]
  exact congrArg _ (blocksOf_congr fun name _ => hview.text?_eq _)

end Load

/-- The names in order under which something stands in the folder, as far as they are chosen. -/
structure Lists (disk : Disk) (folder : Place) (chosen : String → Prop) (names : List String) :
    Prop where
  inOrder : names.Pairwise fun a b => a.toList < b.toList
  mem_iff : ∀ name, name ∈ names ↔ disk.get? (folder ++ [name]) ≠ none ∧ chosen name

theorem lists_filter (disk : Disk) (folder : Place) (chosen : String → Prop)
    [DecidablePred chosen] :
    Lists disk folder chosen ((Text.sortedDistinct (disk.names folder)).filter chosen) where
  inOrder := (Text.sortedDistinct_inOrder _).filter _
  mem_iff name := by
    rw [List.mem_filter, Text.mem_sortedDistinct_iff, mem_names_iff, decide_eq_true_iff]

/-- Whatever Markdown link in the folder cannot be read on the first disk cannot be read on the
second one either. -/
def MendsNoLink (before after : Disk) (path : String) (folder : Place) : Prop :=
  ∀ name target, Path.hasEnding ".md" name = true →
    before.get? (folder ++ [name]) = some (.link target) →
      before.text? (Path.join path name) = none → after.text? (Path.join path name) = none

section Added

variable {before after : Disk} {path name : String} {folder : Place}

abbrev IsBelow (name other : String) : Prop :=
  Path.hasEnding ".md" other = true ∧ other.toList < name.toList

abbrev IsAbove (name other : String) : Prop :=
  Path.hasEnding ".md" other = true ∧ name.toList < other.toList

theorem text?_join_of_gains (hfolder : before.resolve path = .ok (.found (some folder) .folder))
    (hnames : ∀ other ∈ after.names folder, IsName other)
    (hgains : Gains before after (folder ++ [name]))
    (hlinks : MendsNoLink before after path folder) {other : String}
    (hother : before.get? (folder ++ [other]) ≠ none)
    (hending : Path.hasEnding ".md" other = true) :
    after.text? (Path.join path other) = before.text? (Path.join path other) := by
  have hextends := Extends.of_gains hgains
  obtain ⟨item, hitem⟩ := Option.ne_none_iff_exists'.1 hother
  have hkept := hextends _ _ hitem
  by_cases hlink : ∃ target, item = .link target
  · obtain ⟨target, rfl⟩ := hlink
    cases htext : before.text? (Path.join path other) with
    | none => exact hlinks other target hending hitem htext
    | some text => exact hextends.text?_eq_some htext
  · have hname : IsName other := hnames other (mem_names_iff.2 (by simp [hkept]))
    rw [text?_join (hextends.resolve_found hfolder) hname (by simp_all),
      text?_join hfolder hname (by simp_all), hkept, hitem]

theorem mem_markdownNames_iff {disk : Disk} {other : String} :
    other ∈ markdownNames disk folder ↔
      disk.get? (folder ++ [other]) ≠ none ∧ Path.hasEnding ".md" other = true := by
  rw [markdownNames, List.mem_filter, Text.mem_sortedDistinct_iff, mem_names_iff]

section Around

variable {below above : List String} (hbelow : Lists before folder (IsBelow name) below)
  (habove : Lists before folder (IsAbove name) above)

include hbelow habove

/-- Names around the given one, with or without it, are in order, and so they are the Markdown names
of a folder if they have the same members. -/
theorem markdownNames_eq {disk : Disk} {added : List String} (hadded : added.Sublist [name])
    (hmem : ∀ other, other ∈ markdownNames disk folder ↔
      other ∈ below ∨ other ∈ added ∨ other ∈ above) :
    markdownNames disk folder = below ++ added ++ above := by
  have hlow : ∀ other ∈ below, other.toList < name.toList :=
    fun other hother => ((hbelow.mem_iff other).1 hother).2.2
  have hhigh : ∀ other ∈ above, name.toList < other.toList :=
    fun other hother => ((habove.mem_iff other).1 hother).2.2
  have horder : (below ++ [name] ++ above).Pairwise fun a b => a.toList < b.toList := by
    rw [List.append_assoc, List.singleton_append, List.pairwise_append, List.pairwise_cons]
    refine ⟨hbelow.inOrder, ⟨hhigh, habove.inOrder⟩, fun first hfirst second hsecond => ?_⟩
    rcases List.mem_cons.1 hsecond with rfl | hsecond
    · exact hlow first hfirst
    · exact List.lt_trans (hlow first hfirst) (hhigh second hsecond)
  have hsublist : (below ++ added ++ above).Sublist (below ++ [name] ++ above) :=
    ((List.Sublist.refl below).append hadded).append (List.Sublist.refl above)
  apply Text.eq_of_mem_iff_of_inOrder ((Text.sortedDistinct_inOrder _).filter _)
    (horder.sublist hsublist)
  intro other
  rw [List.mem_append, List.mem_append, or_assoc]
  exact hmem other

/-- A name that is not in a folder parts the others into those before and those behind it. -/
theorem mem_markdownNames_iff_around (habsent : before.get? (folder ++ [name]) = none)
    (other : String) :
    other ∈ markdownNames before folder ↔ other ∈ below ∨ other ∈ above := by
  rw [hbelow.mem_iff, habove.mem_iff, mem_markdownNames_iff]
  constructor
  · rintro ⟨hother, hending⟩
    have hne : other ≠ name := by
      rintro rfl
      exact hother habsent
    rcases Text.lt_or_lt_of_ne hne with hless | hmore
    · exact .inl ⟨hother, hending, hless⟩
    · exact .inr ⟨hother, hending, hmore⟩
  · rintro (⟨hother, hending, -⟩ | ⟨hother, hending, -⟩)
    · exact ⟨hother, hending⟩
    · exact ⟨hother, hending⟩

theorem markdownNames_before (habsent : before.get? (folder ++ [name]) = none) :
    markdownNames before folder = below ++ above := by
  have hnames : markdownNames before folder = below ++ [] ++ above := by
    apply markdownNames_eq hbelow habove (List.nil_sublist [name])
    intro other
    rw [mem_markdownNames_iff_around hbelow habove habsent]
    simp
  rwa [List.append_nil] at hnames

theorem markdownNames_after (hgains : Gains before after (folder ++ [name])) :
    markdownNames after folder = below ++ [name].filter (Path.hasEnding ".md") ++ above := by
  apply markdownNames_eq hbelow habove List.filter_sublist
  intro other
  have hothers := mem_markdownNames_iff_around hbelow habove hgains.absent other
  rw [markdownNames, List.mem_filter, Text.mem_sortedDistinct_iff] at hothers ⊢
  rw [hgains.mem_names_iff, or_and_right, hothers, List.mem_filter, List.mem_singleton,
    or_left_comm]

end Around

/-- The text of a folder with a new entry is the text without it, parted where the name of the entry
belongs, and between the parts stands the block of the entry, if it is a Markdown file that can be
read. The last part says what of the entry can be read, unless it is a link. -/
theorem loadFolder_inserts_block (hpath : path.toList.any (·.toNat == 0) = false)
    (hfolder : before.resolve path = .ok (.found (some folder) .folder))
    (hnames : ∀ other ∈ after.names folder, IsName other)
    (hgains : Gains before after (folder ++ [name]))
    (hlinks : MendsNoLink before after path folder) :
    ∃ below above : List String,
      Lists before folder (IsBelow name) below ∧ Lists before folder (IsAbove name) above ∧
      (∀ site : Site, SameView site.disk before →
        result (loadFolder path) site =
          .ok (blocksOf before path below ++ blocksOf before path above)) ∧
      (∀ site : Site, SameView site.disk after →
        (∀ content, Path.hasEnding ".md" name = true →
          after.text? (Path.join path name) = some content →
            result (loadFolder path) site =
              .ok (blocksOf before path below ++ block name content ++
                blocksOf before path above)) ∧
        (Path.hasEnding ".md" name = false ∨ after.text? (Path.join path name) = none →
          result (loadFolder path) site =
            .ok (blocksOf before path below ++ blocksOf before path above))) ∧
      ((∀ target, after.get? (folder ++ [name]) ≠ some (.link target)) →
        after.text? (Path.join path name) =
          if (Path.join path name).utf8ByteSize < pathLimit then
            (after.get? (folder ++ [name])).bind Item.text?
          else none) := by
  have hextends := Extends.of_gains hgains
  have hlater := hextends.resolve_found hfolder
  have hbelow := lists_filter before folder (IsBelow name)
  have habove := lists_filter before folder (IsAbove name)
  -- From here on the two lists are known by their members and their order only.
  generalize (Text.sortedDistinct (before.names folder)).filter (IsBelow name) = below at hbelow
  generalize (Text.sortedDistinct (before.names folder)).filter (IsAbove name) = above at habove
  refine ⟨below, above, hbelow, habove, ?_, ?_, ?_⟩
  · intro site hview
    have hproper : ∀ other ∈ before.names folder, IsName other :=
      fun other hother => hnames other (hgains.mem_names_iff.2 (.inr hother))
    rw [loadFolder_result hpath hfolder hproper hview,
      markdownNames_before hbelow habove hgains.absent, blocksOf_append]
  · intro site hview
    have hkept : ∀ {names : List String} {chosen : String → Prop}, Lists before folder
        (fun other => Path.hasEnding ".md" other = true ∧ chosen other) names →
          blocksOf after path names = blocksOf before path names := by
      intro names chosen hlists
      refine blocksOf_congr fun other hother => ?_
      obtain ⟨hthere, hending, -⟩ := (hlists.mem_iff other).1 hother
      exact text?_join_of_gains hfolder hnames hgains hlinks hthere hending
    rw [loadFolder_result hpath hlater hnames hview, markdownNames_after hbelow habove hgains,
      blocksOf_append, blocksOf_append, hkept hbelow, hkept habove]
    constructor
    · intro content hending htext
      simp [blocksOf, blockOf?, hending, htext]
    · intro hnothing
      cases hending : Path.hasEnding ".md" name with
      | false => simp [blocksOf, hending]
      | true =>
          have htext := hnothing.resolve_left (by simp [hending])
          simp [blocksOf, blockOf?, hending, htext]
  · exact text?_join hlater (hnames name (hgains.mem_names_iff.2 (.inl rfl)))

end Added

/-- A folder with files, a folder, a link to a file and one that leads nowhere. -/
def sampleFolder : Disk where
  entries :=
    [("d", .folder
      [("z.md", .file [0x7A]), ("k.md", .link "nowhere"), ("c.md", .link "../e.md"),
        ("a.md", .file [0x61]), ("s.md", .folder []), ("t.txt", .file [0x74])]),
      ("e.md", .file [0x65])]

theorem loadFolder_inserts_block_between :
    let before := sampleFolder
    let after := sampleFolder.insert ["d", "b.md"] (.file [0x31, 0x0D, 0x0A, 0x32])
    before.resolve "./d/" = .ok (.found (some ["d"]) .folder) ∧
      (∀ other ∈ after.names ["d"], IsName other) ∧ Gains before after ["d", "b.md"] ∧
      MendsNoLink before after "./d/" ["d"] ∧
      ∃ x y, result (loadFolder "./d/") ⟨before, .failing, .ample, [], []⟩ = .ok (x ++ y) ∧
        result (loadFolder "./d/") ⟨after, .failing, .ample, [], []⟩ =
          .ok (x ++ block "b.md" "1\n2" ++ y) := by
  intro before after
  have hfolder : before.resolve "./d/" = .ok (.found (some ["d"]) .folder) := by decide +kernel
  have hnames : ∀ other ∈ after.names ["d"], IsName other := by
    have hall : (after.names ["d"]).all isName = true := by decide +kernel
    exact fun other hother => isName_iff.1 (List.all_eq_true.1 hall other hother)
  have hgains : Gains before after (["d"] ++ ["b.md"]) :=
    .of_insert _ (show before.get? ["d"] = _ by decide +kernel)
      (show before.get? ["d", "b.md"] = _ by decide +kernel)
  have hlinks : MendsNoLink before after "./d/" ["d"] := by
    have hall : (before.names ["d"]).all (fun name =>
        (before.text? (Path.join "./d/" name)).isSome ||
          (after.text? (Path.join "./d/" name)).isNone) = true := by decide +kernel
    intro name target _ hlink hnone
    have hname := List.all_eq_true.1 hall name (mem_names_iff.2 (by rw [hlink]; simp))
    simpa [hnone] using hname
  obtain ⟨below, above, -, -, hbefore, hafter, -⟩ :=
    loadFolder_inserts_block (by decide +kernel) hfolder hnames hgains hlinks
  refine ⟨hfolder, hnames, hgains, hlinks, _, _, hbefore _ fun _ => rfl, ?_⟩
  exact (hafter _ fun _ => rfl).1 "1\n2" (by decide +kernel) (by decide +kernel)

/-- A link that leads nowhere is read once the file is there that it leads to. -/
theorem loadFolder_reads_mended_link :
    let before : Disk := ⟨[("d", .folder [("a.md", .link "b.md")])]⟩
    let after := before.insert ["d", "b.md"] (.file [0x78])
    Gains before after ["d", "b.md"] ∧ after.text? "d/b.md" = some "x" ∧
      ¬ ∃ x y, result (loadFolder "d") ⟨before, .failing, .ample, [], []⟩ = .ok (x ++ y) ∧
        result (loadFolder "d") ⟨after, .failing, .ample, [], []⟩ =
          .ok (x ++ block "b.md" "x" ++ y) := by
  intro before after
  have hgains : Gains before after (["d"] ++ ["b.md"]) :=
    .of_insert _ (show before.get? ["d"] = _ by decide +kernel)
      (show before.get? ["d", "b.md"] = _ by decide +kernel)
  have hresult : ∀ disk : Disk, disk.resolve "d" = .ok (.found (some ["d"]) .folder) →
      (disk.names ["d"]).all isName = true →
        result (loadFolder "d") ⟨disk, .failing, .ample, [], []⟩ =
          .ok (blocksOf disk "d" (markdownNames disk ["d"])) := by
    intro disk hfolder hall
    refine loadFolder_result (by decide) hfolder (fun name hname => ?_) fun _ => rfl
    exact isName_iff.1 (List.all_eq_true.1 hall name hname)
  have hbefore : blocksOf before "d" (markdownNames before ["d"]) = "" := by decide +kernel
  have hafter : blocksOf after "d" (markdownNames after ["d"]) =
      block "a.md" "x" ++ block "b.md" "x" := by decide +kernel
  refine ⟨hgains, by decide +kernel, ?_⟩
  rintro ⟨x, y, hnone, hboth⟩
  rw [hresult before (by decide +kernel) (by decide +kernel), hbefore] at hnone
  rw [hresult after (by decide +kernel) (by decide +kernel), hafter] at hboth
  have hshort := congrArg String.length (Except.ok.inj hnone)
  have hlong := congrArg String.length (Except.ok.inj hboth)
  have hblock : 0 < (block "a.md" "x").length := by decide +kernel
  simp only [String.length_append, String.length_empty] at hshort hlong
  omega

end Docwright.Overview
