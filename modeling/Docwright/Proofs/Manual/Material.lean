import Docwright.Proofs.Manual.TakenUp

/-!
# What the manual is written from

Before the sections are written a run loads the overview, makes the folder of the manual
and obtains a table of contents: `material` is that part of it. The table of contents is
the text that the drafting service gave, which is saved, or the text saved before.
-/

namespace Docwright.Manual

open Docwright.Disk
open Docwright.Job
open Docwright.Path

variable {settings : Settings} {site : Site}

section Contents

theorem loadFile_ends {path : String} (hnull : path.toList.any (·.toNat == 0) = false)
    (site : Site) : Ends (loadFile path) site (.ok (site.disk.text? path)) site := by
  have hitem := hasItem_apply path site
  rw [hnull] at hitem
  refine Ends.bind (.intro hitem) fun said => ?_
  cases hthere : site.disk.hasItem path with
  | false =>
      rw [text?_of_not_hasItem hthere]
      exact Ends.bind (.say _) fun said => .pure
  | true =>
      obtain ⟨r, hread, htext⟩ := attempt_readText_ends hnull (saying site said)
      refine hread.bind fun said => ?_
      rw [← show r.toOption = _ from htext]
      cases r with
      | ok text => exact .pure
      | error fault => exact Ends.bind (.say _) fun said => .pure

variable (hnull : settings.contentsFile.toList.any (·.toNat == 0) = false)

include hnull

theorem savedContents_ends (site : Site) :
    Ends (savedContents settings) site
      (.ok (Text.nonempty? (site.disk.text? settings.contentsFile))) site := by
  refine Ends.bind (.say _) fun said => ?_
  have hitem := hasItem_apply settings.contentsFile (saying site said)
  rw [hnull] at hitem
  refine Ends.bind (.intro hitem) fun said => ?_
  cases hthere : (saying site said).disk.hasItem settings.contentsFile with
  | false =>
      rw [show site.disk.text? settings.contentsFile = none from text?_of_not_hasItem hthere]
      exact Ends.bind (.say _) fun said => .pure
  | true =>
      refine Ends.bind (.say _) fun said => ?_
      refine Ends.bind (loadFile_ends hnull _) fun said => ?_
      cases Text.nonempty? ((saying site said).disk.text? settings.contentsFile) with
      | some contents => exact .pure
      | none => exact Ends.bind (.say _) fun said => .pure

/-- The table of contents that is used: the text obtained for it, or the one saved before. -/
def contentsFrom (settings : Settings) (text? : Option String) (disk : Disk) : Option String :=
  (Text.nonempty? text?).or (Text.nonempty? (disk.text? settings.contentsFile))

/-- The disk with the table of contents saved, if a text was obtained for it. -/
def withContents (settings : Settings) (text? : Option String) (disk : Disk) : Disk :=
  (Text.nonempty? text?).elim disk fun text =>
    (disk.write? settings.contentsFile (Text.Utf8.encode text.toList)).toOption.getD disk

theorem obtainContents_ends {overview : String} {text? : Option String} {middle : Site}
    (h : Ends (complete settings.model (.str (contentsPrompt overview))) site (.ok text?) middle) :
    Ends (obtainContents settings overview) site (.ok (contentsFrom settings text? middle.disk))
      { middle with disk := withContents settings text? middle.disk } := by
  unfold contentsFrom withContents
  refine h.bind fun said => ?_
  cases Text.nonempty? text? with
  | some text =>
      refine Ends.bind (saveContents_ends hnull text _) fun said => ?_
      exact .pure
  | none => exact Ends.respoken (savedContents_ends hnull _) rfl

end Contents

section Disk

variable (hfile : settings.contentsFile = "./high-level-overview/TABLE_OF_CONTENTS.md")
  {disk : Disk} (hplain : disk.Plain) (text? : Option String)

include hfile hplain

theorem withContents_cases :
    withContents settings text? disk = disk ∨
      ∃ text, Text.nonempty? text? = some text ∧
        disk.CanHold ["high-level-overview", "TABLE_OF_CONTENTS.md"] ∧
        withContents settings text? disk =
          disk.insert ["high-level-overview", "TABLE_OF_CONTENTS.md"]
            (.file (Text.Utf8.encode text.toList)) := by
  unfold withContents
  rw [hfile]
  cases Text.nonempty? text? with
  | none => exact .inl rfl
  | some text =>
      obtain hsame | ⟨hhold, hchanged⟩ :=
        write?_getD_cases hplain leadsTo_contents (Text.Utf8.encode text.toList)
      · exact .inl hsame
      · exact .inr ⟨text, rfl, hhold, hchanged⟩

theorem plain_withContents : (withContents settings text? disk).Plain := by
  obtain hsame | ⟨text, -, hhold, hchanged⟩ := withContents_cases hfile hplain text?
  · rw [hsame]
    exact hplain
  · rw [hchanged]
    have hnames := hhold.isName hplain leadsTo_contents (toNat_ne_zero_of_noNull (by decide))
    exact hplain.insert hhold hnames (by simp)

theorem get?_withContents {place : Place}
    (hplace : place ≠ ["high-level-overview", "TABLE_OF_CONTENTS.md"]) :
    (withContents settings text? disk).get? place = disk.get? place := by
  obtain hsame | ⟨text, -, hhold, hchanged⟩ := withContents_cases hfile hplain text?
  · rw [hsame]
  · rw [hchanged, get?_insert_of_canHold hhold, if_neg hplace]

theorem get?_withContents_saved
    (hsaved : ∀ text, Text.nonempty? text? = some text →
      disk.get? ["high-level-overview", "TABLE_OF_CONTENTS.md"] =
        some (.file (Text.Utf8.encode text.toList))) (place : Place) :
    (withContents settings text? disk).get? place = disk.get? place := by
  obtain hsame | ⟨text, htext, hhold, hchanged⟩ := withContents_cases hfile hplain text?
  · rw [hsame]
  · rw [hchanged, get?_insert_of_canHold hhold]
    split
    · rename_i hplace
      rw [hplace, hsaved text htext]
    · rfl

end Disk

section Material

/-- The overview and the table of contents that a run writes the manual from. -/
def material (settings : Settings) : Job (Option (String × String)) := do
  match Text.nonempty? (← loadFile settings.overviewFile) with
  | none =>
      say "Exiting: Project overview content not loaded."
      return none
  | some overview =>
      if !(← hasItem settings.manualFolder) then
        makeFolders settings.manualFolder
        say s!"Created directory: {settings.manualFolder}"
      say "\n--- Generating Table of Contents ---"
      return (← obtainContents settings overview).map (overview, ·)

def writeFrom (settings : Settings) : Option (String × String) → Job Unit
  | none => pure ()
  | some (overview, contents) => writeManual settings overview contents

/-- A run obtains its material and writes the sections. -/
theorem run_eq (settings : Settings) : run settings = material settings >>= writeFrom settings := by
  unfold run material
  simp only [bind_assoc]
  congr 1
  funext text?
  cases Text.nonempty? text? with
  | none => rfl
  | some overview =>
      simp only [bind_assoc]
      refine bind_congr fun found => ?_
      split
      · simp only [bind_assoc, pure_bind]
        refine bind_congr fun _ => bind_congr fun _ => bind_congr fun _ => bind_congr ?_
        rintro (_ | contents)
        · rfl
        · rfl
      · simp only [bind_assoc, pure_bind]
        refine bind_congr fun _ => bind_congr ?_
        rintro (_ | contents)
        · rfl
        · rfl

/-- The site at which the sections are begun if the drafting service gave that text for the
table of contents, or none. -/
def supplied (settings : Settings) (overview : String) (text? : Option String) (site : Site) :
    Site :=
  { requested (draftLog (.str (contentsPrompt overview)) (tries 3 site.services.drafter) 10)
      (tries 3 site.services.drafter) site with
    disk := withContents settings text? (site.disk.withFolder "final_documentation") }

variable (model : Json.Value) {overview contents : String} {text? : Option String}
  (hplain : site.disk.Plain)

include hplain

section Disk

variable (overview) (text?)

theorem plain_supplied : (supplied { model := model } overview text? site).disk.Plain :=
  plain_withContents rfl (hplain.withFolder isTopFolder_manual.isName) text?

theorem folder_supplied :
    (supplied { model := model } overview text? site).disk.get? ["final_documentation"] ≠ none := by
  have hname := isTopFolder_manual.isName
  rw [supplied, get?_withContents rfl (hplain.withFolder hname) text? (by simp),
    get?_withFolder hname.short]
  split
  · simp
  · rename_i hthere
    exact fun hnone => hthere ⟨rfl, hnone⟩

/-- The folder of the overview is as it was, but for the table of contents. -/
theorem get?_supplied {name : String} (hname : name ≠ "TABLE_OF_CONTENTS.md") :
    (supplied { model := model } overview text? site).disk.get? ["high-level-overview", name] =
      site.disk.get? ["high-level-overview", name] := by
  have hfolder := isTopFolder_manual.isName
  rw [supplied, get?_withContents rfl (hplain.withFolder hfolder) text? (by simp [hname]),
    get?_withFolder hfolder.short, if_neg (by simp)]

end Disk

/-- With an overview the table of contents is asked for, and saved if there is one. -/
theorem material_ends
    (hoverview : site.disk.text? "./high-level-overview/project_overview.md" = some overview)
    (hnonempty : overview ≠ "") (hcontents : drafting 3 site.services.drafter = .ok text?) :
    Ends (material { model := model }) site
      (.ok ((contentsFrom { model := model } text?
        (site.disk.withFolder "final_documentation")).map (overview, ·)))
      (supplied { model := model } overview text? site) := by
  have hnull : "./high-level-overview/project_overview.md".toList.any (·.toNat == 0) = false := by
    decide
  have hload := loadFile_ends hnull site
  have hsome : Text.nonempty? (some overview) = some overview := by
    simp [Text.nonempty?, Option.filter, hnonempty]
  rw [hoverview] at hload
  refine Ends.bind hload fun said => ?_
  rw [hsome]
  have hhere : (saying site said).disk.Plain := hplain
  obtain ⟨said, happly⟩ := isTopFolder_manual.opened hhere _ _
  refine Ends.of_apply happly ?_
  refine Ends.bind (.say _) fun said => ?_
  have hfile : "./high-level-overview/TABLE_OF_CONTENTS.md".toList.any (·.toNat == 0) = false := by
    decide
  refine Ends.bind (obtainContents_ends hfile (complete_ends model _ hcontents)) fun said => ?_
  exact .pure

theorem run_apply
    (hoverview : site.disk.text? "./high-level-overview/project_overview.md" = some overview)
    (hnonempty : overview ≠ "") (hcontents : drafting 3 site.services.drafter = .ok text?)
    (hfound : contentsFrom { model := model } text? (site.disk.withFolder "final_documentation") =
      some contents) :
    ∃ said, run { model := model } site = writeManual { model := model } overview contents
      (saying (supplied { model := model } overview text? site) said) := by
  have hmaterial := material_ends model hplain hoverview hnonempty hcontents
  rw [hfound] at hmaterial
  rw [run_eq]
  exact hmaterial.bind_eq (writeFrom { model := model })

end Material

end Docwright.Manual
