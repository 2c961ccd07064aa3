import Docwright.Proofs.Manual.Material
import Docwright.Proofs.Manual.Stems

/-!
# How long section names get

A stem has at most a hundred characters, but the disk counts the bytes of a name, and a word
character takes up to four. A name that is too long is found on no disk and written to none. So a
section with such a name is asked for in every run, and its text is lost each time; all other
sections that a text is obtained for are stored.
-/

namespace Docwright.Manual

open Docwright.Disk
open Docwright.Job
open Docwright.Path

def stemSize (title : String) : Nat := (stemText title).utf8ByteSize

theorem utf8ByteSize_sectionName (title : String) :
    (sectionName title).utf8ByteSize = stemSize title + 3 := by
  rw [sectionName, String.utf8ByteSize_append, stemSize, stemText,
    show ".md".utf8ByteSize = 3 by decide]

theorem fits_iff {title : String} : Fits (sectionName title) ↔ stemSize title ≤ 252 := by
  rw [Fits, utf8ByteSize_sectionName, nameLimit]
  omega

/-- A short stem fits whatever its characters are. -/
theorem stemSize_le_of_short {title : String} (h : (stem title.toList).length ≤ 63) :
    stemSize title ≤ 252 := by
  have hsize := utf8ByteSize_ofList_le fun c (_ : c ∈ stem title.toList) => c.utf8Size_le_four
  rw [stemSize, stemText]
  omega

theorem utf8Size_le_two {c : Char} (h : c.toNat < 0x800) : c.utf8Size ≤ 2 := by
  have hval : c.val ≤ 2047 := by
    rw [UInt32.le_iff_toNat_le]
    exact Nat.le_of_lt_succ h
  by_cases hascii : c.val ≤ 127
  · rw [Char.utf8Size_eq_one_iff.2 hascii]
    omega
  · rw [Char.utf8Size_eq_two_iff.2 ⟨UInt32.not_le.1 hascii, hval⟩]

/-- A stem of characters of one or two bytes fits however long it is. -/
theorem stemSize_le_of_narrow {title : String} (h : ∀ c ∈ stem title.toList, c.toNat < 0x800) :
    stemSize title ≤ 252 := by
  have hsize := utf8ByteSize_ofList_le fun c hc => utf8Size_le_two (h c hc)
  have hlength := (isStem_stem title.toList).short
  rw [stemLimit] at hlength
  rw [stemSize, stemText]
  omega

theorem get?_eq_none_of_not_fits {disk : Disk} (hplain : disk.Plain) {name : String}
    (hlong : ¬ Fits name) (folder : Place) : disk.get? (folder ++ [name]) = none := by
  cases hitem : disk.get? (folder ++ [name]) with
  | none => rfl
  | some item => exact absurd (hplain.isName hitem name (by simp)).short hlong

theorem mem_draftLog {prompt : Json.Value} {count : Nat} (h : 0 < count) (delay : Nat) :
    .draft prompt ∈ draftLog prompt count delay := by
  match count with
  | 1 => exact List.mem_singleton_self _
  | count + 2 => exact List.mem_cons_self

section Loop

variable {settings : Settings} {folder : Place} (h : settings.StoresAt folder)
  (overview contents : String) (total : Nat)

include h

theorem turns_folder {number : Nat} {titles : List String} {site : Site}
    (hplain : site.disk.Plain) (hordinary : site.services.drafter.Ordinary)
    (hfolder : site.disk.get? folder = some .folder) {turn : Turn}
    (hturn : turn ∈ turns settings overview contents total number titles site) :
    turn.site.disk.get? folder = some .folder := by
  induction titles generalizing number site with
  | nil => exact absurd hturn List.not_mem_nil
  | cons title rest ih =>
      have hdone : ∀ line,
          TurnDone settings overview contents folder ⟨title, after (say line) site⟩ :=
        fun line => turnDone h overview contents hplain hordinary
      have hgrows : GrowsDisk ⟨fun _ => True, fun _ => True, fun _ => True⟩
          (writeSection settings overview contents title) :=
        writeSection_growsDisk overview contents title (leadsTo_sectionPath h.leadsTo title) trivial
      have hkept : ∀ line, (after (writeSection settings overview contents title)
          (after (say line) site)).disk.get? folder = some .folder :=
        fun line => (hgrows (after (say line) site) hplain).folder hfolder
      rw [turns] at hturn
      rcases List.mem_cons.1 hturn with rfl | hrest
      · exact hfolder
      · exact ih (hdone _).plain (hdone _).ordinary (hkept _) hrest

theorem get?_of_saved {number : Nat} {titles : List String} {site : Site}
    (hplain : site.disk.Plain) (hordinary : site.services.drafter.Ordinary)
    {earlier later : List Turn} {turn : Turn} {text : String}
    (hturns : turns settings overview contents total number titles site =
      earlier ++ turn :: later)
    (hvacant : turn.site.disk.get? (folder ++ [sectionName turn.title]) = none)
    (hsaved : turn.saved? settings overview contents = some text) :
    (after (writeSections settings overview contents total number titles) site).disk.get?
        (folder ++ [sectionName turn.title]) = some (.file (Text.Utf8.encode text.toList)) := by
  have hfile : turn.savedAs? settings overview contents (sectionName turn.title) =
      some (.file (Text.Utf8.encode text.toList)) := by
    rw [Turn.savedAs?, if_pos rfl, hsaved, Option.map_some]
  obtain ⟨_, _, hbefore⟩ := turns_view h overview contents total hplain hordinary hturns
  obtain ⟨_, hview, _⟩ :=
    writeSections_apply h overview contents total number titles hplain hordinary
  rw [hbefore, Option.or_eq_none_iff] at hvacant
  rw [hview, hturns, hvacant.1, Option.none_or, List.findSome?_append, hvacant.2, Option.none_or,
    Lists.findSome?_cons_eq_or, hfile, Option.some_or]

end Loop

/-- A name has at most 255 bytes exactly if its stem has at most 252, and that is so if the stem has
at most 63 characters or none of more than two bytes. In the loop over the sections of a manual, a
section that has no file and that a text is obtained for has been asked for in any case, and at the
end there is a file with the text if the name has at most 255 bytes and none otherwise. -/
theorem sections_obtained_are_stored_iff (settings : Settings) (overview contents : String)
    (total number : Nat) (titles : List String) {site : Site} (hplain : site.disk.Plain)
    (hordinary : site.services.drafter.Ordinary)
    (hfolder : site.disk.get? ["final_documentation"] = some .folder) :
    let manual := { settings with manualFolder := "./final_documentation" }
    let loop := writeSections manual overview contents total number titles
    let all := turns manual overview contents total number titles site
    (∀ title, (sectionName title).utf8ByteSize ≤ 255 ↔ stemSize title ≤ 252) ∧
      (∀ title, (stem title.toList).length ≤ 63 ∨ (∀ c ∈ stem title.toList, c.toNat < 0x800) →
        stemSize title ≤ 252) ∧
      all.map Turn.title = titles ∧ result loop site = .ok () ∧
      ∀ turn ∈ all, ∀ text,
        turn.site.disk.get? ["final_documentation", sectionName turn.title] = none →
        result (asking manual overview contents turn.title) turn.site = .ok (some text) →
          sectionRequest overview contents turn.title ∈ (after loop site).asked ∧
          (after loop site).disk.get? ["final_documentation", sectionName turn.title] =
            if stemSize turn.title ≤ 252 then some (.file (Text.Utf8.encode text.toList))
            else none := by
  intro manual loop all
  have hstores : manual.StoresAt ["final_documentation"] := storesAt_usual settings
  obtain ⟨hresult, _, hasked⟩ :=
    writeSections_apply hstores overview contents total number titles hplain hordinary
  refine ⟨fun _ => fits_iff, fun _ h => h.elim stemSize_le_of_short stemSize_le_of_narrow,
    map_title_turns overview contents total number titles site, hresult, ?_⟩
  intro turn hturn text hvacant htext
  obtain ⟨earlier, later, hall⟩ := List.append_of_mem hturn
  obtain ⟨hturnPlain, hturnOrdinary, _⟩ :=
    turns_view hstores overview contents total hplain hordinary hall
  constructor
  · rw [hasked]
    refine List.mem_append_right _ (List.mem_flatMap.2 ⟨turn, hturn, ?_⟩)
    rw [(turnDone hstores overview contents hturnPlain hturnOrdinary).requests_absent hvacant]
    exact mem_draftLog (tries_pos (by decide) _) 10
  · by_cases hsize : stemSize turn.title ≤ 252
    · have hdrafted : drafted 3 turn.site.services.drafter = some text :=
        Except.ok.inj ((complete_apply manual.model (sectionPrompt turn.title overview contents)
          hturnOrdinary).1.symm.trans htext)
      have hdrafting := drafting_of_ordinary 3 hturnOrdinary
      rw [hdrafted] at hdrafting
      have hsaved := saved?_of_vacant hstores overview contents hturnPlain hturnOrdinary
        (turns_folder hstores overview contents total hplain hordinary hfolder hturn) hvacant
        hdrafted (nonempty?_of_drafting hdrafting)
      rw [if_pos (fits_iff.2 hsize)] at hsaved
      rw [if_pos hsize]
      exact get?_of_saved hstores overview contents total hplain hordinary hall hvacant hsaved
    · have hgrows : GrowsDisk ⟨fun _ => True, fun _ => True, fun _ => True⟩ loop :=
        writeSections_growsDisk hstores.leadsTo (fun _ => trivial) overview contents total number
          titles
      rw [if_neg hsize]
      exact get?_eq_none_of_not_fits (hgrows site hplain).plain (mt fits_iff.1 hsize)
        ["final_documentation"]

def wideTitle (count : Nat) : String := String.ofList (List.replicate count '漢')

theorem stem_wideTitle {count : Nat} (hsome : count ≠ 0) (hfew : count ≤ stemLimit) :
    stem (wideTitle count).toList = List.replicate count '漢' := by
  have hletter : isNameChar '漢' = true := by decide +kernel
  have hstem : IsStem (List.replicate count '漢') := by
    refine ⟨by simpa using hsome, by simpa using hfew, fun c hc => ?_⟩
    rw [List.eq_of_mem_replicate hc, hletter]
  rw [wideTitle, String.toList_ofList]
  refine hstem.stem_eq_self fun hstop => ?_
  exact absurd (List.eq_of_mem_replicate (List.mem_of_getLast? hstop)) (by decide)

theorem stemSize_wideTitle {count : Nat} (hsome : count ≠ 0) (hfew : count ≤ stemLimit) :
    stemSize (wideTitle count) = count * 3 := by
  have hsize : ∀ count, (String.ofList (List.replicate count '漢')).utf8ByteSize = count * 3 := by
    intro count
    induction count with
    | zero => rfl
    | succ count ih =>
        rw [List.replicate_succ, String.ofList_cons, String.utf8ByteSize_append,
          String.utf8ByteSize_singleton, ih, Nat.succ_mul, Nat.add_comm]
        rfl
  rw [stemSize, stemText, stem_wideTitle hsome hfew, hsize]

def emptySite : Site where
  disk := ⟨[("final_documentation", .folder [])]⟩
  services := { Services.failing with drafter := ⟨[], oneText "x"⟩ }
  limits := .ample

/-- With 84 characters of three bytes a name has just the bytes that the disk takes, and the text is
stored. -/
theorem sections_obtained_are_stored_iff_widest :
    let loop := writeSections {} "" "" 1 1 [wideTitle 84]
    isPlainEntries emptySite.disk.entries = true ∧
      (emptySite.services.drafter.after :: emptySite.services.drafter.next).all
        (!Feed.isInterruption ·) = true ∧
      emptySite.disk.get? ["final_documentation"] = some .folder ∧
      stemSize (wideTitle 84) = 252 ∧
      sectionRequest "" "" (wideTitle 84) ∈ (after loop emptySite).asked ∧
      (after loop emptySite).disk.get? ["final_documentation", sectionName (wideTitle 84)] =
        some (.file [120]) := by
  intro loop
  have hplain : isPlainEntries emptySite.disk.entries = true := by decide
  have hcheck : (emptySite.services.drafter.after :: emptySite.services.drafter.next).all
      (!Feed.isInterruption ·) = true := by decide
  have hfolder : emptySite.disk.get? ["final_documentation"] = some .folder := by rfl
  have hsize : stemSize (wideTitle 84) = 252 := stemSize_wideTitle (by decide) (by decide)
  have hordinary := Feed.ordinary_of_not_isInterruption hcheck
  obtain ⟨_, _, _, _, hstored⟩ := sections_obtained_are_stored_iff {} "" "" 1 1 [wideTitle 84]
    (plain_of_isPlain hplain) hordinary hfolder
  have htext : ∀ line, result (asking {} "" "" (wideTitle 84)) (after (say line) emptySite) =
      .ok (some "x") := fun line =>
    (complete_apply _ _ (show (after (say line) emptySite).services.drafter.Ordinary from
      hordinary)).1
  obtain ⟨hasked, hfile⟩ := hstored _ List.mem_cons_self "x" rfl (htext _)
  refine ⟨hplain, hcheck, hfolder, hsize, hasked, hfile.trans (if_pos hsize.le)⟩

theorem plain_run {site : Site} (hplain : site.disk.Plain) : (after (run {}) site).disk.Plain := by
  have hfolder : LeadsTo (Settings.manualFolder {}) ["final_documentation"] :=
    isTopFolder_manual.leadsTo
  have hcontents : LeadsTo (Settings.contentsFile {})
      ["high-level-overview", "TABLE_OF_CONTENTS.md"] := ⟨by decide, by simp [IsStep]⟩
  have hmake : GrowsDisk ⟨fun _ => True, fun _ => True, fun _ => True⟩
      (makeFolders (Settings.manualFolder {})) :=
    makeFolders_growsDisk hfolder trivial isTopFolder_manual.parent isTopFolder_manual.base
  exact (run_growsDisk hfolder (fun _ => trivial) hmake hcontents ⟨trivial, trivial⟩ site
    hplain).plain

theorem plain_draftSite (contents : String) : (draftSite contents).disk.Plain :=
  plain_of_isPlain (show isPlainEntries (draftSite "").disk.entries = true by decide)

theorem asked_draftSite {contents : String} (h : contents ≠ "") :
    (after (run {}) (draftSite contents)).asked = .draft (.str (contentsPrompt "o")) ::
      (takenUp [] (sectionTitles contents)).map (sectionRequest "o" contents) := by
  have hcontents : outcome (oneText contents) = .ok (some contents) := by
    simp [outcome, oneText, replyText, textFields, textsFrom, Text.nonempty?, Option.filter, h]
  have hafter : answersText (oneText "x") = true := by decide
  have hanswers : AnswersAll (draftSite contents).services.drafter := by
    refine answersAll_of_all ?_
    rw [show (draftSite contents).services.drafter = ⟨[oneText contents], oneText "x"⟩ from rfl,
      List.all_cons, List.all_cons, hafter, answersText, hcontents]
    rfl
  have hoverview : (draftSite contents).disk.text? "./high-level-overview/project_overview.md" =
      some "o" :=
    show (draftSite "").disk.text? "./high-level-overview/project_overview.md" = some "o" by
      decide +kernel
  have hnull : "./high-level-overview/project_overview.md".toList.any (·.toNat == 0) = false := by
    decide
  have hload := (loadFile_ends hnull (draftSite contents)).1
  rw [hoverview] at hload
  obtain ⟨left, ⟨_, hspoken⟩, hasked⟩ := run_takes (.str "gemini-1.5-flash-latest")
    (plain_draftSite contents) hanswers (Or.inl rfl) (fun name => rfl) hload (by decide) hcontents
  exact (hspoken.part_eq Site.asked fun _ _ => rfl).trans hasked

/-- With one more a run asks for the section, the service answers with a text, and no file has
it. -/
theorem run_loses_wide_section :
    (sectionName (wideTitle 85)).utf8ByteSize = 258 ∧
      (after (run {}) (draftSite ("# " ++ wideTitle 85))).asked =
        [.draft (.str (contentsPrompt "o")),
          sectionRequest "o" ("# " ++ wideTitle 85) (wideTitle 85)] ∧
      (after (run {}) (draftSite ("# " ++ wideTitle 85))).disk.get?
        ["final_documentation", sectionName (wideTitle 85)] = none := by
  have hsize : (sectionName (wideTitle 85)).utf8ByteSize = 258 := by
    rw [utf8ByteSize_sectionName, stemSize_wideTitle (by decide) (by decide)]
  have hlist : ("# " ++ wideTitle 85).toList = '#' :: ' ' :: List.replicate 85 '漢' := by
    rw [String.toList_append, wideTitle, String.toList_ofList, String.toList_ofList]
    rfl
  have hfound : titles ('#' :: ' ' :: List.replicate 85 '漢') = [List.replicate 85 '漢'] := by
    decide +kernel
  have htitles : sectionTitles ("# " ++ wideTitle 85) = [wideTitle 85] := by
    rw [sectionTitles, hlist, hfound, List.map_singleton, wideTitle]
  have htaken : takenUp [] [wideTitle 85] = [wideTitle 85] := by simp [takenUp]
  refine ⟨hsize, ?_, ?_⟩
  · rw [asked_draftSite (by simp), htitles, htaken]
    rfl
  · exact get?_eq_none_of_not_fits (plain_run (plain_draftSite _)) (by rw [Fits, hsize]; decide)
      ["final_documentation"]

end Docwright.Manual
