import Docwright.Proofs.Data.Lists
import Docwright.Proofs.Manual.Course

/-!
# The sections of a manual

The sections are taken up one after the other. A turn is a title with the site at
which its section is taken up; `saved?` is the text that it obtains and that is
written, and `requests` are the requests made for it. What a turn does depends on
the files that earlier turns left, and on the answers that they did not take.

On a plain disk, and without interruptions, the first success wins: a file of the
manual is what it was before, or else the text of the first turn of its name that
was saved. A text is asked for exactly if there is no file of its name yet.
-/

namespace Docwright.Manual

open Docwright.Disk
open Docwright.Job
open Docwright.Path

/-- A title and the site at which its section is taken up. -/
structure Turn where
  title : String
  site : Site

section Turn

variable (settings : Settings) (overview contents : String)

def asking (title : String) : Job (Option String) :=
  complete settings.model (.str (sectionPrompt title overview contents))

/-- The text of a turn without a file of its name: it was obtained, it is not empty,
and it was written. -/
def Turn.saved? (turn : Turn) : Option String :=
  if turn.site.disk.hasItem (settings.sectionPath turn.title) then none
  else
    (Text.nonempty? (result (asking settings overview contents turn.title)
      turn.site).toOption.join).filter fun text =>
        (result (writeText (settings.sectionPath turn.title) text)
          (after (asking settings overview contents turn.title) turn.site)).isOk

def Turn.savedAs? (name : String) (turn : Turn) : Option Item :=
  if sectionName turn.title = name then
    (turn.saved? settings overview contents).map fun text => .file (Text.Utf8.encode text.toList)
  else none

def Turn.requests (turn : Turn) : List Request :=
  (after (writeSection settings overview contents turn.title) turn.site).asked.drop
    turn.site.asked.length

/-- The turns of the titles, of which the first has that number out of `total`. -/
def turns (total : Nat) : Nat → List String → Site → List Turn
  | _, [], _ => []
  | number, title :: rest, site =>
      let here := after
        (say s!"\n--- Generating content for section {number}/{total}: '{title}' ---") site
      ⟨title, here⟩ :: turns total (number + 1) rest
        (after (writeSection settings overview contents title) here)

end Turn

theorem saveSection_apply {path : String} (hnull : path.toList.any (·.toNat == 0) = false)
    (title text : String) (site : Site) :
    result (saveSection title path text) site = .ok () ∧
      Spoken
        { site with
          disk := ((site.disk.write? path (Text.Utf8.encode text.toList)).toOption).getD site.disk }
        (after (saveSection title path text) site) := by
  have happly := writeText_apply hnull text site
  unfold saveSection
  cases hwrite : site.disk.write? path (Text.Utf8.encode text.toList) with
  | ok changed =>
      rw [hwrite] at happly
      have hattempt := attempt_eq_ok (result_ok happly)
      rw [after_ok happly] at hattempt
      rw [result_bind_ok hattempt, after_bind_ok hattempt]
      exact ⟨rfl, rfl⟩
  | error error =>
      rw [hwrite] at happly
      have hattempt := attempt_eq_error (result_error happly) rfl
      rw [after_error happly] at hattempt
      rw [result_bind_ok hattempt, after_bind_ok hattempt]
      exact ⟨rfl, rfl⟩

section Step

variable {settings : Settings} {folder : Place} (overview contents : String) {title : String}
  {site : Site} (h : settings.StoresAt folder) (hplain : site.disk.Plain)

include h hplain

theorem hasItem_sectionPath : site.disk.hasItem (settings.sectionPath title) =
    (site.disk.get? (folder ++ [sectionName title])).isSome :=
  hasItem_eq hplain (leadsTo_sectionPath h.leadsTo title) (h.short_sectionPath title)

theorem hasItem_sectionPath_apply : hasItem (settings.sectionPath title) site =
    .ok (site.disk.get? (folder ++ [sectionName title])).isSome site := by
  rw [hasItem_apply, h.noNull_sectionPath title, hasItem_sectionPath h hplain]
  rfl

theorem writeSection_present
    (hget : site.disk.get? (folder ++ [sectionName title]) ≠ none) :
    result (writeSection settings overview contents title) site = .ok () ∧
      Spoken site (after (writeSection settings overview contents title) site) ∧
      Turn.saved? settings overview contents ⟨title, site⟩ = none := by
  have hsome := Option.isSome_iff_ne_none.2 hget
  have hitem : hasItem (settings.sectionPath title) site = .ok true site := by
    rw [hasItem_sectionPath_apply h hplain, hsome]
  unfold writeSection
  refine ⟨?_, ?_, ?_⟩
  · rw [result_bind_ok hitem]
    rfl
  · rw [after_bind_ok hitem]
    rfl
  · have hthere : site.disk.hasItem (settings.sectionPath title) = true := by
      rw [hasItem_sectionPath h hplain, hsome]
    rw [Turn.saved?, if_pos hthere]

theorem saved?_of_absent (hordinary : site.services.drafter.Ordinary)
    (hget : site.disk.get? (folder ++ [sectionName title]) = none) :
    Turn.saved? settings overview contents ⟨title, site⟩ =
      (Text.nonempty? (drafted 3 site.services.drafter)).filter fun text =>
        (site.disk.write? (settings.sectionPath title) (Text.Utf8.encode text.toList)).isOk := by
  have hnot : ¬ site.disk.hasItem (settings.sectionPath title) = true := by
    rw [hasItem_sectionPath h hplain, hget]
    simp
  obtain ⟨htext, hspoken⟩ := complete_apply settings.model (sectionPrompt title overview contents)
    hordinary
  have hdisk : (after (asking settings overview contents title) site).disk = site.disk :=
    hspoken.part_eq Site.disk fun _ _ => rfl
  have hasked : result (asking settings overview contents title) site =
      .ok (drafted 3 site.services.drafter) := htext
  have hjoin : ∀ text : Option String, (Except.ok text : Except Fault _).toOption.join = text :=
    fun _ => rfl
  rw [Turn.saved?, if_neg hnot, hasked, hjoin]
  refine congrArg (fun keep => Option.filter keep _) (funext fun text => ?_)
  rw [isOk_writeText (h.noNull_sectionPath title), hdisk]

theorem getD_write?_eq (text : String) :
    (site.disk.write? (settings.sectionPath title) (Text.Utf8.encode text.toList)).toOption.getD
        site.disk =
      ((some text).filter fun text => (site.disk.write? (settings.sectionPath title)
        (Text.Utf8.encode text.toList)).isOk).elim site.disk fun text =>
          site.disk.insert (folder ++ [sectionName title])
            (.file (Text.Utf8.encode text.toList)) := by
  have hpath := leadsTo_sectionPath h.leadsTo title
  generalize settings.sectionPath title = path at hpath ⊢
  cases hwrite : site.disk.write? path (Text.Utf8.encode text.toList) with
  | ok changed =>
      have hchanged := ((write?_eq_ok_iff hplain hpath _ changed).1 hwrite).2.2
      simp [Option.filter, hwrite, Except.isOk, Except.toBool, Except.toOption, hchanged]
  | error error => simp [Option.filter, hwrite, Except.isOk, Except.toBool, Except.toOption]

theorem writeSection_absent (hordinary : site.services.drafter.Ordinary)
    (hget : site.disk.get? (folder ++ [sectionName title]) = none) :
    result (writeSection settings overview contents title) site = .ok () ∧
      Spoken
        { requested
            (draftLog (.str (sectionPrompt title overview contents))
              (tries 3 site.services.drafter) 10)
            (tries 3 site.services.drafter) site with
          disk := (Turn.saved? settings overview contents ⟨title, site⟩).elim site.disk fun text =>
            site.disk.insert (folder ++ [sectionName title])
              (.file (Text.Utf8.encode text.toList)) }
        (after (writeSection settings overview contents title) site) := by
  have hitem : hasItem (settings.sectionPath title) site = .ok false site := by
    rw [hasItem_sectionPath_apply h hplain, hget]
    rfl
  obtain ⟨htext, hspoken⟩ := complete_apply settings.model (sectionPrompt title overview contents)
    hordinary
  have hasked := apply_eq_ok htext
  have hdisk := hspoken.part_eq Site.disk fun _ _ => rfl
  rw [saved?_of_absent overview contents h hplain hordinary hget]
  unfold writeSection
  rw [result_bind_ok hitem, after_bind_ok hitem, if_neg Bool.false_ne_true,
    result_bind_ok hasked, after_bind_ok hasked]
  generalize after (complete settings.model (.str (sectionPrompt title overview contents))) site =
    asked at hspoken hdisk ⊢
  cases Text.nonempty? (drafted 3 site.services.drafter) with
  | none =>
      have hsaid : ∀ line, Spoken asked (after (say line) asked) := fun _ => rfl
      exact ⟨rfl, trans_of Spoken hspoken (hsaid _)⟩
  | some text =>
      obtain ⟨hresult, hsave⟩ := saveSection_apply (h.noNull_sectionPath title) title text asked
      rw [hdisk] at hsave
      refine ⟨hresult, ?_⟩
      rw [← getD_write?_eq h hplain text]
      exact trans_of Spoken (hspoken.with_disk _) hsave

theorem canHold_of_saved? (hordinary : site.services.drafter.Ordinary) {text : String}
    (hget : site.disk.get? (folder ++ [sectionName title]) = none)
    (hsaved : Turn.saved? settings overview contents ⟨title, site⟩ = some text) :
    site.disk.CanHold (folder ++ [sectionName title]) := by
  have hpath := leadsTo_sectionPath h.leadsTo title
  rw [saved?_of_absent overview contents h hplain hordinary hget] at hsaved
  have hok := (Option.filter_eq_some_iff.1 hsaved).2
  cases hwrite : site.disk.write? (settings.sectionPath title)
      (Text.Utf8.encode text.toList) with
  | ok changed => exact ((write?_eq_ok_iff hplain hpath _ changed).1 hwrite).2.1
  | error error =>
      rw [hwrite] at hok
      exact absurd hok (by simp [Except.isOk, Except.toBool])

/-- What a turn saves is found under the name of the section, and all else as before. -/
theorem get?_saved (hordinary : site.services.drafter.Ordinary)
    (hget : site.disk.get? (folder ++ [sectionName title]) = none) (name : String) :
    ((Turn.saved? settings overview contents ⟨title, site⟩).elim site.disk fun text =>
        site.disk.insert (folder ++ [sectionName title])
          (.file (Text.Utf8.encode text.toList))).get? (folder ++ [name]) =
      (site.disk.get? (folder ++ [name])).or
        (Turn.savedAs? settings overview contents name ⟨title, site⟩) := by
  rw [Turn.savedAs?]
  cases hsaved : Turn.saved? settings overview contents ⟨title, site⟩ with
  | none => simp
  | some text =>
      have hhold := canHold_of_saved? overview contents h hplain hordinary hget hsaved
      rw [Option.elim_some, get?_insert_of_canHold hhold]
      by_cases hname : sectionName title = name
      · subst hname
        simp [hget]
      · rw [if_neg (by simpa using Ne.symm hname), if_neg hname, Option.or_none]

end Step

/-- What a turn does: it does not fail, it adds what it saves and nothing else to the
manual, and it makes its requests if there is no file of its name. -/
structure TurnDone (settings : Settings) (overview contents : String) (folder : Place)
    (turn : Turn) : Prop where
  result_ok : result (writeSection settings overview contents turn.title) turn.site = .ok ()
  plain : (after (writeSection settings overview contents turn.title) turn.site).disk.Plain
  ordinary : (after (writeSection settings overview contents turn.title)
    turn.site).services.drafter.Ordinary
  view : ∀ name, (after (writeSection settings overview contents turn.title)
      turn.site).disk.get? (folder ++ [name]) =
    (turn.site.disk.get? (folder ++ [name])).or (turn.savedAs? settings overview contents name)
  asked : (after (writeSection settings overview contents turn.title) turn.site).asked =
    turn.site.asked ++ turn.requests settings overview contents
  requests_present : turn.site.disk.get? (folder ++ [sectionName turn.title]) ≠ none →
    turn.requests settings overview contents = []
  requests_absent : turn.site.disk.get? (folder ++ [sectionName turn.title]) = none →
    turn.requests settings overview contents =
      draftLog (.str (sectionPrompt turn.title overview contents))
        (tries 3 turn.site.services.drafter) 10

theorem requests_eq {settings : Settings} {overview contents : String} {turn : Turn}
    {requests : List Request}
    (h : (after (writeSection settings overview contents turn.title) turn.site).asked =
      turn.site.asked ++ requests) : turn.requests settings overview contents = requests := by
  rw [Turn.requests, h, List.drop_left]

theorem turnDone {settings : Settings} {folder : Place} (h : settings.StoresAt folder)
    (overview contents : String) {turn : Turn} (hplain : turn.site.disk.Plain)
    (hordinary : turn.site.services.drafter.Ordinary) :
    TurnDone settings overview contents folder turn := by
  obtain ⟨title, site⟩ := turn
  have hleft : (after (writeSection settings overview contents title) site).disk.Plain := by
    have hgrows : GrowsDisk ⟨fun _ => True, fun _ => True, fun _ => True⟩
        (writeSection settings overview contents title) :=
      writeSection_growsDisk overview contents title (leadsTo_sectionPath h.leadsTo title) trivial
    exact (hgrows site hplain).plain
  by_cases hget : site.disk.get? (folder ++ [sectionName title]) = none
  · obtain ⟨hresult, hspoken⟩ := writeSection_absent overview contents h hplain hordinary hget
    have hasked := hspoken.part_eq Site.asked fun _ _ => rfl
    have hdisk := hspoken.part_eq Site.disk fun _ _ => rfl
    have hfeed := hspoken.part_eq (·.services.drafter) fun _ _ => rfl
    have hrequests : Turn.requests settings overview contents ⟨title, site⟩ =
        draftLog (.str (sectionPrompt title overview contents))
          (tries 3 site.services.drafter) 10 := requests_eq hasked
    refine ⟨hresult, hleft, ?_, ?_, ?_, fun hsome => absurd hget hsome, fun _ => hrequests⟩
    · rw [hfeed]
      exact hordinary.drop _
    · intro name
      rw [hdisk]
      dsimp only
      exact get?_saved overview contents h hplain hordinary hget name
    · rw [hrequests, hasked]
      rfl
  · obtain ⟨hresult, hspoken, hsaved⟩ := writeSection_present overview contents h hplain hget
    have hasked := hspoken.part_eq Site.asked fun _ _ => rfl
    have hdisk := hspoken.part_eq Site.disk fun _ _ => rfl
    have hfeed := hspoken.part_eq (·.services.drafter) fun _ _ => rfl
    have hrequests : Turn.requests settings overview contents ⟨title, site⟩ = [] :=
      requests_eq (by rw [hasked, List.append_nil])
    refine ⟨hresult, hleft, ?_, ?_, ?_, fun _ => hrequests, fun hnone => absurd hnone hget⟩
    · rw [hfeed]
      exact hordinary
    · intro name
      rw [hdisk, Turn.savedAs?, hsaved]
      split
      · simp
      · simp
    · rw [hrequests, hasked, List.append_nil]

section Run

variable {settings : Settings} {folder : Place} (h : settings.StoresAt folder)
  (overview contents : String) (total : Nat)

theorem map_title_turns (number : Nat) (titles : List String) (site : Site) :
    (turns settings overview contents total number titles site).map Turn.title = titles := by
  induction titles generalizing number site with
  | nil => rfl
  | cons title rest ih =>
      rw [turns, List.map_cons]
      exact congrArg (title :: ·) (ih (number + 1) _)

include h

/-- At a turn the manual has the files it had before, and those that earlier turns
saved. -/
theorem turns_view {number : Nat} {titles : List String} {site : Site} (hplain : site.disk.Plain)
    (hordinary : site.services.drafter.Ordinary) {earlier later : List Turn} {turn : Turn}
    (hturns : turns settings overview contents total number titles site =
      earlier ++ turn :: later) :
    turn.site.disk.Plain ∧ turn.site.services.drafter.Ordinary ∧
      ∀ name, turn.site.disk.get? (folder ++ [name]) =
        (site.disk.get? (folder ++ [name])).or
          (earlier.findSome? (Turn.savedAs? settings overview contents name)) := by
  -- On the titles; the first turn is the one asked about or the first of the earlier ones.
  induction titles generalizing number site earlier with
  | nil => exact absurd hturns (by simp [turns])
  | cons title rest ih =>
      have hdone : ∀ line,
          TurnDone settings overview contents folder ⟨title, after (say line) site⟩ :=
        fun line => turnDone h overview contents hplain hordinary
      rw [turns] at hturns
      cases earlier with
      | nil =>
          obtain ⟨hturn, _⟩ := List.cons.inj hturns
          rw [← hturn]
          exact ⟨hplain, hordinary, fun name => (Option.or_none).symm⟩
      | cons first more =>
          obtain ⟨rfl, hrest⟩ := List.cons.inj hturns
          obtain ⟨hplain, hordinary, hview⟩ := ih (hdone _).plain (hdone _).ordinary hrest
          refine ⟨hplain, hordinary, fun name => ?_⟩
          rw [hview name, (hdone _).view name, Lists.findSome?_cons_eq_or, Option.or_assoc]
          rfl

/-- After the last turn the manual has the files it had before, and those that the
turns saved, and the requests were made turn by turn. -/
theorem writeSections_apply (number : Nat) (titles : List String) {site : Site}
    (hplain : site.disk.Plain) (hordinary : site.services.drafter.Ordinary) :
    result (writeSections settings overview contents total number titles) site = .ok () ∧
      (∀ name,
        (after (writeSections settings overview contents total number titles) site).disk.get?
            (folder ++ [name]) =
          (site.disk.get? (folder ++ [name])).or
            ((turns settings overview contents total number titles site).findSome?
              (Turn.savedAs? settings overview contents name))) ∧
      (after (writeSections settings overview contents total number titles) site).asked =
        site.asked ++ (turns settings overview contents total number titles site).flatMap
          (Turn.requests settings overview contents) := by
  induction titles generalizing number site with
  | nil => exact ⟨rfl, fun name => (Option.or_none).symm, (List.append_nil _).symm⟩
  | cons title rest ih =>
      have hsay : ∀ line, say line site = .ok () (after (say line) site) := fun _ => rfl
      have hdone : ∀ line,
          TurnDone settings overview contents folder ⟨title, after (say line) site⟩ :=
        fun line => turnDone h overview contents hplain hordinary
      -- The lines said differ from turn to turn, so they are left open here.
      have hturn := fun line => apply_eq_ok (hdone line).result_ok
      obtain ⟨hresult, hview, hasked⟩ := ih (number + 1) (hdone _).plain (hdone _).ordinary
      unfold writeSections turns
      rw [result_bind_ok (hsay _), after_bind_ok (hsay _), result_bind_ok (hturn _),
        after_bind_ok (hturn _)]
      refine ⟨hresult, fun name => ?_, ?_⟩
      · rw [hview name, (hdone _).view name, Lists.findSome?_cons_eq_or, Option.or_assoc]
        rfl
      · rw [hasked, (hdone _).asked, List.flatMap_cons, List.append_assoc]
        rfl

end Run

theorem storesAt_usual (settings : Settings) :
    Settings.StoresAt { settings with manualFolder := "./final_documentation" }
      ["final_documentation"] := by
  have hparts : parts "./final_documentation" = [".", "final_documentation"] := by decide
  have hnull : "./final_documentation".toList.any (·.toNat == 0) = false := by decide
  have hshort : "./final_documentation".utf8ByteSize + 4 * stemLimit + 4 < pathLimit := by decide
  exact ⟨⟨hparts, by simp [IsStep]⟩, hnull, hshort⟩

theorem savedAs?_eq_none_iff {settings : Settings} {overview contents name : String} {turn : Turn} :
    turn.savedAs? settings overview contents name = none ↔
      (sectionName turn.title = name → turn.saved? settings overview contents = none) := by
  unfold Turn.savedAs?
  by_cases hname : sectionName turn.title = name
  · simp [hname]
  · simp [hname]

/-- The first success wins. The loop does not fail. A file of the manual is what it
was before, or else the text of the first turn of its name that was saved, if there
is one. The requests are those of the turns in the order of the titles: none if there
is a file of the name, from before the loop or saved by an earlier turn, and one to
three for the section otherwise. -/
theorem writeSections_first_success_wins (settings : Settings) (overview contents : String)
    (total number : Nat) (titles : List String) {site : Site} (hplain : site.disk.Plain)
    (hordinary : site.services.drafter.Ordinary) :
    let manual := { settings with manualFolder := "./final_documentation" }
    let loop := writeSections manual overview contents total number titles
    let all := turns manual overview contents total number titles site
    all.map Turn.title = titles ∧ result loop site = .ok () ∧
      (∀ name, (after loop site).disk.get? ["final_documentation", name] =
        (site.disk.get? ["final_documentation", name]).or
          (all.findSome? (Turn.savedAs? manual overview contents name))) ∧
      (after loop site).asked =
        site.asked ++ all.flatMap (Turn.requests manual overview contents) ∧
      ∀ earlier turn later, all = earlier ++ turn :: later →
        (turn.site.disk.get? ["final_documentation", sectionName turn.title] = none ↔
          site.disk.get? ["final_documentation", sectionName turn.title] = none ∧
            ∀ before ∈ earlier, sectionName before.title = sectionName turn.title →
              before.saved? manual overview contents = none) ∧
        (turn.site.disk.get? ["final_documentation", sectionName turn.title] ≠ none →
          turn.requests manual overview contents = []) ∧
        (turn.site.disk.get? ["final_documentation", sectionName turn.title] = none →
          ∃ count, 1 ≤ count ∧ count ≤ 3 ∧ turn.requests manual overview contents =
            draftLog (.str (sectionPrompt turn.title overview contents)) count 10) := by
  intro manual loop all
  have hstores : manual.StoresAt ["final_documentation"] := storesAt_usual settings
  obtain ⟨hresult, hview, hasked⟩ :=
    writeSections_apply hstores overview contents total number titles hplain hordinary
  refine ⟨map_title_turns overview contents total number titles site, hresult, hview, hasked, ?_⟩
  intro earlier turn later hturns
  obtain ⟨hturnPlain, hturnOrdinary, hturnView⟩ :=
    turns_view hstores overview contents total hplain hordinary hturns
  have hdone := turnDone hstores overview contents hturnPlain hturnOrdinary
  refine ⟨?_, hdone.requests_present, fun hnone => ?_⟩
  · have hfile := hturnView (sectionName turn.title)
    rw [List.singleton_append] at hfile
    rw [hfile, Option.or_eq_none_iff, List.findSome?_eq_none_iff]
    simp only [savedAs?_eq_none_iff]
  · exact ⟨_, tries_pos (by decide) _, tries_le 3 _, hdone.requests_absent hnone⟩

def oneText (text : String) : Except Failure DrafterReply :=
  .ok ⟨some [.text (.str text)], none, ""⟩

/-- A site with an empty manual, where the drafting service fails three times before
it answers with two texts. -/
def lateSite : Site where
  disk := ⟨[("final_documentation", .folder [])]⟩
  services :=
    { Services.failing with
      drafter := ⟨[.error (.raised "RuntimeError" ""), .error (.raised "RuntimeError" ""),
        .error (.raised "RuntimeError" ""), oneText "x", oneText "y"],
        .error (.raised "RuntimeError" "")⟩ }
  limits := .ample

/-- Of three titles with one file name, the first obtains no text, the second is
saved, and nothing is asked for the third. -/
theorem writeSections_first_success_wins_late :
    isPlainEntries lateSite.disk.entries = true ∧
      (lateSite.services.drafter.after :: lateSite.services.drafter.next).all
        (!Feed.isInterruption ·) = true ∧
      result (writeSections {} "" "" 3 1 ["A B", "A_B", "A B."]) lateSite = .ok () ∧
      (∀ name, (after (writeSections {} "" "" 3 1 ["A B", "A_B", "A B."]) lateSite).disk.get?
          ["final_documentation", name] =
        (lateSite.disk.get? ["final_documentation", name]).or
          ((turns {} "" "" 3 1 ["A B", "A_B", "A B."] lateSite).findSome?
            (Turn.savedAs? {} "" "" name))) ∧
      (after (writeSections {} "" "" 3 1 ["A B", "A_B", "A B."]) lateSite).disk.get?
        ["final_documentation", "A_B.md"] = some (.file [120]) ∧
      (turns {} "" "" 3 1 ["A B", "A_B", "A B."] lateSite).map (·.saved? {} "" "") =
        [none, some "x", none] := by
  have hplain : isPlainEntries lateSite.disk.entries = true := by decide +kernel
  have hordinary : (lateSite.services.drafter.after :: lateSite.services.drafter.next).all
      (!Feed.isInterruption ·) = true := by decide +kernel
  obtain ⟨_, hresult, hview, _⟩ :=
    writeSections_first_success_wins {} "" "" 3 1 ["A B", "A_B", "A B."]
      (plain_of_isPlain hplain) (Feed.ordinary_of_not_isInterruption hordinary)
  exact ⟨hplain, hordinary, hresult, hview, by decide +kernel, by decide +kernel⟩

end Docwright.Manual
