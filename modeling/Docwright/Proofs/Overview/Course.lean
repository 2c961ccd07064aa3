import Docwright.Overview
import Docwright.Proofs.Disk.Growth

/-!
# The course of an overview run

A run loads its material first and then asks for the overview and saves it. The
first part makes no request and changes the disk only by the folder it needs;
the second makes one request and writes at the path of the overview only.
-/

namespace Docwright.Overview

open Docwright.Job

/-- The first part of a run: the folder of the overview is made if it is missing,
and the material is loaded. -/
def gather (settings : Settings) : Job Digest := do
  if !(← hasItem settings.overviewFolder) then
    makeFolders settings.overviewFolder
    say s!"Created directory: {settings.overviewFolder}"
  say "\nLoading data for high-level overview generation..."
  loadDigest settings

/-- The second part of a run: the overview is asked for and saved. -/
def request (settings : Settings) (digest : Digest) : Job Unit := do
  let material ← assemble settings digest
  say "\nGenerating high-level overview document (this may take a while)..."
  let prompt := overviewPrompt material
  match (← complete settings.model (.str prompt) settings.maxTokens).present? with
  | some overview => save settings overview
  | none => say "Failed to generate high-level overview content from Anthropic."

theorem run_eq (settings : Settings) : run settings = gather settings >>= request settings := by
  have hload : ∀ line, (do say line; loadDigest settings) >>= request settings =
      (do say line; loadDigest settings >>= request settings) := fun _ => bind_assoc _ _ _
  have hmake : ∀ line next,
      (do makeFolders settings.overviewFolder; say line; next) >>= request settings =
        (do makeFolders settings.overviewFolder; say line; next >>= request settings) := by
    intro line next
    rw [bind_assoc]
    refine congrArg _ (funext fun _ => ?_)
    rw [bind_assoc]
  unfold run gather
  rw [bind_assoc]
  refine congrArg _ (funext fun found => ?_)
  cases found with
  | true => exact (hload _).symm
  | false =>
      have hboth := hmake s!"Created directory: {settings.overviewFolder}" (do
        say "\nLoading data for high-level overview generation..."
        loadDigest settings)
      rw [hload] at hboth
      exact hboth.symm

theorem loadBlock_onlySpeaks (folder name : String) : OnlySpeaks (loadBlock folder name) := by
  refine Respects.bind (.attempt (.of_still (readText_still _))) fun result => ?_
  cases result with
  | ok content => exact Respects.bind (say_onlySpeaks _) fun _ => .pure _
  | error fault => exact Respects.bind (say_onlySpeaks _) fun _ => .pure _

theorem loadFolder_onlySpeaks (folder : String) : OnlySpeaks (loadFolder folder) := by
  refine Respects.bind (.of_still (hasItem_still folder)) fun found => ?_
  cases found with
  | false => exact Respects.bind (say_onlySpeaks _) fun _ => .pure _
  | true =>
      refine Respects.bind (say_onlySpeaks _) fun _ => ?_
      refine Respects.bind (.of_still (listFolder_still folder)) fun names => ?_
      exact Respects.bind (.mapM (loadBlock_onlySpeaks folder) _) fun _ => .pure _

theorem loadStructure_onlySpeaks (settings : Settings) : OnlySpeaks (loadStructure settings) := by
  refine Respects.bind (.of_still (hasItem_still _)) fun found => ?_
  cases found with
  | false => exact Respects.bind (say_onlySpeaks _) fun _ => .pure _
  | true =>
      refine Respects.bind (.attempt (.of_still (readJson_still _))) fun result => ?_
      cases result with
      | ok value => exact Respects.bind (say_onlySpeaks _) fun _ => .pure _
      | error fault => exact Respects.bind (say_onlySpeaks _) fun _ => .pure _

theorem loadDigest_onlySpeaks (settings : Settings) : OnlySpeaks (loadDigest settings) := by
  refine Respects.bind (loadStructure_onlySpeaks settings) fun _ => ?_
  refine Respects.bind (loadFolder_onlySpeaks _) fun _ => ?_
  exact Respects.bind (loadFolder_onlySpeaks _) fun _ => .pure _

theorem gather_respects {R : Site → Site → Prop} [IsPreorder Site R] {settings : Settings}
    (hmake : Respects R (makeFolders settings.overviewFolder))
    (hspeak : ∀ {α : Type} {job : Job α}, OnlySpeaks job → Respects R job) :
    Respects R (gather settings) := by
  have hload : Respects R (do
      say "\nLoading data for high-level overview generation..."
      loadDigest settings) :=
    Respects.bind (hspeak (say_onlySpeaks _)) fun _ => hspeak (loadDigest_onlySpeaks settings)
  refine Respects.bind (.of_still (hasItem_still _)) fun found => ?_
  cases found with
  | true => exact hload
  | false =>
      refine Respects.bind hmake fun _ => ?_
      exact Respects.bind (hspeak (say_onlySpeaks _)) fun _ => hload

theorem gather_keeps_asked (settings : Settings) : Keeps Site.asked (gather settings) :=
  gather_respects (makeFolders_keeps (fun _ _ => rfl) _) fun h => h.keeps fun _ _ => rfl

theorem assemble_apply (settings : Settings) (digest : Digest) (site : Site) :
    ∃ left, assemble settings digest site =
        .ok (String.ofList (digest.material settings.budget)) left ∧ Spoken site left := by
  unfold assemble Digest.material
  by_cases hexceeds : digest.exceeds settings.budget = true
  · by_cases hstructure : digest.structureExceeds settings.budget = true
    · simp only [hexceeds, hstructure, if_true]
      exact ⟨_, rfl, rfl⟩
    · simp only [hexceeds, hstructure, if_true]
      exact ⟨_, rfl, rfl⟩
  · simp only [hexceeds]
    exact ⟨_, rfl, rfl⟩

theorem receive_onlySpeaks (given : Json.Value) : OnlySpeaks (receive given) :=
  Respects.bind (.of_still (lengthOf_still given)) fun _ => say_onlySpeaks _

theorem complete_asks (model maxTokens : Json.Value) (prompt : String) :
    Respects (Via Site.asked (OneMore (.write model maxTokens (.str prompt))))
      (complete model (.str prompt) maxTokens) := by
  intro site
  refine Completion.request_asks model maxTokens _ ?_ (fun _ _ => say_keeps_asked _) _
  exact fun given => (receive_onlySpeaks given).keeps fun _ _ => rfl

theorem complete_keeps_disk (model maxTokens prompt : Json.Value) :
    Keeps Site.disk (complete model prompt maxTokens) := by
  refine Respects.bind (.of_still (lengthOf_still prompt)) fun length => ?_
  refine Respects.bind (say_keeps_disk _) fun _ => ?_
  apply OnlyAsks.keeps_disk
  refine Completion.request_onlyAsks model maxTokens _ ?_ (fun _ _ => say_onlyAsks _)
  exact fun given site => (receive_onlySpeaks given site).asking

theorem save_keeps_asked (settings : Settings) (overview : Json.Value) :
    Keeps Site.asked (save settings overview) := by
  refine Respects.bind (.attempt (Respects.bind (writeValue_keeps (fun _ _ => rfl) _ _) ?_)) ?_
  · intro _
    exact Respects.bind (.of_still (lengthOf_still overview)) fun _ => say_keeps_asked _
  · intro result
    cases result with
    | ok done => exact .pure ()
    | error fault => exact say_keeps_asked _

theorem save_onlyWrites (settings : Settings) (overview : Json.Value) :
    OnlyWrites (Path.join settings.overviewFolder "project_overview.md")
      (save settings overview) := by
  refine Respects.bind_keeps (.attempt ((writeValue_onlyWrites _ _).bind_keeps ?_)) ?_
  · intro _
    exact Respects.bind (.of_still (lengthOf_still overview)) fun _ => say_keeps_disk _
  · intro result
    cases result with
    | ok done => exact .pure ()
    | error fault => exact say_keeps_disk _

/-- The second part of a run makes one request, with the material that is sent for
the budget in its prompt. -/
theorem request_asked (settings : Settings) (digest : Digest) (site : Site) :
    (after (request settings digest) site).asked = site.asked ++
      [.write settings.model settings.maxTokens
        (.str (overviewPrompt (String.ofList (digest.material settings.budget))))] := by
  obtain ⟨left, hassemble, hspoken⟩ := assemble_apply settings digest site
  have hasked : left.asked = site.asked := hspoken.part_eq Site.asked fun _ _ => rfl
  rw [request, after_bind_ok hassemble, ← hasked]
  have hlast : ∀ given : Json.Value, Keeps Site.asked
      (match given.present? with
      | some overview => save settings overview
      | none => say "Failed to generate high-level overview content from Anthropic.") := by
    intro given
    split
    · exact save_keeps_asked settings _
    · exact say_keeps_asked _
  exact ((complete_asks settings.model settings.maxTokens _).bind_keeps hlast) _

theorem request_onlyWrites (settings : Settings) (digest : Digest) :
    OnlyWrites (Path.join settings.overviewFolder "project_overview.md")
      (request settings digest) := by
  have hassemble : Keeps Site.disk (assemble settings digest) := by
    intro site
    obtain ⟨left, hassemble, hspoken⟩ := assemble_apply settings digest site
    rw [after_ok hassemble]
    exact (hspoken.part_eq Site.disk fun _ _ => rfl).symm
  refine hassemble.bind_onlyWrites fun material => ?_
  refine (say_keeps_disk _).bind_onlyWrites fun _ => ?_
  refine (complete_keeps_disk _ _ _).bind_onlyWrites fun result => ?_
  split
  · exact save_onlyWrites settings _
  · exact Keeps.onlyWrites (say_keeps_disk _)

/-- The overview is written at its path, and its folder is made if it is missing. -/
theorem run_growsDisk {scope : Disk.Scope} {settings : Settings} {place : Place}
    (hmake : GrowsDisk scope (makeFolders settings.overviewFolder))
    (hpath : Path.LeadsTo (Path.join settings.overviewFolder "project_overview.md") place)
    (hscope : scope.file place ∧ scope.rewritable place) : GrowsDisk scope (run settings) := by
  rw [run_eq]
  refine Respects.bind (gather_respects hmake fun hspeak => ?_) fun digest => ?_
  · exact Keeps.respects (hspeak.keeps fun _ _ => rfl)
  · exact (request_onlyWrites settings digest).growsDisk hpath hscope.1 hscope.2

end Docwright.Overview
