import Docwright.Proofs.Job.Ends
import Mathlib.Data.List.Forall2

/-!
# What a job brings about

`Brings P job Q E` is a contract: started at a site of which `P` holds, the job ends
with a result and a site as `Q` says, or with a fault and a site as `E` says. Like the
relations that a job respects, contracts are put together along the text of a program,
but they may speak of the result of a step, and the next step builds on that. A loop
has an invariant that may speak of the elements it is done with.
-/

namespace Docwright.Job

variable {α β : Type}

/-- From a site of which `P` holds, the job ends with a result as `Q` says or with a
fault as `E` says. -/
structure Brings (P : Site → Prop) (job : Job α) (Q : α → Site → Prop) (E : Fault → Site → Prop) :
    Prop where
  of_ok : ∀ {site left : Site} {a : α}, P site → job site = .ok a left → Q a left
  of_error : ∀ {site left : Site} {fault : Fault}, P site → job site = .error fault left →
    E fault left

variable {P : Site → Prop} {Q : α → Site → Prop} {E : Fault → Site → Prop} {job : Job α}

namespace Brings

theorem intro
    (h : ∀ site, P site →
      match job site with
      | .ok a left => Q a left
      | .error fault left => E fault left) :
    Brings P job Q E := by
  constructor
  · intro site left a hsite happly
    have hend := h site hsite
    rw [happly] at hend
    exact hend
  · intro site left fault hsite happly
    have hend := h site hsite
    rw [happly] at hend
    exact hend

theorem ends (h : Brings P job Q E) {site : Site} (hsite : P site) :
    match job site with
    | .ok a left => Q a left
    | .error fault left => E fault left := by
  cases happly : job site with
  | ok a left => exact h.of_ok hsite happly
  | error fault left => exact h.of_error hsite happly

/-- What holds at the end in either case holds of the site that the job leaves. -/
theorem after {S : Site → Prop} (h : Brings P job (fun _ => S) fun _ => S) {site : Site}
    (hsite : P site) : S (after job site) := by
  cases happly : job site with
  | ok a left => exact after_ok happly ▸ h.of_ok hsite happly
  | error fault left => exact after_error happly ▸ h.of_error hsite happly

theorem imp {P' : Site → Prop} {Q' : α → Site → Prop} {E' : Fault → Site → Prop}
    (h : Brings P job Q E) (hP : ∀ site, P' site → P site)
    (hQ : ∀ a site, Q a site → Q' a site) (hE : ∀ fault site, E fault site → E' fault site) :
    Brings P' job Q' E' :=
  ⟨fun hsite happly => hQ _ _ (h.of_ok (hP _ hsite) happly),
    fun hsite happly => hE _ _ (h.of_error (hP _ hsite) happly)⟩

theorem pre {P' : Site → Prop} (hP : ∀ site, P' site → P site) (h : Brings P job Q E) :
    Brings P' job Q E := h.imp hP (fun _ _ h => h) fun _ _ h => h

theorem post {Q' : α → Site → Prop} (h : Brings P job Q E)
    (hQ : ∀ a site, Q a site → Q' a site) : Brings P job Q' E :=
  h.imp (fun _ h => h) hQ fun _ _ h => h

theorem assume {fact : Prop} (h : fact → Brings P job Q E) :
    Brings (fun site => fact ∧ P site) job Q E :=
  ⟨fun hsite => (h hsite.1).of_ok hsite.2, fun hsite => (h hsite.1).of_error hsite.2⟩

theorem at_start (h : Brings P job Q E) {start : Site} (hstart : P start) :
    Brings (fun site => site = start) job (fun a site => result job start = .ok a ∧ Q a site) E := by
  constructor
  · rintro site left a rfl happly
    exact ⟨result_ok happly, h.of_ok hstart happly⟩
  · rintro site left fault rfl happly
    exact h.of_error hstart happly

theorem pure {a : α} (h : ∀ site, P site → Q a site) : Brings P (pure a : Job α) Q E :=
  .intro h

theorem throw {fault : Fault} (h : ∀ site, P site → E fault site) :
    Brings P (throw fault : Job α) Q E :=
  .intro h

theorem bind {M : β → Site → Prop} {first : Job β} {next : β → Job α}
    (hfirst : Brings P first M E) (hnext : ∀ b, Brings (M b) (next b) Q E) :
    Brings P (first >>= next) Q E := by
  apply Brings.intro
  intro site hsite
  rw [bind_apply]
  cases happly : first site with
  | ok b middle => exact (hnext b).ends (hfirst.of_ok hsite happly)
  | error fault left => exact hfirst.of_error hsite happly

theorem get_bind {next : Site → Job α} (hnext : ∀ seen, Brings P (next seen) Q E) :
    Brings P (get >>= next) Q E :=
  .intro fun site hsite => (hnext site).ends hsite

/-- What follows a look at the disk may take the disk for the one it is known to be. -/
theorem disk_bind {known : Disk} {next : Disk → Job α} (hknown : ∀ site, P site → site.disk = known)
    (hnext : Brings P (next known) Q E) : Brings P (disk >>= next) Q E := by
  apply Brings.intro
  intro site hsite
  have happly : (disk >>= next) site = next known site :=
    congrFun (congrArg next (hknown site hsite)) _
  rw [happly]
  exact hnext.ends hsite

theorem hasItem_bind (path : String) {next : Bool → Job α}
    (hnext : ∀ found, Brings P (next found) Q E) :
    Brings P (hasItem path >>= next) Q E := by
  apply Brings.intro
  intro site h
  rw [bind_apply, hasItem_apply]
  exact (hnext _).ends h

/-- On a disk that is known, what follows a look for an item may take the answer for the one it
gives. -/
theorem hasItem_disk_bind {known : Disk} {path : String}
    (hnull : path.toList.any (·.toNat == 0) = false) {next : Bool → Job α}
    (hknown : ∀ site, P site → site.disk = known)
    (hnext : Brings P (next (known.hasItem path)) Q E) : Brings P (hasItem path >>= next) Q E := by
  apply Brings.intro
  intro site h
  rw [bind_apply, hasItem_apply, hnull, hknown site h]
  exact hnext.ends h

/-- What follows an attempt goes on from the result of the job, or from a fault that
can be caught; any other fault ends it. -/
theorem attempt_bind {M : β → Site → Prop} {F : Fault → Site → Prop} {first : Job β}
    {next : Except Fault β → Job α} (hfirst : Brings P first M F)
    (hok : ∀ b, Brings (M b) (next (.ok b)) Q E)
    (hcaught : ∀ fault, fault.isOrdinary = true → Brings (F fault) (next (.error fault)) Q E)
    (hescaped : ∀ fault site, fault.isOrdinary = false → F fault site → E fault site) :
    Brings P (attempt first >>= next) Q E := by
  apply Brings.intro
  intro site hsite
  rw [bind_apply, attempt]
  cases happly : first site with
  | ok b middle => exact (hok b).ends (hfirst.of_ok hsite happly)
  | error fault left =>
      have hfault := hfirst.of_error hsite happly
      cases hordinary : fault.isOrdinary with
      | true =>
          simp only [hordinary, if_true]
          exact (hcaught fault hordinary).ends hfault
      | false =>
          simp only [hordinary, Bool.false_eq_true, if_false]
          exact hescaped fault left hordinary hfault

theorem of_after {S : Site → Prop} (h : ∀ site, P site → S (Job.after job site)) :
    Brings P job (fun _ => S) fun _ => S := by
  apply Brings.intro
  intro site hsite
  have hleft := h site hsite
  cases happly : job site with
  | ok a left => exact after_ok happly ▸ hleft
  | error fault left => exact after_error happly ▸ hleft

/-- A job that respects a relation under which `P` lasts leaves `P` true. -/
theorem of_respects {R : Site → Site → Prop} (h : Respects R job)
    (hlasts : ∀ site left, P site → R site left → P left) :
    Brings P job (fun _ => P) fun _ => P :=
  of_after fun site hsite => hlasts site _ hsite (h site)

/-- A loop keeps an invariant that speaks of the elements it is done with. -/
theorem foldlM (I : List β → α → Site → Prop) {step : α → β → Job α} (l : List β)
    (hstep : ∀ done b rest a, done ++ b :: rest = l →
      Brings (I done a) (step a b) (I (done ++ [b])) E) (a : α) :
    Brings (I [] a) (l.foldlM step a) (I l) E := by
  have hrest : ∀ rest done a, done ++ rest = l →
      Brings (I done a) (rest.foldlM step a) (I l) E := by
    intro rest
    induction rest with
    | nil =>
        intro done a hdone
        rw [List.append_nil] at hdone
        exact Brings.pure fun site hsite => hdone ▸ hsite
    | cons b rest ih =>
        intro done a hdone
        rw [List.foldlM_cons]
        refine Brings.bind (hstep done b rest a hdone) fun c => ih (done ++ [b]) c ?_
        rw [List.append_assoc, List.singleton_append, hdone]
  exact hrest l [] a rfl

/-- Visiting folders is a loop over those that a walk finds, and a fault follows if it breaks
off. -/
theorem visitFolders {walk : Disk.Walk} {path : String} {visit : α → Disk.Folder → Job α}
    {start : α} (hloop : Brings P (walk.folders.foldlM visit start) Q E)
    (hwalk : ∀ site, P site → site.disk.walk site.limits.levels path = walk)
    (hbroken : walk.complete = false → ∀ a site, Q a site → E .deepPath site) :
    Brings P (visitFolders path visit start) (fun a site => walk.complete = true ∧ Q a site) E := by
  apply Brings.intro
  intro site hsite
  have happly : Job.visitFolders path visit start site =
      (walk.folders.foldlM visit start >>= fun a =>
        if walk.complete then Pure.pure a else MonadExcept.throw .deepPath) site := by
    rw [← hwalk site hsite]
    rfl
  rw [happly]
  apply Brings.ends _ hsite
  apply Brings.bind hloop
  intro a
  cases hcomplete : walk.complete with
  | true => exact Brings.pure fun _ h => ⟨rfl, h⟩
  | false => exact Brings.throw fun site h => hbroken hcomplete a site h

/-- A loop that gathers one result for each element gathers them in order. -/
theorem mapM (R : β → α → Prop) {step : β → Job α} (l : List β)
    (hstep : ∀ b ∈ l, Brings P (step b) (fun a site => R b a ∧ P site) E) :
    Brings P (l.mapM step) (fun as site => List.Forall₂ R l as ∧ P site) E := by
  induction l with
  | nil =>
      rw [List.mapM_nil]
      exact Brings.pure fun site hsite => ⟨.nil, hsite⟩
  | cons b rest ih =>
      rw [List.mapM_cons]
      refine Brings.bind (hstep b List.mem_cons_self) fun a => Brings.assume fun ha => ?_
      refine Brings.bind (ih fun c hc => hstep c (List.mem_cons_of_mem b hc)) fun as => ?_
      exact Brings.pure fun site hsite => ⟨.cons ha hsite.1, hsite.2⟩

end Brings

section Reading

variable (P) (path : String)

/-- The job leaves `P` true, and a fault that it ends with can be caught. -/
abbrev Catchable (P : Site → Prop) (job : Job α) : Prop :=
  Brings P job (fun _ => P) fun fault site => fault.isOrdinary = true ∧ P site

theorem readBytes_catchable : Catchable P (readBytes path) := by
  have hcheck : Catchable P (checkPath path) := by
    unfold checkPath
    split
    · exact Brings.throw fun site hsite => ⟨rfl, hsite⟩
    · exact Brings.pure fun site hsite => hsite
  apply Brings.bind hcheck
  intro _
  apply Brings.intro
  intro site hsite
  rw [bind_apply, show (disk : Job Disk) site = .ok site.disk site from rfl]
  dsimp only
  cases site.disk.read? path with
  | ok content => exact hsite
  | error error => exact ⟨rfl, hsite⟩

theorem lengthOf_catchable (value : Json.Value) : Catchable P (lengthOf value) := by
  unfold lengthOf
  split
  · exact Brings.pure fun site hsite => hsite
  · exact Brings.throw fun site hsite => ⟨rfl, hsite⟩

theorem readText_catchable : Catchable P (readText path) := by
  apply Brings.bind (readBytes_catchable P path)
  intro bytes
  split
  · exact Brings.pure fun site hsite => hsite
  · exact Brings.throw fun site hsite => ⟨rfl, hsite⟩

theorem readTextLenient_catchable : Catchable P (readTextLenient path) := by
  apply Brings.bind (readBytes_catchable P path)
  exact fun bytes => Brings.pure fun site hsite => hsite

theorem readJson_catchable : Catchable P (readJson path) := by
  apply Brings.get_bind
  intro seen
  apply Brings.bind (readText_catchable P path)
  intro text
  split
  · exact Brings.pure fun site hsite => hsite
  · exact Brings.throw fun site hsite => ⟨rfl, hsite⟩

end Reading

end Docwright.Job
