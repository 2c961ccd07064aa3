import Docwright.Completion
import Docwright.Proofs.Disk.Write
import Mathlib.Order.Defs.Unbundled

/-!
# The course of a job

A job leaves a site behind whether it ends with a result or with a fault;
`after job site` is that site. `Respects R job` says that the job takes every
site to one that `R` relates it to. If `R` is a preorder it is enough to look at
the steps of a job one by one, so a statement about a whole run is put together
along the text of the program.

Most relations here look at one part of the site, and `Via f D` is the relation
`D` on the part `f`. A job that leaves the part as it was, `Keeps f job`,
respects every reflexive relation on it. The requests that a job only reads the
site for are collected first: they leave all of it as it was.
-/

namespace Docwright

def Services.failing : Services where
  writer := ⟨[], .error (.raised "RuntimeError" "")⟩
  drafter := ⟨[], .error (.raised "RuntimeError" "")⟩
  searches := ⟨[], .error (.raised "RuntimeError" "")⟩
  parser := ⟨[], .error (.raised "RuntimeError" "")⟩

def Limits.ample : Limits where
  levels := none
  folders := 1000
  nesting := 1000
  three_le_nesting := by decide

namespace Job

variable {α β γ : Type}

/-- The site that a job leaves, with a result or with a fault. -/
def after (job : Job α) (site : Site) : Site :=
  match job site with
  | .ok _ left => left
  | .error _ left => left

def result (job : Job α) (site : Site) : Except Fault α :=
  match job site with
  | .ok a _ => .ok a
  | .error fault _ => .error fault

/-- The job takes every site to one that the relation relates it to. -/
def Respects (R : Site → Site → Prop) (job : Job α) : Prop :=
  ∀ site, R site (after job site)

/-- The relation `D` on the part `f` of two sites. -/
def Via (f : Site → γ) (D : γ → γ → Prop) (before left : Site) : Prop := D (f before) (f left)

/-- The job leaves the part `f` of every site as it was. -/
abbrev Keeps (f : Site → γ) (job : Job α) : Prop := Respects (Via f Eq) job

instance (f : Site → γ) (D : γ → γ → Prop) [IsPreorder γ D] : IsPreorder Site (Via f D) where
  refl site := refl_of D (f site)
  trans _ _ _ hfirst hnext := trans_of D hfirst hnext

theorem bind_apply (first : Job α) (next : α → Job β) (site : Site) :
    (first >>= next) site =
      match first site with
      | .ok a left => next a left
      | .error fault left => .error fault left := by
  change EStateM.bind first next site = _
  rw [EStateM.bind]
  cases first site with
  | ok a left => rfl
  | error fault left => rfl

theorem get_bind_apply (next : Site → Job α) (site : Site) :
    (get >>= next) site = next site site := rfl

theorem apply_eq_ok {job : Job α} {site : Site} {a : α} (h : result job site = .ok a) :
    job site = .ok a (after job site) := by
  unfold result at h
  unfold after
  cases hjob : job site with
  | ok b left =>
      rw [hjob] at h
      rw [Except.ok.inj h]
  | error fault left =>
      rw [hjob] at h
      exact absurd h (by simp)

theorem apply_eq_error {job : Job α} {site : Site} {fault : Fault}
    (h : result job site = .error fault) : job site = .error fault (after job site) := by
  unfold result at h
  unfold after
  cases hjob : job site with
  | ok b left =>
      rw [hjob] at h
      exact absurd h (by simp)
  | error other left =>
      rw [hjob] at h
      rw [Except.error.inj h]

theorem result_eq_ok {job : Job α} {site : Site} {a : α}
    (h : (result job site).toOption = some a) : result job site = .ok a := by
  cases hresult : result job site with
  | ok b =>
      rw [hresult] at h
      exact congrArg Except.ok (Option.some.inj h)
  | error fault =>
      rw [hresult] at h
      exact absurd h (by simp [Except.toOption])

/-- A job is its result at the site that it leaves. -/
theorem apply_eq_ofResult (job : Job α) (site : Site) :
    job site = ofResult (result job site) (after job site) := by
  cases h : result job site with
  | ok a => exact apply_eq_ok h
  | error fault => exact apply_eq_error h

theorem after_ok {job : Job α} {site left : Site} {a : α} (h : job site = .ok a left) :
    after job site = left := by
  rw [after, h]

theorem after_error {job : Job α} {site left : Site} {fault : Fault}
    (h : job site = .error fault left) : after job site = left := by
  rw [after, h]

theorem after_eq_of_apply {job other : Job α} {site start : Site} (h : job site = other start) :
    after job site = after other start := by
  rw [after, after, h]

theorem after_bind_ok {first : Job α} {next : α → Job β} {site left : Site} {a : α}
    (h : first site = .ok a left) : after (first >>= next) site = after (next a) left := by
  rw [after, bind_apply, h, after]

theorem after_bind_error {first : Job α} {next : α → Job β} {site left : Site} {fault : Fault}
    (h : first site = .error fault left) : after (first >>= next) site = left := by
  rw [after, bind_apply, h]

theorem result_ok {job : Job α} {site left : Site} {a : α} (h : job site = .ok a left) :
    result job site = .ok a := by
  rw [result, h]

theorem result_error {job : Job α} {site left : Site} {fault : Fault}
    (h : job site = .error fault left) : result job site = .error fault := by
  rw [result, h]

theorem result_bind_ok {first : Job α} {next : α → Job β} {site left : Site} {a : α}
    (h : first site = .ok a left) : result (first >>= next) site = result (next a) left := by
  rw [result, bind_apply, h, result]

theorem after_attempt (job : Job α) (site : Site) : after (attempt job) site = after job site := by
  cases h : job site with
  | ok a left => simp [after, attempt, h]
  | error fault left =>
      by_cases hordinary : fault.isOrdinary = true
      · simp [after, attempt, h, hordinary]
      · simp [after, attempt, h, hordinary]

theorem attempt_eq_ok {job : Job α} {site : Site} {a : α} (h : result job site = .ok a) :
    attempt job site = .ok (.ok a) (after job site) := by
  rw [attempt, apply_eq_ok h]

theorem attempt_eq_error {job : Job α} {site : Site} {fault : Fault}
    (h : result job site = .error fault) (hfault : fault.isOrdinary = true) :
    attempt job site = .ok (.error fault) (after job site) := by
  rw [attempt, apply_eq_error h]
  exact if_pos hfault

theorem Respects.attempt {R : Site → Site → Prop} {job : Job α} (h : Respects R job) :
    Respects R (attempt job) := by
  intro site
  rw [after_attempt]
  exact h site

section Preorder

variable {R : Site → Site → Prop} [IsPreorder Site R]

theorem Respects.pure (a : α) : Respects R (pure a : Job α) := fun site => refl_of R site

theorem Respects.throw_bind (fault : Fault) (next : α → Job β) :
    Respects R ((throw fault : Job α) >>= next) := fun site => refl_of R site

theorem Respects.throw (fault : Fault) : Respects R (throw fault : Job α) :=
  fun site => refl_of R site

theorem Respects.bind {first : Job α} {next : α → Job β} (hfirst : Respects R first)
    (hnext : ∀ a, Respects R (next a)) : Respects R (first >>= next) := by
  intro site
  have hstep := hfirst site
  cases h : first site with
  | ok a left =>
      rw [after_ok h] at hstep
      rw [after_bind_ok h]
      exact trans_of R hstep (hnext a left)
  | error fault left =>
      rw [after_error h] at hstep
      rw [after_bind_error h]
      exact hstep

theorem Respects.foldlM {step : β → α → Job β} (l : List α)
    (hstep : ∀ a ∈ l, ∀ b, Respects R (step b a)) (b : β) :
    Respects R (l.foldlM step b) := by
  induction l generalizing b with
  | nil => exact Respects.pure b
  | cons a rest ih =>
      rw [List.foldlM_cons]
      refine Respects.bind (hstep a (by simp) b) fun c => ?_
      exact ih (fun d hd => hstep d (by simp [hd])) c

theorem Respects.mapM {step : α → Job β} (hstep : ∀ a, Respects R (step a)) (l : List α) :
    Respects R (l.mapM step) := by
  induction l with
  | nil =>
      rw [List.mapM_nil]
      exact Respects.pure []
  | cons a rest ih =>
      rw [List.mapM_cons]
      exact Respects.bind (hstep a) fun b => Respects.bind ih fun bs => Respects.pure (b :: bs)

theorem Respects.forM {step : α → Job Unit} (hstep : ∀ a, Respects R (step a)) (l : List α) :
    Respects R (l.forM step) := by
  induction l with
  | nil => exact Respects.pure ()
  | cons a rest ih => exact Respects.bind (hstep a) fun _ => ih

theorem Respects.of_still {job : Job α} (h : Respects Eq job) : Respects R job := by
  intro site
  rw [← h site]
  exact refl_of R site

end Preorder

section Via

variable {f : Site → γ} {D : γ → γ → Prop}

theorem Keeps.respects [IsPreorder γ D] {job : Job α} (h : Keeps f job) :
    Respects (Via f D) job := by
  intro site
  have hsame : f site = f (after job site) := h site
  rw [Via, ← hsame]
  exact refl_of D (f site)

theorem Keeps.after_eq {job : Job α} (h : Keeps f job) (site : Site) :
    f (after job site) = f site := (h site).symm

/-- What is done before the part changes can be left out, whatever the relation. -/
theorem Keeps.bind_respects {first : Job α} {next : α → Job β} (hfirst : Keeps f first)
    (hstay : ∀ site, D (f site) (f site)) (hnext : ∀ a, Respects (Via f D) (next a)) :
    Respects (Via f D) (first >>= next) := by
  intro site
  have hsame : f site = f (after first site) := hfirst site
  cases h : first site with
  | ok a left =>
      rw [after_ok h] at hsame
      rw [after_bind_ok h, Via, hsame]
      exact hnext a left
  | error fault left =>
      rw [after_error h] at hsame
      rw [after_bind_error h, Via, ← hsame]
      exact hstay site

/-- What is done after the part changed can be left out, whatever the relation. -/
theorem Respects.bind_keeps {first : Job α} {next : α → Job β}
    (hfirst : Respects (Via f D) first) (hnext : ∀ a, Keeps f (next a)) :
    Respects (Via f D) (first >>= next) := by
  intro site
  have hstep : D (f site) (f (after first site)) := hfirst site
  cases h : first site with
  | ok a left =>
      rw [after_ok h] at hstep
      rw [after_bind_ok h, Via, Keeps.after_eq (hnext a) left]
      exact hstep
  | error fault left =>
      rw [after_error h] at hstep
      rw [after_bind_error h]
      exact hstep

end Via

section Reading

theorem ofResult_still (result : Except Fault α) : Respects Eq (ofResult result) := by
  cases result with
  | ok a => exact Respects.pure a
  | error fault => exact Respects.throw fault

theorem ofAnswer_still (answer : Except Failure α) : Respects Eq (ofAnswer answer) := by
  cases answer with
  | ok a => exact Respects.pure a
  | error failure => exact Respects.throw _

theorem ofDisk_still (path : String) (result : Except DiskError α) :
    Respects Eq (ofDisk path result) := by
  cases result with
  | ok a => exact Respects.pure a
  | error error => exact Respects.throw _

theorem lengthOf_still (value : Json.Value) : Respects Eq (lengthOf value) := by
  unfold lengthOf
  cases value.length? with
  | some length => exact Respects.pure length
  | none => exact Respects.throw _

theorem get_still : Respects Eq (get : Job Site) := fun _ => rfl

theorem disk_still : Respects Eq disk := fun _ => rfl

theorem checkPath_still (path : String) : Respects Eq (checkPath path) := by
  unfold checkPath
  split
  · exact Respects.throw _
  · exact Respects.pure ()

theorem hasItem_apply (path : String) (site : Site) :
    hasItem path site =
      .ok (!path.toList.any (·.toNat == 0) && site.disk.hasItem path) site := by
  unfold hasItem
  cases h : path.toList.any (·.toNat == 0) with
  | true => rfl
  | false => rfl

theorem hasItem_still (path : String) : Respects Eq (hasItem path) := by
  intro site
  rw [after_ok (hasItem_apply path site)]

theorem readBytes_still (path : String) : Respects Eq (readBytes path) :=
  Respects.bind (checkPath_still path) fun _ =>
    Respects.bind disk_still fun _ => ofDisk_still path _

theorem readText_still (path : String) : Respects Eq (readText path) := by
  refine Respects.bind (readBytes_still path) fun bytes => ?_
  split
  · exact Respects.pure _
  · exact Respects.throw _

theorem readTextLenient_still (path : String) : Respects Eq (readTextLenient path) :=
  Respects.bind (readBytes_still path) fun _ => Respects.pure _

theorem readJson_still (path : String) : Respects Eq (readJson path) := by
  refine Respects.bind get_still fun here => Respects.bind (readText_still path) fun text => ?_
  split
  · exact Respects.pure _
  · exact Respects.throw _

theorem listFolder_still (path : String) : Respects Eq (listFolder path) :=
  Respects.bind (checkPath_still path) fun _ =>
    Respects.bind disk_still fun _ => ofDisk_still path _

end Reading

section Speaking

/-- The sites agree in all but the lines that were said. -/
def Spoken (before left : Site) : Prop := left = { before with said := left.said }

/-- The job says lines and leaves the rest of the site as it was. -/
abbrev OnlySpeaks (job : Job α) : Prop := Respects Spoken job

instance : IsPreorder Site Spoken where
  refl _ := rfl
  trans first middle last hfirst hnext := by
    unfold Spoken at hfirst hnext ⊢
    rw [hnext, hfirst]

theorem say_onlySpeaks (line : String) : OnlySpeaks (say line) := fun _ => rfl

theorem Spoken.part_eq {before left : Site} (h : Spoken before left) (f : Site → γ)
    (hf : ∀ site said, f { site with said := said } = f site) : f left = f before := by
  unfold Spoken at h
  rw [h]
  exact hf before left.said

theorem Spoken.with_disk {before left : Site} (h : Spoken before left) (disk : Disk) :
    Spoken { before with disk := disk } { left with disk := disk } := by
  unfold Spoken at h ⊢
  rw [h]

theorem OnlySpeaks.keeps {f : Site → γ} {job : Job α} (h : OnlySpeaks job)
    (hf : ∀ site said, f { site with said := said } = f site) : Keeps f job :=
  fun site => ((h site).part_eq f hf).symm

end Speaking

section Asking

/-- The disk stayed as it was, and requests were only added. -/
structure Asking (before left : Site) : Prop where
  disk : left.disk = before.disk
  asked : before.asked ⊆ left.asked

/-- The job makes requests and leaves the disk as it was. -/
abbrev OnlyAsks (job : Job α) : Prop := Respects Asking job

instance : IsPreorder Site Asking where
  refl _ := ⟨rfl, List.Subset.refl _⟩
  trans _ _ _ hfirst hnext :=
    ⟨hnext.disk.trans hfirst.disk, List.Subset.trans hfirst.asked hnext.asked⟩

theorem OnlyAsks.keeps_disk {job : Job α} (h : OnlyAsks job) : Keeps Site.disk job :=
  fun site => (h site).disk.symm

/-- Of the requests that were added this is one. -/
def AskingFor (request : Request) (before left : Site) : Prop :=
  Asking before left ∧ request ∈ left.asked

theorem Respects.onlyAsks {request : Request} {job : Job α}
    (h : Respects (AskingFor request) job) : OnlyAsks job := fun site => (h site).1

/-- What was asked for first stays asked for. -/
theorem Respects.bind_onlyAsks {request : Request} {first : Job α} {next : α → Job β}
    (hfirst : Respects (AskingFor request) first) (hnext : ∀ a, OnlyAsks (next a)) :
    Respects (AskingFor request) (first >>= next) := by
  intro site
  have hstep := hfirst site
  cases h : first site with
  | ok a left =>
      rw [after_ok h] at hstep
      rw [after_bind_ok h]
      exact ⟨trans_of Asking hstep.1 (hnext a left), (hnext a left).asked hstep.2⟩
  | error fault left =>
      rw [after_error h] at hstep
      rw [after_bind_error h]
      exact hstep

theorem Spoken.asking {before left : Site} (h : Spoken before left) : Asking before left where
  disk := h.part_eq Site.disk fun _ _ => rfl
  asked := by
    rw [h.part_eq Site.asked fun _ _ => rfl]
    exact List.Subset.refl _

theorem say_onlyAsks (line : String) : OnlyAsks (say line) :=
  fun site => (say_onlySpeaks line site).asking

theorem ask_onlyAsks (request : Request) : OnlyAsks (ask request) :=
  fun site => ⟨rfl, List.subset_append_left site.asked [request]⟩

theorem request_asksFor (request : Request) (change : Site → Site → Services)
    (answer : Site → Except Failure α) : Respects (AskingFor request) (do
      ask request
      let seen ← get
      modify fun site => { site with services := change seen site }
      ofAnswer (answer seen)) := by
  have hask : Respects (AskingFor request) (ask request) := fun site =>
    ⟨ask_onlyAsks request site, List.mem_append_right _ (List.mem_singleton_self request)⟩
  exact hask.bind_onlyAsks fun _ => Respects.bind (.of_still get_still) fun _ =>
    Respects.bind (fun _ => ⟨rfl, List.Subset.refl _⟩) fun _ => .of_still (ofAnswer_still _)

theorem write_onlyAsks (model maxTokens prompt : Json.Value) :
    OnlyAsks (write model maxTokens prompt) :=
  (request_asksFor _ _ (·.services.writer.head)).onlyAsks

theorem openIndex_onlyAsks (limit : Nat) : OnlyAsks (openIndex limit) :=
  (request_asksFor _ _ (·.services.openings.head)).onlyAsks

theorem search_onlyAsks (limit : Nat) (text : String) : OnlyAsks (search limit text) :=
  (request_asksFor _ _ (·.services.searches.head)).onlyAsks

theorem parse_asksFor (content : List UInt8) :
    Respects (AskingFor (.parse content.length)) (parse content) :=
  request_asksFor _ _ (·.services.parser.head)

theorem query_onlyAsks (file : ParsedFile) (value : Json.Value) : OnlyAsks (query file value) := by
  unfold query
  by_cases hatom : (!value.isAtom) = true
  · rw [if_pos hatom]
    exact Respects.throw_bind _ _
  · rw [if_neg hatom]
    refine Respects.bind (ask_onlyAsks _) fun _ => ?_
    split
    · exact .of_still (ofAnswer_still _)
    · exact .pure _

end Asking

theorem visitFolders_respects {R : Site → Site → Prop} [IsPreorder Site R]
    {visit : α → Disk.Folder → Job α} (hvisit : ∀ a folder, Respects R (visit a folder))
    (path : String) (start : α) : Respects R (visitFolders path visit start) := by
  refine Respects.bind (.of_still disk_still) fun found => ?_
  refine Respects.bind (.of_still get_still) fun here => ?_
  refine Respects.bind (.foldlM _ (fun folder _ a => hvisit a folder) start) fun result => ?_
  split
  · exact .pure result
  · exact .throw _

section Disk

/-- A change of the disk is refused for a null character in the path, or by the
disk, and then the site stays as it was. -/
theorem changeDisk_apply (path : String) (change : Disk → Except DiskError Disk) (site : Site) :
    changeDisk path change site =
      if path.toList.any (·.toNat == 0) then .error .nullInPath site
      else
        match change site.disk with
        | .ok changed => .ok () { site with disk := changed }
        | .error error => .error (.disk error path) site := by
  unfold changeDisk checkPath
  by_cases hnull : path.toList.any (·.toNat == 0) = true
  · simp only [hnull, if_true]
    rfl
  · simp only [hnull]
    rw [bind_apply]
    change (disk >>= fun found => ofDisk path (change found) >>= _) site = _
    rw [bind_apply]
    change (ofDisk path (change site.disk) >>= _) site = _
    rw [bind_apply]
    cases change site.disk with
    | ok changed => rfl
    | error error => rfl

theorem openFile_apply (path : String) (site : Site) :
    openFile path site =
      if path.toList.any (·.toNat == 0) then .error .nullInPath site
      else
        match site.disk.fileFor? path with
        | .ok place => .ok place { site with disk := site.disk.insert place (.file []) }
        | .error error => .error (.disk error path) site := by
  unfold openFile checkPath
  by_cases hnull : path.toList.any (·.toNat == 0) = true
  · simp only [hnull, if_true]
    rfl
  · simp only [hnull]
    rw [bind_apply]
    change (disk >>= fun found => ofDisk path (found.fileFor? path) >>= _) site = _
    rw [bind_apply]
    change (ofDisk path (site.disk.fileFor? path) >>= _) site = _
    rw [bind_apply]
    cases site.disk.fileFor? path with
    | ok place => rfl
    | error error => rfl

def acceptText : Json.Value → Job Unit
  | .str _ => pure ()
  | other => throw (.notWritten other.kindWord)

theorem acceptText_still (value : Json.Value) : Respects Eq (acceptText value) := by
  unfold acceptText
  split
  · exact Respects.pure ()
  · exact Respects.throw _

/-- To write a value is to put its content in the file and then to refuse it if it is no text. -/
theorem writeValue_eq (path : String) (value : Json.Value) :
    writeValue path value =
      changeDisk path (·.write? path value.content) >>= fun _ => acceptText value := by
  funext site
  rw [bind_apply, changeDisk_apply, writeValue, bind_apply, openFile_apply]
  by_cases hnull : path.toList.any (·.toNat == 0) = true
  · rw [if_pos hnull, if_pos hnull]
  · rw [if_neg hnull, if_neg hnull, Disk.write?]
    cases site.disk.fileFor? path with
    | error error => rfl
    | ok place =>
        dsimp only [Except.map]
        cases value with
        | str text =>
            have hfilled := site.disk.insert_insert place (.file [])
              (.file (Json.Value.str text).content)
            exact congrArg (fun changed => EStateM.Result.ok () { site with disk := changed })
              hfilled
        | null => rfl
        | bool b => rfl
        | int n => rfl
        | float x => rfl
        | arr elements => rfl
        | obj fields => rfl

theorem writeValue_apply {path : String} (hnull : path.toList.any (·.toNat == 0) = false)
    (value : Json.Value) (site : Site) :
    writeValue path value site =
      match site.disk.write? path value.content with
      | .ok changed => acceptText value { site with disk := changed }
      | .error error => .error (.disk error path) site := by
  rw [writeValue_eq, bind_apply, changeDisk_apply, hnull]
  cases site.disk.write? path value.content with
  | ok changed => rfl
  | error error => rfl

theorem writeText_eq (path text : String) :
    writeText path text = changeDisk path (·.write? path (Text.Utf8.encode text.toList)) := by
  rw [writeText, writeValue_eq]
  funext site
  rw [bind_apply, show (Json.Value.str text).content = Text.Utf8.encode text.toList from rfl]
  cases changeDisk path (·.write? path (Text.Utf8.encode text.toList)) site with
  | ok _ left => rfl
  | error fault left => rfl

theorem writeText_apply {path : String} (hnull : path.toList.any (·.toNat == 0) = false)
    (text : String) (site : Site) :
    writeText path text site =
      match site.disk.write? path (Text.Utf8.encode text.toList) with
      | .ok changed => .ok () { site with disk := changed }
      | .error error => .error (.disk error path) site := by
  rw [writeText_eq, changeDisk_apply, hnull]
  rfl

theorem isOk_writeText {path : String} (hnull : path.toList.any (·.toNat == 0) = false)
    (text : String) (site : Site) :
    (result (writeText path text) site).isOk =
      (site.disk.write? path (Text.Utf8.encode text.toList)).isOk := by
  rw [result, writeText_apply hnull]
  cases site.disk.write? path (Text.Utf8.encode text.toList) with
  | ok changed => rfl
  | error error => rfl

theorem say_keeps_disk (line : String) : Keeps Site.disk (say line) := fun _ => rfl

theorem ask_keeps_disk (request : Request) : Keeps Site.disk (ask request) := fun _ => rfl

end Disk

section Changing

variable {f : Site → γ} (hf : ∀ site disk, f { site with disk := disk } = f site)

include hf

theorem changeDisk_keeps (path : String) (change : Disk → Except DiskError Disk) :
    Keeps f (changeDisk path change) :=
  Respects.bind (.of_still (checkPath_still path)) fun _ =>
    Respects.bind (.of_still disk_still) fun _ =>
      Respects.bind (.of_still (ofDisk_still path _)) fun changed site => (hf site changed).symm

theorem writeValue_keeps (path : String) (value : Json.Value) : Keeps f (writeValue path value) := by
  rw [writeValue_eq]
  exact Respects.bind (changeDisk_keeps hf path _) fun _ => .of_still (acceptText_still value)

theorem writeText_keeps (path text : String) : Keeps f (writeText path text) :=
  writeValue_keeps hf path (.str text)

theorem makeFolder_keeps (path : String) : Keeps f (makeFolder path) :=
  changeDisk_keeps hf path _

theorem makeFoldersWithin_keeps (depth : Nat) (path : String) :
    Keeps f (makeFoldersWithin depth path) := by
  induction depth generalizing path with
  | zero => exact Respects.throw _
  | succ depth ih =>
      unfold makeFoldersWithin
      split
      split
      · exact makeFolder_keeps hf path
      · refine Respects.bind (.of_still (hasItem_still _)) fun found => ?_
        split
        · exact makeFolder_keeps hf path
        · refine Respects.bind (.attempt (ih _)) fun result => ?_
          have hlast : ∀ tail : String,
              Keeps f (if tail = "." then pure () else makeFolder path) := by
            intro tail
            split
            · exact Respects.pure ()
            · exact makeFolder_keeps hf path
          dsimp only
          split
          · exact hlast _
          · exact hlast _
          · exact Respects.throw_bind _ _

theorem makeFolders_keeps (path : String) : Keeps f (makeFolders path) :=
  Respects.bind (.of_still get_still) fun _ => makeFoldersWithin_keeps hf _ path

end Changing

section Asked

theorem say_keeps_asked (line : String) : Keeps Site.asked (say line) := fun _ => rfl

/-- The requests of a site with one more at the end. -/
def OneMore (request : Request) (before left : List Request) : Prop := left = before ++ [request]

theorem write_asks (model maxTokens prompt : Json.Value) :
    Respects (Via Site.asked (OneMore (.write model maxTokens prompt)))
      (write model maxTokens prompt) := by
  have hask : Respects (Via Site.asked (OneMore (.write model maxTokens prompt)))
      (ask (.write model maxTokens prompt)) := fun _ => rfl
  exact hask.bind_keeps fun _ => Respects.bind (.of_still get_still) fun _ =>
    Respects.bind (fun _ => rfl) fun _ => .of_still (ofAnswer_still _)

end Asked

end Job

namespace Completion

open Docwright.Job

variable {receive : Json.Value → Job Unit} {onStatus : Int → String → Job Unit}

/-- Asking for a text only asks if the reports on it do. -/
theorem request_onlyAsks (model maxTokens prompt : Json.Value)
    (hreceive : ∀ given, OnlyAsks (receive given))
    (honStatus : ∀ code body, OnlyAsks (onStatus code body)) :
    OnlyAsks (request model maxTokens prompt receive onStatus) := by
  refine Respects.bind (.attempt (Respects.bind (write_onlyAsks _ _ _) ?_)) ?_
  · intro reply
    split
    · exact Respects.bind (hreceive _) fun _ => .pure _
    · exact Respects.bind (say_onlyAsks _) fun _ => .pure _
  · intro result
    split
    · exact .pure _
    · exact Respects.bind (say_onlyAsks _) fun _ =>
        Respects.bind (honStatus _ _) fun _ => .pure _
    · exact Respects.bind (say_onlyAsks _) fun _ => .pure _

theorem request_asks (model maxTokens prompt : Json.Value)
    (hreceive : ∀ given, Keeps Site.asked (receive given))
    (honStatus : ∀ code body, Keeps Site.asked (onStatus code body)) :
    Respects (Via Site.asked (OneMore (.write model maxTokens prompt)))
      (request model maxTokens prompt receive onStatus) := by
  refine Respects.bind_keeps (.attempt ((write_asks _ _ _).bind_keeps ?_)) ?_
  · intro reply
    split
    · exact Respects.bind (hreceive _) fun _ => .pure _
    · exact Respects.bind (say_keeps_asked _) fun _ => .pure _
  · intro result
    split
    · exact .pure _
    · exact Respects.bind (say_keeps_asked _) fun _ =>
        Respects.bind (honStatus _ _) fun _ => .pure _
    · exact Respects.bind (say_keeps_asked _) fun _ => .pure _

end Completion

end Docwright
