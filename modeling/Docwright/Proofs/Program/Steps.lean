import Docwright.Proofs.Program.Account

/-!
# The steps that programs are made of

In the course of a run more and more answers are known to have been received. `Knows known`
says that all is accounted for and that these were received, each for its request.
A step keeps what is known, a request for a text adds its answer, and a document may be
opened for a value that is drawn from what was received. A step fails in a way that no job catches
only if the services are not calm; what else may stop a program is a reason of its own.
-/

namespace Docwright.Program

open Docwright.Disk
open Docwright.Job
open Docwright.Path

variable {α β : Type} {disk : Disk} {services : Services} {known : List (Request × Json.Value)}
  {reason : Fault → Prop}

/-- All is accounted for, and these answers were received. -/
structure Knows (disk : Disk) (services : Services) (known : List (Request × Json.Value))
    (site : Site) : Prop where
  accounts : Accounts disk services site
  received : ∀ pair ∈ known, pair ∈ services.received site.asked

/-- The run stopped with a fault: it was interrupted, or there is a reason. All is
accounted for all the same. -/
def Stopped (disk : Disk) (services : Services) (reason : Fault → Prop) (fault : Fault)
    (site : Site) : Prop :=
  Accounts disk services site ∧ (services.Calm → reason fault)

/-- The step failed, in a way that can be caught if the services are calm. -/
def Failed (disk : Disk) (services : Services) (known : List (Request × Json.Value)) (fault : Fault)
    (site : Site) : Prop :=
  Knows disk services known site ∧ (fault.isOrdinary = false → ¬ services.Calm)

theorem Accounts.knows {site : Site} (h : Accounts disk services site) :
    Knows disk services [] site := ⟨h, fun _ hpair => absurd hpair List.not_mem_nil⟩

def answered (request : Request) (answer? : Option Json.Value) : List (Request × Json.Value) :=
  answer?.toList.map (request, ·)

theorem Knows.spoken {site left : Site} (h : Knows disk services known site)
    (hleft : Spoken site left) : Knows disk services known left := by
  refine ⟨h.accounts.spoken hleft, ?_⟩
  rw [hleft.part_eq Site.asked fun _ _ => rfl]
  exact h.received

theorem Knows.requested {site : Site} (h : Knows disk services known site) (request : Request) :
    Knows disk services
      (((site.services.answer? request).map (request, ·)).toList ++ known)
      { site with
        asked := site.asked ++ [request]
        services := site.services.next request } := by
  refine ⟨h.accounts.requested request, fun pair hpair => ?_⟩
  obtain hpair | hpair := List.mem_append.1 hpair
  · rw [Option.mem_toList, Option.map_eq_some_iff] at hpair
    obtain ⟨value, hvalue, rfl⟩ := hpair
    exact h.accounts.mem_received hvalue
  · exact Services.mem_received_append _ (h.received pair hpair)

theorem Knows.forget {site : Site} {more : List (Request × Json.Value)}
    (h : Knows disk services (more ++ known) site) : Knows disk services known site :=
  ⟨h.accounts, fun pair hpair => h.received pair (List.mem_append_right _ hpair)⟩

theorem mem_known_of_answer {request : Request} {answer? : Option Json.Value} {value : Json.Value}
    (h : answer? = some value) : (request, value) ∈ answered request answer? ++ known := by
  apply List.mem_append_left
  simp [answered, h]

/-- An answer to a request for a document makes a value for it. -/
theorem Knows.drawn {site : Site} {request : Request} {given : Json.Value} {place : Place}
    (h : Knows disk services (answered request given.present? ++ known) site)
    (hrequest : Concerns request place) :
    Knows disk services known site ∧ ∀ value, given.present? = some value →
      Drawn (services.received site.asked) place value :=
  ⟨h.forget, fun _ hvalue => .answer hrequest (h.received _ (mem_known_of_answer hvalue))⟩

/-! ### Lines and files -/

theorem say_last (line : String) {E : Fault → Site → Prop} :
    Brings (Knows disk services known) (say line) (fun _ => Knows disk services known) E :=
  .intro fun _ h => h.spoken rfl

theorem say_step (line : String) {next : Job α} {Q : α → Site → Prop} {E : Fault → Site → Prop}
    (hnext : Brings (Knows disk services known) next Q E) :
    Brings (Knows disk services known) (say line >>= fun _ => next) Q E :=
  Brings.bind (say_last line) fun _ => hnext

theorem present_step {path name : String} (htop : IsTopFolder path name) {P : Site → Prop}
    (hplain : ∀ site, P site → site.disk.Plain) {next : Bool → Job α} {Q : α → Site → Prop}
    {E : Fault → Site → Prop}
    (hpresent : Brings (fun site => P site ∧ site.disk.get? [name] ≠ none) (next true) Q E)
    (habsent : Brings P (next false) Q E) : Brings P (hasItem path >>= next) Q E := by
  apply Brings.intro
  intro site h
  rw [bind_apply, htop.hasItem_eq (hplain site h)]
  cases hitem : site.disk.get? [name] with
  | none => exact habsent.ends h
  | some item => exact hpresent.ends ⟨h, by simp [hitem]⟩

theorem list_step {path folder : String} (htop : IsTopFolder path folder)
    (houtput : IsOutputFolder [folder]) :
    Brings (fun site => Knows disk services known site ∧ site.disk.get? [folder] ≠ none)
      (listFolder path) (fun _ => Knows disk services known)
      (Stopped disk services fun _ => ¬ OutputsOpen disk) := by
  apply Brings.intro
  rintro site ⟨h, hthere⟩
  have happly : listFolder path site = ofDisk path (site.disk.list? path) site := by
    rw [listFolder, checkPath, htop.noNull]
    rfl
  obtain ⟨item, hitem⟩ := Option.ne_none_iff_exists'.1 hthere
  rw [happly]
  by_cases hfolder : item = .folder
  · rw [hfolder] at hitem
    rw [list?_of_folder h.accounts.plain htop.leadsTo htop.short hitem]
    exact h
  · have hreason := h.accounts.not_outputsOpen houtput hitem hfolder
    cases site.disk.list? path with
    | ok names => exact h
    | error error => exact ⟨h.accounts, fun _ => hreason⟩

theorem disk_step {next : Disk → Job α} {Q : α → Site → Prop} {E : Fault → Site → Prop}
    (hnext : ∀ now : Disk, now.Plain → AgreeBelow "src" now disk →
      Brings (Knows disk services known) (next now) Q E) :
    Brings (Knows disk services known) (Job.disk >>= next) Q E :=
  .intro fun site h => (hnext site.disk h.accounts.plain h.accounts.sources).ends h

theorem open_step {path folder : String} (htop : IsTopFolder path folder)
    (houtput : IsOutputFolder [folder]) (line : String) {next : Job α}
    {Q : α → Site → Prop} {E : Fault → Site → Prop}
    (hnext : Brings (Knows disk services known) next Q E) :
    Brings (Knows disk services known)
      (hasItem path >>= fun found =>
        if !found then makeFolders path >>= fun _ => say line >>= fun _ => next else next) Q E := by
  apply Brings.intro
  intro site h
  obtain ⟨said, happly⟩ := htop.opened h.accounts.plain line next
  rw [happly]
  exact hnext.ends ⟨(h.accounts.withFolder htop.isName houtput).spoken rfl, h.received⟩

/-- What follows an attempt goes on with what is known, unless the run is interrupted. -/
theorem attempt_step {P : Site → Prop} {M : β → Site → Prop} {first : Job β}
    {next : Except Fault β → Job α} {Q : α → Site → Prop}
    (hfirst : Brings P first M (Failed disk services known))
    (hok : ∀ b, Brings (M b) (next (.ok b)) Q (Stopped disk services reason))
    (herror : ∀ fault, Brings (Knows disk services known) (next (.error fault)) Q
      (Stopped disk services reason)) :
    Brings P (attempt first >>= next) Q (Stopped disk services reason) := by
  apply Brings.attempt_bind hfirst hok
  · exact fun fault _ => (herror fault).imp (fun site h => h.1) (fun _ _ h => h) fun _ _ h => h
  · exact fun fault site hfault h => ⟨h.1.accounts, fun hcalm => absurd hcalm (h.2 hfault)⟩

theorem failed_of_catchable {job : Job α} (h : Catchable (Knows disk services known) job) :
    Brings (Knows disk services known) job (fun _ => Knows disk services known)
      (Failed disk services known) := by
  apply h.imp (fun _ h => h) (fun _ _ h => h)
  intro fault site hfault
  refine ⟨hfault.2, fun hordinary => ?_⟩
  rw [hfault.1] at hordinary
  exact absurd hordinary (by simp)

/-- A document may be opened for a value that is drawn from what was received. -/
theorem writeValue_step {path : String} {value : Json.Value} {place : Place}
    (hpath : LeadsTo path place) :
    Brings
      (fun site => Knows disk services known site ∧
        Drawn (services.received site.asked) place value)
      (writeValue path value) (fun _ => Knows disk services known)
      (Failed disk services known) := by
  rw [writeValue_eq]
  apply Brings.bind (M := fun _ => Knows disk services known)
  · apply Brings.intro
    rintro site ⟨h, hdrawn⟩
    rw [changeDisk_apply]
    cases hnull : path.toList.any (·.toNat == 0) with
    | true => exact ⟨h, by simp [Fault.isOrdinary]⟩
    | false =>
        cases hwrite : site.disk.write? path value.content with
        | error error => exact ⟨h, by simp [Fault.isOrdinary]⟩
        | ok changed =>
            obtain ⟨-, hhold, rfl⟩ := (write?_eq_ok_iff h.accounts.plain hpath _ changed).1 hwrite
            have hname := hhold.isName h.accounts.plain hpath (by simpa using hnull)
            exact ⟨h.accounts.insert hdrawn hhold hname, h.received⟩
  · intro _
    unfold acceptText
    split
    · exact Brings.pure fun _ h => h
    · exact Brings.throw fun _ h => ⟨h, by simp [Fault.isOrdinary]⟩

theorem document_step {path : String} {value : Json.Value} {place : Place}
    (hpath : LeadsTo path place) (hdrawn : Drawn known place value) :
    Brings (Knows disk services known) (writeValue path value)
      (fun _ => Knows disk services known) (Failed disk services known) :=
  (writeValue_step hpath).imp (fun _ h => ⟨h, hdrawn.mono h.received⟩) (fun _ _ h => h)
    fun _ _ h => h

/-! ### Requests -/

/-- An answer of a service ends a run only if it is an interruption. -/
theorem Knows.failed_service {site : Site} (h : Knows disk services known site) {failure : Failure}
    (hcalm : services.Calm → ∀ kind message, failure ≠ .interruption kind message) :
    Failed disk services known (.service failure) site := by
  refine ⟨h, fun hfault hservices => ?_⟩
  rw [Completion.isOrdinary_service (hcalm hservices)] at hfault
  exact absurd hfault (by simp)

theorem write_step (model maxTokens prompt : Json.Value) :
    Brings (Knows disk services known) (write model maxTokens prompt)
      (fun reply => Knows disk services
        (answered (.write model maxTokens prompt) (reply.firstText?.bind Json.Value.present?) ++
          known))
      (Failed disk services known) := by
  apply Brings.intro
  intro site h
  have hleft := h.requested (.write model maxTokens prompt)
  have hcalm := fun hservices => (h.accounts.calm hservices).writer.head
  have happly : write model maxTokens prompt site = ofAnswer site.services.writer.head
      { site with
        asked := site.asked ++ [.write model maxTokens prompt]
        services := site.services.next (.write model maxTokens prompt) } := rfl
  rw [happly]
  cases hhead : site.services.writer.head with
  | ok reply =>
      have hanswer : site.services.answer? (.write model maxTokens prompt) =
          reply.firstText?.bind Json.Value.present? := by
        simp only [Services.answer?, hhead, Completion.obtained]
        cases reply.firstText? with
        | none => rfl
        | some value => rfl
      rw [hanswer, Option.toList_map] at hleft
      exact hleft
  | error failure =>
      refine hleft.forget.failed_service fun hservices kind message hsame => ?_
      exact hcalm hservices kind message (hhead.trans (congrArg _ hsame))

/-- Opening the index can stop the run. -/
theorem openIndex_step (limit : Nat) (hreason : ∀ fault, reason fault) :
    Brings (Knows disk services known) (openIndex limit) (fun _ => Knows disk services known)
      (Stopped disk services reason) := by
  apply Brings.intro
  intro site h
  have hleft := (h.requested (.openIndex limit)).forget
  have happly : openIndex limit site = ofAnswer site.services.openings.head
      { site with
        asked := site.asked ++ [.openIndex limit]
        services := site.services.next (.openIndex limit) } := rfl
  rw [happly]
  cases site.services.openings.head with
  | ok _ => exact hleft
  | error failure => exact ⟨hleft.accounts, fun _ => hreason _⟩

theorem search_step (limit : Nat) (text : String) :
    Brings (Knows disk services known) (search limit text) (fun _ => Knows disk services known)
      (Failed disk services known) := by
  apply Brings.intro
  intro site h
  have hleft := (h.requested (.search limit text)).forget
  have hcalm := fun hservices => (h.accounts.calm hservices).searches.head
  have happly : search limit text site = ofAnswer site.services.searches.head
      { site with
        asked := site.asked ++ [.search limit text]
        services := site.services.next (.search limit text) } := rfl
  rw [happly]
  cases hhead : site.services.searches.head with
  | ok found => exact hleft
  | error failure =>
      refine hleft.failed_service fun hservices kind message hsame => ?_
      exact hcalm hservices kind message (hhead.trans (congrArg _ hsame))

/-- What is asked for is known if it is obtained, whatever is made of the reply and
said of an error status. -/
theorem request_step (model maxTokens prompt : Json.Value) {receive : Json.Value → Job Unit}
    {onStatus : Int → String → Job Unit}
    (hreceive : ∀ known value, Catchable (Knows disk services known) (receive value))
    (honStatus : ∀ known code body, Brings (Knows disk services known) (onStatus code body)
      (fun _ => Knows disk services known) (Stopped disk services reason)) :
    Brings (Knows disk services known)
      (Completion.request model maxTokens prompt receive onStatus)
      (fun given => Knows disk services
        (answered (.write model maxTokens prompt) given.present? ++ known))
      (Stopped disk services reason) := by
  unfold Completion.request
  apply attempt_step (M := fun given =>
    Knows disk services (answered (.write model maxTokens prompt) given.present? ++ known))
  · apply Brings.bind (write_step model maxTokens prompt)
    intro reply
    cases reply.firstText? with
    | some value =>
        apply Brings.bind
        · apply (failed_of_catchable (hreceive _ value)).imp (fun _ h => h) (fun _ _ h => h)
          exact fun _ _ h => ⟨h.1.forget, h.2⟩
        · exact fun _ => Brings.pure fun _ h => h
    | none => exact say_step _ (Brings.pure fun _ h => h)
  · exact fun given => Brings.pure fun _ h => h
  · intro fault
    split
    · rename_i heq
      exact absurd heq (by simp)
    · apply say_step
      exact Brings.bind (honStatus known _ _) fun _ => Brings.pure fun _ h => h
    · exact say_step _ (Brings.pure fun _ h => h)

/-- What a text that is obtained as a draft adds to what is known. -/
def drafted (prompt : Json.Value) (text? : Option String) : List (Request × Json.Value) :=
  answered (.draft prompt) ((Text.nonempty? text?).map .str)

theorem mem_known_of_draft {prompt : Json.Value} {text? : Option String} {text : String}
    (h : Text.nonempty? text? = some text) :
    (.draft prompt, .str text) ∈ drafted prompt text? ++ known :=
  mem_known_of_answer (by rw [h, Option.map_some])

theorem draftOnce_step (prompt : Json.Value) :
    Brings (Knows disk services known) (Manual.draftOnce prompt)
      (fun text => Knows disk services (drafted prompt text ++ known))
      (Failed disk services known) := by
  apply Brings.intro
  intro site h
  have hleft := (h.requested (.draft prompt)).spoken (Manual.draftOnce_spoken prompt site)
  have hresult := Manual.draftOnce_result prompt site
  cases houtcome : Manual.outcome site.services.drafter.head with
  | ok text =>
      rw [houtcome] at hresult
      rw [apply_eq_ok hresult]
      refine ⟨hleft.accounts, fun pair hpair => hleft.received pair ?_⟩
      obtain hpair | hpair := List.mem_append.1 hpair
      · apply List.mem_append_left
        obtain ⟨value, hvalue, rfl⟩ := List.mem_map.1 hpair
        obtain ⟨answer, hanswer, rfl⟩ := Option.map_eq_some_iff.1 (Option.mem_toList.1 hvalue)
        have htext := (Option.filter_eq_some_iff.1 hanswer).1
        simp [Services.answer?, houtcome, Except.toOption, htext]
      · exact List.mem_append_right _ hpair
  | error fault =>
      rw [houtcome] at hresult
      rw [apply_eq_error hresult]
      refine ⟨hleft.forget, fun hfault hservices => ?_⟩
      have hcalm := (h.accounts.calm hservices).drafter.head
      rw [Manual.isOrdinary_of_outcome hcalm houtcome] at hfault
      exact absurd hfault (by simp)

theorem pause_step (delay : Nat) {next : Job α} {Q : α → Site → Prop} {E : Fault → Site → Prop}
    (hnext : Brings (Knows disk services known) next Q E) :
    Brings (Knows disk services known) (ask (.pause delay) >>= fun _ => next) Q E :=
  Brings.bind (M := fun _ => Knows disk services known)
    (.intro fun _ h => (h.requested (.pause delay)).forget) fun _ => hnext

theorem draftWithin_step (model prompt : Json.Value) (left number delay : Nat) :
    Brings (Knows disk services known) (Manual.draftWithin model prompt left number delay)
      (fun text => Knows disk services (drafted prompt text ++ known))
      (Stopped disk services reason) := by
  induction left generalizing number delay with
  | zero => exact Brings.pure fun _ h => h
  | succ left ih =>
      apply attempt_step (draftOnce_step prompt)
      · exact fun text => Brings.pure fun _ h => h
      · intro fault
        apply say_step
        split
        · exact say_step _ (Brings.pure fun _ h => h)
        · exact say_step _ (pause_step delay (ih (number + 1) (delay * 2)))

theorem draft_step (model : Json.Value) (prompt : String) :
    Brings (Knows disk services known) (Manual.complete model (.str prompt))
      (fun text => Knows disk services (drafted (.str prompt) text ++ known))
      (Stopped disk services reason) :=
  say_step _ (draftWithin_step model (.str prompt) 3 1 10)

end Docwright.Program
