import Docwright.Proofs.Job.Course

/-!
# How a job ends

`Ends job site r left` says that a job started at `site` ends with the result or
fault `r` and leaves the site `left`, up to the lines it said. The steps of a job
are put together with `Ends.bind`: nothing that a job does depends on the lines
said before it, so the next step may start with any of them.
-/

namespace Docwright.Job

variable {α β : Type}

abbrev saying (site : Site) (said : List String) : Site := { site with said := said }

/-- The job ends like that and leaves that site, up to the lines said. -/
def Ends (job : Job α) (site : Site) (r : Except Fault α) (left : Site) : Prop :=
  result job site = r ∧ Spoken left (after job site)

variable {site middle left : Site} {a : α}

theorem Ends.intro {job : Job α} (happly : job site = .ok a left) : Ends job site (.ok a) left := by
  rw [Ends, result_ok happly, after_ok happly]
  exact ⟨rfl, rfl⟩

theorem Ends.fault {job : Job α} {fault : Fault} (happly : job site = .error fault left) :
    Ends job site (.error fault) left := by
  rw [Ends, result_error happly, after_error happly]
  exact ⟨rfl, rfl⟩

/-- A job that comes to an answer of a service ends with it. -/
theorem Ends.answer {job : Job α} {answer : Except Failure α}
    (happly : job site = ofAnswer answer left) :
    Ends job site (answer.mapError .service) left := by
  cases answer with
  | ok a => exact .intro happly
  | error failure => exact .fault happly

theorem Ends.pure (h : Spoken left site := by exact rfl) :
    Ends (pure a : Job α) site (.ok a) left := ⟨rfl, h⟩

theorem Ends.throw (fault : Fault) : Ends (throw fault : Job α) site (.error fault) site :=
  .fault rfl

theorem Ends.ofResult (r : Except Fault α) : Ends (ofResult r) site r site := by
  cases r with
  | ok a => exact .pure
  | error fault => exact .throw fault

theorem Ends.bind_eq {first : Job α} (h : Ends first site (.ok a) middle)
    (next : α → Job β) : ∃ said, (first >>= next) site = next a (saying middle said) := by
  have hmiddle : after first site = saying middle (after first site).said := h.2
  refine ⟨(after first site).said, ?_⟩
  rw [bind_apply, apply_eq_ok h.1, ← hmiddle]

theorem exists_apply_trans {job other last : Job α}
    (happly : ∃ said, job site = other (saying middle said))
    (hother : ∀ said, ∃ heard, other (saying middle said) = last (saying left heard)) :
    ∃ heard, job site = last (saying left heard) := by
  obtain ⟨said, happly⟩ := happly
  obtain ⟨heard, hother⟩ := hother said
  exact ⟨heard, happly.trans hother⟩

/-- After a step the whole job comes to what its next one comes to. -/
theorem Ends.bind_to {first : Job α} {next : α → Job β} {last : Job β}
    (hfirst : Ends first site (.ok a) middle)
    (hnext : ∀ said, ∃ heard, next a (saying middle said) = last (saying left heard)) :
    ∃ heard, (first >>= next) site = last (saying left heard) :=
  exists_apply_trans (hfirst.bind_eq next) hnext

theorem Ends.bind {first : Job α} {next : α → Job β} {r : Except Fault β}
    (hfirst : Ends first site (.ok a) middle)
    (hnext : ∀ said, Ends (next a) (saying middle said) r left) :
    Ends (first >>= next) site r left := by
  obtain ⟨hresult, hspoken⟩ := hfirst
  have happly := apply_eq_ok hresult
  have hmiddle : after first site = saying middle (after first site).said := hspoken
  rw [Ends, result_bind_ok happly, after_bind_ok happly, hmiddle]
  exact hnext (after first site).said

theorem Ends.of_apply {job other : Job α} {r : Except Fault α} {start : Site}
    (happly : job start = other site) (h : Ends other site r left) : Ends job start r left := by
  unfold Ends result after at h ⊢
  rw [happly]
  exact h

/-- The site that is left may also be known only by a property. -/
theorem exists_ends_of_apply {job other : Job α} {r : Except Fault α} {P : Site → Prop}
    (happly : ∃ said, job site = other (saying middle said))
    (hother : ∀ said, ∃ left, Ends other (saying middle said) r left ∧ P left) :
    ∃ left, Ends job site r left ∧ P left := by
  obtain ⟨said, happly⟩ := happly
  obtain ⟨left, hleft, hproperty⟩ := hother said
  exact ⟨left, hleft.of_apply happly, hproperty⟩

theorem Ends.bind_exists {first : Job α} {next : α → Job β} {r : Except Fault β}
    {P : Site → Prop} (hfirst : Ends first site (.ok a) middle)
    (hnext : ∀ said, ∃ left, Ends (next a) (saying middle said) r left ∧ P left) :
    ∃ left, Ends (first >>= next) site r left ∧ P left :=
  exists_ends_of_apply (hfirst.bind_eq next) hnext

theorem Ends.bind_fault {first : Job α} {next : α → Job β} {fault : Fault}
    (hfirst : Ends first site (.error fault) left) :
    Ends (first >>= next) site (.error fault) left := by
  obtain ⟨hresult, hspoken⟩ := hfirst
  have happly := apply_eq_error hresult
  rw [Ends, result, after_bind_error happly, bind_apply, happly]
  exact ⟨rfl, hspoken⟩

theorem Ends.say (line : String) : Ends (say line) site (.ok ()) site := ⟨rfl, rfl⟩

/-- What is left may have any lines. -/
theorem Ends.respoken {job : Job α} {r : Except Fault α} (h : Ends job site r left) {other : Site}
    (hother : Spoken other left) : Ends job site r other :=
  ⟨h.1, trans_of Spoken hother h.2⟩

/-- An attempt ends with what the job ends with, unless that cannot be caught. -/
theorem Ends.attempt {job : Job α} {r : Except Fault α} (h : Ends job site r left)
    (hordinary : ∀ fault, r = .error fault → fault.isOrdinary = true) :
    Ends (attempt job) site (.ok r) left := by
  obtain ⟨hresult, hspoken⟩ := h
  cases r with
  | ok a =>
      have happly := attempt_eq_ok hresult
      rw [Ends, result_ok happly, after_ok happly]
      exact ⟨rfl, hspoken⟩
  | error fault =>
      have happly := attempt_eq_error hresult (hordinary fault rfl)
      rw [Ends, result_ok happly, after_ok happly]
      exact ⟨rfl, hspoken⟩

theorem Ends.mapM {step : β → Job α} {f : β → α} {l : List β}
    (hstep : ∀ b ∈ l, ∀ said, Ends (step b) (saying site said) (.ok (f b)) site)
    (said : List String) :
    Ends (l.mapM step) (saying site said) (.ok (l.map f)) site := by
  induction l generalizing said with
  | nil =>
      rw [List.mapM_nil]
      exact .pure
  | cons b rest ih =>
      rw [List.mapM_cons]
      refine (hstep b List.mem_cons_self said).bind fun said => ?_
      refine (ih (fun c hc => hstep c (List.mem_cons_of_mem b hc)) said).bind fun said => ?_
      exact .pure

theorem OnlySpeaks.ends {job : Job α} (h : OnlySpeaks job) (site : Site) :
    Ends job site (result job site) site := ⟨rfl, h site⟩

end Docwright.Job
