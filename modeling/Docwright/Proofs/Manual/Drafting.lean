import Docwright.Manual.Draft
import Docwright.Proofs.Job.Ends
import Docwright.Proofs.Service.Feed
import Docwright.Text.Trim

/-!
# How a text is drafted

What a request to the drafting service comes to depends on the answer only:
`outcome` is a text, or none, or a fault, and after a fault the request is
repeated. `drafted` and `tries` read off a feed of answers what is obtained in
the end and with how many requests, and `draftLog` lists these with the pauses
between them. `draftWithin_apply` says that drafting does just that and leaves
the rest of the site as it was, up to the lines said, unless an answer is an
interruption.
-/

namespace Docwright

namespace Manual

open Docwright.Job

def outcome : Except Failure DrafterReply → Except Fault (Option String)
  | .error failure => .error (.service failure)
  | .ok reply =>
      match replyText reply with
      | .ok text => .ok (Text.nonempty? (some text))
      | .error fault => .error fault

/-- The number of requests, out of `left`, up to the first that does not fail. -/
def tries : Nat → Feed DrafterReply → Nat
  | 0, _ => 0
  | left + 1, feed =>
      match outcome feed.head with
      | .ok _ => 1
      | .error _ => tries left feed.tail + 1

/-- What the first of `left` requests that does not fail comes to. -/
def drafted : Nat → Feed DrafterReply → Option String
  | 0, _ => none
  | left + 1, feed =>
      match outcome feed.head with
      | .ok text => text
      | .error _ => drafted left feed.tail

/-- So many requests with pauses between them, the first one of `delay` seconds. -/
def draftLog (prompt : Json.Value) : Nat → Nat → List Request
  | 0, _ => []
  | 1, _ => [.draft prompt]
  | n + 2, delay => .draft prompt :: .pause delay :: draftLog prompt (n + 1) (delay * 2)

theorem draftLog_succ {prompt : Json.Value} {n delay : Nat} (h : 0 < n) :
    draftLog prompt (n + 1) delay =
      [.draft prompt, .pause delay] ++ draftLog prompt n (delay * 2) := by
  cases n with
  | zero => exact absurd h (Nat.lt_irrefl 0)
  | succ n => rfl

theorem tries_pos {left : Nat} (h : left ≠ 0) (feed : Feed DrafterReply) : 0 < tries left feed := by
  cases left with
  | zero => exact absurd rfl h
  | succ left =>
      unfold tries
      cases outcome feed.head with
      | ok text => exact Nat.one_pos
      | error fault => exact Nat.succ_pos _

theorem tries_le (left : Nat) (feed : Feed DrafterReply) : tries left feed ≤ left := by
  induction left generalizing feed with
  | zero => exact Nat.le_refl 0
  | succ left ih =>
      unfold tries
      cases outcome feed.head with
      | ok text => exact Nat.succ_le_succ (Nat.zero_le left)
      | error fault => exact Nat.succ_le_succ (ih feed.tail)

theorem isOrdinary_of_textsFrom {index : Nat} {values : List Json.Value} {fault : Fault}
    (h : textsFrom index values = .error fault) : fault.isOrdinary = true := by
  fun_induction textsFrom index values with
  | case1 => exact absurd h (by simp)
  | case2 index text rest texts hrest ih => exact absurd h (by simp)
  | case3 index text rest found hrest ih => exact ih (hrest.trans h)
  | case4 index other rest hother =>
      rw [← Except.error.inj h]
      rfl

theorem isOrdinary_of_outcome {answer : Except Failure DrafterReply} {fault : Fault}
    (hanswer : ∀ kind message, answer ≠ .error (.interruption kind message))
    (h : outcome answer = .error fault) : fault.isOrdinary = true := by
  cases answer with
  | error failure =>
      rw [← Except.error.inj h]
      cases failure with
      | interruption kind message => exact absurd rfl (hanswer kind message)
      | raised kind message => rfl
      | noKey key => rfl
      | status code message body => rfl
  | ok reply =>
      cases htexts : textsFrom 0 (textFields (reply.parts.getD [])) with
      | ok texts => simp [outcome, replyText, htexts] at h
      | error found =>
          have hfound : outcome (.ok reply) = .error found := by simp [outcome, replyText, htexts]
          rw [← Except.error.inj (hfound.symm.trans h)]
          exact isOrdinary_of_textsFrom htexts

/-- The site after some requests to the drafting service, and pauses, which take
so many of its answers. -/
def requested (requests : List Request) (count : Nat) (site : Site) : Site :=
  { site with
    asked := site.asked ++ requests
    services := { site.services with drafter := site.services.drafter.drop count } }

theorem requested_requested {first next : List Request} {m n : Nat} {site middle : Site}
    (h : Spoken (requested first m site) middle) :
    Spoken (requested (first ++ next) (m + n) site) (requested next n middle) := by
  unfold Spoken at h ⊢
  rw [h]
  simp [requested, Feed.drop_drop]

theorem draft_apply (prompt : Json.Value) (site : Site) :
    draft prompt site =
      match site.services.drafter.head with
      | .ok reply => .ok reply (requested [.draft prompt] 1 site)
      | .error failure => .error (.service failure) (requested [.draft prompt] 1 site) := by
  unfold draft
  change ofAnswer site.services.drafter.head (requested [.draft prompt] 1 site) = _
  cases site.services.drafter.head with
  | ok reply => rfl
  | error failure => rfl

theorem draftOnce_result (prompt : Json.Value) (site : Site) :
    result (draftOnce prompt) site = outcome site.services.drafter.head := by
  have hdraft := draft_apply prompt site
  unfold draftOnce
  cases hhead : site.services.drafter.head with
  | error failure =>
      rw [hhead] at hdraft
      rw [result, bind_apply, hdraft]
      rfl
  | ok reply =>
      rw [hhead] at hdraft
      rw [result_bind_ok hdraft, outcome]
      split
      · rename_i fault htext
        rw [htext]
        rfl
      · rename_i htext _
        rw [htext]
        rfl
      · rename_i htext _
        rw [htext]
        rfl
      · rename_i text htext hblocked hunblocked
        have hempty : text ≠ "" := by
          rintro rfl
          cases hfeedback : reply.blocked? with
          | some feedback => exact hblocked feedback hfeedback rfl
          | none => exact hunblocked hfeedback rfl
        have hkept : Text.nonempty? (some text) = some text := by
          simp [Text.nonempty?, Option.filter, hempty]
        rw [htext]
        dsimp only
        rw [hkept]
        cases reply.blocked? with
        | some feedback => rfl
        | none => rfl

theorem draftOnce_spoken (prompt : Json.Value) (site : Site) :
    Spoken (requested [.draft prompt] 1 site) (after (draftOnce prompt) site) := by
  have hdraft := draft_apply prompt site
  unfold draftOnce
  cases hhead : site.services.drafter.head with
  | error failure =>
      rw [hhead] at hdraft
      rw [after_bind_error hdraft]
      rfl
  | ok reply =>
      rw [hhead] at hdraft
      rw [after_bind_ok hdraft]
      have hrest : ∀ job : Job (Option String), OnlySpeaks job →
          Spoken (requested [.draft prompt] 1 site) (after job (requested [.draft prompt] 1 site)) :=
        fun job h => h _
      refine hrest _ ?_
      split
      · exact Respects.throw _
      · exact Respects.bind (say_onlySpeaks _) fun _ => .pure _
      · exact Respects.bind (say_onlySpeaks _) fun _ => .pure _
      · refine Respects.bind (say_onlySpeaks _) fun _ => ?_
        cases reply.blocked? with
        | some feedback => exact Respects.bind (say_onlySpeaks _) fun _ => .pure _
        | none => exact Respects.pure _

/-- What up to `left` requests come to: the first answer that does not fail, or the first
failure that cannot be caught. -/
def drafting : Nat → Feed DrafterReply → Except Fault (Option String)
  | 0, _ => .ok none
  | left + 1, feed =>
      match outcome feed.head with
      | .ok text => .ok text
      | .error fault => if fault.isOrdinary then drafting left feed.tail else .error fault

theorem drafting_of_ordinary (left : Nat) {feed : Feed DrafterReply} (h : feed.Ordinary) :
    drafting left feed = .ok (drafted left feed) := by
  induction left generalizing feed with
  | zero => rfl
  | succ left ih =>
      unfold drafting drafted
      cases houtcome : outcome feed.head with
      | ok text => rfl
      | error fault =>
          dsimp only
          rw [if_pos (isOrdinary_of_outcome h.head houtcome)]
          exact ih h.tail

theorem nonempty?_of_outcome {answer : Except Failure DrafterReply} {text : String}
    (h : outcome answer = .ok (some text)) : Text.nonempty? (some text) = some text := by
  unfold outcome at h
  split at h
  · exact absurd h (by simp)
  · split at h
    · exact Option.filter_eq_some_iff.2 ⟨rfl, (Option.filter_eq_some_iff.1 (Except.ok.inj h)).2⟩
    · exact absurd h (by simp)

theorem nonempty?_of_drafting {left : Nat} {feed : Feed DrafterReply} {text : String}
    (h : drafting left feed = .ok (some text)) : Text.nonempty? (some text) = some text := by
  induction left generalizing feed with
  | zero => exact absurd h (by simp [drafting])
  | succ left ih =>
      unfold drafting at h
      cases houtcome : outcome feed.head with
      | ok text? =>
          rw [houtcome] at h
          rw [Except.ok.inj h] at houtcome
          exact nonempty?_of_outcome houtcome
      | error fault =>
          simp only [houtcome] at h
          split at h
          · exact ih h
          · exact absurd h (by simp)

/-- A request that fails is made again after a pause, if there is one left. -/
theorem draftWithin_again (model prompt : Json.Value) (left number delay : Nat) {site : Site}
    {fault : Fault} (hresult : result (draftOnce prompt) site = .error fault)
    (hfault : fault.isOrdinary = true) :
    ∃ paused, Spoken (requested [.draft prompt, .pause delay] 1 site) paused ∧
      draftWithin model prompt (left + 2) number delay site =
        draftWithin model prompt (left + 1) (number + 1) (delay * 2) paused := by
  have hattempt := attempt_eq_error hresult hfault
  have hspoken := draftOnce_spoken prompt site
  rw [draftWithin, bind_apply, hattempt]
  generalize after (draftOnce prompt) site = here at hspoken
  let paused : Site :=
    { requested [.pause delay] 0 here with
      said := here.said ++
        [s!"Error calling Gemini API ({model}) on attempt {number}: " ++
          s!"{fault.kind} - {fault.message}"] ++
        [s!"Retrying in {delay} seconds..."] }
  have hstep : Spoken (requested [.draft prompt, .pause delay] 1 site)
      (requested [.pause delay] 0 here) := requested_requested hspoken
  have hsaid : Spoken (requested [.pause delay] 0 here) paused := rfl
  exact ⟨paused, trans_of Spoken hstep hsaid, rfl⟩

/-- Drafting obtains what the answers of the feed come to, with as many requests as
that takes. -/
theorem draftWithin_apply (model prompt : Json.Value) (left number delay : Nat) {site : Site}
    {text? : Option String} (h : drafting left site.services.drafter = .ok text?) :
    result (draftWithin model prompt left number delay) site = .ok text? ∧
      Spoken
        (requested (draftLog prompt (tries left site.services.drafter) delay)
          (tries left site.services.drafter) site)
        (after (draftWithin model prompt left number delay) site) := by
  -- On the requests that are left; a later one starts with the tail of the feed.
  induction left generalizing number delay site with
  | zero =>
      constructor
      · exact h
      · simp [Spoken, requested, tries, draftLog, Feed.drop, after, draftWithin]
        rfl
  | succ left ih =>
      have hresult := draftOnce_result prompt site
      have hspoken := draftOnce_spoken prompt site
      unfold drafting at h
      unfold tries
      cases houtcome : outcome site.services.drafter.head with
      | ok text =>
          rw [houtcome] at h hresult
          have hattempt := attempt_eq_ok hresult
          rw [draftWithin, result_bind_ok hattempt, after_bind_ok hattempt]
          exact ⟨h, hspoken⟩
      | error fault =>
          rw [houtcome] at hresult
          simp only [houtcome] at h
          by_cases hfault : fault.isOrdinary = true
          case neg => exact absurd h (by simp [hfault])
          rw [if_pos hfault] at h
          cases left with
          | zero =>
              have hattempt := attempt_eq_error hresult hfault
              rw [draftWithin, result_bind_ok hattempt, after_bind_ok hattempt]
              refine ⟨h, trans_of Spoken hspoken ?_⟩
              rfl
          | succ left =>
              obtain ⟨paused, hpaused, happly⟩ :=
                draftWithin_again model prompt left number delay hresult hfault
              have hfeed : paused.services.drafter = site.services.drafter.tail :=
                hpaused.part_eq (·.services.drafter) fun _ _ => rfl
              have hrest := ih (number + 1) (delay * 2) (hfeed ▸ h)
              rw [hfeed] at hrest
              rw [result, happly, after_eq_of_apply happly]
              refine ⟨hrest.1, ?_⟩
              dsimp only
              rw [draftLog_succ (tries_pos (Nat.succ_ne_zero left) _), Nat.add_comm _ 1]
              exact trans_of Spoken (requested_requested hpaused) hrest.2

theorem complete_ends (model : Json.Value) (prompt : String) {site : Site}
    {text? : Option String} (h : drafting 3 site.services.drafter = .ok text?) :
    Ends (complete model (.str prompt)) site (.ok text?)
      (requested (draftLog (.str prompt) (tries 3 site.services.drafter) 10)
        (tries 3 site.services.drafter) site) := by
  have hlength : lengthOf (.str prompt) site = .ok prompt.length site := rfl
  have hsaid : ∀ line, say line site = .ok () { site with said := site.said ++ [line] } :=
    fun _ => rfl
  unfold complete Ends
  rw [result_bind_ok hlength, after_bind_ok hlength, result_bind_ok (hsaid _),
    after_bind_ok (hsaid _)]
  exact draftWithin_apply model (.str prompt) 3 1 10 h

theorem complete_apply (model : Json.Value) (prompt : String) {site : Site}
    (h : site.services.drafter.Ordinary) :
    Ends (complete model (.str prompt)) site (.ok (drafted 3 site.services.drafter))
      (requested (draftLog (.str prompt) (tries 3 site.services.drafter) 10)
        (tries 3 site.services.drafter) site) :=
  complete_ends model prompt (drafting_of_ordinary 3 h)

theorem draftOnce_asks (prompt : Json.Value) :
    Respects (AskingFor (.draft prompt)) (draftOnce prompt) := by
  intro site
  have hasked : Asking site (requested [.draft prompt] 1 site) :=
    ⟨rfl, List.subset_append_left site.asked _⟩
  have hspoken := (draftOnce_spoken prompt site).asking
  refine ⟨trans_of Asking hasked hspoken, hspoken.asked ?_⟩
  exact List.mem_append_right _ (List.mem_singleton_self _)

theorem draftWithin_asks (model prompt : Json.Value) (left number delay : Nat) :
    Respects (AskingFor (.draft prompt)) (draftWithin model prompt (left + 1) number delay) := by
  induction left generalizing number delay with
  | zero =>
      refine Respects.bind_onlyAsks (.attempt (draftOnce_asks prompt)) fun result => ?_
      cases result with
      | ok text => exact Respects.pure text
      | error fault =>
          refine Respects.bind (say_onlyAsks _) fun _ => ?_
          exact Respects.bind (say_onlyAsks _) fun _ => .pure none
  | succ left ih =>
      refine Respects.bind_onlyAsks (.attempt (draftOnce_asks prompt)) fun result => ?_
      cases result with
      | ok text => exact Respects.pure text
      | error fault =>
          refine Respects.bind (say_onlyAsks _) fun _ => ?_
          refine Respects.bind (say_onlyAsks _) fun _ => ?_
          exact Respects.bind (ask_onlyAsks _) fun _ => (ih (number + 1) (delay * 2)).onlyAsks

/-- A text is asked for, and nothing else is done, also if an answer is an interruption. -/
theorem complete_asks (model : Json.Value) (prompt : String) :
    Respects (AskingFor (.draft (.str prompt))) (complete model (.str prompt)) := by
  intro site
  have hrest := draftWithin_asks model (.str prompt) 2 1 10
    (after (say s!"Sending prompt to Gemini ({model}). Prompt length (chars): {prompt.length}") site)
  exact ⟨⟨hrest.1.disk, hrest.1.asked⟩, hrest.2⟩

end Manual

end Docwright
