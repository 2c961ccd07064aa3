import Docwright.Proofs.Manual.Drafting
import Mathlib.Data.ENat.Lattice

/-!
# Repeated requests

An answer of the drafting service fails if the request is refused, or if the reply has a
part whose text field holds no text. How a request for a text goes depends on the number of
failing answers with which the feed begins, `leadingFailures`: it is repeated that often,
but not more than twice, and the first answer that does not fail decides.

A feed has no end, so that number may be infinite.
-/

namespace Docwright.Manual

open Docwright.Job

/-- The part has a text field that holds something else than a text. -/
def isFaulty : Block → Bool
  | .text (.str _) => false
  | .text _ => true
  | .other => false

def fails : Except Failure DrafterReply → Bool
  | .error _ => true
  | .ok reply => (reply.parts.getD []).any isFaulty

/-- The texts of the parts make up the text; a part without a text field adds nothing. -/
inductive Joined : List Block → String → Prop
  | nil : Joined [] ""
  | text {parts : List Block} {rest : String} (text : String) (h : Joined parts rest) :
      Joined (.text (.str text) :: parts) (text ++ rest)
  | other {parts : List Block} {rest : String} (h : Joined parts rest) :
      Joined (.other :: parts) rest

section Parts

variable {parts : List Block} {answer : Except Failure DrafterReply}

theorem exists_joined (h : parts.any isFaulty = false) : ∃ text, Joined parts text := by
  induction parts with
  | nil => exact ⟨"", .nil⟩
  | cons part parts ih =>
      rw [List.any_cons, Bool.or_eq_false_iff] at h
      obtain ⟨rest, hrest⟩ := ih h.2
      match part, h.1 with
      | .text (.str text), _ => exact ⟨text ++ rest, .text text hrest⟩
      | .other, _ => exact ⟨rest, .other hrest⟩

theorem textsFrom_of_joined {text : String} (h : Joined parts text) (index : Nat) :
    ∃ texts, textsFrom index (textFields parts) = .ok texts ∧ String.join texts = text := by
  induction h generalizing index with
  | nil => exact ⟨[], rfl, String.join_nil⟩
  | text text h ih =>
      obtain ⟨texts, htexts, hjoin⟩ := ih (index + 1)
      refine ⟨text :: texts, ?_, by rw [String.join_cons, hjoin]⟩
      change textsFrom index (.str text :: textFields _) = _
      rw [textsFrom, htexts]
  | other h ih => exact ih index

theorem textsFrom_of_isFaulty (h : parts.any isFaulty = true) (index : Nat) :
    ∃ fault, textsFrom index (textFields parts) = .error fault := by
  induction parts generalizing index with
  | nil => exact absurd h (by simp)
  | cons part parts ih =>
      have hrest : isFaulty part = false → ∀ index,
          ∃ fault, textsFrom index (textFields parts) = .error fault := by
        intro hpart
        rw [List.any_cons, hpart, Bool.false_or] at h
        exact ih h
      match part with
      | .other => exact hrest rfl index
      | .text (.str text) =>
          obtain ⟨fault, hfault⟩ := hrest rfl (index + 1)
          refine ⟨fault, ?_⟩
          change textsFrom index (.str text :: textFields parts) = _
          rw [textsFrom, hfault]
      | .text .null | .text (.bool _) | .text (.int _) | .text (.float _) | .text (.arr _)
      | .text (.obj _) => exact ⟨_, rfl⟩

theorem outcome_of_fails (h : fails answer = true) : ∃ fault, outcome answer = .error fault := by
  cases answer with
  | error failure => exact ⟨.service failure, rfl⟩
  | ok reply =>
      obtain ⟨fault, hfault⟩ := textsFrom_of_isFaulty h 0
      exact ⟨fault, by simp [outcome, replyText, hfault]⟩

/-- An answer that does not fail comes to the text of its parts, unless that is empty. -/
theorem outcome_of_not_fails (h : fails answer = false) :
    ∃ reply text, answer = .ok reply ∧ Joined (reply.parts.getD []) text ∧
      outcome answer = .ok (if text = "" then none else some text) := by
  cases answer with
  | error failure => exact absurd h (by simp [fails])
  | ok reply =>
      obtain ⟨text, htext⟩ := exists_joined h
      obtain ⟨texts, htexts, hjoin⟩ := textsFrom_of_joined htext 0
      refine ⟨reply, text, rfl, htext, ?_⟩
      by_cases hempty : text = ""
      · simp [outcome, replyText, htexts, hjoin, hempty, Text.nonempty?, Option.filter]
      · simp [outcome, replyText, htexts, hjoin, hempty, Text.nonempty?, Option.filter]

end Parts

section Feeds

variable {feed : Feed DrafterReply} {left n : ℕ}

def leadingFailures (feed : Feed DrafterReply) : ℕ∞ :=
  match feed.next.findIdx? (!fails ·) with
  | some n => n
  | none => if fails feed.after then ⊤ else feed.next.length

theorem leadingFailures_of_fails (h : fails feed.head = true) :
    leadingFailures feed = leadingFailures feed.tail + 1 := by
  obtain ⟨next, last⟩ := feed
  cases next with
  | nil =>
      have hlast : fails last = true := h
      simp [leadingFailures, Feed.tail, hlast]
  | cons answer next =>
      have hanswer : fails answer = true := h
      simp only [leadingFailures, Feed.tail, List.findIdx?_cons, hanswer, Bool.not_true,
        Bool.false_eq_true, if_false]
      cases next.findIdx? (!fails ·) with
      | some n => rfl
      | none =>
          by_cases hlast : fails last = true
          · simp [hlast]
          · simp [hlast]

theorem leadingFailures_of_not_fails (h : fails feed.head = false) : leadingFailures feed = 0 := by
  obtain ⟨next, last⟩ := feed
  cases next with
  | nil =>
      have hlast : fails last = false := h
      simp [leadingFailures, hlast]
  | cons answer next =>
      have hanswer : fails answer = false := h
      simp [leadingFailures, List.findIdx?_cons, hanswer]

/-- The number is at least `n` exactly if the first `n` answers fail. -/
theorem le_leadingFailures_iff :
    (n : ℕ∞) ≤ leadingFailures feed ↔ ∀ i < n, fails (feed.answer i) = true := by
  induction n generalizing feed with
  | zero => simp
  | succ n ih =>
      rw [Nat.forall_lt_succ_left]
      change _ ↔ fails feed.head = true ∧ ∀ i < n, fails (feed.tail.answer i) = true
      rw [← ih, Nat.cast_add_one]
      cases hhead : fails feed.head with
      | true =>
          rw [leadingFailures_of_fails hhead, ENat.add_le_add_iff_right ENat.one_ne_top]
          simp
      | false =>
          rw [leadingFailures_of_not_fails hhead]
          simp

theorem drafted_of_fail (h : ∀ i < left, fails (feed.answer i) = true) :
    tries left feed = left ∧ drafted left feed = none := by
  induction left generalizing feed with
  | zero => exact ⟨rfl, rfl⟩
  | succ left ih =>
      have hsplit : fails feed.head = true ∧ ∀ i < left, fails (feed.tail.answer i) = true :=
        Nat.forall_lt_succ_left.1 h
      obtain ⟨fault, hfault⟩ := outcome_of_fails hsplit.1
      obtain ⟨htries, hdrafted⟩ := ih hsplit.2
      constructor
      · simp [tries, hfault, htries]
      · simp [drafted, hfault, hdrafted]

theorem drafted_of_first (hleft : n < left) (hfail : ∀ i < n, fails (feed.answer i) = true)
    (hfirst : fails (feed.answer n) = false) :
    tries left feed = n + 1 ∧
      ∃ reply text, feed.answer n = .ok reply ∧ Joined (reply.parts.getD []) text ∧
        drafted left feed = if text = "" then none else some text := by
  induction n generalizing feed left with
  | zero =>
      obtain ⟨left, rfl⟩ := Nat.exists_eq_add_one.2 hleft
      have hhead : fails feed.head = false := hfirst
      obtain ⟨reply, text, hanswer, htext, houtcome⟩ := outcome_of_not_fails hhead
      refine ⟨?_, reply, text, hanswer, htext, ?_⟩
      · simp [tries, houtcome]
      · simp [drafted, houtcome]
  | succ n ih =>
      obtain ⟨left, rfl⟩ := Nat.exists_eq_add_one.2 (Nat.zero_lt_of_lt hleft)
      have hsplit : fails feed.head = true ∧ ∀ i < n, fails (feed.tail.answer i) = true :=
        Nat.forall_lt_succ_left.1 hfail
      obtain ⟨fault, hfault⟩ := outcome_of_fails hsplit.1
      obtain ⟨htries, reply, text, hanswer, htext, hdrafted⟩ :=
        ih (Nat.lt_of_succ_lt_succ hleft) hsplit.2 hfirst
      refine ⟨?_, reply, text, hanswer, htext, ?_⟩
      · simp [tries, hfault, htries]
      · simp [drafted, hfault, hdrafted]

/-- The number of failing answers, if it is finite: so many fail, and the next one does not. -/
theorem first_of_leadingFailures_eq (h : leadingFailures feed = n) :
    (∀ i < n, fails (feed.answer i) = true) ∧ fails (feed.answer n) = false := by
  have hfail := le_leadingFailures_iff.1 h.ge
  refine ⟨hfail, ?_⟩
  by_contra hnext
  have hmore : ((n + 1 : ℕ) : ℕ∞) ≤ leadingFailures feed := by
    rw [le_leadingFailures_iff, Nat.forall_lt_succ_right]
    exact ⟨hfail, by simpa using hnext⟩
  rw [h, Nat.cast_le] at hmore
  exact Nat.not_succ_le_self n hmore

theorem draftLog_eq (prompt : Json.Value) (h : n ≤ 2) :
    draftLog prompt (n + 1) 10 = .draft prompt ::
      ([10, 20].take n).flatMap fun delay => [.pause delay, .draft prompt] := by
  match n, h with
  | 0, _ => rfl
  | 1, _ => rfl
  | 2, _ => rfl

end Feeds

/-- A request for a text is repeated as often as the answers fail, but not more than twice,
with a pause of ten and then of twenty seconds before the repetition. Each takes the next
answer of the service, and nothing else is done at the site. There is no text if three
answers fail; otherwise the first one that does not fail gives the text of its parts, also if
it says that the prompt was blocked, or none if that is empty. -/
theorem complete_repeats_failing_requests (model : Json.Value) (prompt : String) {site : Site}
    (hordinary : site.services.drafter.Ordinary) :
    let feed := site.services.drafter
    let left := after (complete model (.str prompt)) site
    ∃ repeats : ℕ, repeats = min (leadingFailures feed) 2 ∧
      left.asked = site.asked ++ .draft (.str prompt) ::
        ([10, 20].take repeats).flatMap (fun delay => [.pause delay, .draft (.str prompt)]) ∧
      left.services = { site.services with drafter := feed.drop (repeats + 1) } ∧
      left.disk = site.disk ∧
      ∃ text?, result (complete model (.str prompt)) site = .ok text? ∧ text? ≠ some "" ∧
        (3 ≤ leadingFailures feed → text? = none) ∧
        (leadingFailures feed < 3 → ∃ reply text, feed.answer repeats = .ok reply ∧
          Joined (reply.parts.getD []) text ∧ text? = if text = "" then none else some text) := by
  intro feed left
  obtain ⟨hresult, hspoken⟩ := complete_apply model prompt hordinary
  have hcourse : ∀ repeats ≤ 2, tries 3 feed = repeats + 1 →
      left.asked = site.asked ++ .draft (.str prompt) ::
          ([10, 20].take repeats).flatMap (fun delay => [.pause delay, .draft (.str prompt)]) ∧
        left.services = { site.services with drafter := feed.drop (repeats + 1) } ∧
        left.disk = site.disk := by
    intro repeats hrepeats htries
    rw [htries, draftLog_eq _ hrepeats] at hspoken
    exact ⟨hspoken.part_eq Site.asked fun _ _ => rfl, hspoken.part_eq Site.services fun _ _ => rfl,
      hspoken.part_eq Site.disk fun _ _ => rfl⟩
  by_cases hthree : 3 ≤ leadingFailures feed
  · obtain ⟨htries, hnone⟩ := drafted_of_fail (le_leadingFailures_iff.1 hthree)
    obtain ⟨hasked, hservices, hdisk⟩ := hcourse 2 (Nat.le_refl 2) htries
    refine ⟨2, ?_, hasked, hservices, hdisk, none, ?_, by simp, fun _ => rfl, fun hfew => ?_⟩
    · exact (min_eq_right (le_trans (by decide) hthree)).symm
    · rw [hresult, hnone]
    · exact absurd hthree (not_le.2 hfew)
  · obtain ⟨n, hn⟩ := ENat.ne_top_iff_exists.1 (ne_top_of_lt (not_le.1 hthree))
    have hfew : n < 3 := by
      rw [← hn] at hthree
      exact_mod_cast not_le.1 hthree
    obtain ⟨hfail, hfirst⟩ := first_of_leadingFailures_eq hn.symm
    obtain ⟨htries, reply, text, hanswer, htext, hdrafted⟩ := drafted_of_first hfew hfail hfirst
    obtain ⟨hasked, hservices, hdisk⟩ := hcourse n (Nat.le_of_lt_succ hfew) htries
    refine ⟨n, ?_, hasked, hservices, hdisk, _, hresult, ?_, fun hmany => absurd hmany hthree,
      fun _ => ⟨reply, text, hanswer, htext, hdrafted⟩⟩
    · rw [← hn, min_eq_left]
      exact_mod_cast Nat.le_of_lt_succ hfew
    · rw [hdrafted]
      split
      · simp
      · simpa

/-- A site where the drafting service fails twice, in two ways, and then answers with a text
and the word that the prompt was blocked. -/
def unsteadySite : Site where
  disk := ⟨[]⟩
  limits := .ample
  services :=
    { Services.failing with
      drafter :=
        ⟨[.error (.raised "RuntimeError" "busy"),
            .ok ⟨some [.text (.str "a"), .text .null], none, ""⟩,
            .ok ⟨some [.text (.str "a"), .other, .text (.str "b")],
              some ⟨.str "SAFETY", .str "blocked"⟩, ""⟩],
          .error (.raised "RuntimeError" "none left")⟩ }

theorem complete_repeats_failing_requests_blocked :
    leadingFailures unsteadySite.services.drafter = 2 ∧
      (after (complete (.str "m") (.str "p")) unsteadySite).asked =
        [.draft (.str "p"), .pause 10, .draft (.str "p"), .pause 20, .draft (.str "p")] ∧
      result (complete (.str "m") (.str "p")) unsteadySite = .ok (some "ab") := by
  have hfailures : leadingFailures unsteadySite.services.drafter = 2 := rfl
  obtain ⟨repeats, hrepeats, hasked, _, _, text?, hresult, _, _, htext⟩ :=
    complete_repeats_failing_requests (.str "m") "p"
      (show unsteadySite.services.drafter.Ordinary from
        Feed.ordinary_of_not_isInterruption (by decide))
  rw [hfailures, min_self] at hrepeats
  obtain rfl : repeats = 2 := by exact_mod_cast hrepeats
  obtain ⟨reply, text, hanswer, hjoined, htext⟩ := htext (by rw [hfailures]; decide)
  obtain rfl := Except.ok.inj hanswer
  have hparts : text = "ab" := by
    cases hjoined with
    | text a h =>
      cases h with
      | other h =>
        cases h with
        | text b h =>
          cases h with
          | nil => decide
  subst hparts
  rw [if_neg (by decide)] at htext
  exact ⟨hfailures, hasked, htext ▸ hresult⟩

end Docwright.Manual
