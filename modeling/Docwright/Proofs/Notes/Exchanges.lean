import Docwright.Notes
import Docwright.Proofs.Disk.Access
import Docwright.Proofs.Service.Received

/-!
# What is exchanged with the services

In the turn of a source file notes are asked for, then the reference index is opened and
searched, then an addendum is asked for, and the turn may end before each of these
requests. An `Exchange` says how far it came and with what answers, so both the requests
of a turn and what comes of it can be read off: nothing, notes that are to be saved, or a
fault that ends the whole run. `Exchange.Breaks` lists the ways in which a run is ended.

All turns draw on the same feeds of answers, and each request uses up one of them.
-/

namespace Docwright.Notes

open Docwright.Disk
open Docwright.Path

def found : Except Failure (List Json.Value) → Option String
  | .ok [] => none
  | .ok values => (textsFrom 0 values).toOption.map (String.intercalate foundSeparator)
  | .error _ => none

/-- What is exchanged with the services in the turn of a file. -/
inductive Exchange where
  /-- The file is passed over. -/
  | skipped
  /-- Notes are asked for and not obtained. -/
  | unanswered (content : String)
  /-- Notes are obtained, and the index cannot be opened. -/
  | unopened (content : String) (notes : Json.Value) (failure : Failure)
  /-- Notes are obtained, and a search for more finds nothing. -/
  | unsupported (content : String) (notes : Json.Value)
  /-- A search finds something, and an addendum is asked for. -/
  | supported (content : String) (notes : Json.Value) (found : String) (reply : Json.Value)
  deriving DecidableEq, Repr

def notesRequest (settings : Settings) (content path : String) : Request :=
  .write settings.model settings.notesTokens (.str (notesPrompt content path))

def searchRequest (content : String) : Request := .search searchLimit (searchedStart content)

def addendumRequest (settings : Settings) (notes : Json.Value) (found path : String) : Request :=
  .write settings.model settings.addendumTokens (.str (addendumPrompt notes.display found path))

namespace Exchange

def requests (settings : Settings) (path : String) : Exchange → List Request
  | .skipped => []
  | .unanswered content => [notesRequest settings content path]
  | .unopened content _ _ => [notesRequest settings content path, .openIndex searchLimit]
  | .unsupported content _ =>
      [notesRequest settings content path, .openIndex searchLimit, searchRequest content]
  | .supported content notes found _ =>
      [notesRequest settings content path, .openIndex searchLimit, searchRequest content,
        addendumRequest settings notes found path]

end Exchange

/-- The text of a reply is an addendum: it is not empty and does not hold the phrase by
which an addendum is declined. -/
def IsAddendum (text : String) : Prop := text ≠ "" ∧ ¬ declined.toList <:+: text.toList

instance (text : String) : Decidable (IsAddendum text) := inferInstanceAs (Decidable (_ ∧ _))

/-- The notes after a reply to the request for an addendum. An addendum is put at their
end; a reply that counts as present has to be a text. -/
def withReply (notes reply : Json.Value) : Except Fault Json.Value :=
  match reply with
  | .str text => if IsAddendum text then extended notes (addendumSeparator ++ text) else .ok notes
  | other => if other.isPresent then .error (.noMember other.kindWord "strip") else .ok notes

namespace Exchange

/-- What comes of an exchange: notes that are to be saved, nothing, or a fault. -/
def outcome : Exchange → Except Fault (Option Json.Value)
  | .skipped => .ok none
  | .unanswered _ => .ok none
  | .unopened _ _ failure => .error (.service failure)
  | .unsupported _ notes => .ok (some notes)
  | .supported _ notes _ reply => (withReply notes reply).map some

/-- The exchange ends the run with a fault. -/
inductive Breaks : Exchange → Fault → Prop where
  /-- The index cannot be opened. -/
  | opening (content : String) (notes : Json.Value) (failure : Failure) :
      Breaks (.unopened content notes failure) (.service failure)
  /-- The reply to the request for an addendum counts as present and is no text. -/
  | reply (content : String) (notes : Json.Value) (found : String) {reply : Json.Value}
      (hpresent : reply.isPresent = true) (htext : reply.text? = none) :
      Breaks (.supported content notes found reply) (.noMember reply.kindWord "strip")
  /-- The notes are neither a text nor a list, and nothing can be put at their end. -/
  | notes (content : String) {notes : Json.Value} (found : String) {added : String}
      (hadded : IsAddendum added) (htext : notes.text? = none)
      (hlist : ∀ elements, notes ≠ .arr elements) :
      Breaks (.supported content notes found (.str added)) (.noSum notes.kindWord)

end Exchange

theorem extended_eq_error_iff {notes : Json.Value} {more : String} {fault : Fault} :
    extended notes more = .error fault ↔
      notes.text? = none ∧ (∀ elements, notes ≠ .arr elements) ∧ fault = .noSum notes.kindWord := by
  cases notes <;> simp [extended, Json.Value.text?, eq_comm]

/-- A reply breaks the run if it is no addendum and counts as present all the same, or if it
is one and the notes cannot take it. -/
theorem withReply_eq_error_iff {notes reply : Json.Value} {fault : Fault} :
    withReply notes reply = .error fault ↔
      (reply.isPresent = true ∧ reply.text? = none ∧ fault = .noMember reply.kindWord "strip") ∨
      ∃ added, reply = .str added ∧ IsAddendum added ∧ notes.text? = none ∧
        (∀ elements, notes ≠ .arr elements) ∧ fault = .noSum notes.kindWord := by
  have hother : ∀ other : Json.Value, other.text? = none →
      withReply notes other =
        if other.isPresent then .error (.noMember other.kindWord "strip") else .ok notes := by
    intro other htext
    cases other with
    | str text => exact absurd htext (by simp [Json.Value.text?])
    | _ => rfl
  cases htext : reply.text? with
  | none =>
      have hstr : ∀ added, reply ≠ .str added := by
        rintro added rfl
        exact absurd htext (by simp [Json.Value.text?])
      rw [hother reply htext]
      split
      · rename_i hpresent
        simp [hpresent, hstr, eq_comm]
      · rename_i hpresent
        simp [hpresent, hstr]
  | some text =>
      obtain rfl := Json.Value.text?_eq_some_iff.1 htext
      rw [withReply]
      by_cases hadded : IsAddendum text
      · simp [hadded, extended_eq_error_iff]
      · simp [hadded]

theorem Exchange.outcome_eq_error_iff {exchange : Exchange} {fault : Fault} :
    exchange.outcome = .error fault ↔ exchange.Breaks fault := by
  have hmap : ∀ r : Except Fault Json.Value, r.map some = .error fault ↔ r = .error fault := by
    intro r
    cases r with
    | ok value => simp [Except.map]
    | error other => simp [Except.map]
  cases exchange with
  | skipped => exact ⟨fun h => absurd h (by simp [outcome]), fun h => nomatch h⟩
  | unanswered content => exact ⟨fun h => absurd h (by simp [outcome]), fun h => nomatch h⟩
  | unsupported content notes =>
      exact ⟨fun h => absurd h (by simp [outcome]), fun h => nomatch h⟩
  | unopened content notes failure =>
      constructor
      · intro h
        rw [← Except.error.inj h]
        exact .opening content notes failure
      · rintro ⟨⟩
        rfl
  | supported content notes found reply =>
      rw [outcome, hmap, withReply_eq_error_iff]
      constructor
      · rintro (⟨hpresent, htext, rfl⟩ | ⟨added, rfl, hadded, htext, hlist, rfl⟩)
        · exact .reply content notes found hpresent htext
        · exact .notes content found hadded htext hlist
      · intro h
        cases h with
        | reply _ _ _ hpresent htext => exact .inl ⟨hpresent, htext, rfl⟩
        | notes _ _ hadded htext hlist => exact .inr ⟨_, rfl, hadded, htext, hlist, rfl⟩

theorem isPresent_extended {notes both : Json.Value} {more : String}
    (hnotes : notes.isPresent = true) (h : extended notes more = .ok both) :
    both.isPresent = true := by
  cases notes with
  | str text =>
      rw [← Except.ok.inj h]
      have hne : text ≠ "" := by simpa [Json.Value.isPresent] using hnotes
      simp [Json.Value.isPresent, hne]
  | arr elements =>
      rw [← Except.ok.inj h]
      have hne : elements ≠ [] := by simpa [Json.Value.isPresent] using hnotes
      simp [Json.Value.isPresent, hne]
  | _ => exact absurd h (by simp [extended])

theorem isPresent_withReply {notes reply both : Json.Value} (hnotes : notes.isPresent = true)
    (h : withReply notes reply = .ok both) : both.isPresent = true := by
  unfold withReply at h
  split at h
  · split at h
    · exact isPresent_extended hnotes h
    · exact Except.ok.inj h ▸ hnotes
  · split at h
    · exact absurd h (by simp)
    · exact Except.ok.inj h ▸ hnotes

/-- What is exchanged about a file with that content once there are notes. -/
def exchangeAfter (content : String) (notes : Json.Value) (services : Services) : Exchange :=
  match services.openings.head with
  | .error failure => .unopened content notes failure
  | .ok _ =>
      match Text.nonempty? (found services.searches.head) with
      | none => .unsupported content notes
      | some text => .supported content notes text (Completion.obtained services.writer.head)

def exchangeOn (content : String) (services : Services) : Exchange :=
  match (Completion.obtained services.writer.head).present? with
  | none => .unanswered content
  | some notes => exchangeAfter content notes { services with writer := services.writer.tail }

structure Source where
  path : String
  name : String
  deriving DecidableEq, Repr

def Source.notesPlace (source : Source) : Place := ["file_notes", source.name ++ ".md"]

/-- The content of a file that can be read and is not blank. -/
def contentOf? (disk : Disk) (path : String) : Option String :=
  ((disk.read? path).toOption.map fun content =>
    String.ofList (Text.unifyNewlines (Text.Utf8.decodeLenient content))).filter
      (!Text.isBlankText ·)

/-- Nothing is to be done about the file: it has notes, or no content to take notes on. -/
def Source.Settled (source : Source) (disk : Disk) : Prop :=
  disk.get? source.notesPlace ≠ none ∨ contentOf? disk source.path = none

/-- The turn of a source file, with the site at which it starts. -/
structure Turn where
  source : Source
  site : Site

namespace Turn

variable (settings : Settings) (turn : Turn)

def exchange : Exchange :=
  if turn.site.disk.hasItem (settings.notesPath turn.source.name) then .skipped
  else
    match contentOf? turn.site.disk turn.source.path with
    | none => .skipped
    | some content => exchangeOn content turn.site.services

def requests : List Request := (turn.exchange settings).requests settings turn.source.path

/-- What the file of the notes is opened for in a turn, if the disk takes the file. -/
def opened? : Option Json.Value :=
  (turn.exchange settings).outcome.toOption.join.filter fun _ =>
    turn.site.disk.TakesFile "file_notes" (turn.source.name ++ ".md")

/-- The text that a turn leaves in the file of the notes. It is empty if what the file was
opened for is no text. -/
def saved? : Option String := (turn.opened? settings).map fun notes => notes.text?.getD ""

end Turn

theorem Turn.isPresent_of_outcome {settings : Settings} {turn : Turn} {notes : Json.Value}
    (h : (turn.exchange settings).outcome = .ok (some notes)) : notes.isPresent = true := by
  have hskipped : Exchange.skipped.outcome ≠ .ok (some notes) := by simp [Exchange.outcome]
  unfold exchange at h
  split at h
  · exact absurd h hskipped
  · split at h
    · exact absurd h hskipped
    · unfold exchangeOn at h
      split at h
      · exact absurd h (by simp [Exchange.outcome])
      · rename_i first hfirst
        have hpresent := (Json.Value.present?_eq_some_iff.1 hfirst).2
        unfold exchangeAfter at h
        split at h
        · exact absurd h (by simp [Exchange.outcome])
        · split at h
          · obtain rfl : first = notes := by simpa [Exchange.outcome] using h
            exact hpresent
          · rw [Exchange.outcome] at h
            generalize hreply : withReply first _ = r at h
            cases r with
            | error fault => exact absurd h (by simp [Except.map])
            | ok both =>
                obtain rfl : both = notes := by simpa [Except.map] using h
                exact isPresent_withReply hpresent hreply

section GivesTexts

variable {content : String} {notes : Json.Value} {services : Services} {fault : Fault}

theorem not_breaks_exchangeAfter (h : services.GivesTexts) (hnotes : notes.text?.isSome = true) :
    ¬ (exchangeAfter content notes services).Breaks fault := by
  unfold exchangeAfter
  split
  · rename_i failure hopening
    exact absurd ((h.openings 0).symm.trans hopening) (by simp)
  · split
    · exact fun hbreaks => nomatch hbreaks
    · rename_i text hfound
      generalize hreply : Completion.obtained services.writer.head = reply
      intro hbreaks
      cases hbreaks with
      | reply _ _ _ hpresent htext =>
          have hsome : reply.text?.isSome = true := hreply ▸ h.writer 0 (hreply ▸ hpresent)
          exact absurd hsome (by simp [htext])
      | notes _ _ hadded htext hlist => exact absurd hnotes (by simp [htext])

/-- Where the services give texts no turn ends the run. -/
theorem Turn.not_breaks {settings : Settings} {turn : Turn} (h : turn.site.services.GivesTexts) :
    ¬ (turn.exchange settings).Breaks fault := by
  unfold exchange
  split
  · exact fun hbreaks => nomatch hbreaks
  · split
    · exact fun hbreaks => nomatch hbreaks
    · rename_i content hcontent
      unfold exchangeOn
      split
      · exact fun hbreaks => nomatch hbreaks
      · rename_i notes hnotes
        obtain ⟨rfl, hpresent⟩ := Json.Value.present?_eq_some_iff.1 hnotes
        exact not_breaks_exchangeAfter (h.next (notesRequest settings content turn.source.path))
          (h.writer 0 hpresent)

end GivesTexts

def requesting (requests : List Request) (site : Site) : Site :=
  { site with
    asked := site.asked ++ requests
    services := requests.foldl Services.next site.services }

theorem requesting_nil (site : Site) : requesting [] site = site := by
  rw [requesting, List.append_nil]
  rfl

theorem requesting_append (requests more : List Request) (site : Site) :
    requesting more (requesting requests site) = requesting (requests ++ more) site := by
  simp [requesting, List.foldl_append]

theorem occursIn_iff {part cs : List Char} : occursIn part cs = true ↔ part <:+: cs := by
  induction cs with
  | nil => simp [occursIn]
  | cons c cs ih =>
      rw [occursIn, Bool.or_eq_true, List.isPrefixOf_iff_prefix, ih, List.infix_cons_iff]

theorem withReply_eq (notes reply : Json.Value) :
    withReply notes reply =
      (acceptAddendum reply).bind fun given =>
        match Text.nonempty? given.text? with
        | none => .ok notes
        | some added => extended notes (addendumSeparator ++ added) := by
  have hdeclined : ∀ text, isDeclined text = true ↔ declined.toList <:+: text.toList :=
    fun text => occursIn_iff
  unfold withReply acceptAddendum Json.Value.present?
  cases reply with
  | str text =>
      have hnonempty : Text.nonempty? (some text) = if text = "" then none else some text := by
        simp [Text.nonempty?, Option.filter_some]
      dsimp only [Json.Value.isPresent]
      by_cases hempty : text = ""
      · simp [hempty, IsAddendum, Except.bind, Json.Value.text?, Text.nonempty?, Option.filter_some]
      · by_cases hrefused : declined.toList <:+: text.toList
        · simp [hempty, IsAddendum, Except.bind, Json.Value.text?, Text.nonempty?, hdeclined,
            hrefused]
        · simp [hempty, IsAddendum, Except.bind, Json.Value.text?, hnonempty, hdeclined, hrefused]
  | _ =>
      dsimp only
      split
      · rfl
      · rfl

theorem present?_of_accepted {given accepted : Json.Value} {added : String}
    (h : acceptAddendum given = .ok accepted) (hadded : Text.nonempty? accepted.text? = some added) :
    given.present? = some (.str added) := by
  obtain ⟨htext, hnonempty⟩ := Option.filter_eq_some_iff.1 hadded
  have haccepted : given = accepted := by
    unfold acceptAddendum at h
    split at h
    · exact Except.ok.inj h
    · split at h
      · rw [← Except.ok.inj h] at htext
        exact absurd htext (by simp [Json.Value.text?])
      · exact Except.ok.inj h
    · exact absurd h (by simp)
  rw [haccepted, Json.Value.text?_eq_some_iff.1 htext]
  exact if_pos hnonempty

end Docwright.Notes
