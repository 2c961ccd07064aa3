import Docwright.Proofs.Disk.Beside
import Docwright.Proofs.Notes.Exchanges

/-!
# Taking notes on one file

The turn of a source file makes the requests of its exchange. It is passed over if there
are notes on a file of its name, or if it is blank or cannot be read. If notes come of the
exchange, their file is opened where the disk takes it, and they are saved if they are a
text. `annotate_ends` says that this is what taking notes does, unless an answer is an
interruption.
-/

namespace Docwright.Notes

open Docwright.Disk
open Docwright.Job
open Docwright.Path

/-- What the file of the notes is opened for, if there is something and the disk takes the
file, and the site that is left. -/
def kept (source : Source) (notes? : Option Json.Value) (site : Site) : Option Json.Value × Site :=
  let opened? := notes?.filter fun _ => site.disk.TakesFile "file_notes" (source.name ++ ".md")
  (opened?, { site with
    disk := opened?.elim site.disk fun notes =>
      site.disk.insert source.notesPlace (.file notes.content) })

namespace Turn

variable (settings : Settings) (turn : Turn)

def ending : Except Fault Bool :=
  (turn.exchange settings).outcome.map fun _ => ((turn.opened? settings).bind Json.Value.text?).isSome

/-- The site after the requests of a turn and, if they are opened, the notes. -/
def taken : Site :=
  (kept turn.source (turn.exchange settings).outcome.toOption.join
    (requesting (turn.requests settings) turn.site)).2

theorem disk_taken :
    (turn.taken settings).disk =
      (turn.opened? settings).elim turn.site.disk fun notes =>
        turn.site.disk.insert turn.source.notesPlace (.file notes.content) := by
  have hdisk : (requesting (turn.requests settings) turn.site).disk = turn.site.disk := rfl
  simp only [taken, kept, hdisk, opened?]

end Turn

/-- A site at which notes can be taken: no answer is an interruption. -/
structure Ready (site : Site) : Prop where
  plain : site.disk.Plain
  writer : site.services.writer.Ordinary
  searches : site.services.searches.Ordinary

/-- The name is one that an item can have, and the path one that the disk takes. -/
structure Source.IsProper (source : Source) : Prop where
  isName : IsName source.name
  noNull : source.path.toList.any (·.toNat == 0) = false

section Asking

variable {site : Site}

theorem complete_ends (prompt maxTokens model : Json.Value)
    (hwriter : site.services.writer.Ordinary) (said : List String) :
    Ends (complete prompt maxTokens model) (saying site said)
      (.ok (Completion.obtained site.services.writer.head))
      (requesting [.write model maxTokens prompt] site) := by
  have honStatus : ∀ (code : Int) (_ : String) (site : Site), Ends (
      if code = 401 then say "Please check your ANTHROPIC_API_KEY."
      else if code = 404 then
        say s!"Model '{model}' might not be available or the API endpoint is incorrect."
      else pure ()) site (.ok ()) site := by
    intro code _ site
    split
    · exact .say _
    · split
      · exact .say _
      · exact .pure
  have hrequest : Ends (complete prompt maxTokens model) (saying site said) _
      (Completion.requested _ (saying site said)) :=
    Completion.request_ends _ _ _ honStatus hwriter
  exact hrequest.respoken rfl

theorem openIndex_ends (limit : Nat) (site : Site) (said : List String) :
    Ends (openIndex limit) (saying site said) (site.services.openings.head.mapError .service)
      (requesting [.openIndex limit] site) := by
  have happly : openIndex limit (saying site said) = ofAnswer site.services.openings.head
      (saying (requesting [.openIndex limit] site) said) := rfl
  exact (Ends.answer happly).respoken rfl

theorem attempt_search_ends (text : String) (hsearches : site.services.searches.Ordinary)
    (said : List String) :
    Ends (attempt (search searchLimit text)) (saying site said)
      (.ok (site.services.searches.head.mapError .service))
      (requesting [.search searchLimit text] site) := by
  have happly : search searchLimit text (saying site said) = ofAnswer site.services.searches.head
      (saying (requesting [.search searchLimit text] site) said) := rfl
  refine ((Ends.answer happly).respoken rfl).attempt fun fault hfault => ?_
  have hanswer := hsearches.head
  cases hhead : site.services.searches.head with
  | ok values =>
      rw [hhead] at hfault
      cases hfault
  | error failure =>
      rw [hhead] at hfault hanswer
      rw [← Except.error.inj hfault]
      exact Completion.isOrdinary_service fun kind message h => hanswer kind message (by rw [h])

/-- The index is opened, which may fail, and then searched. -/
theorem consult_ends (text : String) (hsearches : site.services.searches.Ordinary)
    (said : List String) :
    match site.services.openings.head with
    | .error failure => Ends (consult text) (saying site said) (.error (.service failure))
        (requesting [.openIndex searchLimit] site)
    | .ok _ => Ends (consult text) (saying site said) (.ok (found site.services.searches.head))
        (requesting [.openIndex searchLimit, .search searchLimit text] site) := by
  have hopening := openIndex_ends searchLimit site
  cases hhead : site.services.openings.head with
  | error failure =>
      rw [hhead] at hopening
      exact Ends.bind (.say _) fun said => (hopening _).bind_fault
  | ok opened =>
      rw [hhead] at hopening
      refine Ends.bind (.say _) fun said => ?_
      refine Ends.bind (hopening _) fun said => ?_
      have hopened : (requesting [.openIndex searchLimit] site).services.searches.Ordinary :=
        hsearches
      have hsearch := attempt_search_ends text hopened said
      rw [requesting_append] at hsearch
      refine hsearch.bind fun said => ?_
      rw [show (requesting [.openIndex searchLimit] site).services.searches =
        site.services.searches from rfl]
      cases site.services.searches.head with
      | error failure => exact Ends.bind (.say _) fun said => .pure
      | ok values =>
          cases values with
          | nil => exact Ends.bind (.say _) fun said => .pure
          | cons value rest =>
              refine Ends.bind (.say _) fun said => ?_
              rw [show found (.ok (value :: rest)) = (textsFrom 0 (value :: rest)).toOption.map
                (String.intercalate foundSeparator) from rfl]
              cases textsFrom 0 (value :: rest) with
              | ok texts => exact .pure
              | error fault => exact Ends.bind (.say _) fun said => .pure

theorem addendum_ends (settings : Settings) (notes : Json.Value) (found path : String)
    (hwriter : site.services.writer.Ordinary) (said : List String) :
    Ends (addendum settings notes found path) (saying site said)
      (acceptAddendum (Completion.obtained site.services.writer.head))
      (requesting [addendumRequest settings notes found path] site) := by
  refine Ends.bind (.say _) fun said => ?_
  refine Ends.bind (complete_ends _ _ _ hwriter said) fun said => ?_
  exact Ends.respoken (.ofResult _) rfl

theorem cons_tail_requests (settings : Settings) (notes : Json.Value) (content path : String)
    (services : Services) :
    notesRequest settings content path ::
        ((exchangeAfter content notes services).requests settings path).tail =
      (exchangeAfter content notes services).requests settings path := by
  unfold exchangeAfter
  split
  · rfl
  · split
    · rfl
    · rfl

/-- Once there are notes, the rest of the exchange is gone through, and the notes are what
comes of it. -/
theorem withAddendum_ends (settings : Settings) (notes : Json.Value) (content path : String)
    (hwriter : site.services.writer.Ordinary) (hsearches : site.services.searches.Ordinary)
    (said : List String) :
    let exchange := exchangeAfter content notes site.services
    ∃ r, r.map some = exchange.outcome ∧
      Ends (withAddendum settings notes content path) (saying site said) r
        (requesting (exchange.requests settings path).tail site) := by
  have hconsult := consult_ends (searchedStart content) hsearches said
  -- the cases are those of `exchangeAfter`: the index is not opened, nothing is found, a reply
  unfold exchangeAfter
  cases hhead : site.services.openings.head with
  | error failure =>
      rw [hhead] at hconsult
      exact ⟨.error (.service failure), rfl, hconsult.bind_fault⟩
  | ok opened =>
      rw [hhead] at hconsult
      dsimp only at hconsult ⊢
      cases hfound : Text.nonempty? (found site.services.searches.head) with
      | none =>
          refine ⟨.ok notes, rfl, hconsult.bind fun said => ?_⟩
          rw [hfound]
          exact Ends.bind (.say _) fun said => .pure
      | some text =>
          refine ⟨withReply notes (Completion.obtained site.services.writer.head), rfl,
            hconsult.bind fun said => ?_⟩
          rw [hfound]
          have hasked : (requesting [.openIndex searchLimit, .search searchLimit
              (searchedStart content)] site).services.writer.Ordinary := hwriter
          have hreply := addendum_ends settings notes text path hasked said
          rw [requesting_append] at hreply
          change Ends _ _ (acceptAddendum (Completion.obtained site.services.writer.head)) _ at hreply
          rw [withReply_eq]
          cases hgiven : acceptAddendum (Completion.obtained site.services.writer.head) with
          | error fault =>
              rw [hgiven] at hreply
              exact hreply.bind_fault
          | ok given =>
              rw [hgiven] at hreply
              refine hreply.bind fun said => ?_
              dsimp only [Except.bind]
              cases Text.nonempty? given.text? with
              | none => exact Ends.bind (.say _) fun said => .pure
              | some added =>
                  dsimp only
                  cases hboth : extended notes (addendumSeparator ++ added) with
                  | error fault => exact (Ends.throw fault).bind_fault.respoken rfl
                  | ok both =>
                      exact Ends.bind .pure fun said => Ends.bind (.say _) fun said => .pure

end Asking

section Turn

variable {settings : Settings} (hfolder : settings.notesFolder = "./file_notes") {site : Site}
  {source : Source} (hname : IsName source.name)

include hfolder hname

theorem isFilePath_notesPath :
    IsFilePath (settings.notesPath source.name) "file_notes" (source.name ++ ".md") := by
  rw [Settings.notesPath, hfolder]
  exact isFilePath_notes hname

theorem kept_some (hplain : site.disk.Plain) (notes : Json.Value) :
    let changed? := (site.disk.write? (settings.notesPath source.name) notes.content).toOption
    (kept source (some notes) site).1 = changed?.map (fun _ => notes) ∧
      (kept source (some notes) site).2 = { site with disk := changed?.getD site.disk } := by
  intro changed?
  have hpath := isFilePath_notesPath hfolder hname
  have hchanged : changed? = _ := write?_toOption hplain hpath.leadsTo hpath.short _
  rw [hchanged, kept]
  by_cases htakes : site.disk.TakesFile "file_notes" (source.name ++ ".md")
  · rw [if_pos htakes, Option.filter_some, if_pos (decide_eq_true htakes)]
    exact ⟨rfl, rfl⟩
  · rw [if_neg htakes, Option.filter_some, if_neg (by simpa using htakes)]
    exact ⟨rfl, rfl⟩

theorem save_ends (hplain : site.disk.Plain) (notes : Json.Value) (said : List String) :
    Ends (save (settings.notesPath source.name) notes) (saying site said)
      (.ok ((kept source (some notes) site).1.bind Json.Value.text?).isSome)
      (kept source (some notes) site).2 := by
  obtain ⟨r, hwrite, hsome⟩ :=
    attempt_writeValue_ends (isFilePath_notesPath hfolder hname).noNull (saying site said) notes
  obtain ⟨hkept, hleft⟩ := kept_some hfolder hname hplain notes
  have hcount : ∀ made? : Option Disk, ((made?.map fun _ => notes).bind Json.Value.text?).isSome =
      (made?.isSome && notes.text?.isSome) := by
    intro made?
    cases made? with
    | none => rfl
    | some made => rfl
  rw [hkept, hleft, hcount, ← show r.toOption.isSome = _ from hsome]
  refine hwrite.bind fun said => ?_
  cases r with
  | ok done => exact Ends.bind (.say _) fun said => .pure
  | error fault => exact Ends.bind (.say _) fun said => .pure

omit hfolder hname in
theorem annotateContent_blank {path notesPath content : String}
    (hblank : Text.isBlankText content = true) (said : List String) :
    Ends (annotateContent settings path notesPath content) (saying site said) (.ok false) site := by
  rw [annotateContent, if_pos hblank]
  exact Ends.bind (.say _) fun said => .pure

/-- Notes on a text that is not blank are asked for, and what comes of the exchange is
kept. -/
theorem annotateContent_ends (hready : Ready site) {content : String}
    (hblank : Text.isBlankText content = false) (said : List String) :
    let exchange := exchangeOn content site.services
    let left := kept source exchange.outcome.toOption.join
      (requesting (exchange.requests settings source.path) site)
    Ends (annotateContent settings source.path (settings.notesPath source.name) content)
      (saying site said)
      (exchange.outcome.map fun _ => (left.1.bind Json.Value.text?).isSome) left.2 := by
  have hfirst : Ends (firstNotes settings content source.path) (saying site said)
      (.ok (Completion.obtained site.services.writer.head))
      (requesting [notesRequest settings content source.path] site) :=
    Ends.bind (.say _) fun said => complete_ends _ _ _ hready.writer said
  unfold annotateContent exchangeOn
  rw [hblank]
  cases hnotes : (Completion.obtained site.services.writer.head).present? with
  | none =>
      refine hfirst.bind fun said => ?_
      rw [hnotes]
      exact Ends.bind (.say _) fun said => .pure
  | some notes =>
      intro exchange left
      refine hfirst.bind fun said => ?_
      rw [hnotes]
      have hwriter : (requesting [notesRequest settings content source.path]
          site).services.writer.Ordinary := hready.writer.tail
      obtain ⟨r, houtcome, hends⟩ := withAddendum_ends settings notes content source.path hwriter
        hready.searches said
      have hexchange : exchangeAfter content notes
        (requesting [notesRequest settings content source.path] site).services = exchange := rfl
      rw [requesting_append, List.singleton_append, cons_tail_requests, hexchange] at hends
      rw [hexchange] at houtcome
      have hplain : (requesting (exchange.requests settings source.path) site).disk.Plain :=
        hready.plain
      unfold left
      rw [← houtcome]
      cases r with
      | error fault => exact hends.bind_fault
      | ok both => exact hends.bind fun said => save_ends hfolder hname hplain both said

omit hfolder hname in
theorem annotate_read {path notesPath content : String} {said : List String}
    (hnull : path.toList.any (·.toNat == 0) = false)
    (hread : ((site.disk.read? path).toOption.map fun bytes =>
      String.ofList (Text.unifyNewlines (Text.Utf8.decodeLenient bytes))) = some content)
    (hitem : hasItem notesPath (saying site said) = .ok false (saying site said)) :
    ∃ heard, annotate settings path notesPath (saying site said) =
      annotateContent settings path notesPath content (saying site heard) := by
  refine Ends.bind_to (.intro hitem) fun said => ?_
  refine Ends.bind_to (.say _) fun said => ?_
  obtain ⟨r, hreading, htext⟩ := attempt_readTextLenient_ends hnull (saying site said)
  have hfound : r.toOption = some content := htext.trans hread
  refine hreading.bind_to fun said => ?_
  cases r with
  | error fault => exact absurd hfound (by simp [Except.toOption])
  | ok found =>
      obtain rfl : found = content := Option.some.inj hfound
      exact ⟨said, rfl⟩

section Annotate

variable (hplain : site.disk.Plain) (hnull : source.path.toList.any (·.toNat == 0) = false)

include hplain

theorem hasItem_notesPath (said : List String) :
    hasItem (settings.notesPath source.name) (saying site said) =
      .ok (site.disk.get? source.notesPlace).isSome (saying site said) := by
  have hpath := isFilePath_notesPath hfolder hname
  rw [hasItem_apply, hpath.noNull]
  exact congrArg (EStateM.Result.ok · (saying site said))
    (hasItem_eq hplain hpath.leadsTo hpath.short)

include hnull

theorem annotate_settled (hsettled : source.Settled site.disk) (said : List String) :
    Ends (annotate settings source.path (settings.notesPath source.name)) (saying site said)
      (.ok false) site := by
  refine Ends.bind (.intro (hasItem_notesPath hfolder hname hplain said)) fun said => ?_
  by_cases hthere : site.disk.get? source.notesPlace ≠ none
  · rw [Option.isSome_iff_ne_none.2 hthere]
    exact Ends.bind (.say _) fun said => .pure
  · have hcontent := hsettled.resolve_left hthere
    rw [show (site.disk.get? source.notesPlace).isSome = false by simpa using hthere]
    refine Ends.bind (.say _) fun said => ?_
    obtain ⟨r, hread, htext⟩ := attempt_readTextLenient_ends hnull (saying site said)
    refine hread.bind fun said => ?_
    rw [contentOf?, ← show r.toOption = _ from htext] at hcontent
    cases r with
    | error fault => exact Ends.bind (.say _) fun said => .pure
    | ok content =>
        have hblank : Text.isBlankText content = true := by
          simpa [Except.toOption] using hcontent
        exact annotateContent_blank hblank said

theorem annotate_unsettled (hnone : site.disk.get? source.notesPlace = none) {content : String}
    (hcontent : contentOf? site.disk source.path = some content) (said : List String) :
    Text.isBlankText content = false ∧ ∃ heard,
      annotate settings source.path (settings.notesPath source.name) (saying site said) =
        annotateContent settings source.path (settings.notesPath source.name) content
          (saying site heard) := by
  obtain ⟨hread, hkept⟩ := Option.filter_eq_some_iff.1 hcontent
  refine ⟨by simpa using hkept, annotate_read hnull hread ?_⟩
  rw [hasItem_notesPath hfolder hname hplain said, hnone]
  rfl

end Annotate

end Turn

section Exchange

variable {settings : Settings} (hfolder : settings.notesFolder = "./file_notes") {turn : Turn}
  (hplain : turn.site.disk.Plain) (hname : IsName turn.source.name)

include hfolder hplain hname

theorem Turn.exchange_of_settled (h : turn.source.Settled turn.site.disk) :
    turn.exchange settings = .skipped := by
  have hpath := isFilePath_notesPath hfolder hname
  unfold exchange
  split
  · rfl
  · rename_i hitem
    rw [Disk.hasItem_eq hplain hpath.leadsTo hpath.short] at hitem
    have hnone : contentOf? turn.site.disk turn.source.path = none :=
      h.resolve_left fun hthere => hitem (Option.isSome_iff_ne_none.2 hthere)
    rw [hnone]

theorem Turn.exchange_of_unsettled (hnone : turn.site.disk.get? turn.source.notesPlace = none)
    {content : String} (hcontent : contentOf? turn.site.disk turn.source.path = some content) :
    turn.exchange settings = exchangeOn content turn.site.services := by
  have hpath := isFilePath_notesPath hfolder hname
  have hitem : turn.site.disk.hasItem (settings.notesPath turn.source.name) =
      (turn.site.disk.get? turn.source.notesPlace).isSome :=
    Disk.hasItem_eq hplain hpath.leadsTo hpath.short
  rw [exchange, hitem, hnone, hcontent]
  rfl

end Exchange

/-- Taking notes on a file does what its exchange says. -/
theorem annotate_ends {settings : Settings} (hfolder : settings.notesFolder = "./file_notes")
    {turn : Turn} (hready : Ready turn.site) (hproper : turn.source.IsProper) (said : List String) :
    Ends (annotate settings turn.source.path (settings.notesPath turn.source.name))
      (saying turn.site said) (turn.ending settings) (turn.taken settings) := by
  obtain ⟨hname, hnull⟩ := hproper
  by_cases hsettled : turn.source.Settled turn.site.disk
  · have hexchange := turn.exchange_of_settled hfolder hready.plain hname hsettled
    have htaken : turn.taken settings = turn.site := by
      rw [Turn.taken, Turn.requests, hexchange]
      exact requesting_nil turn.site
    rw [Turn.ending, Turn.opened?, hexchange, htaken]
    exact annotate_settled hfolder hname hready.plain hnull hsettled said
  · obtain ⟨hthere, hcontent⟩ := not_or.1 hsettled
    obtain ⟨content, hcontent⟩ := Option.ne_none_iff_exists'.1 hcontent
    have hnone := Classical.not_not.1 hthere
    have hexchange := turn.exchange_of_unsettled hfolder hready.plain hname hnone hcontent
    obtain ⟨hblank, heard, happly⟩ :=
      annotate_unsettled hfolder hname hready.plain hnull hnone hcontent said
    have hends := (annotateContent_ends hfolder hname hready hblank heard).of_apply happly
    rw [← hexchange] at hends
    exact hends

end Docwright.Notes
