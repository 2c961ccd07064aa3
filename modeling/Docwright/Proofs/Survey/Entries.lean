import Docwright.Proofs.Disk.Paths
import Docwright.Proofs.Job.Brings
import Docwright.Proofs.Service.Feed
import Docwright.Survey

/-!
# What the entry of a file is made of

The entry of a source file is a function of what reading the file comes to and of what the
parser answers for it (`Settings.entry`). The parser is asked for the files that can be read
and are not blank, one answer for each of them, so the answer for a file is the one after
those for the files before it. A failure to read or to parse a file is in its own entry. Only
an interruption by the parser stops the survey at a file.
-/

namespace Docwright.Survey

open Docwright.Job

/-- What reading the bytes of the file at a path comes to. -/
def contentAt (disk : Disk) (path : String) : Except Fault (List UInt8) :=
  if path.toList.any (·.toNat == 0) then .error .nullInPath
  else (disk.read? path).mapError (.disk · path)

/-- The parser is asked for the file at a path: it can be read and is not blank. -/
def isParsed (disk : Disk) (path : String) : Bool :=
  match contentAt disk path with
  | .ok content => !content.all isBlankByte
  | .error _ => false

def answerTo (file : ParsedFile) (value : Json.Value) : Except Fault Captures :=
  if !value.isAtom then .error (.notName value.kindWord)
  else
    match value with
    | .str text => (file.answer text).mapError .service
    | _ => .ok []

/-- What is looked for under a key: a query, and the names of the captures that count. -/
structure Lookup where
  key : String
  query : Json.Value
  names : List String

def Lookup.definition (lookup : Lookup) : String × Json.Value :=
  (lookup.key, definitionOf lookup.query lookup.names)

/-- The query is put: neither it nor the list of names is empty. -/
def Lookup.IsPut (lookup : Lookup) : Prop := lookup.query.isPresent = true ∧ lookup.names ≠ []

/-- The texts that a lookup finds, none if its query fails. -/
def Lookup.texts (content : List UInt8) (file : ParsedFile) (lookup : Lookup) : List String :=
  if lookup.query.isPresent then
    match answerTo file lookup.query with
    | .ok captures => capturedTexts content lookup.key lookup.names captures
    | .error _ => []
  else []

def Settings.lookups (settings : Settings) : List Lookup :=
  [⟨"includes", settings.includeQuery, ["include_path"]⟩,
    ⟨"functions", settings.functionQuery, ["function_name"]⟩,
    ⟨"classes", settings.classQuery, ["class_name"]⟩]

def Settings.findings (settings : Settings) (content : List UInt8) (file : ParsedFile) : Findings :=
  settings.lookups.map fun lookup => (lookup.key, lookup.texts content file)

/-- The entry of a file with that content, if it was read, and that answer of the parser, if
the parser is asked. -/
def Settings.entry (settings : Settings) :
    Except Fault (List UInt8) → Except Failure ParsedFile → Entry
  | .error fault, _ => .failed fault.message
  | .ok content, answer =>
      if content.all isBlankByte then .blank
      else
        match answer with
        | .ok file => .analysed (settings.findings content file)
        | .error failure => .failed failure.message

/-! ### One file -/

/-- The disk is that one, and these are the answers to come of the parser. -/
structure At (disk : Disk) (feed : Feed ParsedFile) (site : Site) : Prop where
  disk_eq : site.disk = disk
  parser_eq : site.services.parser = feed

/-- The fault is an interruption that the parsed file answers a query with. -/
def FileInterrupts (file : ParsedFile) (fault : Fault) : Prop :=
  ∃ query kind message, file.answer query = .error (.interruption kind message) ∧
    fault = .service (.interruption kind message)

/-- The fault is an interruption that the parser answers with, or one of its parsed files. -/
def Interrupts (feed : Feed ParsedFile) (fault : Fault) : Prop :=
  ∃ n, (∃ kind message, feed.answer n = .error (.interruption kind message) ∧
      fault = .service (.interruption kind message)) ∨
    ∃ file, feed.answer n = .ok file ∧ FileInterrupts file fault

variable {disk : Disk} {feed : Feed ParsedFile} {site : Site} {fault : Fault}

theorem Interrupts.not_isOrdinary (h : Interrupts feed fault) : fault.isOrdinary = false := by
  obtain ⟨n, ⟨kind, message, -, rfl⟩ | ⟨file, -, query, kind, message, -, rfl⟩⟩ := h
  · rfl
  · rfl

theorem Interrupts.of_tail (h : Interrupts feed.tail fault) : Interrupts feed fault := by
  obtain ⟨n, h⟩ := h
  exact ⟨n + 1, h⟩

theorem Interrupts.of_drop {n : Nat} (h : Interrupts (feed.drop n) fault) :
    Interrupts feed fault := by
  induction n generalizing feed with
  | zero => exact h
  | succ n ih => exact (ih h).of_tail

theorem exists_interruption {failure : Failure}
    (h : (Fault.service failure).isOrdinary = false) :
    ∃ kind message, failure = .interruption kind message := by
  cases failure with
  | interruption kind message => exact ⟨kind, message, rfl⟩
  | _ => exact absurd h (by simp [Fault.isOrdinary])

theorem At.spoken (h : At disk feed site) (line : String) : At disk feed (after (say line) site) :=
  ⟨h.disk_eq, h.parser_eq⟩

theorem say_at (line : String) {E : Fault → Site → Prop} :
    Brings (At disk feed) (say line) (fun _ => At disk feed) E :=
  .intro fun _ h => h.spoken line

theorem ask_at (request : Request) {E : Fault → Site → Prop} :
    Brings (At disk feed) (ask request) (fun _ => At disk feed) E :=
  .intro fun _ h => ⟨h.disk_eq, h.parser_eq⟩

theorem query_at (file : ParsedFile) (value : Json.Value) :
    Brings (At disk feed) (query file value)
      (fun captures site => answerTo file value = .ok captures ∧ At disk feed site)
      fun fault site => answerTo file value = .error fault ∧ At disk feed site := by
  unfold query answerTo
  by_cases hatom : (!value.isAtom) = true
  · rw [if_pos hatom, if_pos hatom]
    apply Brings.bind (M := fun _ _ => False)
    · exact Brings.throw fun site h => ⟨rfl, h⟩
    · exact fun _ => .intro fun _ h => h.elim
  · rw [if_neg hatom, if_neg hatom]
    apply Brings.bind (ask_at _)
    intro _
    cases value with
    | str text =>
        apply Brings.intro
        intro site h
        dsimp only
        cases file.answer text with
        | ok captures => exact ⟨rfl, h⟩
        | error failure => exact ⟨rfl, h⟩
    | _ => exact Brings.pure fun site h => ⟨rfl, h⟩

theorem fileInterrupts_of_answerTo {file : ParsedFile} {value : Json.Value}
    (h : answerTo file value = .error fault) (hfault : fault.isOrdinary = false) :
    FileInterrupts file fault := by
  unfold answerTo at h
  split at h
  · rw [← Except.error.inj h] at hfault
    exact absurd hfault (by simp [Fault.isOrdinary])
  · split at h
    · rename_i text hatom
      cases hanswer : file.answer text with
      | ok captures =>
          rw [hanswer] at h
          cases h
      | error failure =>
          rw [hanswer] at h
          obtain rfl : .service failure = fault := Except.error.inj h
          obtain ⟨kind, message, rfl⟩ := exists_interruption hfault
          exact ⟨text, kind, message, hanswer, rfl⟩
    · exact absurd h (by simp)

/-- The query of the lookup is put, and it is answered with that interruption. -/
def Lookup.IsInterrupted (lookup : Lookup) (file : ParsedFile) (fault : Fault) : Prop :=
  lookup.IsPut ∧ answerTo file lookup.query = .error fault ∧ fault.isOrdinary = false

theorem isPresent_texts (names : List String) :
    (Json.Value.texts names).isPresent = true ↔ names ≠ [] := by
  simp [Json.Value.texts, Json.Value.isPresent]

theorem find?_not_isAtom (names : List String) :
    (names.map Json.Value.str).find? (fun member => !member.isAtom) = none := by
  simp [Json.Value.isAtom]

theorem usableNames_map_str (names : List String) :
    usableNames (names.map Json.Value.str) = names := by
  induction names with
  | nil => rfl
  | cons name rest ih => exact congrArg (name :: ·) ih

theorem Lookup.texts_eq_nil {lookup : Lookup} {file : ParsedFile} (content : List UInt8)
    (h : ¬ lookup.IsPut ∨ ∃ fault, answerTo file lookup.query = .error fault) :
    lookup.texts content file = [] := by
  unfold Lookup.texts
  split
  · rename_i hpresent
    obtain hempty | ⟨fault, hfault⟩ := h
    · obtain hnames : lookup.names = [] := Classical.not_not.1 fun hnames => hempty ⟨hpresent, hnames⟩
      rw [hnames]
      split
      · rfl
      · rfl
    · rw [hfault]
  · rfl

/-- A lookup finds what it finds, whatever was asked before. Only an interruption of its query
stops it. -/
theorem extractOne_at (content : List UInt8) (file : ParsedFile) (lookup : Lookup) :
    Brings (At disk feed) (extractOne content file lookup.key lookup.definition.2)
      (fun found site => found = (lookup.key, lookup.texts content file) ∧ At disk feed site)
      fun fault site => site.disk = disk ∧ lookup.IsInterrupted file fault := by
  have hquery : fieldIn lookup.definition.2 "query_string" = .ok lookup.query := by
    simp [Lookup.definition, definitionOf, fieldIn, Json.fieldOf?]
  have hnames : fieldIn lookup.definition.2 "capture_names" = .ok (.texts lookup.names) := by
    simp [Lookup.definition, definitionOf, fieldIn, Json.fieldOf?]
  unfold extractOne
  rw [hquery, hnames]
  apply Brings.bind (M := fun text site => text = lookup.query ∧ At disk feed site)
  · exact Brings.pure fun site h => ⟨rfl, h⟩
  intro text
  apply Brings.assume
  rintro rfl
  apply Brings.bind (M := fun names site => names = .texts lookup.names ∧ At disk feed site)
  · exact Brings.pure fun site h => ⟨rfl, h⟩
  intro names
  apply Brings.assume
  rintro rfl
  by_cases hput : lookup.IsPut
  · have hnames := (isPresent_texts lookup.names).2 hput.2
    rw [if_neg (by simp [hput.1, hnames])]
    apply Brings.attempt_bind (query_at file lookup.query)
    · intro captures
      apply Brings.assume
      intro hanswer
      have htexts : lookup.texts content file =
          capturedTexts content lookup.key lookup.names captures := by
        rw [Lookup.texts, if_pos hput.1, hanswer]
      simp only [Json.Value.texts, Json.Value.members?, find?_not_isAtom, usableNames_map_str,
        htexts]
      exact Brings.pure fun site h => ⟨rfl, h⟩
    · intro fault _
      apply Brings.assume
      intro hanswer
      rw [Lookup.texts_eq_nil content (.inr ⟨fault, hanswer⟩)]
      exact Brings.bind (say_at _) fun _ => Brings.pure fun site h => ⟨rfl, h⟩
    · exact fun fault site hfault h => ⟨h.2.disk_eq, hput, h.1, hfault⟩
  · -- an empty query or an empty list of names is passed over without a question
    have hempty : (!lookup.query.isPresent || !(Json.Value.texts lookup.names).isPresent) = true := by
      by_contra hboth
      rw [Bool.not_eq_true, Bool.or_eq_false_iff, Bool.not_eq_false', Bool.not_eq_false'] at hboth
      exact hput ⟨hboth.1, (isPresent_texts lookup.names).1 hboth.2⟩
    rw [if_pos hempty, Lookup.texts_eq_nil content (.inl hput)]
    exact Brings.pure fun site h => ⟨rfl, h⟩

theorem parse_at (content : List UInt8) :
    Brings (At disk feed) (parse content)
      (fun file site => feed.head = .ok file ∧ At disk feed.tail site)
      fun fault site => ∃ failure, feed.head = .error failure ∧ fault = .service failure ∧
        At disk feed.tail site := by
  apply Brings.intro
  rintro site ⟨rfl, rfl⟩
  have happly : parse content site = ofAnswer site.services.parser.head
      { site with
        services := { site.services with parser := site.services.parser.tail }
        asked := site.asked ++ [.parse content.length] } := rfl
  rw [happly]
  cases site.services.parser.head with
  | ok file => exact ⟨rfl, rfl, rfl⟩
  | error failure => exact ⟨failure, rfl, rfl, rfl, rfl⟩

theorem extract_lookups_at (content : List UInt8) (lookups : List Lookup) :
    Brings (At disk feed) (extract content (lookups.map Lookup.definition))
      (fun findings site => (∃ file, feed.head = .ok file ∧ findings =
        lookups.map fun lookup => (lookup.key, lookup.texts content file)) ∧
        At disk feed.tail site)
      fun fault site => site.disk = disk ∧
        ((∃ file, feed.head = .ok file ∧ ∃ lookup ∈ lookups, lookup.IsInterrupted file fault) ∨
          ∃ failure, feed.head = .error failure ∧ fault = .service failure ∧
            At disk feed.tail site) := by
  apply Brings.bind (M := fun file site => feed.head = .ok file ∧ At disk feed.tail site)
  · apply (parse_at content).imp (fun _ h => h) (fun _ _ h => h)
    rintro fault site ⟨failure, hhead, hfault, h⟩
    exact ⟨h.disk_eq, .inr ⟨failure, hhead, hfault, h⟩⟩
  · intro file
    apply Brings.assume
    intro hhead
    rw [List.mapM_map]
    apply Brings.post (Brings.mapM
      (fun (lookup : Lookup) found => (lookup.key, lookup.texts content file) = found) lookups ?_)
    · rintro findings site ⟨hfound, h⟩
      rw [← List.forall₂_map_left_iff, List.forall₂_eq_eq_eq] at hfound
      exact ⟨⟨file, hhead, hfound.symm⟩, h⟩
    · intro lookup hlookup
      apply (extractOne_at content file lookup).imp (fun _ h => h)
      · exact fun found site h => ⟨h.1.symm, h.2⟩
      · exact fun fault site h => ⟨h.1, .inl ⟨file, hhead, lookup, hlookup, h.2⟩⟩

theorem extract_at (settings : Settings) (content : List UInt8) :
    Brings (At disk feed) (extract content settings.definitions)
      (fun findings site => (∃ file, feed.head = .ok file ∧
        findings = settings.findings content file) ∧ At disk feed.tail site)
      fun fault site => site.disk = disk ∧ (Interrupts feed fault ∨
        ∃ failure, feed.head = .error failure ∧ fault = .service failure ∧
          At disk feed.tail site) := by
  apply (extract_lookups_at content settings.lookups).imp (fun _ h => h) (fun _ _ h => h)
  rintro fault site ⟨hdisk, ⟨file, hhead, lookup, -, -, hanswer, hfault⟩ | hfailure⟩
  · have hfile := fileInterrupts_of_answerTo hanswer hfault
    exact ⟨hdisk, .inl ⟨0, .inr ⟨file, hhead, hfile⟩⟩⟩
  · exact ⟨hdisk, .inr hfailure⟩

theorem readBytes_at (path : String) :
    Brings (At disk feed) (readBytes path)
      (fun content site => contentAt disk path = .ok content ∧ At disk feed site)
      fun fault site => contentAt disk path = .error fault ∧ fault.isOrdinary = true ∧
        At disk feed site := by
  unfold readBytes checkPath contentAt
  by_cases hnull : path.toList.any (·.toNat == 0) = true
  · rw [if_pos hnull, if_pos hnull]
    apply Brings.bind (M := fun _ _ => False)
    · exact Brings.throw fun site h => ⟨rfl, rfl, h⟩
    · exact fun _ => .intro fun _ h => h.elim
  · rw [if_neg hnull, if_neg hnull]
    apply Brings.bind (M := fun _ => At disk feed) (Brings.pure fun _ h => h)
    intro _
    apply Brings.disk_bind fun site h => h.disk_eq
    apply Brings.intro
    intro site h
    cases disk.read? path with
    | ok content => exact ⟨rfl, h⟩
    | error error => exact ⟨rfl, rfl, h⟩

def feedAfter (disk : Disk) (feed : Feed ParsedFile) (path : String) : Feed ParsedFile :=
  if isParsed disk path then feed.tail else feed

theorem analyse_at (settings : Settings) (path : String) :
    Brings (At disk feed) (analyse settings path)
      (fun entry site => entry = settings.entry (contentAt disk path) feed.head ∧
        At disk (feedAfter disk feed path) site)
      fun fault site => site.disk = disk ∧ (Interrupts feed fault ∨
        .failed fault.message = settings.entry (contentAt disk path) feed.head ∧
          fault.isOrdinary = true ∧ At disk (feedAfter disk feed path) site) := by
  unfold analyse feedAfter isParsed
  apply Brings.bind (M := fun content site => contentAt disk path = .ok content ∧ At disk feed site)
  · apply (readBytes_at path).imp (fun _ h => h) (fun _ _ h => h)
    rintro fault site ⟨hcontent, hordinary, h⟩
    refine ⟨h.disk_eq, .inr ⟨?_, hordinary, ?_⟩⟩
    · rw [hcontent]
      rfl
    · rw [hcontent]
      exact h
  · intro content
    apply Brings.assume
    intro hcontent
    rw [hcontent]
    unfold Settings.entry
    by_cases hblank : content.all isBlankByte = true
    · simp only [hblank]
      exact Brings.bind (say_at _) fun _ => Brings.pure fun site h => ⟨rfl, h⟩
    · simp only [hblank]
      apply Brings.bind (M := fun findings site => (∃ file, feed.head = .ok file ∧
        findings = settings.findings content file) ∧ At disk feed.tail site)
      · apply (extract_at settings content).imp (fun _ h => h) (fun _ _ h => h)
        rintro fault site ⟨hdisk, hinterrupts | ⟨failure, hhead, rfl, h⟩⟩
        · exact ⟨hdisk, .inl hinterrupts⟩
        · cases hordinary : (Fault.service failure).isOrdinary with
          | true =>
              rw [hhead]
              exact ⟨hdisk, .inr ⟨rfl, rfl, h⟩⟩
          | false =>
              obtain ⟨kind, message, rfl⟩ := exists_interruption hordinary
              exact ⟨hdisk, .inl ⟨0, .inl ⟨kind, message, hhead, rfl⟩⟩⟩
      · intro findings
        apply Brings.assume
        rintro ⟨file, hhead, rfl⟩
        rw [hhead]
        exact Brings.pure fun site h => ⟨rfl, h⟩

/-- The entry of a file is what its content and the answer for it make it; only an
interruption by the parser stops the survey there. -/
theorem entryOf_at (settings : Settings) (path : String) :
    Brings (At disk feed) (entryOf settings path)
      (fun entry site => entry = settings.entry (contentAt disk path) feed.head ∧
        At disk (feedAfter disk feed path) site)
      fun fault site => site.disk = disk ∧ Interrupts feed fault := by
  apply Brings.bind (say_at _)
  intro _
  apply Brings.attempt_bind (analyse_at settings path)
  · exact fun entry => Brings.pure fun site h => h
  · intro fault hordinary
    apply Brings.bind (M := fun _ site =>
      .failed fault.message = settings.entry (contentAt disk path) feed.head ∧
        At disk (feedAfter disk feed path) site)
    · apply Brings.intro
      rintro site ⟨-, hinterrupts | ⟨hentry, -, h⟩⟩
      · exact absurd hordinary (by simp [hinterrupts.not_isOrdinary])
      · exact ⟨hentry, h.spoken _⟩
    · exact fun _ => Brings.pure fun site h => h
  · rintro fault site hfault ⟨hdisk, hinterrupts | ⟨-, hordinary, -⟩⟩
    · exact ⟨hdisk, hinterrupts⟩
    · exact absurd hordinary (by simp [hfault])

/-! ### All files -/

def listed (settings : Settings) (disk : Disk) : Feed ParsedFile → List String → Structure
  | _, [] => []
  | feed, path :: rest =>
      (path, settings.entry (contentAt disk path) feed.head) ::
        listed settings disk (feedAfter disk feed path) rest

theorem listed_append (settings : Settings) (paths more : List String) :
    listed settings disk feed (paths ++ more) =
      listed settings disk feed paths ++
        listed settings disk (paths.foldl (feedAfter disk) feed) more := by
  induction paths generalizing feed with
  | nil => rfl
  | cons path rest ih =>
      rw [List.cons_append, listed, ih, listed, List.foldl_cons, List.cons_append]

theorem map_fst_listed (settings : Settings) (paths : List String) :
    (listed settings disk feed paths).map (·.1) = paths := by
  induction paths generalizing feed with
  | nil => rfl
  | cons path rest ih => rw [listed, List.map_cons, ih]

theorem listed_eq_nil_iff {settings : Settings} {paths : List String} :
    listed settings disk feed paths = [] ↔ paths = [] := by
  cases paths with
  | nil => simp [listed]
  | cons path rest => simp [listed]

theorem foldl_feedAfter (paths : List String) :
    paths.foldl (feedAfter disk) feed =
      feed.drop (paths.countP (isParsed disk)) := by
  induction paths generalizing feed with
  | nil => rfl
  | cons path rest ih =>
      rw [List.foldl_cons, ih, feedAfter]
      by_cases hparsed : isParsed disk path = true
      · rw [if_pos hparsed, List.countP_cons_of_pos hparsed, Feed.drop]
      · rw [if_neg hparsed, List.countP_cons_of_neg hparsed]

/-- The entry of a file is made of its own content and of the answer after those for the files
before it. -/
theorem mem_listed_iff {settings : Settings} {paths : List String} {path : String} {entry : Entry} :
    (path, entry) ∈ listed settings disk feed paths ↔
      ∃ before rest, paths = before ++ path :: rest ∧
        entry = settings.entry (contentAt disk path)
          (feed.answer (before.countP (isParsed disk))) := by
  constructor
  · intro h
    induction paths generalizing feed with
    | nil => exact absurd h List.not_mem_nil
    | cons first more ih =>
        rw [listed] at h
        obtain hfirst | hmore := List.mem_cons.1 h
        · obtain ⟨rfl, rfl⟩ := Prod.mk.inj hfirst
          exact ⟨[], more, rfl, rfl⟩
        · obtain ⟨before, rest, rfl, hentry⟩ := ih hmore
          refine ⟨first :: before, rest, rfl, ?_⟩
          rw [hentry, feedAfter]
          by_cases hparsed : isParsed disk first = true
          · rw [if_pos hparsed, List.countP_cons_of_pos hparsed, Feed.answer]
          · rw [if_neg hparsed, List.countP_cons_of_neg hparsed]
  · rintro ⟨before, rest, rfl, rfl⟩
    rw [listed_append, listed, foldl_feedAfter, Feed.head_drop]
    exact List.mem_append_right _ List.mem_cons_self

theorem Settings.entry_eq_analysed {settings : Settings} {content? : Except Fault (List UInt8)}
    {answer : Except Failure ParsedFile} {findings : Findings}
    (h : settings.entry content? answer = .analysed findings) :
    ∃ content file, content? = .ok content ∧ answer = .ok file ∧
      findings = settings.findings content file := by
  unfold Settings.entry at h
  split at h
  · exact absurd h (by simp)
  · rename_i content
    split at h
    · exact absurd h (by simp)
    · split at h
      · rename_i file
        exact ⟨content, file, rfl, rfl, (Entry.analysed.inj h).symm⟩
      · exact absurd h (by simp)

def Surveyed (settings : Settings) (disk : Disk) (feed : Feed ParsedFile) (paths : List String)
    (found : Structure) (site : Site) : Prop :=
  found = listed settings disk feed paths ∧ At disk (paths.foldl (feedAfter disk) feed) site

theorem visit_surveys (settings : Settings) (folder : Disk.Folder) {paths : List String}
    {found : Structure} :
    Brings (Surveyed settings disk feed paths found) (visit settings found folder)
      (Surveyed settings disk feed
        (paths ++ ((disk.fileNames folder).filter settings.selects).map (Path.join folder.path)))
      fun fault site => site.disk = disk ∧ Interrupts feed fault := by
  apply Brings.disk_bind fun site h => h.2.disk_eq
  apply Brings.imp (Brings.foldlM (fun done => Surveyed settings disk feed
    (paths ++ done.map (Path.join folder.path))) _ ?_ found)
  · simp
  · exact fun _ _ h => h
  · exact fun _ _ h => h
  · intro done name rest found _
    apply Brings.assume
    rintro rfl
    apply Brings.bind
    · apply (entryOf_at settings (Path.join folder.path name)).imp (fun _ h => h) (fun _ _ h => h)
      rintro fault site ⟨hdisk, hinterrupts⟩
      rw [foldl_feedAfter] at hinterrupts
      exact ⟨hdisk, hinterrupts.of_drop⟩
    · intro entry
      apply Brings.pure
      rintro site ⟨rfl, h⟩
      rw [List.map_append, List.map_singleton, ← List.append_assoc]
      constructor
      · exact (listed_append settings _ [_]).symm
      · rw [List.foldl_append]
        exact h

/-- The survey lists the source files by their paths, in the order of the walk. It breaks off
where the walk does, or where the parser interrupts it. -/
theorem survey_surveys (settings : Settings) (levels : Option Nat) :
    Brings (fun site => At disk feed site ∧ site.limits.levels = levels) (survey settings)
      (fun found site => (disk.walk levels settings.sourceFolder).complete = true ∧
        Surveyed settings disk feed (disk.filePaths levels settings.selects settings.sourceFolder)
          found site)
      fun fault site => site.disk = disk ∧ (Interrupts feed fault ∨
        fault = .deepPath ∧ (disk.walk levels settings.sourceFolder).complete = false) := by
  have hloop : Brings (fun site => At disk feed site ∧ site.limits.levels = levels)
      ((disk.walk levels settings.sourceFolder).folders.foldlM (visit settings) [])
      (Surveyed settings disk feed (disk.filePaths levels settings.selects settings.sourceFolder))
      fun fault site => site.disk = disk ∧ (Interrupts feed fault ∨
        fault = .deepPath ∧ (disk.walk levels settings.sourceFolder).complete = false) := by
    apply Brings.imp (Brings.foldlM (E := fun fault site => site.disk = disk ∧ Interrupts feed fault)
      (fun done => Surveyed settings disk feed (done.flatMap fun folder =>
        ((disk.fileNames folder).filter settings.selects).map (Path.join folder.path))) _ ?_ [])
    · exact fun site h => ⟨rfl, h.1⟩
    · exact fun _ _ h => h
    · exact fun _ _ h => ⟨h.1, .inl h.2⟩
    · intro done folder rest found _
      rw [List.flatMap_append, List.flatMap_singleton]
      exact visit_surveys settings folder
  apply hloop.visitFolders fun site h => by rw [h.1.disk_eq, h.2]
  exact fun hbroken found site h => ⟨h.2.disk_eq, .inr ⟨rfl, hbroken⟩⟩

end Docwright.Survey
