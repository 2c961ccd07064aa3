import Docwright.Proofs.Survey.Entries
import Docwright.Proofs.Text.Order
import Docwright.Proofs.Text.Trim

/-!
# What is found in a source file

`Lookup.Yields` says which texts a lookup is to list, from the spans that its query finds under
its names. The list is in strict order, and so it is known from the texts in it: neither the order
nor the number of times that a span is found matters, and neither does the answer to the query of
another lookup. A lookup that is empty, and one whose query fails, lists nothing.
-/

namespace Docwright.Survey

open Docwright.Job

def Finds (file : ParsedFile) (query : Json.Value) (name : String) (span : Span) : Prop :=
  ∃ captures, answerTo file query = .ok captures ∧ span ∈ spansOf captures name

/-- The text stands in the list under a key for a captured one: a path without the marks at its
ends, any other text as it was captured. -/
def StandsFor (key captured text : String) : Prop :=
  if key = "includes" ∨ key = "imports" then
    Text.IsTrimOf isPathMark text.toList captured.toList
  else text = captured

theorem standsFor_iff {key captured text : String} :
    StandsFor key captured text ↔ listedText key captured = text := by
  have hpaths : holdsPaths key = true ↔ key = "includes" ∨ key = "imports" := by
    simp [holdsPaths]
  unfold StandsFor listedText
  by_cases hkey : key = "includes" ∨ key = "imports"
  · rw [if_pos hkey, if_pos (hpaths.2 hkey), Text.isTrimOf_iff, ← String.toList_inj,
      String.toList_ofList]
  · rw [if_neg hkey, if_neg (mt hpaths.1 hkey)]
    exact eq_comm

theorem mem_capturedTexts_iff {content : List UInt8} {key : String} {names : List String}
    {captures : Captures} {text : String} :
    text ∈ capturedTexts content key names captures ↔
      ∃ name ∈ names, ∃ span ∈ spansOf captures name, StandsFor key (span.text content) text := by
  simp only [capturedTexts, Text.mem_sortedDistinct_iff, List.mem_map, List.mem_flatMap, standsFor_iff]
  constructor
  · rintro ⟨span, ⟨name, hname, hspan⟩, htext⟩
    exact ⟨name, hname, span, hspan, htext⟩
  · rintro ⟨name, hname, span, hspan, htext⟩
    exact ⟨span, ⟨name, hname, hspan⟩, htext⟩

namespace Lookup

variable {content : List UInt8} {file other : ParsedFile} {lookup : Lookup}

/-- The query of the lookup is put and finds, under one of the names, a span whose text this one
stands for. -/
def Yields (content : List UInt8) (file : ParsedFile) (lookup : Lookup) (text : String) : Prop :=
  lookup.IsPut ∧ ∃ name ∈ lookup.names, ∃ span, Finds file lookup.query name span ∧
    StandsFor lookup.key (span.text content) text

theorem mem_texts_iff {text : String} :
    text ∈ lookup.texts content file ↔ lookup.Yields content file text := by
  by_cases hput : lookup.IsPut
  · unfold Yields Finds
    cases hanswer : answerTo file lookup.query with
    | ok captures =>
        have htexts : lookup.texts content file =
            capturedTexts content lookup.key lookup.names captures := by
          rw [texts, if_pos hput.1, hanswer]
        rw [htexts, mem_capturedTexts_iff]
        simp [hput]
    | error fault => simp [texts_eq_nil content (.inr ⟨fault, hanswer⟩)]
  · simp [texts_eq_nil content (.inl hput), Yields, hput]

theorem texts_inOrder (content : List UInt8) (file : ParsedFile) (lookup : Lookup) :
    (lookup.texts content file).Pairwise fun a b => a.toList < b.toList := by
  unfold texts
  split
  · split
    · exact Text.sortedDistinct_inOrder _
    · exact List.Pairwise.nil
  · exact List.Pairwise.nil

/-- What is found for the lookup has its key, and its texts, in strict order, are those that the
lookup yields. -/
structure Lists (content : List UInt8) (file : ParsedFile) (lookup : Lookup)
    (found : String × List String) : Prop where
  key_eq : found.1 = lookup.key
  inOrder : found.2.Pairwise fun a b => a.toList < b.toList
  mem_iff : ∀ text, text ∈ found.2 ↔ lookup.Yields content file text

/-- The query finds in both files the same spans under each of the names. One that fails in a file
finds none there. -/
def FindsAlike (lookup : Lookup) (file other : ParsedFile) : Prop :=
  ∀ name ∈ lookup.names, ∀ span,
    Finds file lookup.query name span ↔ Finds other lookup.query name span

theorem FindsAlike.yields_iff (h : lookup.FindsAlike file other) (text : String) :
    lookup.Yields content file text ↔ lookup.Yields content other text := by
  unfold Yields
  constructor
  · rintro ⟨hput, name, hname, span, hfinds, htext⟩
    exact ⟨hput, name, hname, span, (h name hname span).1 hfinds, htext⟩
  · rintro ⟨hput, name, hname, span, hfinds, htext⟩
    exact ⟨hput, name, hname, span, (h name hname span).2 hfinds, htext⟩

theorem FindsAlike.texts_eq (h : lookup.FindsAlike file other) :
    lookup.texts content other = lookup.texts content file := by
  apply Text.eq_of_mem_iff_of_inOrder (texts_inOrder _ _ _) (texts_inOrder _ _ _)
  intro text
  rw [mem_texts_iff, mem_texts_iff, h.yields_iff text]

end Lookup

theorem extract_of_calm (content : List UInt8) {lookups : List Lookup} {site : Site}
    {file : ParsedFile} (hparse : site.services.parser.head = .ok file)
    (hcalm : ∀ lookup ∈ lookups, ∀ fault, ¬ lookup.IsInterrupted file fault) :
    ∃ left, extract content (lookups.map Lookup.definition) site =
      .ok (lookups.map fun lookup => (lookup.key, lookup.texts content file)) left := by
  have hstart : At site.disk site.services.parser site := ⟨rfl, rfl⟩
  have hend := (extract_lookups_at content lookups).ends hstart
  cases happly : extract content (lookups.map Lookup.definition) site with
  | ok findings left =>
      rw [happly] at hend
      obtain ⟨⟨parsed, hparsed, rfl⟩, -⟩ := hend
      obtain rfl : file = parsed := Except.ok.inj (hparse.symm.trans hparsed)
      exact ⟨left, rfl⟩
  | error fault left =>
      rw [happly] at hend
      obtain ⟨-, ⟨parsed, hparsed, lookup, hlookup, hfault⟩ | ⟨failure, hfailure, -⟩⟩ := hend
      · obtain rfl : file = parsed := Except.ok.inj (hparse.symm.trans hparsed)
        exact absurd hfault (hcalm lookup hlookup fault)
      · exact absurd (hparse.symm.trans hfailure) (by simp)

/-- A search lists for each lookup, in the order given, just the texts that the lookup yields.
With another file of which a lookup finds the same spans it lists the same for that lookup,
whatever becomes of the others. -/
theorem extract_lists_what_is_captured (content : List UInt8) (lookups : List Lookup) {site : Site}
    {file : ParsedFile} (hparse : site.services.parser.head = .ok file)
    (hcalm : ∀ lookup ∈ lookups, ∀ fault, ¬ lookup.IsInterrupted file fault) :
    ∃ findings left, extract content (lookups.map Lookup.definition) site = .ok findings left ∧
      List.Forall₂ (fun lookup found => lookup.Lists content file found ∧
        (¬ lookup.IsPut ∨ (∃ fault, answerTo file lookup.query = .error fault) → found.2 = []))
        lookups findings ∧
      ∀ (otherSite : Site) (other : ParsedFile), otherSite.services.parser.head = .ok other →
        (∀ lookup ∈ lookups, ∀ fault, ¬ lookup.IsInterrupted other fault) →
        ∃ others left, extract content (lookups.map Lookup.definition) otherSite =
            .ok others left ∧
          ∀ (i : Nat) (lookup : Lookup), lookups[i]? = some lookup →
            lookup.FindsAlike file other → others[i]? = findings[i]? := by
  obtain ⟨left, happly⟩ := extract_of_calm content hparse hcalm
  refine ⟨_, left, happly, ?_, ?_⟩
  · rw [List.forall₂_map_right_iff, List.forall₂_same]
    intro lookup _
    refine ⟨⟨rfl, lookup.texts_inOrder content file, fun text => ?_⟩, ?_⟩
    · exact Lookup.mem_texts_iff
    · exact Lookup.texts_eq_nil content
  · intro otherSite other hother hotherCalm
    obtain ⟨otherLeft, hotherApply⟩ := extract_of_calm content hother hotherCalm
    refine ⟨_, otherLeft, hotherApply, fun i lookup hlookup halike => ?_⟩
    rw [List.getElem?_map, List.getElem?_map, hlookup, Option.map_some, Option.map_some,
      halike.texts_eq]

theorem not_fileInterrupts {file : ParsedFile}
    (h : (file.answers.all fun entry => !Feed.isInterruption entry.2) = true) (fault : Fault) :
    ¬ FileInterrupts file fault := by
  rintro ⟨query, kind, message, hanswer, -⟩
  unfold ParsedFile.answer at hanswer
  split at hanswer
  · rename_i key answer hfind
    have hcalm := List.all_eq_true.1 h _ (List.mem_of_find?_eq_some hfind)
    rw [hanswer] at hcalm
    exact absurd hcalm (by simp [Feed.isInterruption])
  · exact absurd hanswer (by simp)

def searchSite (file : ParsedFile) : Site where
  disk := ⟨[]⟩
  services := { Services.failing with parser := ⟨[], .ok file⟩ }
  limits := .ample

/-- The text of two directives and two classes: `"a" <a>béc`. -/
def sampleContent : List UInt8 := [34, 97, 34, 32, 60, 97, 62, 98, 195, 169, 99]

/-- Paths, functions and, under two names, classes. -/
def sampleLookups : List Lookup :=
  [⟨"includes", .str "i", ["path"]⟩, ⟨"functions", .str "f", ["name"]⟩,
    ⟨"classes", .str "c", ["late", "early"]⟩]

/-- The path is found in either directive, and one of the classes from inside a character on. The
query for functions fails. -/
def sampleFile : ParsedFile where
  answers :=
    [("i", .ok [("path", [⟨some 0, some 3⟩, ⟨some 4, some 7⟩])]),
      ("f", .error (.raised "QueryError" "m")),
      ("c", .ok [("early", [⟨some 7, some 10⟩]), ("late", [⟨some 9, some 11⟩])])]

/-- The directives are found the other way round, one of them twice, and there is a function. The
query for classes fails. -/
def otherSampleFile : ParsedFile where
  answers :=
    [("i", .ok [("path", [⟨some 4, some 7⟩, ⟨some 0, some 3⟩, ⟨some 4, some 7⟩])]),
      ("f", .ok [("name", [⟨some 1, some 2⟩])]),
      ("c", .error (.raised "QueryError" "m"))]

/-- What fails in one of the files is there in the other, and the list of the paths is the same
for both. -/
theorem extract_lists_what_is_captured_sample :
    let search := extract sampleContent (sampleLookups.map Lookup.definition)
    (∀ lookup ∈ sampleLookups, ∀ fault, ¬ lookup.IsInterrupted sampleFile fault) ∧
      (∀ lookup ∈ sampleLookups, ∀ fault, ¬ lookup.IsInterrupted otherSampleFile fault) ∧
      result search (searchSite sampleFile) =
        .ok [("includes", ["a"]), ("functions", []), ("classes", ["bé", "c"])] ∧
      ∃ others left, search (searchSite otherSampleFile) = .ok others left ∧
        others[0]? = some ("includes", ["a"]) := by
  intro search
  have hordinary : ∀ file : ParsedFile,
      (file.answers.all fun entry => !Feed.isInterruption entry.2) = true →
        ∀ lookup ∈ sampleLookups, ∀ fault, ¬ lookup.IsInterrupted file fault := by
    rintro file hall lookup - fault ⟨-, hanswer, hfault⟩
    exact not_fileInterrupts hall fault (fileInterrupts_of_answerTo hanswer hfault)
  have hcalm := hordinary sampleFile (by decide +kernel)
  have hotherCalm := hordinary otherSampleFile (by decide +kernel)
  have hresult : result search (searchSite sampleFile) =
      .ok [("includes", ["a"]), ("functions", []), ("classes", ["bé", "c"])] := by
    decide +kernel
  have halike : (⟨"includes", .str "i", ["path"]⟩ : Lookup).FindsAlike sampleFile
      otherSampleFile := by
    have hanswer : answerTo sampleFile (.str "i") =
        .ok [("path", [⟨some 0, some 3⟩, ⟨some 4, some 7⟩])] := by rfl
    have hotherAnswer : answerTo otherSampleFile (.str "i") =
        .ok [("path", [⟨some 4, some 7⟩, ⟨some 0, some 3⟩, ⟨some 4, some 7⟩])] := by rfl
    intro name hname span
    obtain rfl := List.mem_singleton.1 hname
    simp +contextual [Finds, hanswer, hotherAnswer, spansOf, or_comm]
  obtain ⟨findings, left, happly, -, htwo⟩ :=
    extract_lists_what_is_captured sampleContent sampleLookups
      (show (searchSite sampleFile).services.parser.head = .ok sampleFile from rfl) hcalm
  obtain ⟨others, otherLeft, hother, hsame⟩ :=
    htwo (searchSite otherSampleFile) otherSampleFile rfl hotherCalm
  refine ⟨hcalm, hotherCalm, hresult, others, otherLeft, hother, ?_⟩
  rw [hsame 0 _ rfl halike, Except.ok.inj ((result_ok happly).symm.trans hresult)]
  rfl

end Docwright.Survey
