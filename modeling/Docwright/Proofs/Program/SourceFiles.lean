import Docwright.Proofs.Disk.Beside
import Docwright.Proofs.Notes.Rerun
import Docwright.Proofs.Survey.Report
import Docwright.Proofs.Text.Lines

/-!
# What counts as a source file

Notes are taken on source files, and the survey analyses them. Both go by the ending of the
name and pass over a file without content, but each in its own way. Where notes are taken the
name has to end in one of the endings, and the text of the file must not be blank; the survey
asks for the extension of the name, which a name of full stops before the ending does not have,
and looks at bytes. So the two differ on such names, and on texts that are blank though not all
of their bytes are blanks of ASCII.
-/

namespace Docwright

open Docwright.Job

/-! ### Names -/

section Names

variable {name : String}

/-- The name is one of the endings of source files after nothing but full stops. -/
def IsBareEnding (name : String) : Prop :=
  ∃ dots, ∃ ending ∈ Survey.sourceExtensions,
    name = dots ++ ending ∧ ∀ c ∈ dots.toList, c = '.'

theorem exists_of_mem_sourceExtensions {ending : String} (h : ending ∈ Survey.sourceExtensions) :
    ∃ e, ending = "." ++ e ∧ '.' ∉ e.toList ∧ e ≠ "" := by
  simp only [Survey.sourceExtensions, List.mem_cons, List.not_mem_nil, or_false] at h
  rcases h with rfl | rfl | rfl
  · exact ⟨"cpp", rfl, by decide, by decide⟩
  · exact ⟨"h", rfl, by decide, by decide⟩
  · exact ⟨"i", rfl, by decide, by decide⟩

theorem Notes.selects_iff : ({} : Notes.Settings).selects name = true ↔
    ∃ ending ∈ Survey.sourceExtensions, ∃ front, name = front ++ ending := by
  simp only [Notes.Settings.selects, List.any_eq_true, Path.hasEnding_iff]

theorem Survey.selects_iff : ({} : Survey.Settings).selects name = true ↔
    Path.extension name ∈ Survey.sourceExtensions := by
  rw [Survey.Settings.selects, List.contains_iff_mem]

theorem notes_selects_of_survey_selects (h : ({} : Survey.Settings).selects name = true) :
    ({} : Notes.Settings).selects name = true :=
  Notes.selects_iff.2 ⟨Path.extension name, Survey.selects_iff.1 h, Path.stem name,
    (Path.stem_append_extension name).symm⟩

theorem isBareEnding_iff : IsBareEnding name ↔
    ({} : Notes.Settings).selects name = true ∧ ({} : Survey.Settings).selects name = false := by
  rw [← Bool.not_eq_true, Notes.selects_iff, Survey.selects_iff]
  constructor
  · rintro ⟨dots, ending, hending, rfl, hdots⟩
    refine ⟨⟨ending, hending, dots, rfl⟩, ?_⟩
    obtain ⟨e, rfl, hdot, hne⟩ := exists_of_mem_sourceExtensions hending
    rw [Path.extension_of_dots hdots hdot hne]
    decide
  · rintro ⟨⟨ending, hending, front, rfl⟩, hother⟩
    refine ⟨front, ending, hending, rfl, ?_⟩
    by_contra hfront
    obtain ⟨c, hc⟩ := not_forall.1 hfront
    obtain ⟨hmem, hc⟩ := Classical.not_imp.1 hc
    obtain ⟨e, rfl, hdot, -⟩ := exists_of_mem_sourceExtensions hending
    rw [Path.extension_append ⟨c, hmem, hc⟩ hdot] at hother
    exact hother hending

end Names

/-! ### Contents -/

section Contents

theorem encode_blankByte {b : UInt8} (h : Survey.isBlankByte b = true) :
    String.utf8EncodeChar (Char.ofNat b.toNat) = [b] ∧
      Text.isBlank (Char.ofNat b.toNat) = true := by
  have hcases : b.toNat = 9 ∨ b.toNat = 10 ∨ b.toNat = 11 ∨ b.toNat = 12 ∨ b.toNat = 13 ∨
      b.toNat = 32 := by
    simp only [Survey.isBlankByte, Bool.or_eq_true, Bool.and_eq_true, Nat.ble_eq, beq_iff_eq] at h
    omega
  have hvalues : b = 9 ∨ b = 10 ∨ b = 11 ∨ b = 12 ∨ b = 13 ∨ b = 32 := by
    simp only [← UInt8.toNat_inj]
    exact hcases
  rcases hvalues with rfl | rfl | rfl | rfl | rfl | rfl
  · decide
  · decide
  · decide
  · decide
  · decide
  · decide

theorem all_isBlank_of_bytes {content : List UInt8} (h : content.all Survey.isBlankByte = true) :
    (Text.Utf8.decodeLenient content).all Text.isBlank = true := by
  rw [List.all_eq_true] at h
  have hcontent : Text.Utf8.encode (content.map fun b => Char.ofNat b.toNat) = content := by
    rw [Text.Utf8.encode, List.flatMap_map]
    calc content.flatMap (fun b => String.utf8EncodeChar (Char.ofNat b.toNat))
      _ = content.flatMap fun b => [b] :=
          List.flatMap_congr fun b hb => (encode_blankByte (h b hb)).1
      _ = content := List.flatMap_singleton' content
  rw [← hcontent, Text.Utf8.decodeLenient_encode, List.all_map, List.all_eq_true]
  exact fun b hb => (encode_blankByte (h b hb)).2

end Contents

/-! ### Files -/

section Files

variable {site : Site} {path : String} {content : List UInt8}

theorem Notes.annotateContent_asks (settings : Notes.Settings) (notesPath : String) {text : String}
    (hblank : Text.isBlankText text = false) (site : Site) :
    .write settings.model settings.notesTokens (.str (notesPrompt text path)) ∈
      (after (annotateContent settings path notesPath text) site).asked := by
  generalize hrequest : Request.write settings.model settings.notesTokens
    (.str (notesPrompt text path)) = request
  have hfirst : Brings (fun _ => True) (firstNotes settings text path)
      (fun _ left => request ∈ left.asked) fun _ left => request ∈ left.asked := by
    refine Brings.of_after fun site _ => ?_
    have hasked : (after (firstNotes settings text path) site).asked = site.asked ++ [_] :=
      firstNotes_asks settings text path site
    rw [hasked, hrequest]
    exact List.mem_append_right _ (List.mem_singleton_self request)
  have hsave : ∀ notes, Brings (fun site => request ∈ site.asked) (save notesPath notes)
      (fun _ left => request ∈ left.asked) fun _ left => request ∈ left.asked := by
    intro notes
    have hkeeps : Keeps Site.asked (save notesPath notes) := by
      refine Respects.bind (.attempt (writeValue_keeps (fun _ _ => rfl) _ _)) fun result => ?_
      cases result with
      | ok done => exact Respects.bind (say_keeps_asked _) fun _ => .pure _
      | error fault => exact Respects.bind (say_keeps_asked _) fun _ => .pure _
    exact Brings.of_respects hkeeps fun _ _ hmem hsame => hsame ▸ hmem
  have hturn : Brings (fun _ => True) (annotateContent settings path notesPath text)
      (fun _ left => request ∈ left.asked) fun _ left => request ∈ left.asked := by
    unfold annotateContent
    rw [hblank]
    apply Brings.bind hfirst
    intro notes?
    split
    · exact .intro fun _ h => h
    · refine Brings.bind (Brings.of_respects (withAddendum_onlyAsks settings _ text path) ?_) hsave
      exact fun _ _ hmem hasking => hasking.asked hmem
  exact hturn.after trivial

/-- Notes on a file that has none are asked for exactly if its text is not blank. -/
theorem Notes.annotate_asks_iff (settings : Notes.Settings) {notesPath : String}
    (hfresh : site.asked = []) (hnull : path.toList.any (·.toNat == 0) = false)
    (hread : site.disk.read? path = .ok content) (hnotes : site.disk.hasItem notesPath = false) :
    (after (annotate settings path notesPath) site).asked ≠ [] ↔
      (Text.Utf8.decodeLenient content).all Text.isBlank = false := by
  have hitem : hasItem notesPath site = .ok false site := by
    rw [hasItem_apply, hnotes, Bool.and_false]
  obtain ⟨text, htext⟩ : ∃ text, text = String.ofList
    (Text.unifyNewlines (Text.Utf8.decodeLenient content)) := ⟨_, rfl⟩
  have hblank : Text.isBlankText text = (Text.Utf8.decodeLenient content).all Text.isBlank := by
    rw [htext, Text.isBlankText, String.toList_ofList, Text.all_isBlank_unifyNewlines]
  have htexts : ((site.disk.read? path).toOption.map fun bytes =>
      String.ofList (Text.unifyNewlines (Text.Utf8.decodeLenient bytes))) = some text := by
    rw [hread, htext]
    rfl
  obtain ⟨heard, happly⟩ : ∃ heard, annotate settings path notesPath site =
      annotateContent settings path notesPath text (saying site heard) :=
    annotate_read hnull htexts hitem
  rw [← hblank, after_eq_of_apply happly]
  cases hcase : Text.isBlankText text with
  | false =>
      exact iff_of_true (List.ne_nil_of_mem (annotateContent_asks settings notesPath hcase _)) rfl
  | true =>
      have hends : Ends (annotateContent settings path notesPath text) (saying site heard)
          (.ok false) site := annotateContent_blank hcase heard
      have hasked := hends.2.part_eq Site.asked fun _ _ => rfl
      exact iff_of_false (fun hsome => hsome (hasked.trans hfresh)) (by simp)

theorem Survey.entryOf_asks (settings : Survey.Settings)
    (hcontent : contentAt site.disk path = .ok content)
    (hfull : content.all isBlankByte = false) :
    .parse content.length ∈ (after (entryOf settings path) site).asked := by
  have hanalyse : Brings (At site.disk site.services.parser) (analyse settings path)
      (fun _ left => .parse content.length ∈ left.asked)
      fun _ left => .parse content.length ∈ left.asked := by
    apply Brings.bind (M := fun read _ => read = content ∧ True)
    · apply (readBytes_at path).imp (fun _ h => h)
      · exact fun read _ h => ⟨Except.ok.inj (h.1.symm.trans hcontent), trivial⟩
      · exact fun fault _ h => absurd (h.1.symm.trans hcontent) (by simp)
    · intro read
      apply Brings.assume
      rintro rfl
      rw [hfull]
      refine Brings.bind (Brings.of_after fun site _ => ?_) fun _ => Brings.pure fun _ h => h
      exact (extract_asksFor read settings.definitions site).2
  have hentry : Brings (At site.disk site.services.parser) (entryOf settings path)
      (fun _ left => .parse content.length ∈ left.asked)
      fun _ left => .parse content.length ∈ left.asked := by
    apply Brings.bind (say_at _)
    intro _
    apply Brings.attempt_bind hanalyse
    · exact fun entry => Brings.pure fun _ h => h
    · exact fun fault _ => .intro fun _ h => h
    · exact fun fault _ _ h => h
  exact hentry.after ⟨rfl, rfl⟩

/-- The parser is asked for a file exactly if its bytes are not all blank. -/
theorem Survey.entryOf_asks_iff (settings : Survey.Settings) (hfresh : site.asked = [])
    (hnull : path.toList.any (·.toNat == 0) = false)
    (hread : site.disk.read? path = .ok content) :
    (after (entryOf settings path) site).asked ≠ [] ↔ content.all isBlankByte = false := by
  have hcontent : contentAt site.disk path = .ok content := by
    rw [contentAt, hnull, hread]
    rfl
  cases hblank : content.all isBlankByte with
  | false => exact iff_of_true (List.ne_nil_of_mem (entryOf_asks settings hcontent hblank)) rfl
  | true =>
      have hbytes : ∀ said, Ends (readBytes path) (saying site said) (.ok content) site := by
        intro said
        have hends := readBytes_ends hnull (saying site said)
        rw [show (saying site said).disk.read? path = _ from hread] at hends
        exact hends.respoken rfl
      have hanalyse : ∀ said, Ends (analyse settings path) (saying site said) (.ok .blank) site := by
        intro said
        refine (hbytes said).bind fun said => ?_
        rw [hblank]
        exact Ends.bind (.say _) fun said => .pure
      have hends : Ends (entryOf settings path) site (.ok .blank) site := by
        refine Ends.bind (.say _) fun said => ?_
        exact ((hanalyse said).attempt (by simp)).bind fun said => .pure
      have hasked := hends.2.part_eq Site.asked fun _ _ => rfl
      exact iff_of_false (fun hsome => hsome (hasked.trans hfresh)) (by simp)

end Files

/-! ### The two programs -/

namespace Program

/-- Where notes are taken the file of that name in the folder is considered: it is selected, and
its turn comes to a request. -/
def Considered (site : Site) (folder : Disk.Folder) (name : String) : Prop :=
  ({} : Notes.Settings).selects name = true ∧
    (after (Notes.annotate {} (Path.join folder.path name)
      (({} : Notes.Settings).notesPath name)) site).asked ≠ []

/-- The survey analyses the file of that name in the folder: it is selected, and its turn comes
to a request. -/
def Analysed (site : Site) (folder : Disk.Folder) (name : String) : Prop :=
  ({} : Survey.Settings).selects name = true ∧
    (after (Survey.entryOf {} (Path.join folder.path name)) site).asked ≠ []

/-- A file without notes that can be read is considered and not analysed exactly if its name is
a bare ending and its text is not blank. It is analysed and not considered exactly if the survey
selects it, its text is blank and not all of its bytes are. On every other file the two
programs agree. -/
theorem scanners_differ_iff {site : Site} {folder : Disk.Folder} {name : String}
    {content : List UInt8} (hfresh : site.asked = [])
    (hnull : (Path.join folder.path name).toList.any (·.toNat == 0) = false)
    (hread : site.disk.read? (Path.join folder.path name) = .ok content)
    (hnotes : site.disk.hasItem (({} : Notes.Settings).notesPath name) = false) :
    (Considered site folder name ∧ ¬ Analysed site folder name ↔
      IsBareEnding name ∧ (Text.Utf8.decodeLenient content).all Text.isBlank = false) ∧
    (Analysed site folder name ∧ ¬ Considered site folder name ↔
      ({} : Survey.Settings).selects name = true ∧
        (Text.Utf8.decodeLenient content).all Text.isBlank = true ∧
        content.all Survey.isBlankByte = false) := by
  have hconsidered := Notes.annotate_asks_iff {} hfresh hnull hread hnotes
  have hanalysed := Survey.entryOf_asks_iff {} hfresh hnull hread
  unfold Considered Analysed
  rw [hconsidered, hanalysed, isBareEnding_iff]
  constructor
  · constructor
    · rintro ⟨⟨hname, htext⟩, hother⟩
      refine ⟨⟨hname, ?_⟩, htext⟩
      rw [← Bool.not_eq_true]
      intro hselected
      refine hother ⟨hselected, ?_⟩
      rw [← Bool.not_eq_true]
      intro hbytes
      exact absurd (all_isBlank_of_bytes hbytes) (by simp [htext])
    · rintro ⟨⟨hname, hother⟩, htext⟩
      exact ⟨⟨hname, htext⟩, fun h => absurd h.1 (by simp [hother])⟩
  · constructor
    · rintro ⟨⟨hname, hbytes⟩, hother⟩
      refine ⟨hname, ?_, hbytes⟩
      rw [← Bool.not_eq_false]
      exact fun htext => hother ⟨notes_selects_of_survey_selects hname, htext⟩
    · rintro ⟨hname, htext, hbytes⟩
      exact ⟨⟨hname, hbytes⟩, fun h => absurd h.2 (by simp [htext])⟩

/-- A file whose name is a bare ending, and one that holds a no-break space. -/
def oddSite : Site :=
  Survey.sourceSite [(".h", .file [120]), ("a.h", .file [194, 160])] []

/-- The first of the two files is considered and not analysed. -/
theorem scanners_differ_iff_bare :
    oddSite.asked = [] ∧
      oddSite.disk.read? (Path.join "./src" ".h") = .ok [120] ∧
      oddSite.disk.hasItem (({} : Notes.Settings).notesPath ".h") = false ∧
      Considered oddSite ⟨"./src", ["src"]⟩ ".h" ∧ ¬ Analysed oddSite ⟨"./src", ["src"]⟩ ".h" := by
  have hread : oddSite.disk.read? (Path.join "./src" ".h") = .ok [120] := by decide +kernel
  have hnotes : oddSite.disk.hasItem (({} : Notes.Settings).notesPath ".h") = false := by
    decide +kernel
  have hbare : IsBareEnding ".h" := ⟨"", ".h", by decide, rfl, by simp⟩
  have hdiffer : Considered oddSite ⟨"./src", ["src"]⟩ ".h" ∧
      ¬ Analysed oddSite ⟨"./src", ["src"]⟩ ".h" :=
    (scanners_differ_iff rfl (by decide +kernel) hread hnotes).1.2 ⟨hbare, by decide +kernel⟩
  exact ⟨rfl, hread, hnotes, hdiffer⟩

/-- The two programs disagree on both files, in either direction. -/
theorem scanners_disagree :
    (Considered oddSite ⟨"./src", ["src"]⟩ ".h" ∧ ¬ Analysed oddSite ⟨"./src", ["src"]⟩ ".h") ∧
      Analysed oddSite ⟨"./src", ["src"]⟩ "a.h" ∧
      ¬ Considered oddSite ⟨"./src", ["src"]⟩ "a.h" := by
  refine ⟨⟨⟨by decide +kernel, by decide +kernel⟩, fun h => absurd h.1 (by decide +kernel)⟩,
    ⟨by decide +kernel, by decide +kernel⟩, fun h => h.2 (by decide +kernel)⟩

end Program

end Docwright
