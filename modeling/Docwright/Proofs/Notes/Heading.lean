import Docwright.Proofs.Notes.Run
import Docwright.Proofs.Text.Lines

/-!
# Where an addendum stands

The heading of an addendum is to stand on a line of its own, between the lines of the notes
and those of the addendum. But what is put between the two texts holds no line end, so the
heading stands in one line with the last characters of the notes and the first ones of the
addendum, and no saved file has it as that line.
-/

namespace Docwright.Notes

open Docwright.Disk
open Docwright.Job
open Docwright.Path
open Docwright.Text

def addendumHeading : String := "## RAG Addendum"

/-- The lines have the heading of the addendum as one of them, the lines of the notes before
it, and the lines of the addendum after it. -/
def HasHeading (found notes added : List (List Char)) : Prop :=
  ∃ before, found = before ++ addendumHeading.toList :: added ∧ notes.Sublist before

theorem not_isLineEnd_addendumSeparator :
    ∀ c ∈ addendumSeparator.toList, isLineEnd c = false := by
  have hall : addendumSeparator.toList.all (!isLineEnd ·) = true := by decide
  intro c hc
  simpa using List.all_eq_true.1 hall c hc

/-- The lines of notes with an addendum: the separator joins the line that the notes leave
open with the first line of the addendum. -/
theorem exists_lines_extended (notes : String) {added : String} (hadded : added ≠ "") :
    ∃ closed last first rest,
      lines notes.toList = (if last = [] then closed else closed ++ [last]) ∧
      lines added.toList = first :: rest ∧
      lines (notes ++ addendumSeparator ++ added).toList =
        closed ++ (last ++ addendumSeparator.toList ++ first) :: rest := by
  rw [String.toList_append, String.toList_append]
  exact exists_lines_joined notes.toList not_isLineEnd_addendumSeparator
    (by decide +kernel) (by simpa using hadded)

theorem not_hasHeading (notes : String) {added : String} (hadded : added ≠ "") :
    ¬ HasHeading (lines (notes ++ addendumSeparator ++ added).toList) (lines notes.toList)
      (lines added.toList) := by
  obtain ⟨closed, last, first, rest, hnotes, hlines, hjoined⟩ := exists_lines_extended notes hadded
  rintro ⟨before, hsplit, hbefore⟩
  have hcount := congrArg List.length (hjoined.symm.trans hsplit)
  have hclosed : closed.length ≤ (lines notes.toList).length := by
    rw [hnotes]
    split
    · exact Nat.le_refl _
    · simp
  have hlength := hbefore.length_le
  rw [hlines] at hcount
  simp only [List.length_append, List.length_cons] at hcount
  omega

/-- In every turn in which an addendum is obtained and the disk takes the text, notes and
addendum are saved so that the heading shares its line with the line that the notes leave
open and with the first line of the addendum. It never stands between the lines of both. -/
theorem run_joins_heading_to_lines {settings : Settings} (husual : settings.IsUsual) {site : Site}
    (hready : Ready site) (hsources : site.disk.get? ["src"] ≠ none)
    (hindex : site.disk.get? ["rag_index"] ≠ none) (hload : site.services.indexLoad = .ok ())
    {turn : Turn} (hturn : turn ∈ turnsOf settings site) {content notes found added : String}
    (hadded : IsAddendum added) :
    let path := settings.notesPath turn.source.name
    let saved := notes ++ addendumSeparator ++ added
    turn.exchange settings = .supported content (.str notes) found (.str added) →
    (turn.site.disk.write? path (Utf8.encode saved.toList)).isOk = true →
      (after (run settings) site).disk.read? path = .ok (Utf8.encode saved.toList) ∧
      (∃ closed last first rest,
        lines notes.toList = (if last = [] then closed else closed ++ [last]) ∧
        lines added.toList = first :: rest ∧
        lines saved.toList = closed ++ (last ++ addendumSeparator.toList ++ first) :: rest) ∧
      ¬ HasHeading (lines saved.toList) (lines notes.toList) (lines added.toList) := by
  intro path saved hexchange hwrite
  have hnotes : (turn.exchange settings).outcome = .ok (some (.str saved)) := by
    rw [hexchange, Exchange.outcome, withReply, if_pos hadded, extended, ← String.append_assoc]
    rfl
  have hread := read?_run husual hready hsources hindex hload hturn hnotes hwrite
  exact ⟨hread.2, exists_lines_extended notes hadded.1, not_hasHeading notes hadded.1⟩

/-- A site with one source file, at which these notes and this addendum are written. -/
def addendumSite (notes added : String) : Site := oneFileSite [.str notes, .str added] [.str "f"]

/-- Both texts have two lines, and the file has three. -/
theorem run_joins_heading_to_lines_pairs :
    let site := addendumSite "k\nm" "a\nb"
    let turn : Turn := ⟨⟨"./src/a.h", "a.h"⟩, started {} site⟩
    let saved := "k\nm" ++ addendumSeparator ++ "a\nb"
    isPlainEntries site.disk.entries = true ∧
      turn.exchange {} = .supported "x" (.str "k\nm") "f" (.str "a\nb") ∧
      (after (run {}) site).disk.read? "./file_notes/a.h.md" = .ok (Utf8.encode saved.toList) ∧
      lines saved.toList =
        ["k".toList, ("m" ++ addendumSeparator ++ "a").toList, "b".toList] ∧
      ¬ HasHeading (lines saved.toList) (lines "k\nm".toList) (lines "a\nb".toList) := by
  intro site turn saved
  have hplain : isPlainEntries site.disk.entries = true := by decide +kernel
  have hready : Ready site :=
    ⟨plain_of_isPlain hplain, Feed.ordinary_of_not_isInterruption (by decide +kernel),
      Feed.ordinary_of_not_isInterruption (by decide +kernel)⟩
  have hturns : turnsOf {} site = [turn] := by
    have hfiles : sources {} site = [⟨"./src/a.h", "a.h"⟩] := by decide +kernel
    rw [turnsOf, hfiles]
    obtain ⟨saved, -, hcourse⟩ | ⟨fault, -, hcourse⟩ := course_cons {} (started {} site) _ []
    · exact hcourse
    · exact hcourse
  have hturn : turn ∈ turnsOf {} site := by simp [hturns]
  have hexchange : turn.exchange {} = .supported "x" (.str "k\nm") "f" (.str "a\nb") := by
    decide +kernel
  have hpath : ({} : Settings).notesPath turn.source.name = "./file_notes/a.h.md" := by decide
  have hwrite : (turn.site.disk.write? "./file_notes/a.h.md" (Utf8.encode saved.toList)).isOk =
      true := by
    decide +kernel
  rw [← hpath] at hwrite ⊢
  obtain ⟨hread, _, hheading⟩ := run_joins_heading_to_lines (isUsual _ _ _) hready
    (by decide +kernel) (by decide +kernel) rfl hturn (by decide +kernel) hexchange hwrite
  exact ⟨hplain, hexchange, hread, by decide +kernel, hheading⟩

/-- Notes and addendum of one character each are saved as one line. -/
theorem saved_notes_lack_heading :
    let saved := "n\\n\\n## RAG Addendum\\na"
    ((after (run {}) (addendumSite "n" "a")).disk.read? "./file_notes/a.h.md").toOption =
        some (Utf8.encode saved.toList) ∧
      lines saved.toList = [saved.toList] ∧
      ¬ HasHeading (lines saved.toList) (lines "n".toList) (lines "a".toList) := by
  intro saved
  have hsaved : saved = "n" ++ addendumSeparator ++ "a" := by decide +kernel
  refine ⟨by decide +kernel, by decide +kernel, ?_⟩
  rw [hsaved]
  exact not_hasHeading "n" (by decide)

end Docwright.Notes
