import Docwright.Proofs.Disk.Access
import Docwright.Proofs.Json.RoundTrip
import Docwright.Proofs.Survey.Course
import Docwright.Proofs.Survey.Entries

/-!
# The structure is a mapping

The structure that a survey builds lists every source file once, under the paths that
the walk comes to, and no entry has a key twice. So the value that stands for it in the
structure file is one that reading brings back from its written form.
-/

namespace Docwright.Survey

open Docwright.Job
open Docwright.Disk

/-- No path is listed twice, and no entry has a key twice. -/
structure Structure.IsMapping (files : Structure) : Prop where
  paths : (files.map (·.1)).Nodup
  keys : ∀ path findings, (path, Entry.analysed findings) ∈ files → (findings.map (·.1)).Nodup

theorem listed_isMapping (settings : Settings) (disk : Disk) (feed : Feed ParsedFile)
    {paths : List String} (hpaths : paths.Nodup) :
    (listed settings disk feed paths).IsMapping := by
  refine ⟨(map_fst_listed settings paths).symm ▸ hpaths, fun path findings hfile => ?_⟩
  obtain ⟨before, rest, -, hentry⟩ := mem_listed_iff.1 hfile
  obtain ⟨content, file, -, -, rfl⟩ := Settings.entry_eq_analysed hentry.symm
  simp [Settings.findings, Settings.lookups]

theorem survey_isMapping {site : Site} (hnamed : site.disk.Named) {found : Structure}
    (hfound : result (survey {}) site = .ok found) : found.IsMapping := by
  obtain ⟨-, rfl, -⟩ :=
    (survey_surveys {} site.limits.levels).of_ok ⟨⟨rfl, rfl⟩, rfl⟩ (apply_eq_ok hfound)
  exact listed_isMapping {} _ _ (nodup_filePaths hnamed _ _ isTopFolder_sources.leadsTo)

/-! ### How it is saved -/

theorem Entry.textual {entry : Entry}
    (hkeys : ∀ findings, entry = .analysed findings → (findings.map (·.1)).Nodup) (depth : Nat) :
    Json.Textual (depth + 2) entry.toValue := by
  have hempty : Json.Textual (depth + 1) (.arr []) := .arr depth [] (by simp)
  cases entry with
  | analysed findings =>
      apply Json.Textual.obj
      · rw [List.map_map]
        exact hkeys findings rfl
      · intro field hfield
        obtain ⟨⟨key, texts⟩, _, rfl⟩ := List.mem_map.1 hfield
        apply Json.Textual.arr
        intro v hv
        obtain ⟨text, _, rfl⟩ := List.mem_map.1 hv
        exact .str depth text
  | blank =>
      apply Json.Textual.obj
      · decide
      · simp [emptyLists, hempty]
  | failed error =>
      apply Json.Textual.obj
      · simp [emptyLists]
      · simp [emptyLists, hempty, Json.Textual.str]

/-- The value of a mapping is one that reading brings back. -/
theorem Structure.IsMapping.textual {files : Structure} (h : files.IsMapping) (limits : Limits) :
    Json.Textual limits.nesting files.toValue := by
  obtain ⟨depth, hdepth⟩ := Nat.exists_eq_add_of_le' limits.three_le_nesting
  rw [hdepth]
  apply Json.Textual.obj (depth + 2)
  · rw [List.map_map]
    exact h.paths
  · intro field hfield
    obtain ⟨⟨path, entry⟩, hentry, rfl⟩ := List.mem_map.1 hfield
    exact Entry.textual (fun findings hsame => h.keys path findings (hsame ▸ hentry)) depth

end Docwright.Survey
