import Docwright.Text.Trim
import Mathlib.Data.List.TakeWhile

/-!
# What trimming leaves

A run of characters of a class ends where a character outside of it comes, or the text ends:
`takeWhile` and `dropWhile` cut a text just there. Trimming is two such cuts, and
`isTrimOf_iff` says what it leaves without them.
-/

namespace Docwright.Text

variable {p : Char → Bool} {front rest kept text : List Char}

def StartsOutside (p : Char → Bool) (text : List Char) : Prop :=
  ∀ c ∈ text.head?, p c = false

theorem startsOutside_cons {c : Char} (hc : p c = false) (rest : List Char) :
    StartsOutside p (c :: rest) := by
  intro first hfirst
  rw [← Option.some.inj hfirst, hc]

theorem StartsOutside.append (hsome : front ≠ []) (h : StartsOutside p front)
    (rest : List Char) : StartsOutside p (front ++ rest) := by
  obtain ⟨c, front, rfl⟩ := List.exists_cons_of_ne_nil hsome
  exact startsOutside_cons (h c rfl) _

theorem StartsOutside.of_append (h : StartsOutside p (front ++ rest)) : StartsOutside p front := by
  intro c hc
  apply h c
  rw [Option.mem_def, List.head?_append, Option.mem_def.1 hc, Option.some_or]

theorem startsOutside_dropWhile (p : Char → Bool) (text : List Char) :
    StartsOutside p (text.dropWhile p) := by
  intro c hc
  have hhead := List.head?_dropWhile_not p text
  rw [Option.mem_def.1 hc] at hhead
  exact hhead

theorem takeWhile_append_eq (hfront : ∀ c ∈ front, p c = true) (hrest : StartsOutside p rest) :
    (front ++ rest).takeWhile p = front := by
  rw [List.takeWhile_append_of_pos hfront]
  cases rest with
  | nil => exact List.append_nil front
  | cons c rest =>
      have hc : p c = false := hrest c rfl
      rw [List.takeWhile_cons_of_neg (by simp [hc]), List.append_nil]

theorem dropWhile_eq_self (h : StartsOutside p text) : text.dropWhile p = text := by
  cases text with
  | nil => rfl
  | cons c text =>
      have hc : p c = false := h c rfl
      exact List.dropWhile_cons_of_neg (by simp [hc])

theorem dropWhile_append_eq (hfront : ∀ c ∈ front, p c = true) (hrest : StartsOutside p rest) :
    (front ++ rest).dropWhile p = rest := by
  rw [List.dropWhile_append_of_pos hfront, dropWhile_eq_self hrest]

/-- `kept` is the text without the characters of the class at its two ends. -/
structure IsTrimOf (p : Char → Bool) (kept text : List Char) : Prop where
  ends : ∃ front back, text = front ++ kept ++ back ∧
    (∀ c ∈ front, p c = true) ∧ ∀ c ∈ back, p c = true
  first : StartsOutside p kept
  last : StartsOutside p kept.reverse

theorem IsTrimOf.trimWhere_eq (h : IsTrimOf p kept text) : trimWhere p text = kept := by
  obtain ⟨⟨front, back, rfl, hfront, hback⟩, hfirst, hlast⟩ := h
  have hreverse : ∀ c ∈ back.reverse, p c = true := fun c hc => hback c (List.mem_reverse.1 hc)
  rw [trimWhere, trimEndWhere, List.append_assoc, List.dropWhile_append_of_pos hfront]
  cases kept with
  | nil =>
      have hnone : back.dropWhile p = [] := List.dropWhile_eq_nil_iff.2 hback
      rw [List.nil_append, hnone]
      rfl
  | cons c kept =>
      have hstart : StartsOutside p (c :: kept ++ back) := hfirst
      rw [dropWhile_eq_self hstart, List.reverse_append, dropWhile_append_eq hreverse hlast,
        List.reverse_reverse]

theorem isTrimOf_trimWhere (p : Char → Bool) (text : List Char) :
    IsTrimOf p (trimWhere p text) text := by
  have hback : (text.dropWhile p) =
      trimWhere p text ++ ((text.dropWhile p).reverse.takeWhile p).reverse := by
    rw [trimWhere, trimEndWhere, ← List.reverse_append, List.takeWhile_append_dropWhile,
      List.reverse_reverse]
  refine ⟨⟨text.takeWhile p, ((text.dropWhile p).reverse.takeWhile p).reverse, ?_, ?_, ?_⟩, ?_, ?_⟩
  · rw [List.append_assoc, ← hback, List.takeWhile_append_dropWhile]
  · exact fun c hc => List.mem_takeWhile_imp hc
  · exact fun c hc => List.mem_takeWhile_imp (List.mem_reverse.1 hc)
  · apply StartsOutside.of_append
    rw [← hback]
    exact startsOutside_dropWhile p text
  · rw [trimWhere, trimEndWhere, List.reverse_reverse]
    exact startsOutside_dropWhile p _

/-- Trimming leaves the one part of a text that has no character of the class at an end and
nothing else around it. -/
theorem isTrimOf_iff : IsTrimOf p kept text ↔ trimWhere p text = kept :=
  ⟨IsTrimOf.trimWhere_eq, fun h => h ▸ isTrimOf_trimWhere p text⟩

theorem trimWhere_eq_self (hfirst : StartsOutside p text) (hlast : StartsOutside p text.reverse) :
    trimWhere p text = text :=
  IsTrimOf.trimWhere_eq ⟨⟨[], [], by simp, by simp, by simp⟩, hfirst, hlast⟩

theorem trim_trim (text : List Char) : trim (trim text) = trim text :=
  trimWhere_eq_self (isTrimOf_trimWhere isBlank text).first (isTrimOf_trimWhere isBlank text).last

end Docwright.Text
