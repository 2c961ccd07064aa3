import Docwright.Text.Order
import Mathlib.Data.List.Induction

/-!
# What a list in order holds

`sortedBy` compares elements by the text that is their key. The list in order has its
keys in strict order, and of the elements with one key it holds the first.
-/

namespace Docwright.Text

theorem before_irrefl (s : String) : before s s = false := by
  rw [← Bool.not_eq_true, before_iff]
  exact List.lt_irrefl s.toList

theorem before_trans {s t u : String} (hst : before s t = true) (htu : before t u = true) :
    before s u = true := by
  rw [before_iff] at hst htu ⊢
  exact List.lt_trans hst htu

theorem before_asymm {s t : String} (h : before s t = true) : before t s = false := by
  rw [← Bool.not_eq_true]
  intro hback
  exact absurd (before_trans h hback) (by simp [before_irrefl])

theorem eq_of_not_before {s t : String} (hst : before s t = false) (hts : before t s = false) :
    s = t := by
  rw [← Bool.not_eq_true, before_iff] at hst hts
  exact String.toList_inj.1 (List.le_antisymm (List.not_lt.1 hts) (List.not_lt.1 hst))

theorem lt_or_lt_of_ne {s t : String} (h : s ≠ t) : s.toList < t.toList ∨ t.toList < s.toList := by
  rw [← before_iff, ← before_iff]
  by_contra hneither
  simp only [not_or, Bool.not_eq_true] at hneither
  exact h (eq_of_not_before hneither.1 hneither.2)

section Key

variable {α : Type} (key : α → String)

abbrev InOrder (l : List α) : Prop := l.Pairwise fun a b => before (key a) (key b) = true

variable {key} {a : α} {l : List α}

theorem insertBy_eq_self (hl : InOrder key l) {b : α} (hb : b ∈ l) (hkey : key b = key a) :
    insertBy (fun a b => before (key a) (key b)) a l = l := by
  induction l with
  | nil => exact absurd hb (by simp)
  | cons c rest ih =>
      obtain ⟨hc, hrest⟩ := List.pairwise_cons.1 hl
      rcases List.mem_cons.1 hb with rfl | hb
      · simp [insertBy, hkey, before_irrefl]
      · have hbefore : before (key c) (key a) = true := hkey ▸ hc b hb
        simp [insertBy, before_asymm hbefore, hbefore, ih hrest hb]

theorem mem_insertBy {b : α} (hnew : ∀ c ∈ l, key c ≠ key a) :
    b ∈ insertBy (fun a b => before (key a) (key b)) a l ↔ b = a ∨ b ∈ l := by
  induction l with
  | nil => simp [insertBy]
  | cons c rest ih =>
      unfold insertBy
      split
      · simp
      · split
        · rw [List.mem_cons, ih fun d hd => hnew d (List.mem_cons_of_mem c hd), List.mem_cons]
          exact or_left_comm
        · rename_i hac hca
          have hsame := eq_of_not_before (Bool.not_eq_true _ ▸ hca) (Bool.not_eq_true _ ▸ hac)
          exact absurd hsame (hnew c List.mem_cons_self)

theorem InOrder.insertBy (hl : InOrder key l) (hnew : ∀ c ∈ l, key c ≠ key a) :
    InOrder key (insertBy (fun a b => before (key a) (key b)) a l) := by
  induction l with
  | nil => simp [Text.insertBy]
  | cons c rest ih =>
      obtain ⟨hc, hrest⟩ := List.pairwise_cons.1 hl
      have hnewRest : ∀ d ∈ rest, key d ≠ key a := fun d hd => hnew d (List.mem_cons_of_mem c hd)
      unfold Text.insertBy
      split
      · rename_i hac
        refine List.pairwise_cons.2 ⟨fun d hd => ?_, hl⟩
        rcases List.mem_cons.1 hd with rfl | hd
        · exact hac
        · exact before_trans hac (hc d hd)
      · split
        · rename_i hca
          refine List.pairwise_cons.2 ⟨fun d hd => ?_, ih hrest hnewRest⟩
          rcases (mem_insertBy hnewRest).1 hd with rfl | hd
          · exact hca
          · exact hc d hd
        · exact hl

theorem sortedBy_concat (less : α → α → Bool) (l : List α) (a : α) :
    sortedBy less (l ++ [a]) = insertBy less a (sortedBy less l) := by
  simp [sortedBy]

/-- A list in order has its keys in strict order, has every key, and has the first
element of each. -/
theorem sortedBy_spec (l : List α) :
    let sorted := sortedBy (fun a b => before (key a) (key b)) l
    InOrder key sorted ∧ (∀ a ∈ l, ∃ b ∈ sorted, key b = key a) ∧
      ∀ b ∈ sorted, l.find? (fun a => key a = key b) = some b := by
  -- the elements are inserted from the front of the list on, so the last one comes last
  induction l using List.reverseRecOn with
  | nil => simp [sortedBy]
  | append_singleton l a ih =>
      obtain ⟨horder, hkeys, hfirst⟩ := ih
      dsimp only
      rw [sortedBy_concat]
      by_cases hknown : ∃ b ∈ l, key b = key a
      · obtain ⟨b, hb, hkey⟩ := hknown
        obtain ⟨c, hc, hkeyc⟩ := hkeys b hb
        rw [insertBy_eq_self horder hc (hkeyc.trans hkey)]
        refine ⟨horder, fun d hd => ?_, fun d hd => ?_⟩
        · rcases List.mem_append.1 hd with hd | hd
          · exact hkeys d hd
          · obtain rfl := List.mem_singleton.1 hd
            exact ⟨c, hc, hkeyc.trans hkey⟩
        · rw [List.find?_append, hfirst d hd, Option.some_or]
      · have hnew : ∀ b ∈ l, key b ≠ key a := fun b hb hkey => hknown ⟨b, hb, hkey⟩
        have hnewSorted : ∀ b ∈ sortedBy (fun a b => before (key a) (key b)) l, key b ≠ key a :=
          fun b hb => hnew b (List.mem_of_find?_eq_some (hfirst b hb))
        refine ⟨horder.insertBy hnewSorted, fun d hd => ?_, fun d hd => ?_⟩
        · rcases List.mem_append.1 hd with hd | hd
          · obtain ⟨b, hb, hkey⟩ := hkeys d hd
            exact ⟨b, (mem_insertBy hnewSorted).2 (Or.inr hb), hkey⟩
          · obtain rfl := List.mem_singleton.1 hd
            exact ⟨d, (mem_insertBy hnewSorted).2 (Or.inl rfl), rfl⟩
        · rcases (mem_insertBy hnewSorted).1 hd with rfl | hd
          · have hnone : l.find? (fun b => key b = key d) = none := by
              simpa using hnew
            simp [List.find?_append, hnone]
          · rw [List.find?_append, hfirst d hd, Option.some_or]

end Key

theorem mem_sortedDistinct_iff {texts : List String} {text : String} :
    text ∈ sortedDistinct texts ↔ text ∈ texts := by
  have hkeys : ∀ text ∈ texts, ∃ found ∈ sortedDistinct texts, id found = id text :=
    (sortedBy_spec texts).2.1
  have hfirst : ∀ text ∈ sortedDistinct texts, texts.find? (fun a => id a = id text) = some text :=
    (sortedBy_spec texts).2.2
  constructor
  · exact fun h => List.mem_of_find?_eq_some (hfirst text h)
  · intro h
    obtain ⟨found, hfound, hsame⟩ := hkeys text h
    exact (show found = text from hsame) ▸ hfound

theorem sortedDistinct_inOrder (texts : List String) :
    (sortedDistinct texts).Pairwise fun a b => a.toList < b.toList := by
  have horder : InOrder (fun text : String => text) (sortedDistinct texts) :=
    (sortedBy_spec texts).1
  exact horder.imp fun h => before_iff.1 h

theorem nodup_of_inOrder {texts : List String}
    (h : texts.Pairwise fun a b => a.toList < b.toList) : texts.Nodup := by
  refine h.imp ?_
  rintro first second hless rfl
  exact List.lt_irrefl _ hless

/-- Texts in strict order are known from what is among them. -/
theorem eq_of_mem_iff_of_inOrder {texts others : List String}
    (htexts : texts.Pairwise fun a b => a.toList < b.toList)
    (hothers : others.Pairwise fun a b => a.toList < b.toList)
    (hmem : ∀ text, text ∈ texts ↔ text ∈ others) : texts = others := by
  have hperm : texts.Perm others :=
    (List.perm_ext_iff_of_nodup (nodup_of_inOrder htexts) (nodup_of_inOrder hothers)).2 hmem
  refine hperm.eq_of_pairwise ?_ htexts hothers
  intro a b _ _ hab hba
  exact absurd (List.lt_trans hab hba) (List.lt_irrefl _)

end Docwright.Text
