/-!
# Lists in order

Captured texts and the names of documents are listed in the order of texts, which
compares code points one by one and has a text before its extensions.
`sortedBy` puts a list in order and keeps one of each.
-/

namespace Docwright.Text

def before (s t : String) : Bool :=
  @decide (@LT.lt String String.instLT s t) (String.decidableLT s t)

/-- Inserts an element into a list in order, unless its like is already there. -/
def insertBy {α : Type} (less : α → α → Bool) (a : α) : List α → List α
  | [] => [a]
  | b :: rest =>
      if less a b then a :: b :: rest
      else if less b a then b :: insertBy less a rest
      else b :: rest

/-- The elements of a list in order, each of them once. -/
def sortedBy {α : Type} (less : α → α → Bool) (l : List α) : List α :=
  l.foldl (fun sorted a => insertBy less a sorted) []

/-- The texts of a list in the order of code points, each of them once. -/
def sortedDistinct (texts : List String) : List String := sortedBy before texts

@[simp] theorem sortedDistinct_nil : sortedDistinct [] = [] := rfl

theorem before_iff {s t : String} : before s t = true ↔ s.toList < t.toList := by
  rw [before, decide_eq_true_iff]
  exact Iff.rfl

end Docwright.Text
