import Mathlib.Tactic
import Docwright.Json.Reader
import Docwright.Json.Writer
import Docwright.Proofs.Data.Lists

/-!
# Reading what was written

Reading undoes writing. A reader `Reads` a written form when it gives the value of
the form and stops just behind it, whatever follows. The proof goes from the small
to the large: the digits of a code unit, one escaped character, a text, the elements
of an array and the fields of an object with the blanks between them, and last a
value, by induction on how it is nested.

The values are those made of texts, arrays and objects, nested no deeper than the
reader goes, in which no object names a field twice; `parse_write` reads them back
from any indentation. `isPlainChar_of_mem_write` says that the written form is in
ASCII and breaks its lines by line feeds alone.
-/

namespace Docwright.Json

open Docwright.Text

/-- At the written form the reader gives `a` and stops just behind it, whatever
follows. -/
def Reads {α : Type} (reader : Reader α) (written : List Char) (a : α) : Prop :=
  ∀ tail position, ∃ next, reader ⟨written ++ tail, position⟩ = .ok (a, ⟨tail, next⟩)

theorem Cursor.skip_append (written tail : List Char) (position : Nat) :
    Cursor.skip ⟨written ++ tail, position⟩ written.length =
      ⟨tail, position + written.length⟩ := by
  rw [Cursor.skip, List.drop_left]

/-! ### Characters -/

theorem hexValue?_hexDigit : ∀ {n : Nat}, n < 16 → hexValue? (hexDigit n) = some n := by
  decide

theorem unit?_hexDigits {n : Nat} (h : n < 0x10000) :
    ∃ a b c d, hexDigits 4 n = [a, b, c, d] ∧ unit? a b c d = some n := by
  refine ⟨hexDigit (n / 16 / 16 / 16 % 16), hexDigit (n / 16 / 16 % 16), hexDigit (n / 16 % 16),
    hexDigit (n % 16), rfl, ?_⟩
  have hdigit : ∀ m, hexValue? (hexDigit (m % 16)) = some (m % 16) := fun m =>
    hexValue?_hexDigit (Nat.mod_lt m (by decide))
  simp only [unit?, hdigit, Option.bind_eq_bind, Option.bind_some, Option.pure_def]
  congr 1
  omega

theorem unicodeEscape_unit {n : Nat} (h : n < 0x10000) (hhigh : isHighHalf n = false)
    (position : Nat) {rest : List Char} (hrest : rest ≠ []) :
    unicodeEscape position (hexDigits 4 n ++ rest) = .ok (unitChar n, 4) := by
  obtain ⟨a, b, c, d, hdigits, hunit⟩ := unit?_hexDigits h
  obtain ⟨e, rest, rfl⟩ := List.exists_cons_of_ne_nil hrest
  simp only [hdigits, List.cons_append, List.nil_append, unicodeEscape, hunit, hhigh,
    Bool.false_eq_true, if_false]

theorem lt_of_isHalf {n : Nat} (h : isHighHalf n = true ∨ isLowHalf n = true) :
    n < 0x10000 := by
  simp only [isHighHalf, isLowHalf, Bool.and_eq_true, Nat.ble_eq] at h
  omega

theorem unicodeEscape_pair {high low : Nat} (hhigh : isHighHalf high = true)
    (hlow : isLowHalf low = true) (position : Nat) {rest : List Char} (hrest : rest ≠ []) :
    unicodeEscape position (hexDigits 4 high ++ (unitEscape low ++ rest)) =
      .ok (pairChar high low, 10) := by
  obtain ⟨a, b, c, d, hdigits, hunit⟩ := unit?_hexDigits (lt_of_isHalf (.inl hhigh))
  obtain ⟨a', b', c', d', hdigits', hunit'⟩ := unit?_hexDigits (lt_of_isHalf (.inr hlow))
  obtain ⟨e, rest, rfl⟩ := List.exists_cons_of_ne_nil hrest
  simp only [unitEscape, hdigits, hdigits', List.cons_append, List.nil_append, unicodeEscape,
    hunit, hunit', hhigh, hlow, if_true]

theorem not_isHalf (c : Char) : isHighHalf c.toNat = false ∧ isLowHalf c.toNat = false := by
  have hvalid : c.toNat < 0xD800 ∨ 0xDFFF < c.toNat ∧ c.toNat < 0x110000 := c.valid
  constructor
  · rw [Bool.eq_false_iff, isHighHalf, ne_eq, Bool.and_eq_true, Nat.ble_eq, Nat.ble_eq]
    omega
  · rw [Bool.eq_false_iff, isLowHalf, ne_eq, Bool.and_eq_true, Nat.ble_eq, Nat.ble_eq]
    omega

theorem unitChar_toNat (c : Char) : unitChar c.toNat = c := by
  obtain ⟨hhigh, hlow⟩ := not_isHalf c
  simp [unitChar, hhigh, hlow, Char.ofNat_toNat]

/-- The two halves of a character above the sixteen bits make it up again. -/
theorem pairChar_halves {c : Char} (h : 0x10000 ≤ c.toNat) :
    isHighHalf (0xD800 + (c.toNat - 0x10000) / 0x400) = true ∧
      isLowHalf (0xDC00 + (c.toNat - 0x10000) % 0x400) = true ∧
      pairChar (0xD800 + (c.toNat - 0x10000) / 0x400)
        (0xDC00 + (c.toNat - 0x10000) % 0x400) = c := by
  have hvalid : c.toNat < 0xD800 ∨ 0xDFFF < c.toNat ∧ c.toNat < 0x110000 := c.valid
  refine ⟨?_, ?_, ?_⟩
  · simp only [isHighHalf, Bool.and_eq_true, Nat.ble_eq]
    omega
  · simp only [isLowHalf, Bool.and_eq_true, Nat.ble_eq]
    omega
  · rw [pairChar, show 0x10000 + (0xD800 + (c.toNat - 0x10000) / 0x400 - 0xD800) * 0x400 +
      (0xDC00 + (c.toNat - 0x10000) % 0x400 - 0xDC00) = c.toNat by omega]
    exact Char.ofNat_toNat c

def IsPlainChar (c : Char) : Prop := c = '\n' ∨ 32 ≤ c.toNat ∧ c.toNat ≤ 126

instance : DecidablePred IsPlainChar := fun c =>
  inferInstanceAs (Decidable (c = '\n' ∨ 32 ≤ c.toNat ∧ c.toNat ≤ 126))

/-- The forms of a written character: a backslash with one letter, the character
itself, the escape of its code, or those of the halves of its code. -/
theorem writeChar_cases (c : Char) :
    (∃ e, writeChar c = ['\\', e] ∧ (e ≠ 'u' ∧ IsPlainChar e) ∧ shortEscape? e = some c) ∨
      (writeChar c = [c] ∧ c ≠ '"' ∧ c ≠ '\\' ∧ 32 ≤ c.toNat ∧ c.toNat ≤ 126) ∨
      (writeChar c = unitEscape c.toNat ∧ c.toNat < 0x10000) ∨
      (writeChar c = unitEscape (0xD800 + (c.toNat - 0x10000) / 0x400) ++
        unitEscape (0xDC00 + (c.toNat - 0x10000) % 0x400) ∧ 0x10000 ≤ c.toNat) := by
  have hcode : ∀ n, c.toNat = n → c = Char.ofNat n := fun n h => by
    rw [← h, Char.ofNat_toNat]
  unfold writeChar
  split
  next h => exact .inl ⟨'"', rfl, by decide, by rw [h]; rfl⟩
  split
  next h => exact .inl ⟨'\\', rfl, by decide, by rw [h]; rfl⟩
  split
  next h => exact .inl ⟨'n', rfl, by decide, h ▸ rfl⟩
  split
  next h => exact .inl ⟨'r', rfl, by decide, h ▸ rfl⟩
  split
  next h => exact .inl ⟨'t', rfl, by decide, h ▸ rfl⟩
  split
  next h => exact .inl ⟨'b', rfl, by decide, hcode 8 h ▸ rfl⟩
  split
  next h => exact .inl ⟨'f', rfl, by decide, hcode 12 h ▸ rfl⟩
  split
  next h => exact .inr (.inl ⟨rfl, by assumption, by assumption, h⟩)
  split
  next h => exact .inr (.inr (.inl ⟨rfl, h⟩))
  next h => exact .inr (.inr (.inr ⟨rfl, Nat.not_lt.1 h⟩))

/-- A written character is read back, whatever non-empty text follows. -/
theorem stringChar_writeChar (opened position : Nat) (c : Char) {rest : List Char}
    (hrest : rest ≠ []) :
    stringChar opened position (writeChar c ++ rest) = .ok (some c, (writeChar c).length) := by
  obtain ⟨e, hform, ⟨hu, -⟩, he⟩ | ⟨hform, hquote, hslash, hascii⟩ | ⟨hform, hshort⟩ |
    ⟨hform, hlong⟩ := writeChar_cases c
  · simp [hform, stringChar, he]
  · simp [hform, stringChar, hslash, Nat.not_lt.2 hascii.1]
  · rw [hform, unitEscape, List.cons_append, List.cons_append]
    simp only [stringChar, unicodeEscape_unit hshort (not_isHalf c).1 _ hrest, unitChar_toNat]
    rfl
  · obtain ⟨hhigh, hlow, hpair⟩ := pairChar_halves hlong
    rw [hform, List.append_assoc, unitEscape, List.cons_append, List.cons_append]
    simp only [stringChar, unicodeEscape_pair hhigh hlow _ hrest, hpair]
    rfl

/-! ### Texts -/

theorem stringBody_flatMap (opened : Nat) (tail : List Char) :
    ∀ (s seen : List Char) (fuel position : Nat), s.length < fuel →
      ∃ next, stringBody opened fuel seen ⟨s.flatMap writeChar ++ '"' :: tail, position⟩ =
        .ok (String.ofList (seen.reverse ++ s), ⟨tail, next⟩) := by
  intro s
  induction s with
  | nil =>
    intro seen fuel position hfuel
    obtain ⟨fuel, rfl⟩ := Nat.exists_eq_succ_of_ne_zero (Nat.ne_of_gt hfuel)
    exact ⟨position + 1, by simp [stringBody, stringChar, Cursor.skip]⟩
  | cons c s ih =>
    intro seen fuel position hfuel
    obtain ⟨fuel, rfl⟩ := Nat.exists_eq_succ_of_ne_zero (Nat.ne_of_gt (Nat.zero_lt_of_lt hfuel))
    obtain ⟨next, hnext⟩ := ih (c :: seen) fuel (position + (writeChar c).length)
      (Nat.lt_of_succ_lt_succ hfuel)
    have hrest : s.flatMap writeChar ++ '"' :: tail ≠ [] := by simp
    refine ⟨next, ?_⟩
    rw [List.flatMap_cons, List.append_assoc, stringBody]
    simp only [stringChar_writeChar opened position c hrest, Cursor.skip_append, hnext]
    rw [List.reverse_cons, List.append_assoc, List.singleton_append]

theorem string_reads {size : Nat} {s : String} (h : s.toList.length ≤ size) :
    Reads (string size) (s.toList.flatMap writeChar ++ ['"']) s := by
  intro tail position
  obtain ⟨next, hnext⟩ := stringBody_flatMap (position - 1) tail s.toList [] (size + 1) position
    (Nat.lt_succ_of_le h)
  refine ⟨next, ?_⟩
  rw [string, List.append_assoc, List.singleton_append, hnext, List.reverse_nil, List.nil_append,
    String.ofList_toList]

/-! ### Blanks -/

theorem skipSpace_append {blanks : List Char} {c : Char}
    (hblanks : ∀ c ∈ blanks, isSpace c = true) (hc : isSpace c = false) (rest : List Char)
    (position : Nat) :
    ∃ next, Cursor.skipSpace ⟨blanks ++ c :: rest, position⟩ = ⟨c :: rest, next⟩ := by
  refine ⟨position + ((blanks ++ c :: rest).takeWhile isSpace).length, ?_⟩
  rw [Cursor.skipSpace, List.dropWhile_append_of_pos hblanks, List.dropWhile_cons_of_neg]
  simp [hc]

theorem skipSpace_cons {c : Char} (hc : isSpace c = false) (rest : List Char) (position : Nat) :
    ∃ next, Cursor.skipSpace ⟨c :: rest, position⟩ = ⟨c :: rest, next⟩ :=
  skipSpace_append (show ∀ c ∈ ([] : List Char), isSpace c = true by simp) hc rest position

theorem isSpace_newline (indent level : Nat) :
    ∀ c ∈ (newline indent level).toList, isSpace c = true := by
  intro c h
  rw [newline, String.toList_ofList, List.mem_cons, List.mem_replicate] at h
  obtain rfl | ⟨-, rfl⟩ := h <;> rfl

/-- The text begins with the character that opens a text, an array or an object. -/
def Opens (text : List Char) : Prop :=
  ∃ c rest, text = c :: rest ∧ (c = '"' ∨ c = '[' ∨ c = '\x7b')

theorem Opens.append {text : List Char} (h : Opens text) (tail : List Char) :
    Opens (text ++ tail) := by
  obtain ⟨c, rest, rfl, hc⟩ := h
  exact ⟨c, rest ++ tail, rfl, hc⟩

theorem Opens.skipSpace {blanks text : List Char} (h : Opens text)
    (hblanks : ∀ c ∈ blanks, isSpace c = true) (position : Nat) :
    ∃ next, Cursor.skipSpace ⟨blanks ++ text, position⟩ = ⟨text, next⟩ := by
  obtain ⟨c, rest, rfl, hc⟩ := h
  apply skipSpace_append hblanks (c := c)
  obtain rfl | rfl | rfl := hc <;> rfl

/-! ### Elements and fields -/

theorem insertField_of_not_mem {name : String} (v : Value) {seen : List (String × Value)}
    (h : name ∉ seen.map (·.1)) : insertField name v seen = seen ++ [(name, v)] := by
  induction seen with
  | nil => rfl
  | cons field seen ih =>
    rw [List.map_cons, List.mem_cons, not_or] at h
    rw [insertField, if_neg (Ne.symm h.1), ih h.2, List.cons_append]

section Loops

variable {size : Nat} {inner : Reader Value} {gap last : List Char}

/-- The elements of an array are read off their written forms, which stand between
commas and blanks. -/
theorem elements_reads (hgap : ∀ c ∈ gap, isSpace c = true) (hlast : ∀ c ∈ last, isSpace c = true)
    {form : Value → List Char} :
    ∀ (vs : List Value) (v : Value) (seen : List Value) (fuel : Nat), vs.length < fuel →
      (∀ w ∈ v :: vs, Opens (form w) ∧ Reads inner (form w) w) →
      Reads (elements inner fuel seen)
        (form v ++ (vs.flatMap (fun w => ',' :: (gap ++ form w)) ++ (last ++ [']'])))
        (seen.reverse ++ v :: vs) := by
  intro vs
  induction vs with
  | nil =>
    intro v seen fuel hfuel hforms tail position
    obtain ⟨fuel, rfl⟩ := Nat.exists_eq_succ_of_ne_zero (Nat.ne_of_gt hfuel)
    obtain ⟨next, hnext⟩ := (hforms v (List.mem_cons_self ..)).2 (last ++ ']' :: tail) position
    obtain ⟨close, hclose⟩ := skipSpace_append hlast (show isSpace ']' = false from rfl) tail next
    refine ⟨close + 1, ?_⟩
    simp only [List.flatMap_nil, List.append_assoc, List.cons_append, List.nil_append, elements,
      hnext, hclose, Cursor.skip, List.drop_succ_cons, List.drop_zero, List.reverse_cons]
  | cons w vs ih =>
    intro v seen fuel hfuel hforms tail position
    obtain ⟨fuel, rfl⟩ := Nat.exists_eq_succ_of_ne_zero (Nat.ne_of_gt (Nat.zero_lt_of_lt hfuel))
    have hothers : ∀ u ∈ w :: vs, Opens (form u) ∧ Reads inner (form u) u := fun u hu =>
      hforms u (List.mem_cons_of_mem _ hu)
    obtain ⟨rest, hrest⟩ : ∃ rest, rest = form w ++
        (vs.flatMap (fun w => ',' :: (gap ++ form w)) ++ (last ++ ']' :: tail)) := ⟨_, rfl⟩
    have hopens : Opens rest := hrest ▸ (hothers w (List.mem_cons_self ..)).1.append _
    obtain ⟨next, hnext⟩ := (hforms v (List.mem_cons_self ..)).2 (',' :: (gap ++ rest)) position
    obtain ⟨comma, hcomma⟩ := skipSpace_cons (show isSpace ',' = false from rfl) (gap ++ rest) next
    obtain ⟨start, hstart⟩ := hopens.skipSpace hgap (comma + 1)
    obtain ⟨stop, hstop⟩ := ih w (v :: seen) fuel (Nat.lt_of_succ_lt_succ hfuel) hothers tail start
    refine ⟨stop, ?_⟩
    simp only [List.append_assoc, List.cons_append, List.nil_append, ← hrest] at hstop
    simp only [List.flatMap_cons, List.append_assoc, List.cons_append, List.nil_append, ← hrest,
      elements, hnext, hcomma, Cursor.skip, List.drop_succ_cons, List.drop_zero, hstart, hstop,
      List.reverse_cons]

/-- One field is read off its written name, a colon, a blank and its value. -/
theorem field_reads {name : String} {v : Value} {form : List Char}
    (hname : name.toList.length ≤ size) (hopens : Opens form) (hform : Reads inner form v) :
    Reads (field size inner) ((writeText name ++ ": ").toList ++ form) (name, v) := by
  intro tail position
  obtain ⟨colon, hcolon⟩ := string_reads hname (':' :: ' ' :: (form ++ tail)) (position + 1)
  obtain ⟨mark, hmark⟩ := skipSpace_cons (show isSpace ':' = false from rfl)
    (' ' :: (form ++ tail)) colon
  obtain ⟨start, hstart⟩ := (hopens.append tail).skipSpace
    (List.forall_mem_singleton.2 rfl : ∀ c ∈ [' '], isSpace c = true) (mark + 1)
  obtain ⟨stop, hstop⟩ := hform tail start
  refine ⟨stop, ?_⟩
  simp only [List.append_assoc, List.cons_append, List.nil_append] at hcolon hstart
  simp only [writeText, String.toList_append, String.toList_ofList, List.append_assoc,
    List.cons_append, List.nil_append, show (": " : String).toList = [':', ' '] from rfl, field,
    Cursor.skip, List.drop_succ_cons, List.drop_zero, hcolon, hmark, hstart, hstop]

/-- The fields of an object whose names are new are read off their written forms,
which stand between commas and blanks. -/
theorem fields_reads (hgap : ∀ c ∈ gap, isSpace c = true) (hlast : ∀ c ∈ last, isSpace c = true)
    {form : String × Value → List Char} :
    ∀ (fs : List (String × Value)) (f : String × Value) (seen : List (String × Value))
      (fuel : Nat), fs.length < fuel → ((seen ++ f :: fs).map (·.1)).Nodup →
      (∀ g ∈ f :: fs, Opens (form g) ∧ Reads (field size inner) (form g) g) →
      Reads (fields size inner fuel seen)
        (form f ++ (fs.flatMap (fun g => ',' :: (gap ++ form g)) ++ (last ++ ['\x7d'])))
        (seen ++ f :: fs) := by
  -- a name that is new is put at the end, so what was seen grows as the fields are listed
  have hfresh : ∀ {f : String × Value} {seen fs : List (String × Value)},
      ((seen ++ f :: fs).map (·.1)).Nodup → insertField f.1 f.2 seen = seen ++ [f] := by
    intro f seen fs h
    apply insertField_of_not_mem
    intro hmem
    rw [List.map_append, List.map_cons] at h
    exact (List.nodup_append.1 h).2.2 _ hmem _ (List.mem_cons_self ..) rfl
  intro fs
  induction fs with
  | nil =>
    intro f seen fuel hfuel hnodup hforms tail position
    obtain ⟨fuel, rfl⟩ := Nat.exists_eq_succ_of_ne_zero (Nat.ne_of_gt hfuel)
    obtain ⟨next, hnext⟩ :=
      (hforms f (List.mem_cons_self ..)).2 (last ++ '\x7d' :: tail) position
    obtain ⟨close, hclose⟩ := skipSpace_append hlast (show isSpace '\x7d' = false from rfl) tail next
    refine ⟨close + 1, ?_⟩
    simp only [List.flatMap_nil, List.append_assoc, List.cons_append, List.nil_append, fields,
      hnext, hclose, Cursor.skip, List.drop_succ_cons, List.drop_zero, hfresh hnodup]
  | cons g fs ih =>
    intro f seen fuel hfuel hnodup hforms tail position
    obtain ⟨fuel, rfl⟩ := Nat.exists_eq_succ_of_ne_zero (Nat.ne_of_gt (Nat.zero_lt_of_lt hfuel))
    have hothers : ∀ e ∈ g :: fs, Opens (form e) ∧ Reads (field size inner) (form e) e :=
      fun e he => hforms e (List.mem_cons_of_mem _ he)
    obtain ⟨rest, hrest⟩ : ∃ rest, rest = form g ++
        (fs.flatMap (fun g => ',' :: (gap ++ form g)) ++ (last ++ '\x7d' :: tail)) := ⟨_, rfl⟩
    have hopens : Opens rest := hrest ▸ (hothers g (List.mem_cons_self ..)).1.append _
    obtain ⟨next, hnext⟩ := (hforms f (List.mem_cons_self ..)).2 (',' :: (gap ++ rest)) position
    obtain ⟨comma, hcomma⟩ := skipSpace_cons (show isSpace ',' = false from rfl) (gap ++ rest) next
    obtain ⟨start, hstart⟩ := hopens.skipSpace hgap (comma + 1)
    have hseen : seen ++ [f] ++ g :: fs = seen ++ f :: g :: fs := by
      rw [List.append_assoc, List.singleton_append]
    obtain ⟨stop, hstop⟩ := ih g (seen ++ [f]) fuel (Nat.lt_of_succ_lt_succ hfuel)
      (hseen ▸ hnodup) hothers tail start
    refine ⟨stop, ?_⟩
    simp only [List.append_assoc, List.cons_append, List.nil_append, ← hrest] at hstop
    simp only [List.flatMap_cons, List.append_assoc, List.cons_append, List.nil_append, ← hrest,
      fields, hnext, hfresh hnodup, hcomma, Cursor.skip, List.drop_succ_cons, List.drop_zero,
      hstart, hstop]

end Loops

/-! ### Values -/

/-- The value is made of texts, arrays and objects that are nested at most `depth`
deep, and no object in it names a field twice. -/
inductive Textual : Nat → Value → Prop where
  | str (depth : Nat) (s : String) : Textual depth (.str s)
  | arr (depth : Nat) (elements : List Value) (h : ∀ v ∈ elements, Textual depth v) :
      Textual (depth + 1) (.arr elements)
  | obj (depth : Nat) (fields : List (String × Value)) (hnames : (fields.map (·.1)).Nodup)
      (h : ∀ f ∈ fields, Textual depth f.2) : Textual (depth + 1) (.obj fields)

def writeField (indent level : Nat) (f : String × Value) : String :=
  writeText f.1 ++ ": " ++ f.2.writeAt indent level

theorem writeElements_eq_map (indent level : Nat) (vs : List Value) :
    writeElements indent level vs = vs.map (·.writeAt indent level) := by
  induction vs with
  | nil => rfl
  | cons v vs ih => rw [writeElements, ih, List.map_cons]

theorem writeFields_eq_map (indent level : Nat) (fs : List (String × Value)) :
    writeFields indent level fs = fs.map (writeField indent level) := by
  induction fs with
  | nil => rfl
  | cons f fs ih => rw [writeFields, ih, List.map_cons, writeField]

/-- Parts between brackets: a line break before each part, a comma behind each but
the last, and a line break before the closing bracket. -/
theorem toList_bracketed_map {α : Type} (opening closing : String) (indent level : Nat)
    (form : α → String) (a : α) (as : List α) :
    (bracketed opening closing indent level ((a :: as).map form)).toList =
      opening.toList ++ ((newline indent (level + 1)).toList ++ ((form a).toList ++
        (as.flatMap (fun b => ',' :: ((newline indent (level + 1)).toList ++ (form b).toList)) ++
          ((newline indent level).toList ++ closing.toList)))) := by
  rw [List.map_cons, bracketed, String.toList_append, String.toList_append, String.toList_append,
    String.toList_append, String.toList_intercalate, List.map_cons, Lists.intercalate_cons_eq,
    List.map_map, List.flatMap_map, String.toList_append]
  simp only [List.append_assoc, Function.comp_apply, List.cons_append, List.nil_append,
    show ("," : String).toList = [','] from rfl]
  exact List.cons_ne_nil _ _

theorem length_le_bracketed {α : Type} (opening closing : String) (indent level : Nat)
    (form : α → String) (as : List α) :
    (as.length ≤ (bracketed opening closing indent level (as.map form)).toList.length) ∧
      ∀ b ∈ as, (form b).toList.length ≤
        (bracketed opening closing indent level (as.map form)).toList.length := by
  have hothers : ∀ (gap : List Char) (as : List α),
      as.length ≤ (as.flatMap fun b => ',' :: (gap ++ (form b).toList)).length ∧
        ∀ b ∈ as, (form b).toList.length ≤
          (as.flatMap fun b => ',' :: (gap ++ (form b).toList)).length := by
    intro gap as
    induction as with
    | nil => simp
    | cons a as ih =>
      simp only [List.flatMap_cons, List.length_append, List.length_cons, List.forall_mem_cons]
      exact ⟨by omega, by omega, fun b hb => (ih.2 b hb).trans (Nat.le_add_left ..)⟩
  cases as with
  | nil => simp
  | cons a as =>
    have h := hothers (newline indent (level + 1)).toList as
    have hbreak : 1 ≤ (newline indent (level + 1)).toList.length := by simp [newline]
    simp only [toList_bracketed_map, List.length_append, List.length_cons, List.forall_mem_cons]
    exact ⟨by omega, by omega, fun b hb => by have := h.2 b hb; omega⟩

theorem Textual.opens {depth : Nat} {v : Value} (h : Textual depth v) (indent level : Nat) :
    Opens (v.writeAt indent level).toList := by
  have hbracketed : ∀ (opening closing : String) (parts : List String), Opens opening.toList →
      Opens (bracketed opening closing indent level parts).toList := by
    intro opening closing parts hopening
    cases parts with
    | nil => exact String.toList_append ▸ hopening.append _
    | cons part parts =>
      simp only [bracketed, String.toList_append, List.append_assoc]
      exact hopening.append _
  cases h with
  | str s => exact ⟨'"', _, String.toList_ofList, .inl rfl⟩
  | arr depth elements => exact hbracketed _ _ _ ⟨'[', [], rfl, .inr (.inl rfl)⟩
  | obj depth fields => exact hbracketed _ _ _ ⟨'\x7b', [], rfl, .inr (.inr rfl)⟩

theorem writeText_toList (s : String) :
    (writeText s).toList = '"' :: (s.toList.flatMap writeChar ++ ['"']) :=
  String.toList_ofList

theorem length_le_writeText (s : String) : s.toList.length ≤ (writeText s).toList.length := by
  have hchar : ∀ c, 1 ≤ (writeChar c).length := fun c => by
    obtain ⟨e, hform, -⟩ | ⟨hform, -⟩ | ⟨hform, -⟩ | ⟨hform, -⟩ := writeChar_cases c <;>
      simp [hform, unitEscape]
  have hchars : ∀ cs : List Char, cs.length ≤ (cs.flatMap writeChar).length := fun cs => by
    induction cs with
    | nil => simp
    | cons c cs ih =>
      have := hchar c
      simp only [List.flatMap_cons, List.length_append, List.length_cons]
      omega
  have := hchars s.toList
  simp only [writeText_toList, List.length_cons, List.length_append]
  omega

section Brackets

variable {size indent level : Nat} {inner : Reader Value}

theorem valueWith_reads_arr {form : Value → String} {vs : List Value} (hsize : vs.length ≤ size)
    (h : ∀ v ∈ vs, Opens (form v).toList ∧ Reads inner (form v).toList v) :
    Reads (valueWith size (some inner)) (bracketed "[" "]" indent level (vs.map form)).toList
      (.arr vs) := by
  intro tail position
  cases vs with
  | nil => exact ⟨position + 2, by
      simp [bracketed, valueWith, array, Cursor.skip, Cursor.skipSpace, isSpace]⟩
  | cons v vs =>
    obtain ⟨rest, hrest⟩ : ∃ rest, rest = (form v).toList ++ (vs.flatMap (fun w => ',' ::
        ((newline indent (level + 1)).toList ++ (form w).toList)) ++
          ((newline indent level).toList ++ ']' :: tail)) := ⟨_, rfl⟩
    have hopens : Opens rest := hrest ▸ (h v (List.mem_cons_self ..)).1.append _
    obtain ⟨start, hstart⟩ := hopens.skipSpace (isSpace_newline indent (level + 1)) (position + 1)
    obtain ⟨stop, hstop⟩ := elements_reads (isSpace_newline indent (level + 1))
      (isSpace_newline indent level) vs v [] (size + 1) (Nat.lt_succ_of_lt hsize) h tail start
    have harray : array size inner ⟨(newline indent (level + 1)).toList ++ rest, position + 1⟩ =
        .ok (.arr (v :: vs), ⟨tail, stop⟩) := by
      simp only [List.append_assoc, List.cons_append, List.nil_append, ← hrest] at hstop
      simp only [array, hstart, hstop]
      obtain ⟨c, others, rfl, rfl | rfl | rfl⟩ := hopens <;> rfl
    refine ⟨stop, ?_⟩
    simp only [toList_bracketed_map, List.append_assoc, List.cons_append, List.nil_append,
      show ("[" : String).toList = ['['] from rfl, show ("]" : String).toList = [']'] from rfl,
      ← hrest, valueWith, Cursor.skip, List.drop_succ_cons, List.drop_zero, harray]

theorem valueWith_reads_obj {form : String × Value → String} {fs : List (String × Value)}
    (hsize : fs.length ≤ size) (hnames : (fs.map (·.1)).Nodup)
    (h : ∀ f ∈ fs, Opens (form f).toList ∧ Reads (field size inner) (form f).toList f) :
    Reads (valueWith size (some inner))
      (bracketed "\x7b" "\x7d" indent level (fs.map form)).toList (.obj fs) := by
  intro tail position
  cases fs with
  | nil => exact ⟨position + 2, by
      simp [bracketed, valueWith, object, Cursor.skip, Cursor.skipSpace, isSpace]⟩
  | cons f fs =>
    obtain ⟨rest, hrest⟩ : ∃ rest, rest = (form f).toList ++ (fs.flatMap (fun g => ',' ::
        ((newline indent (level + 1)).toList ++ (form g).toList)) ++
          ((newline indent level).toList ++ '\x7d' :: tail)) := ⟨_, rfl⟩
    have hopens : Opens rest := hrest ▸ (h f (List.mem_cons_self ..)).1.append _
    obtain ⟨start, hstart⟩ := hopens.skipSpace (isSpace_newline indent (level + 1)) (position + 1)
    obtain ⟨stop, hstop⟩ := fields_reads (isSpace_newline indent (level + 1))
      (isSpace_newline indent level) fs f [] (size + 1) (Nat.lt_succ_of_lt hsize) hnames h tail
      start
    have hobject :
        object size inner ⟨(newline indent (level + 1)).toList ++ rest, position + 1⟩ =
          .ok (.obj (f :: fs), ⟨tail, stop⟩) := by
      simp only [List.append_assoc, List.cons_append, List.nil_append, ← hrest] at hstop
      simp only [object, hstart, hstop]
      obtain ⟨c, others, rfl, rfl | rfl | rfl⟩ := hopens <;> rfl
    refine ⟨stop, ?_⟩
    simp only [toList_bracketed_map, List.append_assoc, List.cons_append, List.nil_append,
      show ("\x7b" : String).toList = ['\x7b'] from rfl,
      show ("\x7d" : String).toList = ['\x7d'] from rfl,
      ← hrest, valueWith, Cursor.skip, List.drop_succ_cons, List.drop_zero, hobject]

end Brackets

/-- Reading a value at the nesting that is left undoes writing it, at any level and
indentation. -/
theorem value_reads (indent : Nat) {size depth : Nat} {v : Value} (h : Textual depth v) :
    ∀ level, (v.writeAt indent level).toList.length ≤ size →
      Reads (value size depth) (v.writeAt indent level).toList v := by
  induction h with
  | str depth s =>
    intro level hsize tail position
    -- a text is read alike at every depth, also where nothing may be nested any more
    obtain ⟨inner?, hvalue⟩ : ∃ inner?, value size depth = valueWith size inner? := by
      cases depth <;> exact ⟨_, rfl⟩
    rw [Value.writeAt] at hsize ⊢
    obtain ⟨next, hnext⟩ := string_reads ((length_le_writeText s).trans hsize) tail (position + 1)
    refine ⟨next, ?_⟩
    simp only [hvalue, writeText_toList, List.cons_append, valueWith, Cursor.skip,
      List.drop_succ_cons, List.drop_zero, hnext]
  | arr depth elements h ih =>
    intro level hsize
    rw [Value.writeAt, writeElements_eq_map] at hsize ⊢
    obtain ⟨hcount, hparts⟩ := length_le_bracketed "[" "]" indent level
      (Value.writeAt indent (level + 1)) elements
    apply valueWith_reads_arr (hcount.trans hsize)
    exact fun v hv => ⟨(h v hv).opens indent _, ih v hv _ ((hparts v hv).trans hsize)⟩
  | obj depth fields hnames h ih =>
    intro level hsize
    rw [Value.writeAt, writeFields_eq_map] at hsize ⊢
    obtain ⟨hcount, hparts⟩ := length_le_bracketed "\x7b" "\x7d" indent level
      (writeField indent (level + 1)) fields
    apply valueWith_reads_obj (hcount.trans hsize) hnames
    intro f hf
    have hlength := (hparts f hf).trans hsize
    have hname := length_le_writeText f.1
    rw [writeField, String.toList_append] at hlength ⊢
    rw [String.toList_append, List.length_append, List.length_append] at hlength
    refine ⟨?_, field_reads (by omega) ((h f hf).opens indent _) (ih f hf _ (by omega))⟩
    rw [String.toList_append, writeText_toList]
    exact ⟨'"', _, rfl, .inl rfl⟩

/-- Reading undoes writing: a value made of texts, arrays and objects is read back
from its written form at any indentation. -/
theorem parse_write (indent : Nat) {nesting : Nat} {v : Value} (h : Textual nesting v) :
    parse nesting (v.write indent) = .ok v := by
  obtain ⟨c, rest, htext, hc⟩ := h.opens indent 0
  obtain ⟨start, hstart⟩ := (h.opens indent 0).skipSpace
    (show ∀ c ∈ ([] : List Char), isSpace c = true by simp) 0
  obtain ⟨stop, hstop⟩ := value_reads indent h 0 (Nat.le_refl _) [] start
  rw [List.nil_append] at hstart
  rw [List.append_nil] at hstop
  have hwhole : document.whole nesting (v.write indent).toList = .ok v := by
    simp only [document.whole, Value.write, hstart, hstop]
    rfl
  have hdocument : document nesting (v.write indent).toList = .ok v := by
    rw [← hwhole, Value.write, htext, document, if_neg]
    obtain rfl | rfl | rfl := hc <;> decide
  rw [parse, hdocument]

/-! ### Characters of a written form -/

theorem isPlainChar_hexDigits {width n : Nat} :
    ∀ c ∈ hexDigits width n, IsPlainChar c := by
  have hdigit : ∀ m < 16, 32 ≤ (hexDigit m).toNat ∧ (hexDigit m).toNat ≤ 126 := by decide
  induction width generalizing n with
  | zero => exact fun c h => absurd h List.not_mem_nil
  | succ width ih =>
    rw [hexDigits, List.forall_mem_append, List.forall_mem_singleton]
    exact ⟨ih, .inr (hdigit _ (Nat.mod_lt n (by decide)))⟩

theorem isPlainChar_writeChar (c : Char) : ∀ d ∈ writeChar c, IsPlainChar d := by
  have hunit : ∀ n, ∀ d ∈ unitEscape n, IsPlainChar d := fun n => by
    rw [unitEscape, List.forall_mem_cons, List.forall_mem_cons]
    exact ⟨by decide, by decide, isPlainChar_hexDigits⟩
  obtain ⟨e, hform, ⟨-, he⟩, -⟩ | ⟨hform, -, -, hascii⟩ | ⟨hform, -⟩ | ⟨hform, -⟩ :=
    writeChar_cases c
  · rw [hform, List.forall_mem_cons, List.forall_mem_singleton]
    exact ⟨by decide, he⟩
  · exact hform ▸ List.forall_mem_singleton.2 (.inr hascii)
  · exact hform ▸ hunit _
  · exact hform ▸ List.forall_mem_append.2 ⟨hunit _, hunit _⟩

theorem isPlainChar_writeText (s : String) : ∀ c ∈ (writeText s).toList, IsPlainChar c := by
  rw [writeText_toList, List.forall_mem_cons, List.forall_mem_append, List.forall_mem_singleton]
  refine ⟨by decide, fun d hd => ?_, by decide⟩
  obtain ⟨c, -, hd⟩ := List.mem_flatMap.1 hd
  exact isPlainChar_writeChar c d hd

theorem isPlainChar_bracketed {α : Type} {opening closing : String} (indent level : Nat)
    {form : α → String} {as : List α} (hopening : ∀ c ∈ opening.toList, IsPlainChar c)
    (hclosing : ∀ c ∈ closing.toList, IsPlainChar c)
    (hforms : ∀ a ∈ as, ∀ c ∈ (form a).toList, IsPlainChar c) :
    ∀ c ∈ (bracketed opening closing indent level (as.map form)).toList, IsPlainChar c := by
  have hnewline : ∀ level, ∀ c ∈ (newline indent level).toList, IsPlainChar c := fun level => by
    rw [newline, String.toList_ofList, List.forall_mem_cons]
    exact ⟨.inl rfl, fun c hc => List.eq_of_mem_replicate hc ▸ by decide⟩
  cases as with
  | nil =>
    rw [List.map_nil, bracketed, String.toList_append, List.forall_mem_append]
    exact ⟨hopening, hclosing⟩
  | cons a as =>
    rw [List.forall_mem_cons] at hforms
    simp only [toList_bracketed_map, List.forall_mem_append]
    refine ⟨hopening, hnewline _, hforms.1, fun c hc => ?_, hnewline _, hclosing⟩
    obtain ⟨b, hb, hc⟩ := List.mem_flatMap.1 hc
    rw [List.mem_cons, List.mem_append] at hc
    obtain rfl | hc | hc := hc
    · decide
    · exact hnewline _ c hc
    · exact hforms.2 b hb c hc

theorem isPlainChar_of_all {cs : List Char}
    (h : (cs.all fun c => decide (IsPlainChar c)) = true) : ∀ c ∈ cs, IsPlainChar c := by
  simpa using h

/-- A written form is in ASCII, and only line feeds break its lines. -/
theorem isPlainChar_writeAt {depth : Nat} {v : Value} (h : Textual depth v) (indent : Nat) :
    ∀ level, ∀ c ∈ (v.writeAt indent level).toList, IsPlainChar c := by
  induction h with
  | str depth s => exact fun level => isPlainChar_writeText s
  | arr depth elements h ih =>
    intro level
    rw [Value.writeAt, writeElements_eq_map]
    apply isPlainChar_bracketed indent level
    · exact isPlainChar_of_all rfl
    · exact isPlainChar_of_all rfl
    · exact fun v hv => ih v hv _
  | obj depth fields hnames h ih =>
    intro level
    rw [Value.writeAt, writeFields_eq_map]
    apply isPlainChar_bracketed indent level
    · exact isPlainChar_of_all rfl
    · exact isPlainChar_of_all rfl
    · intro f hf
      rw [writeField, String.toList_append, String.toList_append, List.forall_mem_append,
        List.forall_mem_append]
      exact ⟨⟨isPlainChar_writeText f.1, isPlainChar_of_all rfl⟩, ih f hf _⟩

end Docwright.Json
