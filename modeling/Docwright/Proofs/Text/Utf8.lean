import Docwright.Text.Utf8

/-!
# What is encoded is decoded

The bytes of a character lead the decoder from ready to ready and make it find just
that character, so the bytes of a text are cut into its characters, and decoding
gives the text back.
-/

namespace Docwright.Text.Utf8

theorem toNat_byte {n : Nat} (h : n < 256) : (UInt8.ofNat n).toNat = n :=
  UInt8.toNat_ofNat_of_lt' h

section Steps

variable {n value more low high : Nat} {seen rest : List UInt8} {found : List Piece}

theorem piecesFrom_ascii (h : n < 0x80) :
    piecesFrom (UInt8.ofNat n :: rest) .ready found =
      piecesFrom rest .ready (.char (Char.ofNat n) :: found) := by
  have hbyte : (UInt8.ofNat n).toNat = n := toNat_byte (by omega)
  simp [piecesFrom, step, lead, hbyte, h]

theorem piecesFrom_lead_two (hlow : 0xC2 ≤ n) (hhigh : n < 0xE0) :
    piecesFrom (UInt8.ofNat n :: rest) .ready found =
      piecesFrom rest (.within [UInt8.ofNat n] (n - 0xC0) 1 0x80 0xBF) found := by
  have hbyte : (UInt8.ofNat n).toNat = n := toNat_byte (by omega)
  simp [piecesFrom, step, lead, hbyte, hhigh, show ¬ n < 0x80 by omega, show ¬ n < 0xC2 by omega]

theorem piecesFrom_lead_three (hlow : 0xE0 ≤ n) (hhigh : n < 0xF0) :
    piecesFrom (UInt8.ofNat n :: rest) .ready found =
      piecesFrom rest
        (.within [UInt8.ofNat n] (n - 0xE0) 2 (if n = 0xE0 then 0xA0 else 0x80)
          (if n = 0xED then 0x9F else 0xBF)) found := by
  have hbyte : (UInt8.ofNat n).toNat = n := toNat_byte (by omega)
  simp [piecesFrom, step, lead, hbyte, hhigh, show ¬ n < 0x80 by omega, show ¬ n < 0xC2 by omega,
    show ¬ n < 0xE0 by omega]

theorem piecesFrom_lead_four (hlow : 0xF0 ≤ n) (hhigh : n < 0xF5) :
    piecesFrom (UInt8.ofNat n :: rest) .ready found =
      piecesFrom rest
        (.within [UInt8.ofNat n] (n - 0xF0) 3 (if n = 0xF0 then 0x90 else 0x80)
          (if n = 0xF4 then 0x8F else 0xBF)) found := by
  have hbyte : (UInt8.ofNat n).toNat = n := toNat_byte (by omega)
  simp [piecesFrom, step, lead, hbyte, hhigh, show ¬ n < 0x80 by omega, show ¬ n < 0xC2 by omega,
    show ¬ n < 0xE0 by omega, show ¬ n < 0xF0 by omega]

theorem piecesFrom_last (hbyte : n < 256) (hlow : low ≤ n) (hhigh : n ≤ high) :
    piecesFrom (UInt8.ofNat n :: rest) (.within seen value 1 low high) found =
      piecesFrom rest .ready (.char (Char.ofNat (value * 64 + (n - 0x80))) :: found) := by
  simp [piecesFrom, step, toNat_byte hbyte, hlow, hhigh]

theorem piecesFrom_next (hbyte : n < 256) (hlow : low ≤ n) (hhigh : n ≤ high) :
    piecesFrom (UInt8.ofNat n :: rest) (.within seen value (more + 2) low high) found =
      piecesFrom rest
        (.within (seen ++ [UInt8.ofNat n]) (value * 64 + (n - 0x80)) (more + 1) 0x80 0xBF) found := by
  simp [piecesFrom, step, toNat_byte hbyte, hlow, hhigh]

end Steps

/-- The bytes of a character are read as that character. -/
theorem piecesFrom_encodeChar (c : Char) (rest : List UInt8) (found : List Piece) :
    piecesFrom (String.utf8EncodeChar c ++ rest) .ready found =
      piecesFrom rest .ready (.char c :: found) := by
  have hvalid : c.val.toNat < 0xD800 ∨ 0xDFFF < c.val.toNat ∧ c.val.toNat < 0x110000 := c.valid
  have hchar : ∀ n, n = c.val.toNat → Char.ofNat n = c := by
    rintro n rfl
    exact Char.ofNat_toNat c
  unfold String.utf8EncodeChar
  generalize c.val.toNat = v at hvalid hchar ⊢
  dsimp only
  by_cases hone : v ≤ 0x7f
  · rw [if_pos hone, List.singleton_append, piecesFrom_ascii (by omega), hchar v rfl]
  rw [if_neg hone]
  by_cases htwo : v ≤ 0x7ff
  · rw [if_pos htwo, List.cons_append, List.singleton_append,
      piecesFrom_lead_two (by omega) (by omega),
      piecesFrom_last (by omega) (by omega) (by omega), hchar _ (by omega)]
  rw [if_neg htwo]
  by_cases hthree : v ≤ 0xffff
  · rw [if_pos hthree, List.cons_append, List.cons_append, List.singleton_append,
      piecesFrom_lead_three (by omega) (by omega),
      piecesFrom_next (by omega) (by split <;> omega) (by split <;> omega),
      piecesFrom_last (by omega) (by omega) (by omega), hchar _ (by omega)]
  · rw [if_neg hthree, List.cons_append, List.cons_append, List.cons_append,
      List.singleton_append, piecesFrom_lead_four (by omega) (by omega),
      piecesFrom_next (by omega) (by split <;> omega) (by split <;> omega),
      piecesFrom_next (by omega) (by omega) (by omega),
      piecesFrom_last (by omega) (by omega) (by omega), hchar _ (by omega)]

theorem pieces_encode (cs : List Char) : pieces (encode cs) = cs.map .char := by
  have hfrom : ∀ (cs : List Char) (found : List Piece),
      piecesFrom (encode cs) .ready found = found.reverse ++ cs.map .char := by
    intro cs
    induction cs with
    | nil => simp [encode, piecesFrom]
    | cons c rest ih =>
        intro found
        rw [encode, List.flatMap_cons, piecesFrom_encodeChar]
        exact (ih _).trans (by simp)
  exact hfrom cs []

/-- Decoding gives an encoded text back. -/
theorem decode_encode (cs : List Char) : decode (encode cs) = .ok cs := by
  have hcollect : ∀ (cs : List Char) (position : Nat) (seen : List Char),
      collect (cs.map .char) position seen = .ok (seen.reverse ++ cs) := by
    intro cs
    induction cs with
    | nil => simp [collect]
    | cons c rest ih =>
        intro position seen
        rw [List.map_cons, collect, ih]
        simp
  rw [decode, pieces_encode]
  exact hcollect cs 0 []

theorem decodeLenient_encode (cs : List Char) : decodeLenient (encode cs) = cs := by
  rw [decodeLenient, pieces_encode, List.filterMap_map]
  exact List.filterMap_some

end Docwright.Text.Utf8
