import Docwright.Proofs.Data.Lists
import Docwright.Proofs.Text.Utf8

/-!
# Bytes cut out of a text

Bytes cut out of the encoding of a text may begin and end within a character. `drive` reads
bytes from any state and keeps the pieces that are complete. A piece is complete with its last
byte only, so the beginning of a character makes no piece before the bytes end, and the bytes
that continue one are ill-formed each by itself when the decoder is ready. Therefore a cut
character is dropped as a whole and its neighbours are not touched: `decodeLenient_extract` says
that the characters are read whose bytes all lie between the two cuts.
-/

namespace Docwright.Text.Utf8

/-- The state after reading bytes, and the pieces that were completed. -/
def drive : State → List UInt8 → State × List Piece
  | state, [] => (state, [])
  | state, b :: rest =>
      let next := step state b
      let last := drive next.1 rest
      (last.1, next.2 ++ last.2)

/-- The piece that the end of the bytes leaves incomplete. -/
def State.unfinished : State → List Piece
  | .ready => []
  | .within seen _ _ _ _ => [.bad seen .truncated]

theorem piecesFrom_eq_drive (bytes : List UInt8) (state : State) (found : List Piece) :
    piecesFrom bytes state found =
      found.reverse ++ (drive state bytes).2 ++ (drive state bytes).1.unfinished := by
  induction bytes generalizing state found with
  | nil =>
      cases state with
      | ready => simp [piecesFrom, drive, State.unfinished]
      | within seen value more low high => simp [piecesFrom, drive, State.unfinished]
  | cons b rest ih => simp [piecesFrom, drive, ih]

theorem pieces_eq_drive (bytes : List UInt8) :
    pieces bytes = (drive .ready bytes).2 ++ (drive .ready bytes).1.unfinished :=
  piecesFrom_eq_drive bytes .ready []

theorem drive_append (state : State) (bytes rest : List UInt8) :
    drive state (bytes ++ rest) =
      ((drive (drive state bytes).1 rest).1,
        (drive state bytes).2 ++ (drive (drive state bytes).1 rest).2) := by
  induction bytes generalizing state with
  | nil => rfl
  | cons b others ih => simp [drive, ih]

/-- The decoder becomes ready only by completing a piece. -/
theorem step_ne_nil {state : State} {b : UInt8} (h : (step state b).1 = .ready) :
    (step state b).2 ≠ [] := by
  have hlead : (lead b).1 = .ready → (lead b).2 ≠ [] := by
    unfold lead
    grind
  cases state with
  | ready => exact hlead h
  | within seen value more low high =>
      unfold step at h ⊢
      grind

theorem drive_ne_nil {state : State} {bytes : List UInt8} (hbytes : bytes ≠ [])
    (h : (drive state bytes).1 = .ready) : (drive state bytes).2 ≠ [] := by
  induction bytes generalizing state with
  | nil => exact absurd rfl hbytes
  | cons b rest ih =>
      cases rest with
      | nil => simpa [drive] using step_ne_nil h
      | cons next others =>
          have hrest := ih (List.cons_ne_nil next others) h
          exact List.append_ne_nil_of_right_ne_nil _ hrest

theorem drive_encodeChar (c : Char) :
    drive .ready (String.utf8EncodeChar c) = (.ready, [.char c]) := by
  have hpieces : pieces (String.utf8EncodeChar c) = [.char c] := by
    have hchar := piecesFrom_encodeChar c [] []
    rwa [List.append_nil] at hchar
  rw [pieces_eq_drive] at hpieces
  cases hstate : (drive .ready (String.utf8EncodeChar c)).1 with
  | ready =>
      rw [hstate, State.unfinished, List.append_nil] at hpieces
      exact Prod.ext hstate hpieces
  | within seen value more low high =>
      simp [hstate, State.unfinished, List.append_eq_singleton_iff] at hpieces

theorem drive_take_encodeChar (c : Char) {n : Nat} (h : n < (String.utf8EncodeChar c).length) :
    (drive .ready ((String.utf8EncodeChar c).take n)).2 = [] := by
  -- Both parts together make one piece, and the last byte completes it.
  have hwhole := drive_encodeChar c
  rw [← List.take_append_drop n (String.utf8EncodeChar c), drive_append, Prod.mk.injEq] at hwhole
  have hlast := drive_ne_nil (by simpa using h) hwhole.1
  rcases List.append_eq_singleton_iff.1 hwhole.2 with ⟨hnone, -⟩ | ⟨-, hnone⟩
  · exact hnone
  · exact absurd hnone hlast

theorem continuation_of_mem_tail {c : Char} {b : UInt8} (h : b ∈ (String.utf8EncodeChar c).tail) :
    0x80 ≤ b.toNat ∧ b.toNat < 0xC0 := by
  obtain ⟨m, rfl⟩ : ∃ m, b = UInt8.ofNat (m % 64 + 128) := by
    unfold String.utf8EncodeChar at h
    grind
  rw [toNat_byte (by omega)]
  omega

/-- Bytes that continue a character are ill-formed, each by itself, if none was begun. -/
theorem drive_continuation {bytes : List UInt8}
    (h : ∀ b ∈ bytes, 0x80 ≤ b.toNat ∧ b.toNat < 0xC0) :
    drive .ready bytes = (.ready, bytes.map fun b => .bad [b] .start) := by
  induction bytes with
  | nil => rfl
  | cons b rest ih =>
      obtain ⟨hlow, hhigh⟩ := h b List.mem_cons_self
      have hlead : lead b = (.ready, [.bad [b] .start]) := by
        unfold lead
        grind
      simp [drive, step, hlead, ih fun b hb => h b (List.mem_cons_of_mem _ hb)]

theorem decodeLenient_append {bytes : List UInt8} (h : (drive .ready bytes).1 = .ready)
    (rest : List UInt8) :
    decodeLenient (bytes ++ rest) =
      (drive .ready bytes).2.filterMap Piece.char? ++ decodeLenient rest := by
  rw [decodeLenient, decodeLenient, pieces_eq_drive, pieces_eq_drive, drive_append, h]
  simp

section Cut

variable (c : Char) (cs : List Char) {start stop : Nat}

theorem decodeLenient_whole (rest : List UInt8) :
    decodeLenient (String.utf8EncodeChar c ++ rest) = c :: decodeLenient rest := by
  rw [decodeLenient_append (by rw [drive_encodeChar]), drive_encodeChar]
  rfl

theorem decodeLenient_cut_end (h : stop < (String.utf8EncodeChar c).length) :
    decodeLenient ((String.utf8EncodeChar c).take stop) = [] := by
  rw [decodeLenient, pieces_eq_drive, drive_take_encodeChar c h, List.nil_append]
  cases (drive .ready ((String.utf8EncodeChar c).take stop)).1 with
  | ready => rfl
  | within seen value more low high => rfl

/-- Of a character that is cut at its start nothing is read, and what follows is not touched. -/
theorem decodeLenient_cut_start (hstart : 0 < start) (rest : List UInt8) :
    decodeLenient ((String.utf8EncodeChar c).extract start stop ++ rest) = decodeLenient rest := by
  have htail : ∀ b ∈ (String.utf8EncodeChar c).extract start stop,
      0x80 ≤ b.toNat ∧ b.toNat < 0xC0 := by
    intro b hb
    apply continuation_of_mem_tail
    rw [← List.drop_one]
    exact List.drop_subset_drop_left _ hstart (List.mem_of_mem_take hb)
  have hnone : ((String.utf8EncodeChar c).extract start stop).filterMap
      (Piece.char? ∘ fun b => .bad [b] .start) = [] :=
    List.filterMap_eq_nil_iff.2 fun _ _ => rfl
  rw [decodeLenient_append (by rw [drive_continuation htail]), drive_continuation htail,
    List.filterMap_map, hnone, List.nil_append]

/-- The first character is read if it lies between the cuts, and the cuts go through the others
as if it were not there. -/
theorem decodeLenient_extract_cons (start stop : Nat) :
    decodeLenient ((encode (c :: cs)).extract start stop) =
      (if start = 0 ∧ c.utf8Size ≤ stop then [c] else []) ++
        decodeLenient ((encode cs).extract (start - c.utf8Size) (stop - c.utf8Size)) := by
  have hsize := String.length_utf8EncodeChar c
  rw [encode, List.flatMap_cons, Lists.extract_append, hsize, ← encode]
  by_cases hstart : start = 0
  · subst hstart
    by_cases hstop : c.utf8Size ≤ stop
    · rw [if_pos ⟨rfl, hstop⟩]
      have hwhole : (String.utf8EncodeChar c).extract 0 stop = String.utf8EncodeChar c :=
        List.take_of_length_le (by simp [hsize, hstop])
      rw [hwhole]
      exact decodeLenient_whole c _
    · rw [if_neg fun h => hstop h.2]
      have hrest : (encode cs).extract (0 - c.utf8Size) (stop - c.utf8Size) = [] := by
        rw [List.extract, show stop - c.utf8Size - (0 - c.utf8Size) = 0 by omega, List.take_zero]
      rw [hrest, List.append_nil]
      exact decodeLenient_cut_end c (by omega)
  · rw [if_neg fun h => hstart h.1]
    exact decodeLenient_cut_start c (by omega) _

end Cut

def position (cs : List Char) (index : Nat) : Nat := (encode (cs.take index)).length

/-- The characters of a text whose bytes all lie between two positions. -/
def charsBetween (start stop : Nat) (cs : List Char) : List Char :=
  (cs.zipIdx.filter fun entry =>
    start ≤ position cs entry.2 ∧ position cs (entry.2 + 1) ≤ stop).map (·.1)

@[simp] theorem position_zero (cs : List Char) : position cs 0 = 0 := rfl

@[simp] theorem position_cons_succ (c : Char) (cs : List Char) (index : Nat) :
    position (c :: cs) (index + 1) = c.utf8Size + position cs index := by
  simp [position, encode, String.length_utf8EncodeChar]

theorem position_succ_pos {cs : List Char} {index : Nat} (h : index < cs.length) :
    0 < position cs (index + 1) := by
  cases cs with
  | nil => simp at h
  | cons c rest =>
      rw [position_cons_succ]
      exact Nat.add_pos_left c.utf8Size_pos _

theorem charsBetween_cons (start stop : Nat) (c : Char) (cs : List Char) :
    charsBetween start stop (c :: cs) =
      (if start = 0 ∧ c.utf8Size ≤ stop then [c] else []) ++
        charsBetween (start - c.utf8Size) (stop - c.utf8Size) cs := by
  have hothers : (cs.zipIdx.map (Prod.map id (· + 1))).filter (fun entry =>
      start ≤ position (c :: cs) entry.2 ∧ position (c :: cs) (entry.2 + 1) ≤ stop) =
        (cs.zipIdx.filter fun entry => start - c.utf8Size ≤ position cs entry.2 ∧
          position cs (entry.2 + 1) ≤ stop - c.utf8Size).map (Prod.map id (· + 1)) := by
    rw [List.filter_map]
    refine congrArg _ (List.filter_congr fun entry hentry => decide_eq_decide.2 ?_)
    have hpos := position_succ_pos (List.snd_lt_of_mem_zipIdx hentry)
    simp only [Prod.map_snd, position_cons_succ]
    omega
  rw [charsBetween, List.zipIdx_cons', List.filter_cons, hothers, charsBetween]
  by_cases hfirst : start = 0 ∧ c.utf8Size ≤ stop
  · simp [hfirst]
  · simp [hfirst]

/-- Of bytes cut out of a text those characters are read whose bytes all lie between the cuts. -/
theorem decodeLenient_extract (start stop : Nat) (cs : List Char) :
    decodeLenient ((encode cs).extract start stop) = charsBetween start stop cs := by
  induction cs generalizing start stop with
  | nil => simp [charsBetween, decodeLenient, pieces, piecesFrom]
  | cons c rest ih => rw [decodeLenient_extract_cons, charsBetween_cons, ih]

end Docwright.Text.Utf8
