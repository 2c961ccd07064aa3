import Docwright.Text.Blank
import Docwright.Text.Lines

/-!
# Lines and newlines

Unifying the newlines of a text does not change its lines: a carriage return, alone or
with a line feed, ends a line as the line feed does that takes its place, and every other
line end stays. So a text that was saved and read again has the lines it had.

A part without a line end, put between two texts, joins the open line of the first and the
first line of the second (`exists_lines_joined`).

`HasLines` says what the lines of a text are without going through it: the pieces between
its line ends, and the one after the last of these unless it is empty.
-/

namespace Docwright.Text

variable {c : Char} {cs : List Char}

theorem unifyFrom_append (cs seen before : List Char) :
    unifyFrom cs (seen ++ before) = before.reverse ++ unifyFrom cs seen := by
  fun_induction unifyFrom cs seen with
  | case1 seen => simp [unifyFrom]
  | case2 rest seen ih => exact ih
  | case3 c rest seen hnext ih =>
      rw [unifyFrom, ← List.cons_append]
      · exact ih
      · exact hnext

theorem unifyNewlines_crlf (cs : List Char) :
    unifyNewlines ('\r' :: '\n' :: cs) = '\n' :: unifyNewlines cs :=
  unifyFrom_append cs [] ['\n']

theorem unifyNewlines_cons (hnext : ∀ rest, c = '\r' → cs ≠ '\n' :: rest) :
    unifyNewlines (c :: cs) = (if c = '\r' then '\n' else c) :: unifyNewlines cs := by
  rw [unifyNewlines, unifyFrom]
  · exact unifyFrom_append cs [] [_]
  · exact hnext

/-- Only an empty text is read from the file of an empty text. -/
theorem unifyNewlines_eq_nil (h : unifyNewlines cs = []) : cs = [] := by
  cases cs with
  | nil => rfl
  | cons c cs =>
      by_cases hpair : ∃ rest, c = '\r' ∧ cs = '\n' :: rest
      · obtain ⟨rest, rfl, rfl⟩ := hpair
        rw [unifyNewlines_crlf] at h
        exact absurd h (List.cons_ne_nil _ _)
      · rw [unifyNewlines_cons fun rest hc hcs => hpair ⟨rest, hc, hcs⟩] at h
        exact absurd h (List.cons_ne_nil _ _)

theorem unifyNewlines_eq_self (h : '\r' ∉ cs) : unifyNewlines cs = cs := by
  induction cs with
  | nil => rfl
  | cons c cs ih =>
      obtain ⟨hc, hcs⟩ := not_or.1 (mt List.mem_cons.2 h)
      rw [unifyNewlines_cons fun _ hsame => absurd hsame.symm hc, if_neg (Ne.symm hc), ih hcs]

theorem all_isBlank_unifyNewlines (cs : List Char) :
    (unifyNewlines cs).all isBlank = cs.all isBlank := by
  have hblank : isBlank '\r' = true ∧ isBlank '\n' = true := by decide
  have hfrom : ∀ seen, (unifyFrom cs seen).all isBlank = (seen.all isBlank && cs.all isBlank) := by
    intro seen
    fun_induction unifyFrom cs seen with
    | case1 seen => simp
    | case2 rest seen ih => rw [ih]; simp [hblank]
    | case3 c rest seen hnext ih =>
        rw [ih]
        by_cases hc : c = '\r'
        · simp [hc, hblank]
        · simp [hc, Bool.and_left_comm, Bool.and_assoc]
  exact hfrom []

theorem linesFrom_cons (hc : c ≠ '\r') (cs current : List Char) (finished : List (List Char)) :
    linesFrom (c :: cs) current finished =
      if isLineEnd c then linesFrom cs [] (current.reverse :: finished)
      else linesFrom cs (c :: current) finished := by
  rw [linesFrom]
  exact fun _ hsame => absurd hsame hc

theorem linesFrom_unifyNewlines (cs current : List Char) (finished : List (List Char)) :
    linesFrom (unifyNewlines cs) current finished = linesFrom cs current finished := by
  have hnewline : '\n' ≠ '\r' := by decide
  fun_induction linesFrom cs current finished with
  | case1 finished => rfl
  | case2 current finished hcurrent =>
      rw [unifyNewlines_nil, linesFrom]
      exact hcurrent
  | case3 rest current finished ih =>
      rw [unifyNewlines_crlf, linesFrom_cons hnewline, if_pos (by decide)]
      exact ih
  | case4 c rest current finished hnext hend ih =>
      rw [unifyNewlines_cons hnext]
      by_cases hc : c = '\r'
      · rw [if_pos hc, linesFrom_cons hnewline, if_pos (by decide)]
        exact ih
      · rw [if_neg hc, linesFrom_cons hc, if_pos hend]
        exact ih
  | case5 c rest current finished hnext hend ih =>
      have hc : c ≠ '\r' := by
        rintro rfl
        exact hend (by decide)
      rw [unifyNewlines_cons hnext, if_neg hc, linesFrom_cons hc, if_neg hend]
      exact ih

/-- A text that was saved and read again has the lines it had. -/
theorem lines_unifyNewlines (cs : List Char) : lines (unifyNewlines cs) = lines cs :=
  linesFrom_unifyNewlines cs [] []

theorem linesFrom_finished_append (cs current : List Char) (finished before : List (List Char)) :
    linesFrom cs current (finished ++ before) = before.reverse ++ linesFrom cs current finished := by
  fun_induction linesFrom cs current finished with
  | case1 finished => simp [linesFrom]
  | case2 current finished hcurrent => simp [linesFrom]
  | case3 rest current finished ih => exact ih
  | case4 c rest current finished hnext hend ih =>
      rw [linesFrom, if_pos hend]
      · exact ih
      · exact hnext
  | case5 c rest current finished hnext hend ih =>
      rw [linesFrom, if_neg hend]
      · exact ih
      · exact hnext

theorem linesFrom_append {part : List Char} (hpart : ∀ c ∈ part, isLineEnd c = false)
    (cs current : List Char) (finished : List (List Char)) :
    linesFrom (part ++ cs) current finished = linesFrom cs (part.reverse ++ current) finished := by
  induction part generalizing current with
  | nil => rfl
  | cons c part ih =>
      obtain ⟨hc, hrest⟩ := List.forall_mem_cons.1 hpart
      have hreturn : c ≠ '\r' := by
        rintro rfl
        exact absurd hc (by decide)
      rw [List.cons_append, linesFrom_cons hreturn, hc, if_neg (by decide), ih hrest,
        List.reverse_cons, List.append_assoc, List.singleton_append]

theorem not_newline_append {rest tail : List Char}
    (hnext : ∀ more, c = '\r' → rest ≠ '\n' :: more) (htail : tail.head? ≠ some '\n') :
    ∀ more, c = '\r' → rest ++ tail ≠ '\n' :: more := by
  intro more hc hmore
  cases rest with
  | nil => exact htail (by rw [← List.nil_append tail, hmore, List.head?_cons])
  | cons other rest => exact hnext rest hc (by rw [(List.cons.inj hmore).1])

/-- A text closes some lines and leaves one open, in reverse, at which what follows goes on. -/
theorem exists_open_line (cs current : List Char) (finished : List (List Char)) :
    ∃ closed last, ∀ tail : List Char, tail.head? ≠ some '\n' →
      linesFrom (cs ++ tail) current finished = closed ++ linesFrom tail last [] := by
  fun_induction linesFrom cs current finished with
  | case1 finished =>
      exact ⟨finished.reverse, [], fun tail _ => linesFrom_finished_append tail [] [] finished⟩
  | case2 current finished hcurrent =>
      exact ⟨finished.reverse, current,
        fun tail _ => linesFrom_finished_append tail current [] finished⟩
  | case3 rest current finished ih => exact ih
  | case4 c rest current finished hnext hend ih =>
      obtain ⟨closed, last, h⟩ := ih
      refine ⟨closed, last, fun tail htail => ?_⟩
      rw [List.cons_append, linesFrom, if_pos hend, h tail htail]
      exact not_newline_append hnext htail
  | case5 c rest current finished hnext hend ih =>
      obtain ⟨closed, last, h⟩ := ih
      refine ⟨closed, last, fun tail htail => ?_⟩
      rw [List.cons_append, linesFrom, if_neg hend, h tail htail]
      exact not_newline_append hnext htail

theorem exists_first_line {cs current : List Char} (h : cs ≠ [] ∨ current ≠ []) :
    ∃ first rest, ∀ before : List Char,
      linesFrom cs (current ++ before) [] = (before.reverse ++ first) :: rest := by
  induction cs generalizing current with
  | nil =>
      have hcurrent : current ≠ [] := h.resolve_left (· rfl)
      refine ⟨current.reverse, [], fun before => ?_⟩
      rw [linesFrom]
      · simp
      · simp [hcurrent]
  | cons c cs ih =>
      have hclosed : ∀ rest before : List Char, linesFrom rest [] [(current ++ before).reverse] =
          (before.reverse ++ current.reverse) :: lines rest := by
        intro rest before
        rw [← List.reverse_append]
        exact linesFrom_finished_append rest [] [] [_]
      by_cases hpair : ∃ rest, c = '\r' ∧ cs = '\n' :: rest
      · obtain ⟨rest, rfl, rfl⟩ := hpair
        exact ⟨current.reverse, lines rest, hclosed rest⟩
      · have hnext : ∀ rest, c = '\r' → cs ≠ '\n' :: rest := fun rest hc hcs =>
          hpair ⟨rest, hc, hcs⟩
        by_cases hend : isLineEnd c = true
        · refine ⟨current.reverse, lines cs, fun before => ?_⟩
          rw [linesFrom, if_pos hend, hclosed]
          exact hnext
        · obtain ⟨first, rest, hline⟩ := ih (Or.inr (List.cons_ne_nil c current))
          refine ⟨first, rest, fun before => ?_⟩
          rw [linesFrom, if_neg hend, ← hline]
          · rfl
          · exact hnext

/-- A part without a line end between two texts stands in one line: the one that the first
text leaves open, which may be empty, with the first line of the second text after it. -/
theorem exists_lines_joined (cs : List Char) {part more : List Char}
    (hpart : ∀ c ∈ part, isLineEnd c = false) (hsome : part ≠ []) (hmore : more ≠ []) :
    ∃ closed last first rest,
      lines cs = (if last = [] then closed else closed ++ [last]) ∧
      lines more = first :: rest ∧
      lines (cs ++ part ++ more) = closed ++ (last ++ part ++ first) :: rest := by
  obtain ⟨closed, last, hopen⟩ := exists_open_line cs [] []
  obtain ⟨first, rest, hline⟩ := exists_first_line (Or.inl hmore : more ≠ [] ∨ ([] : List Char) ≠ [])
  refine ⟨closed, last.reverse, first, rest, ?_, hline [], ?_⟩
  · have hcs : lines (cs ++ []) = _ := hopen [] (by simp)
    rw [List.append_nil] at hcs
    rw [hcs]
    cases last with
    | nil => simp [linesFrom]
    | cons c last => simp [linesFrom]
  · have htail : (part ++ more).head? ≠ some '\n' := by
      obtain ⟨c, part, rfl⟩ := List.exists_cons_of_ne_nil hsome
      obtain ⟨hc, _⟩ := List.forall_mem_cons.1 hpart
      rintro hnewline
      rw [Option.some.inj hnewline] at hc
      exact absurd hc (by decide)
    have hjoined : lines (cs ++ (part ++ more)) = _ := hopen _ htail
    have hfirst := hline (part.reverse ++ last)
    rw [List.nil_append, List.reverse_append, List.reverse_reverse] at hfirst
    rw [List.append_assoc, hjoined, linesFrom_append hpart, hfirst]

/-- A line end: one character, or a carriage return with the line feed after it. -/
inductive IsLineBreak : List Char → Prop
  | pair : IsLineBreak ['\r', '\n']
  | single {c : Char} (hend : isLineEnd c = true) : IsLineBreak [c]

inductive HasLines : List Char → List (List Char) → Prop
  | nil : HasLines [] []
  | last {line : List Char} (hsome : line ≠ []) (hline : ∀ c ∈ line, isLineEnd c = false) :
      HasLines line [line]
  | closed {line lineBreak rest : List Char} {ls : List (List Char)}
      (hline : ∀ c ∈ line, isLineEnd c = false) (hbreak : IsLineBreak lineBreak)
      (hwhole : lineBreak = ['\r'] → rest.head? ≠ some '\n') (hrest : HasLines rest ls) :
      HasLines (line ++ lineBreak ++ rest) (line :: ls)

theorem lines_last {line : List Char} (hsome : line ≠ [])
    (hline : ∀ c ∈ line, isLineEnd c = false) : lines line = [line] := by
  have hfrom := linesFrom_append hline [] [] []
  rw [List.append_nil, List.append_nil] at hfrom
  rw [lines, hfrom, linesFrom]
  · simp
  · simpa using hsome

theorem lines_closed {line lineBreak rest : List Char} (hline : ∀ c ∈ line, isLineEnd c = false)
    (hbreak : IsLineBreak lineBreak) (hwhole : lineBreak = ['\r'] → rest.head? ≠ some '\n') :
    lines (line ++ lineBreak ++ rest) = line :: lines rest := by
  have hclose : linesFrom (lineBreak ++ rest) line.reverse [] = linesFrom rest [] [line] := by
    cases hbreak with
    | pair =>
        change linesFrom ('\r' :: '\n' :: rest) line.reverse [] = _
        rw [linesFrom, List.reverse_reverse]
    | @single c hend =>
        rw [List.singleton_append, linesFrom, if_pos hend, List.reverse_reverse]
        rintro more rfl rfl
        exact hwhole rfl rfl
  rw [lines, List.append_assoc, linesFrom_append hline, List.append_nil, hclose]
  exact linesFrom_finished_append rest [] [] [line]

theorem hasLines_linesFrom (cs current : List Char) (finished : List (List Char))
    (hcurrent : ∀ c ∈ current, isLineEnd c = false) :
    ∃ ls, linesFrom cs current finished = finished.reverse ++ ls ∧
      HasLines (current.reverse ++ cs) ls := by
  -- Along the cutting itself: at a line end the current line is closed and a new one starts.
  have hline : ∀ {current : List Char}, (∀ c ∈ current, isLineEnd c = false) →
      ∀ c ∈ current.reverse, isLineEnd c = false :=
    fun h c hc => h c (List.mem_reverse.1 hc)
  fun_induction linesFrom cs current finished with
  | case1 finished => exact ⟨[], (List.append_nil _).symm, .nil⟩
  | case2 current finished hsome =>
      refine ⟨[current.reverse], List.reverse_cons, ?_⟩
      rw [List.append_nil]
      exact .last (by simpa using hsome) (hline hcurrent)
  | case3 rest current finished ih =>
      obtain ⟨ls, hls, hrest⟩ := ih (by simp)
      refine ⟨current.reverse :: ls, by simp [hls], ?_⟩
      have hclosed := HasLines.closed (hline hcurrent) .pair (by simp) hrest
      simpa using hclosed
  | case4 c rest current finished hnext hend ih =>
      obtain ⟨ls, hls, hrest⟩ := ih (by simp)
      refine ⟨current.reverse :: ls, by simp [hls], ?_⟩
      have hwhole : [c] = ['\r'] → rest.head? ≠ some '\n' := by
        intro hc hhead
        cases rest with
        | nil => exact absurd hhead (by simp)
        | cons other rest =>
            rw [Option.some.inj hhead] at hnext
            exact hnext rest (List.singleton_inj.1 hc) rfl
      have hclosed := HasLines.closed (hline hcurrent) (.single hend) hwhole hrest
      simpa using hclosed
  | case5 c rest current finished hnext hend ih =>
      obtain ⟨ls, hls, hrest⟩ :=
        ih (List.forall_mem_cons.2 ⟨by simpa using hend, hcurrent⟩)
      refine ⟨ls, hls, ?_⟩
      simpa using hrest

/-- Cutting a text at its line ends gives its lines. -/
theorem hasLines_iff {ls : List (List Char)} : HasLines cs ls ↔ lines cs = ls := by
  constructor
  · intro h
    induction h with
    | nil => rfl
    | last hsome hline => exact lines_last hsome hline
    | closed hline hbreak hwhole hrest ih => rw [lines_closed hline hbreak hwhole, ih]
  · rintro rfl
    obtain ⟨ls, hls, hcs⟩ := hasLines_linesFrom cs [] [] (by simp)
    rw [lines, hls]
    exact hcs

/-- Lines that are joined by line feeds are the lines of the text, but for an empty one at
the end. -/
theorem lines_intercalate {ls : List (List Char)}
    (h : ∀ line ∈ ls, ∀ c ∈ line, isLineEnd c = false) :
    ls = lines (['\n'].intercalate ls) ∨ ls = lines (['\n'].intercalate ls) ++ [[]] := by
  induction ls with
  | nil => exact Or.inl rfl
  | cons line ls ih =>
      obtain ⟨hline, hls⟩ := List.forall_mem_cons.1 h
      cases ls with
      | nil =>
          rw [List.intercalate_singleton]
          by_cases hsome : line = []
          · rw [hsome]
            exact Or.inr rfl
          · rw [lines_last hsome hline]
            exact Or.inl rfl
      | cons next ls =>
          have hbreak : IsLineBreak ['\n'] := .single (by decide)
          rw [List.intercalate_cons_cons, lines_closed hline hbreak (by simp), List.cons_append]
          rcases ih hls with hsame | hmore
          · exact Or.inl (congrArg (line :: ·) hsame)
          · exact Or.inr (congrArg (line :: ·) hmore)

end Docwright.Text
