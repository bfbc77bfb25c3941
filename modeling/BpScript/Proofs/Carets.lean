import BpScript.Proofs.Tiling

/-!
# Carets sit under the span

A span is shown line by line, each line above a row of carets.  Which columns the carets mark is
computed from the places where the span starts and stops; which characters the span covers is a
matter of how many characters stand before them.  The two agree because places grow with the text
before them: first by lines, and within a line by columns (`Position.precedes_behind`), and because
every column of a line is the place of a character (`Source.exists_behind`).

* `Source.lineOf_eq` — the lines of a text are what stands between its newlines.
* `Position.Precedes` — the order of places in a text.
* `Span.Marks` — a column of a line is that of a character the span covers.
* `Span.splitOn_underline` — the rows of the drawing are lines and carets in turn.
* **`underline_marks_covered`** — what the rows are, and which columns the carets mark.
-/

namespace BpScript

/-! ## Lines -/

namespace Source

theorem belowFirstLine_cons (c : Char) (cs : List Char) :
    belowFirstLine (c :: cs) = if c = '\n' then cs else belowFirstLine cs := by
  by_cases hc : c = '\n' <;> simp [belowFirstLine, hc]

theorem splitOn_newline (cs : List Char) :
    cs.splitOn '\n' = cs.takeWhile (· ≠ '\n') ::
      if '\n' ∈ cs then (belowFirstLine cs).splitOn '\n' else [] := by
  induction cs with
  | nil => rfl
  | cons c cs ih =>
    rw [List.splitOn_cons_eq_if_modifyHead, belowFirstLine_cons]
    by_cases hc : c = '\n'
    · simp [hc]
    · rw [ih]
      simp [hc, Ne.symm hc]

/-- **The lines of a text are what stands between its newlines.** -/
theorem lineOf_eq (n : Nat) (cs : List Char) : lineOf n cs = (cs.splitOn '\n').getD n [] := by
  induction n generalizing cs with
  | zero =>
    cases cs with
    | nil => rfl
    | cons c cs =>
      rw [splitOn_newline]
      rfl
  | succ n ih =>
    cases cs with
    | nil => rfl
    | cons c cs =>
      rw [lineOf, ih, splitOn_newline (c :: cs), List.getD_cons_succ]
      split
      · rfl
      · next hnewline =>
        have hbelow : belowFirstLine (c :: cs) = [] := by
          have hall : ∀ d ∈ c :: cs, d ≠ '\n' := fun d hd heq => hnewline (heq ▸ hd)
          rw [belowFirstLine, List.dropWhile_eq_nil_iff.2 (by simpa using hall)]
          rfl
        rw [hbelow]
        cases n <;> rfl

theorem newline_notMem_lineOf (n : Nat) (cs : List Char) : '\n' ∉ lineOf n cs := by
  fun_induction lineOf n cs with
  | case1 => simp
  | case2 c cs =>
    intro hmem
    simpa using List.mem_takeWhile_imp hmem
  | case3 n c cs ih => exact ih

end Source

/-! ## Places -/

namespace Position

/-- One place is in front of another: on an earlier line, or on the same line in an earlier
column. -/
def Precedes (a b : Position) : Prop :=
  a.line < b.line ∨ a.line = b.line ∧ a.column < b.column

/-- Text without newlines moves the place along its line. -/
theorem after_of_newline_notMem {cs : List Char} (a : Position) (h : '\n' ∉ cs) :
    (a.after cs).line = a.line ∧ (a.after cs).column = a.column + cs.length := by
  induction cs generalizing a with
  | nil => exact ⟨rfl, rfl⟩
  | cons c cs ih =>
    rw [List.mem_cons, not_or] at h
    obtain ⟨hline, hcolumn⟩ := ih (a.advance c) h.2
    have hadvance : a.advance c = ⟨a.line, a.column + 1, a.index + c.utf8Size⟩ :=
      if_neg (Ne.symm h.1)
    rw [hadvance] at hline hcolumn
    rw [after_cons, hadvance, hline, hcolumn, List.length_cons, Nat.add_right_comm]
    exact ⟨rfl, Nat.add_assoc _ _ _⟩

theorem line_behind_append (before cs : List Char) :
    (behind (before ++ cs)).line = (behind before).line + cs.count '\n' :=
  List.count_append

/-- **The place behind more text is a later one.** -/
theorem precedes_behind (before : List Char) {cs : List Char} (h : cs ≠ []) :
    (behind before).Precedes (behind (before ++ cs)) := by
  by_cases hnewline : '\n' ∈ cs
  · have hcount : 0 < cs.count '\n' := List.count_pos_iff.2 hnewline
    exact .inl (by rw [line_behind_append]; omega)
  · obtain ⟨hline, hcolumn⟩ := after_of_newline_notMem (behind before) hnewline
    have hlength : 0 < cs.length := List.length_pos_iff.2 h
    rw [after_behind] at hline hcolumn
    exact .inr ⟨hline.symm, by omega⟩

/-- Of two stretches at the front of a text, the shorter one stops at an earlier place. -/
theorem precedes_take (text : List Char) {j k : Nat} (hjk : j < k) (hk : k ≤ text.length) :
    (behind (text.take j)).Precedes (behind (text.take k)) := by
  have hsplit : text.take k = text.take j ++ (text.drop j).take (k - j) := by
    rw [← List.take_add, Nat.add_sub_cancel' (Nat.le_of_lt hjk)]
  have hne : (text.drop j).take (k - j) ≠ [] := by
    rw [ne_eq, ← List.length_eq_zero_iff, List.length_take, List.length_drop]
    omega
  rw [hsplit]
  exact precedes_behind _ hne

end Position

namespace Source

/-- What is below the first line is behind its newline. -/
theorem eq_append_belowFirstLine {cs : List Char} (h : belowFirstLine cs ≠ []) :
    cs = cs.takeWhile (· ≠ '\n') ++ '\n' :: belowFirstLine cs := by
  have hsplit := List.takeWhile_append_dropWhile (p := (· ≠ '\n')) (l := cs)
  cases hrest : cs.dropWhile (· ≠ '\n') with
  | nil =>
    rw [belowFirstLine, hrest] at h
    exact absurd rfl h
  | cons c rest =>
    have hc := List.head?_dropWhile_not (· ≠ '\n') cs
    rw [hrest] at hc
    have hnewline : c = '\n' := by simpa using hc
    rw [hrest, hnewline] at hsplit
    rw [belowFirstLine, hrest]
    exact hsplit.symm

/-- **Every column of a line is the place of the character there,** which starts the rest of the
text. -/
theorem exists_after {column n : Nat} {cs : List Char} (a : Position) (ha : a.column = 0)
    (h : column < (lineOf n cs).length) :
    ∃ before rest : List Char, cs = before ++ rest ∧ rest.head? = (lineOf n cs)[column]? ∧
      (a.after before).line = a.line + n ∧ (a.after before).column = column := by
  induction n generalizing cs a with
  | zero =>
    cases cs with
    | nil => exact absurd h (Nat.not_lt_zero _)
    | cons c cs =>
      -- the first line goes up to the first newline
      set top := (c :: cs).takeWhile (· ≠ '\n')
      have hcolumn : column < top.length := h
      have hnewline : '\n' ∉ top.take column := fun hmem => by
        simpa using List.mem_takeWhile_imp (List.mem_of_mem_take hmem)
      have hsplit : c :: cs = top.take column ++
          (top.drop column ++ (c :: cs).dropWhile (· ≠ '\n')) := by
        rw [← List.append_assoc, List.take_append_drop]
        exact List.takeWhile_append_dropWhile.symm
      have hplace := a.after_of_newline_notMem hnewline
      refine ⟨top.take column, _, hsplit, ?_, hplace.1, ?_⟩
      · show _ = top[column]?
        rw [List.head?_append_of_ne_nil _ (by simpa using hcolumn), List.head?_drop]
      · rw [hplace.2, ha, List.length_take, Nat.zero_add, Nat.min_eq_left (Nat.le_of_lt hcolumn)]
  | succ n ih =>
    cases cs with
    | nil => exact absurd h (Nat.not_lt_zero _)
    | cons c cs =>
      rw [lineOf] at h ⊢
      have hbelow : belowFirstLine (c :: cs) ≠ [] := by
        intro hnil
        rw [hnil] at h
        cases n <;> exact absurd h (Nat.not_lt_zero _)
      set top := (c :: cs).takeWhile (· ≠ '\n')
      have hnewline : '\n' ∉ top := fun hmem => by
        simpa using List.mem_takeWhile_imp hmem
      -- below the newline the next line starts, in its first column
      have hnext : ((a.after top).advance '\n').line = a.line + 1 := by
        rw [Position.advance, if_pos rfl, (a.after_of_newline_notMem hnewline).1]
      have hfirst : ((a.after top).advance '\n').column = 0 := by
        rw [Position.advance, if_pos rfl]
      obtain ⟨before, rest, hsplit, hrest, hline, hcolumn⟩ := ih _ hfirst h
      refine ⟨top ++ '\n' :: before, rest, ?_, hrest, ?_, ?_⟩
      · rw [List.append_assoc, List.cons_append, ← hsplit]
        exact eq_append_belowFirstLine hbelow
      · rw [Position.after_append, Position.after_cons, hline, hnext]
        omega
      · rw [Position.after_append, Position.after_cons, hcolumn]

/-- The same, by the number of characters in front. -/
theorem exists_behind {column n : Nat} {cs : List Char} (h : column < (lineOf n cs).length) :
    ∃ k < cs.length, cs[k]? = (lineOf n cs)[column]? ∧
      (Position.behind (cs.take k)).line = n ∧ (Position.behind (cs.take k)).column = column := by
  obtain ⟨before, rest, hsplit, hhead, hline, hcolumn⟩ := exists_after .origin rfl h
  rw [Position.after_origin] at hline hcolumn
  have hget : cs[before.length]? = (lineOf n cs)[column]? := by
    rw [← hhead, hsplit, List.getElem?_append_right (Nat.le_refl _), Nat.sub_self,
      List.head?_eq_getElem?]
  have htake : cs.take before.length = before := by rw [hsplit, List.take_left]
  refine ⟨before.length, ?_, hget, ?_, ?_⟩
  · exact (List.getElem?_eq_some_iff.1 (hget.trans (List.getElem?_eq_getElem h))).1
  · rw [htake, hline]
    exact Nat.zero_add n
  · rw [htake, hcolumn]

end Source

/-! ## Rows -/

namespace Span

/-- What is shown of a line: all but the carriage returns at its end. -/
def shown (span : Span) (n : Nat) : List Char :=
  chompReturns (Source.lineOf n span.source.text.toList)

/-- The column of the first caret under a line. -/
def firstCaret (span : Span) (n : Nat) : Nat :=
  if n = span.start.line then min span.start.column (span.shown n).length else 0

/-- The column behind those of a line that the span reaches. -/
def reach (span : Span) (n : Nat) : Nat :=
  if n = span.stop.line then min span.stop.column (span.shown n).length else (span.shown n).length

/-- The row of carets under a line. -/
def caretRow (span : Span) (n : Nat) : List Char :=
  List.replicate (span.firstCaret n) ' ' ++
    List.replicate (max (span.reach n - span.firstCaret n) 1) '^'

theorem underlineRows_eq (span : Span) (n : Nat) :
    span.underlineRows n = [span.shown n, span.caretRow n] := rfl

theorem shown_eq (span : Span) (n : Nat) : span.shown n =
    ((span.source.text.toList.splitOn '\n').getD n []).rdropWhile (· = '\r') := by
  rw [shown, Source.lineOf_eq]
  rfl

theorem shown_prefix (span : Span) (n : Nat) :
    span.shown n <+: Source.lineOf n span.source.text.toList :=
  List.rdropWhile_prefix _ _

theorem newline_notMem_underlineRows {span : Span} {n : Nat} {row : List Char}
    (h : row ∈ span.underlineRows n) : '\n' ∉ row := by
  rw [underlineRows_eq] at h
  rcases List.mem_cons.1 h with rfl | h
  · exact fun hmem => Source.newline_notMem_lineOf n _ ((span.shown_prefix n).subset hmem)
  · rw [List.mem_singleton.1 h]
    simp [caretRow]

/-- **The rows of the drawing are lines and carets in turn.** -/
theorem splitOn_underline (span : Span) :
    span.underline.toList.splitOn '\n' = span.lineNumbers.flatMap span.underlineRows := by
  have hnewline : ∀ row ∈ span.lineNumbers.flatMap span.underlineRows, '\n' ∉ row := by
    intro row hrow
    obtain ⟨n, -, hn⟩ := List.mem_flatMap.1 hrow
    exact newline_notMem_underlineRows hn
  have hne : span.lineNumbers.flatMap span.underlineRows ≠ [] := by
    simp [lineNumbers, List.range'_succ, underlineRows_eq]
  rw [underline, String.toList_intercalate, List.map_map]
  show (['\n'].intercalate ((span.lineNumbers.flatMap span.underlineRows).map
    (String.toList ∘ String.ofList))).splitOn '\n' = _
  rw [show String.toList ∘ String.ofList = id from funext fun _ => String.toList_ofList,
    List.map_id]
  exact List.splitOn_intercalate '\n' hnewline hne

theorem getElem?_flatMap_rows (span : Span) (numbers : List Nat) (i : Nat) :
    (numbers.flatMap span.underlineRows)[2 * i]? = numbers[i]?.map span.shown ∧
      (numbers.flatMap span.underlineRows)[2 * i + 1]? = numbers[i]?.map span.caretRow := by
  induction numbers generalizing i with
  | nil => simp
  | cons n numbers ih =>
    rw [List.flatMap_cons, underlineRows_eq]
    cases i with
    | zero => exact ⟨rfl, rfl⟩
    | succ i => exact ih i

/-- Row by row, for every line from the one the span starts on to the one it stops on. -/
theorem getElem?_splitOn_underline {span : Span} {i : Nat}
    (hi : i ≤ span.stop.line - span.start.line) :
    (span.underline.toList.splitOn '\n')[2 * i]? = some (span.shown (span.start.line + i)) ∧
      (span.underline.toList.splitOn '\n')[2 * i + 1]? =
        some (span.caretRow (span.start.line + i)) := by
  have hnumber : span.lineNumbers[i]? = some (span.start.line + i) := by
    rw [lineNumbers, List.getElem?_range' (by omega), Nat.one_mul]
  rw [splitOn_underline, (getElem?_flatMap_rows _ _ _).1, (getElem?_flatMap_rows _ _ _).2, hnumber]
  exact ⟨rfl, rfl⟩

theorem length_splitOn_underline (span : Span) :
    (span.underline.toList.splitOn '\n').length = 2 * (span.stop.line - span.start.line + 1) := by
  rw [splitOn_underline, List.length_flatMap]
  simp [underlineRows_eq, lineNumbers, Nat.mul_comm]

end Span

/-! ## Covered columns -/

/-- A shown line has, at a column, a character of the text that stands there: on line `n`, behind at
least `first` characters and among the first `stop`. -/
def Source.Shows (text shown : List Char) (first stop n column : Nat) : Prop :=
  ∃ k, first ≤ k ∧ k < stop ∧ (Position.origin.after (text.take k)).line = n ∧
    (Position.origin.after (text.take k)).column = column ∧ shown[column]? = text[k]?

variable {source : Source} {before upto : List Char}

/-- The stretch of a source behind `before` and up to the end of `upto`. -/
def Span.between (source : Source) (before upto : List Char) : Span :=
  ⟨source, Position.origin.after before, Position.origin.after upto⟩

theorem Span.start_line_le (h : before <+: upto) :
    (between source before upto).start.line ≤ (between source before upto).stop.line := by
  obtain ⟨rest, rfl⟩ := h
  simp only [between, Position.after_origin, Position.line_behind_append]
  exact Nat.le_add_right _ _

namespace Span

theorem start_between (hbefore : before <+: source.text.toList) :
    (between source before upto).start =
      .behind (source.text.toList.take before.length) := by
  rw [← List.prefix_iff_eq_take.1 hbefore]
  exact Position.after_origin before

theorem stop_between (hupto : upto <+: source.text.toList) :
    (between source before upto).stop = .behind (source.text.toList.take upto.length) := by
  rw [← List.prefix_iff_eq_take.1 hupto]
  exact Position.after_origin upto

/-- A covered character is neither in front of the first caret nor beyond where the span reaches. -/
theorem caret_of_shows (hbefore : before <+: upto) (hupto : upto <+: source.text.toList)
    {n column : Nat}
    (h : Source.Shows source.text.toList ((between source before upto).shown n) before.length
      upto.length n column) :
    (between source before upto).firstCaret n ≤ column ∧
      column < (between source before upto).reach n := by
  have hstart : (between source before upto).start = _ := start_between (hbefore.trans hupto)
  have hstop : (between source before upto).stop = _ := stop_between hupto
  have hlength := hupto.length_le
  obtain ⟨k, hfirst, hlast, hline, hcolumn, hshown⟩ := h
  rw [Position.after_origin] at hline hcolumn
  have hwidth : column < ((between source before upto).shown n).length := by
    rw [List.getElem?_eq_getElem (hlast.trans_le hlength)] at hshown
    exact (List.getElem?_eq_some_iff.1 hshown).1
  have hbehind : Position.Precedes (.behind (source.text.toList.take k))
      (between source before upto).stop :=
    hstop ▸ Position.precedes_take _ hlast hlength
  have hfront : (between source before upto).start.line < n ∨
      (between source before upto).start.line = n ∧
        (between source before upto).start.column ≤ column := by
    rcases Nat.lt_or_eq_of_le hfirst with hlt | rfl
    · have hfront : Position.Precedes (between source before upto).start
          (.behind (source.text.toList.take k)) :=
        hstart ▸ Position.precedes_take _ hlt (by omega)
      unfold Position.Precedes at hfront
      omega
    · rw [hstart]
      omega
  unfold Position.Precedes at hbehind
  unfold firstCaret reach
  constructor <;> split <;> omega

/-- At a column between the two the line has a character of the text, and the span covers it. -/
theorem shows_of_caret (hbefore : before <+: upto) (hupto : upto <+: source.text.toList)
    {n column : Nat} (hfirst : (between source before upto).start.line ≤ n)
    (hlast : n ≤ (between source before upto).stop.line)
    (hleft : (between source before upto).firstCaret n ≤ column)
    (hright : column < (between source before upto).reach n) :
    Source.Shows source.text.toList ((between source before upto).shown n) before.length
      upto.length n column := by
  have hstart : (between source before upto).start = _ := start_between (hbefore.trans hupto)
  have hstop : (between source before upto).stop = _ := stop_between hupto
  have hwidth : column < ((between source before upto).shown n).length := by
    unfold reach at hright
    split at hright <;> omega
  have hprefix : (between source before upto).shown n <+: Source.lineOf n source.text.toList :=
    shown_prefix _ n
  obtain ⟨k, hk, hget, hline, hcolumn⟩ :=
    Source.exists_behind (Nat.lt_of_lt_of_le hwidth hprefix.length_le)
  refine ⟨k, ?_, ?_, ?_, ?_, ?_⟩
  · by_contra hlt
    have hfront : Position.Precedes (.behind (source.text.toList.take k))
        (between source before upto).start :=
      hstart ▸ Position.precedes_take _ (Nat.lt_of_not_le hlt) (hbefore.trans hupto).length_le
    unfold Position.Precedes at hfront
    unfold firstCaret at hleft
    split at hleft <;> omega
  · by_contra hle
    unfold reach at hright
    rcases Nat.lt_or_eq_of_le (Nat.le_of_not_lt hle) with hlt | heq
    · have hbehind : Position.Precedes (between source before upto).stop
          (.behind (source.text.toList.take k)) :=
        hstop ▸ Position.precedes_take _ hlt (Nat.le_of_lt hk)
      unfold Position.Precedes at hbehind
      split at hright <;> omega
    · rw [hstop, heq] at hright
      split at hright <;> omega
  · rw [Position.after_origin, hline]
  · rw [Position.after_origin, hcolumn]
  · obtain ⟨rest, hrest⟩ := hprefix
    rw [hget, ← hrest, List.getElem?_append_left hwidth]

/-- **On the lines of a span, the columns from the first caret up to where it reaches are those of
the characters it covers.** -/
theorem shows_iff (hbefore : before <+: upto) (hupto : upto <+: source.text.toList)
    {n column : Nat} (hfirst : (between source before upto).start.line ≤ n)
    (hlast : n ≤ (between source before upto).stop.line) :
    Source.Shows source.text.toList ((between source before upto).shown n) before.length
        upto.length n column ↔
      (between source before upto).firstCaret n ≤ column ∧
        column < (between source before upto).reach n :=
  ⟨caret_of_shows hbefore hupto, fun h => shows_of_caret hbefore hupto hfirst hlast h.1 h.2⟩

end Span

/-- **Carets sit under what a span covers.**  For a span between two places of a text, the drawing
has two rows for every line from the first to the last: the line, without the carriage returns at
its end, and spaces with carets behind them.  Where the line shows characters that the span covers,
the carets are under these and no others; where it shows none, there is one caret, in the column
where the span starts or at the end of the line before that, and on later lines in the first
column. -/
theorem underline_marks_covered (source : Source) {before upto : List Char}
    (hbefore : before <+: upto) (hupto : upto <+: source.text.toList) :
    let span := Span.between source before upto
    let rows := span.underline.toList.splitOn '\n'
    span.start.line ≤ span.stop.line ∧
    rows.length = 2 * (span.stop.line - span.start.line + 1) ∧
    ∀ i ≤ span.stop.line - span.start.line,
      let n := span.start.line + i
      let shown := ((source.text.toList.splitOn '\n').getD n []).rdropWhile (· = '\r')
      let covered := Source.Shows source.text.toList shown before.length upto.length n
      rows[2 * i]? = some shown ∧
      ∃ left carets, 1 ≤ carets ∧
        rows[2 * i + 1]? = some (List.replicate left ' ' ++ List.replicate carets '^') ∧
        ((∃ column, covered column) →
          ∀ column, covered column ↔ left ≤ column ∧ column < left + carets) ∧
        ((¬∃ column, covered column) →
          carets = 1 ∧ left = if i = 0 then min span.start.column shown.length else 0) := by
  intro span rows
  have hlines : span.start.line ≤ span.stop.line := Span.start_line_le hbefore
  refine ⟨hlines, span.length_splitOn_underline, fun i hi => ?_⟩
  intro n shown covered
  have hshown : span.shown n = shown := span.shown_eq n
  obtain ⟨hline, hcarets⟩ := Span.getElem?_splitOn_underline hi
  have hcovered : ∀ column, covered column ↔
      span.firstCaret n ≤ column ∧ column < span.reach n := by
    intro column
    have hiff : Source.Shows source.text.toList (span.shown n) before.length upto.length n column ↔
        _ := Span.shows_iff hbefore hupto (Nat.le_add_right _ i)
          (show span.start.line + i ≤ span.stop.line by omega)
    rwa [hshown] at hiff
  refine ⟨hline.trans (congrArg some hshown), span.firstCaret n,
    max (span.reach n - span.firstCaret n) 1, Nat.le_max_right _ _, hcarets, ?_, ?_⟩
  · rintro ⟨c, hc⟩ column
    have hc := (hcovered c).1 hc
    rw [hcovered]
    omega
  · intro hnone
    have hreach : span.reach n ≤ span.firstCaret n := by
      by_contra hlt
      exact hnone ⟨span.firstCaret n, (hcovered _).2 ⟨Nat.le_refl _, Nat.lt_of_not_le hlt⟩⟩
    refine ⟨by omega, ?_⟩
    rw [Span.firstCaret, hshown]
    simp [n]

/-- A span over two lines, the first of which ends in a carriage return. -/
theorem second_line_marked :
    let source : Source := ⟨"main", "let é\r\nx = 1"⟩
    let before := "let ".toList
    let upto := "let é\r\nx".toList
    before <+: upto ∧ upto <+: source.text.toList ∧
      (Span.between source before upto).underline = "let é\n    ^\nx = 1\n^" ∧
      ((Span.between source before upto).underline.toList.splitOn '\n').length = 4 := by
  intro source before upto
  have hbefore : before <+: upto := by decide
  have hupto : upto <+: source.text.toList := by decide
  have hdrawn : (Span.between source before upto).underline = "let é\n    ^\nx = 1\n^" := by
    decide
  exact ⟨hbefore, hupto, hdrawn, (underline_marks_covered source hbefore hupto).2.1⟩

end BpScript
