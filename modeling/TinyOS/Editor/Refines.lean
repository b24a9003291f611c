import TinyOS.Editor.Buffer
import TinyOS.Lib.Run
import Mathlib.Algebra.Order.Ring.Int

/-!
# The text editor: what a user sees

`Doc` is an editor as its user thinks of it: lines, and a cursor in one of them. `Shows e d` says that
the editor has this text and its cursor there, with the place in the file split into a place on the
screen and the scroll offset.

* `Doc.key_ok`: the cursor of `Doc` is always in the text.
* `key_shows`: a key does to the editor what it does to `Doc`, unless a full row is typed into or a
  refresh finds the cursor off the screen that `editor_scroll` has in mind.
* `refresh_moves_cursor`: a file of fifty lines, and the cursor in line 43.
-/

namespace TinyOS.Editor

open Lib Editor List

/-! ## The reference editor -/

/-- Lines of text, and the cursor. -/
structure Doc where
  lines : List Line
  line : Nat
  col : Nat
  deriving DecidableEq

namespace Doc

/-- The line the cursor is in, empty below the last one. -/
def current (d : Doc) : Line := lineAt d.lines d.line

/-- The cursor in another line, no further right than its end. -/
def goto (d : Doc) (line : Nat) : Doc := ⟨d.lines, line, min d.col (lineAt d.lines line).length⟩

/-- There is room for another line. -/
def roomy (d : Doc) (ok : Bool) : Bool := decide (d.lines.length < editorMaxRows) && ok

def key (d : Doc) : Key → Doc
  | .char c ok =>
    if d.line < d.lines.length then
      if d.current.length < 4095 then
        ⟨d.lines.set d.line (d.current.insertIdx d.col c), d.line, d.col + 1⟩
      else d
    else if d.roomy (ok 0) then ⟨d.lines ++ [[c]], d.line, 1⟩
    else d
  | .enter ok =>
    if d.roomy ok then
      if d.line < d.lines.length then
        ⟨(d.lines.insertIdx (d.line + 1) (d.current.drop d.col)).set d.line (d.current.take d.col),
          d.line + 1, 0⟩
      else ⟨d.lines ++ [[]], d.line + 1, 0⟩
    else d
  | .backspace =>
    if d.line < d.lines.length then
      if 0 < d.col then ⟨d.lines.set d.line (d.current.eraseIdx (d.col - 1)), d.line, d.col - 1⟩
      else if d.line = 0 then d
      else
        let above := lineAt d.lines (d.line - 1)
        if above.length + d.current.length < 4096 then
          ⟨(d.lines.set (d.line - 1) (above ++ d.current)).eraseIdx d.line, d.line - 1, above.length⟩
        else d
    else d
  | .arrow .up => if 0 < d.line then d.goto (d.line - 1) else d
  | .arrow .down => if d.line + 1 < d.lines.length then d.goto (d.line + 1) else d
  | .arrow .left =>
    if 0 < d.col then { d with col := d.col - 1 }
    else if 0 < d.line then ⟨d.lines, d.line - 1, (lineAt d.lines (d.line - 1)).length⟩
    else d
  | .arrow .right =>
    if d.line < d.lines.length then
      if d.col < d.current.length then { d with col := d.col + 1 }
      else if d.line + 1 < d.lines.length then ⟨d.lines, d.line + 1, 0⟩
      else d
    else d
  | .refresh => d

/-- The text is within the limits, and the cursor in the text. -/
structure Ok (d : Doc) : Prop where
  rows : d.lines.length ≤ editorMaxRows
  short : ∀ row ∈ d.lines, row.length ≤ 4095
  line : d.line ≤ d.lines.length
  col : d.col ≤ d.current.length

end Doc

variable {rows : List Line} {i : Nat} {row : Line}

theorem lineAt_set_self (h : i < rows.length) (row : Line) : lineAt (rows.set i row) i = row := by
  simp [lineAt, h]

theorem lineAt_of_le (h : rows.length ≤ i) : lineAt rows i = [] := by
  simp [lineAt, h]

theorem lineAt_mem (h : i < rows.length) : lineAt rows i ∈ rows := by
  simp [lineAt, h]

namespace Doc

variable {d : Doc}

theorem current_short (h : d.Ok) : d.current.length ≤ 4095 := by
  by_cases hline : d.line < d.lines.length
  · exact h.short _ (lineAt_mem hline)
  · rw [current, lineAt_of_le (Nat.le_of_not_lt hline)]
    exact Nat.zero_le _

theorem col_eq_zero (h : d.Ok) (hline : ¬d.line < d.lines.length) : d.col = 0 := by
  have hcol := h.col
  rw [current, lineAt_of_le (Nat.le_of_not_lt hline)] at hcol
  exact Nat.le_zero.mp hcol

theorem goto_ok {line : Nat} (h : d.Ok) (hline : line ≤ d.lines.length) : (d.goto line).Ok :=
  ⟨h.rows, h.short, hline, Nat.min_le_right _ _⟩

theorem char_ok {c : UInt8} {ok : Nat → Bool} (h : d.Ok) : (d.key (.char c ok)).Ok := by
  simp only [key]
  split
  · rename_i hline
    split
    · rename_i hshort
      have hlength : (d.current.insertIdx d.col c).length = d.current.length + 1 := by
        rw [length_insertIdx, if_pos h.col]
      constructor
      · simpa using h.rows
      · intro row hrow
        rcases mem_or_eq_of_mem_set hrow with hold | rfl
        · exact h.short row hold
        · rw [hlength]
          exact hshort
      · simpa using h.line
      · show d.col + 1 ≤ (lineAt (d.lines.set d.line _) d.line).length
        rw [lineAt_set_self hline, hlength]
        exact Nat.succ_le_succ h.col
    · exact h
  · rename_i hline
    have hend : d.line = d.lines.length := Nat.le_antisymm h.line (Nat.le_of_not_lt hline)
    split
    · rename_i hroomy
      simp only [roomy, Bool.and_eq_true, decide_eq_true_iff] at hroomy
      constructor
      · rw [length_append]
        exact hroomy.1
      · intro row hrow
        rcases mem_append.mp hrow with hold | hnew
        · exact h.short row hold
        · rw [mem_singleton.mp hnew, length_singleton]
          decide
      · simpa using Nat.le_succ_of_le h.line
      · simp [current, lineAt, hend]
    · exact h

theorem enter_ok {ok : Bool} (h : d.Ok) : (d.key (.enter ok)).Ok := by
  simp only [key]
  split
  · rename_i hroomy
    simp only [roomy, Bool.and_eq_true, decide_eq_true_iff] at hroomy
    split
    · rename_i hline
      have hlength : (d.lines.insertIdx (d.line + 1) (d.current.drop d.col)).length =
          d.lines.length + 1 := by
        rw [length_insertIdx, if_pos (Nat.succ_le_of_lt hline)]
      constructor
      · rw [length_set, hlength]
        exact hroomy.1
      · intro row hrow
        rcases mem_or_eq_of_mem_set hrow with hold | rfl
        · rcases (mem_insertIdx hline).mp hold with rfl | hold
          · rw [length_drop]
            exact (Nat.sub_le _ _).trans (current_short h)
          · exact h.short row hold
        · exact (length_take_le' _ _).trans (current_short h)
      · rw [length_set, hlength]
        exact Nat.succ_le_succ h.line
      · exact Nat.zero_le _
    · constructor
      · rw [length_append]
        exact hroomy.1
      · refine forall_mem_append.mpr ⟨h.short, forall_mem_singleton.mpr ?_⟩
        exact Nat.zero_le _
      · simpa using h.line
      · exact Nat.zero_le _
  · exact h

theorem backspace_ok (h : d.Ok) : (d.key .backspace).Ok := by
  simp only [key]
  split
  · rename_i hline
    split
    · have hlength : (d.current.eraseIdx (d.col - 1)).length = d.current.length - 1 := by
        have := h.col
        rw [length_eraseIdx, if_pos (by omega)]
      constructor
      · simpa using h.rows
      · intro row hrow
        rcases mem_or_eq_of_mem_set hrow with hold | rfl
        · exact h.short row hold
        · rw [hlength]
          exact (Nat.sub_le _ _).trans (current_short h)
      · simpa using h.line
      · show d.col - 1 ≤ (lineAt (d.lines.set d.line _) d.line).length
        rw [lineAt_set_self hline, hlength]
        exact Nat.sub_le_sub_right h.col 1
    split
    · exact h
    split
    · rename_i hfits
      have habove : d.line - 1 < (d.lines.set (d.line - 1)
          (lineAt d.lines (d.line - 1) ++ d.current)).length := by
        rw [length_set]
        omega
      constructor
      · refine (length_eraseIdx_le _ _).trans ?_
        rw [length_set]
        exact h.rows
      · intro row hrow
        rcases mem_or_eq_of_mem_set (mem_of_mem_eraseIdx hrow) with hold | rfl
        · exact h.short row hold
        · rw [length_append]
          exact Nat.le_of_lt_succ hfits
      · show d.line - 1 ≤ (List.eraseIdx _ d.line).length
        rw [length_eraseIdx, length_set, if_pos hline]
        omega
      · show _ ≤ (lineAt (List.eraseIdx _ d.line) (d.line - 1)).length
        have hjoined : lineAt ((d.lines.set (d.line - 1)
            (lineAt d.lines (d.line - 1) ++ d.current)).eraseIdx d.line) (d.line - 1) =
            lineAt d.lines (d.line - 1) ++ d.current := by
          rw [lineAt, getD_eq_getElem?_getD, getElem?_eraseIdx_of_lt (by omega),
            ← getD_eq_getElem?_getD, ← lineAt, lineAt_set_self (by simpa using habove)]
        rw [hjoined, length_append]
        exact Nat.le_add_right _ _
    · exact h
  · exact h

/-- The cursor is always in the text. -/
theorem key_ok (h : d.Ok) (k : Key) : (d.key k).Ok := by
  cases k with
  | char c ok => exact char_ok h
  | enter ok => exact enter_ok h
  | backspace => exact backspace_ok h
  | arrow a =>
    cases a with
    | up =>
      simp only [key]
      split
      · exact goto_ok h ((Nat.sub_le _ _).trans h.line)
      · exact h
    | down =>
      simp only [key]
      split
      · rename_i hline
        exact goto_ok h hline.le
      · exact h
    | left =>
      simp only [key]
      split
      · exact ⟨h.rows, h.short, h.line, (Nat.sub_le _ _).trans h.col⟩
      split
      · exact ⟨h.rows, h.short, (Nat.sub_le _ _).trans h.line, Nat.le_refl _⟩
      · exact h
    | right =>
      simp only [key]
      split
      · split
        · rename_i hcol
          exact ⟨h.rows, h.short, h.line, hcol⟩
        split
        · rename_i hline
          exact ⟨h.rows, h.short, hline.le, Nat.zero_le _⟩
        · exact h
      · exact h
  | refresh => exact h

end Doc

/-! ## Refinement -/

/-- The editor has this text, and its cursor there. -/
structure Shows (e : Editor) (d : Doc) : Prop where
  rows : e.rows = d.lines
  filerow : e.cy + e.rowoff = d.line
  cx : e.cx = d.col
  coloff : e.coloff = 0
  cy : 0 ≤ e.cy ∧ e.cy < screenrows
  rowoff : 0 ≤ e.rowoff

/-- A row that is typed into is not full, and a refresh finds the cursor where `editor_scroll` leaves
it. -/
def InView (e : Editor) : Key → Prop
  | .char _ _ => (e.row?.getD []).length < 4095
  | .refresh => e.rowoff ≤ e.cy ∧ e.cy < e.rowoff + screenrows ∧ e.coloff ≤ e.cx ∧
    e.cx < e.coloff + screencols
  | _ => True

variable {e : Editor} {d : Doc}

namespace Shows

variable (h : Shows e d)

include h

theorem filerow_toNat : e.filerow.toNat = d.line := by
  rw [Editor.filerow, h.filerow, Int.toNat_natCast]

theorem filecol_eq : e.filecol = d.col := by
  rw [Editor.filecol, h.cx, h.coloff, Int.add_zero]

theorem row?_of_lt (hline : d.line < d.lines.length) : e.row? = some d.current := by
  unfold Editor.row?
  rw [if_pos, h.filerow_toNat, h.rows, Doc.current]
  rw [Editor.filerow, h.filerow, h.rows]
  exact_mod_cast hline

theorem row?_of_le (hline : ¬d.line < d.lines.length) : e.row? = none := by
  unfold Editor.row?
  rw [if_neg]
  rw [Editor.filerow, h.filerow, h.rows]
  exact_mod_cast hline

theorem row?_getD : e.row?.getD [] = d.current := by
  by_cases hline : d.line < d.lines.length
  · rw [h.row?_of_lt hline]
    rfl
  · rw [h.row?_of_le hline, Doc.current, lineAt_of_le (Nat.le_of_not_lt hline)]
    rfl

/-- The cursor goes to the line above, -/
theorem cursorUp (hline : 0 < d.line) : Shows e.cursorUp { d with line := d.line - 1 } := by
  obtain ⟨hrows, hfilerow, hcx, hcoloff, hcy, hrowoff⟩ := h
  unfold Editor.cursorUp
  split
  · exact ⟨hrows, by dsimp only; omega, hcx, hcoloff, by dsimp only; omega, hrowoff⟩
  · exact ⟨hrows, by dsimp only; omega, hcx, hcoloff, hcy, by dsimp only; omega⟩

/-- or below. -/
theorem cursorDown : Shows e.cursorDown { d with line := d.line + 1 } := by
  obtain ⟨hrows, hfilerow, hcx, hcoloff, hcy, hrowoff⟩ := h
  unfold Editor.cursorDown
  split
  · exact ⟨hrows, by dsimp only; omega, hcx, hcoloff, by dsimp only; omega, hrowoff⟩
  · exact ⟨hrows, by dsimp only; omega, hcx, hcoloff, hcy, by dsimp only; omega⟩

theorem cursorToNextLine : Shows e.cursorToNextLine ⟨d.lines, d.line + 1, 0⟩ := by
  obtain ⟨hrows, hfilerow, hcx, hcoloff, hcy, hrowoff⟩ := h
  unfold Editor.cursorToNextLine
  split
  · refine ⟨hrows, ?_, rfl, rfl, ?_, ?_⟩ <;> dsimp only [screenrows] at * <;> omega
  · refine ⟨hrows, ?_, rfl, rfl, ?_, hrowoff⟩ <;> dsimp only [screenrows] at * <;> omega

/-- The text changes, and the cursor moves along its line. -/
theorem write {lines : List Line} {col : Nat} {e' : Editor} (hrows : e'.rows = lines)
    (hcy : e'.cy = e.cy) (hrowoff : e'.rowoff = e.rowoff) (hcx : e'.cx = col)
    (hcoloff : e'.coloff = e.coloff) : Shows e' ⟨lines, d.line, col⟩ := by
  refine ⟨hrows, ?_, hcx, hcoloff.trans h.coloff, ?_, ?_⟩
  · rw [hcy, hrowoff]
    exact h.filerow
  · rw [hcy]
    exact h.cy
  · rw [hrowoff]
    exact h.rowoff

/-- A cursor within its line is left where it is, and one beyond the end is put there. -/
theorem clampCursor : Shows e.clampCursor (d.goto d.line) := by
  unfold Editor.clampCursor
  dsimp only
  rw [h.row?_getD, h.filecol_eq]
  split
  · rename_i hbeyond
    refine h.write h.rows rfl rfl ?_ rfl
    have hcol : d.current.length ≤ d.col := by exact_mod_cast hbeyond.le
    rw [h.coloff, Int.sub_zero, max_eq_left (Int.natCast_nonneg _), ← Doc.current, Nat.min_eq_right hcol]
  · rename_i hwithin
    have hcol : d.col ≤ d.current.length := by exact_mod_cast not_lt.mp hwithin
    refine h.write h.rows rfl rfl ?_ rfl
    rw [h.cx, ← Doc.current, Nat.min_eq_left hcol]

end Shows

theorem goto_self (h : d.Ok) : d.goto d.line = d := by
  rw [Doc.goto, ← Doc.current, Nat.min_eq_left h.col]

variable (h : Shows e d)

include h

theorem Shows.clampCursor_of_ok (hd : d.Ok) : Shows e.clampCursor d := by
  have hclamp := h.clampCursor
  rwa [goto_self hd] at hclamp

omit h in
/-- What `editor_insert_row` does in a buffer that keeps to its limits. -/
theorem insertRow_eq (e : Editor) (s : Line) (ok : Bool) (hi : i ≤ e.rows.length)
    (hs : s.length ≤ 4095) :
    (e.rows.length < editorMaxRows ∧ ok = true →
      e.insertRow i s ok = { e with rows := e.rows.insertIdx i s, dirty := true }) ∧
    (¬(e.rows.length < editorMaxRows ∧ ok = true) →
      ∃ msg, e.insertRow i s ok = { e with statusmsg := msg }) := by
  unfold insertRow
  constructor
  · rintro ⟨hroom, rfl⟩
    rw [if_neg (by omega), if_neg (by simpa [sizeofErow, editorMaxRows] using hroom),
      if_neg (by decide), take_of_length_le hs]
  · intro hfull
    split
    · exact ⟨e.statusmsg, rfl⟩
    rename_i hroom
    split
    · exact ⟨e.statusmsg, rfl⟩
    split
    · exact ⟨_, rfl⟩
    rename_i hok
    exfalso
    apply hfull
    exact ⟨by omega, by simpa using hok⟩

theorem Shows.message (msg : String) : Shows { e with statusmsg := msg } d :=
  { h with }

theorem roomy_iff (ok : Bool) : d.roomy ok = true ↔ e.rows.length < editorMaxRows ∧ ok = true := by
  rw [Doc.roomy, Bool.and_eq_true, decide_eq_true_iff, h.rows]

theorem char_shows {c : UInt8} {ok : Nat → Bool} (hd : d.Ok) (hview : InView e (.char c ok)) :
    Shows (e.insertChar c ok) (d.key (.char c ok)) := by
  have hshort : d.current.length < 4095 := by
    rw [← h.row?_getD]
    exact hview
  have hinsert : rowInsertChar d.current d.col c = d.current.insertIdx d.col c := by
    have hcol := hd.col
    unfold rowInsertChar
    rw [if_neg (by omega), if_neg (by omega), Int.toNat_natCast]
  simp only [Doc.key]
  unfold Editor.insertChar
  by_cases hline : d.line < d.lines.length
  · rw [if_pos hline, if_pos hshort]
    have hpad : (e.filerow + 1 - e.rows.length).toNat = 0 := by
      rw [Editor.filerow, h.filerow, h.rows]
      omega
    rw [hpad]
    simp only [padRows]
    rw [h.filerow_toNat, h.filecol_eq]
    refine h.write ?_ rfl rfl ?_ rfl
    · show e.rows.set d.line (rowInsertChar (lineAt e.rows d.line) d.col c) = _
      rw [h.rows, ← Doc.current, hinsert]
    · rw [h.cx]
      rfl
  · -- Below the last line, where one row is added first.
    rw [if_neg hline]
    have hend : d.line = d.lines.length := Nat.le_antisymm hd.line (Nat.le_of_not_lt hline)
    have hpad : (e.filerow + 1 - e.rows.length).toNat = 1 := by
      rw [Editor.filerow, h.filerow, h.rows]
      omega
    have hcol := Doc.col_eq_zero hd hline
    rw [hpad]
    simp only [padRows]
    obtain ⟨hmade, hrefused⟩ := insertRow_eq e [] (ok 0) (Nat.le_refl _) (by decide)
    by_cases hroomy : d.roomy (ok 0) = true
    · rw [if_pos hroomy, hmade ((roomy_iff h _).mp hroomy), insertIdx_length_self,
        if_neg (by simp)]
      have hrow : (e.cy + e.rowoff).toNat = e.rows.length := by
        rw [h.filerow, h.rows, Int.toNat_natCast, hend]
      refine h.write ?_ rfl rfl ?_ rfl
      · show (e.rows ++ [[]]).set (e.cy + e.rowoff).toNat
          (rowInsertChar (lineAt (e.rows ++ [[]]) (e.cy + e.rowoff).toNat) (e.cx + e.coloff) c) = _
        rw [hrow, h.cx, h.coloff, hcol, ← h.rows]
        simp [lineAt, rowInsertChar]
      · rw [h.cx, hcol]
        rfl
    · obtain ⟨msg, hsame⟩ := hrefused fun hroom => hroomy ((roomy_iff h _).mpr hroom)
      rw [if_neg hroomy, hsame]
      simp only [if_true]
      exact h.message msg

theorem enter_shows {ok : Bool} (hd : d.Ok) : Shows (e.insertNewline ok) (d.key (.enter ok)) := by
  simp only [Doc.key]
  unfold Editor.insertNewline
  by_cases hline : d.line < d.lines.length
  · rw [h.row?_of_lt hline]
    dsimp only
    have hsplit : (max (min e.filecol (d.current.length : Int)) 0).toNat = d.col := by
      have hcol := hd.col
      rw [h.filecol_eq]
      omega
    have hnext : (e.filerow + 1).toNat = d.line + 1 := by
      rw [Editor.filerow, h.filerow]
      omega
    rw [hsplit, hnext, h.filerow_toNat]
    obtain ⟨hmade, hrefused⟩ := insertRow_eq e (d.current.drop d.col) ok
      (i := d.line + 1) (by rw [h.rows]; exact hline)
      (by rw [length_drop]; exact (Nat.sub_le _ _).trans (Doc.current_short hd))
    by_cases hroomy : d.roomy ok = true
    · rw [if_pos hroomy, if_pos hline, hmade ((roomy_iff h _).mp hroomy), if_neg]
      · apply Shows.cursorToNextLine (d := ⟨_, d.line, d.col⟩)
        refine h.write ?_ rfl rfl h.cx rfl
        show (e.rows.insertIdx (d.line + 1) _).set d.line _ = _
        rw [h.rows]
      · rw [length_insertIdx, if_pos (by rw [h.rows]; exact hline)]
        omega
    · obtain ⟨msg, hsame⟩ := hrefused fun hroom => hroomy ((roomy_iff h _).mpr hroom)
      rw [if_neg hroomy, hsame, if_pos rfl]
      exact h.message msg
  · rw [h.row?_of_le hline]
    obtain ⟨hmade, hrefused⟩ := insertRow_eq e [] ok (Nat.le_refl _) (by decide)
    by_cases hroomy : d.roomy ok = true
    · rw [if_pos hroomy, if_neg hline, hmade ((roomy_iff h _).mp hroomy), insertIdx_length_self,
        if_neg (by simp)]
      apply Shows.cursorToNextLine (d := ⟨_, d.line, d.col⟩)
      refine h.write ?_ rfl rfl h.cx rfl
      rw [h.rows]
    · obtain ⟨msg, hsame⟩ := hrefused fun hroom => hroomy ((roomy_iff h _).mpr hroom)
      rw [if_neg hroomy, hsame, if_pos rfl]
      exact h.message msg

theorem backspace_shows (hd : d.Ok) : Shows e.delChar (d.key .backspace) := by
  simp only [Doc.key]
  unfold Editor.delChar
  by_cases hline : d.line < d.lines.length
  swap
  · rw [h.row?_of_le hline, if_neg hline]
    exact h
  rw [h.row?_of_lt hline, if_pos hline]
  dsimp only
  rw [h.filecol_eq, h.filerow_toNat]
  have hfilerow : e.filerow = d.line := h.filerow
  rw [hfilerow]
  by_cases hcol : 0 < d.col
  · rw [if_neg (by omega), if_pos (by omega), if_pos hcol]
    have hdel : rowDelChar d.current ((d.col : Int) - 1) = d.current.eraseIdx (d.col - 1) := by
      have := hd.col
      unfold rowDelChar
      rw [if_neg (by omega), show ((d.col : Int) - 1).toNat = d.col - 1 by omega]
    refine h.write ?_ rfl rfl ?_ rfl
    · show e.rows.set d.line (rowDelChar d.current ((d.col : Int) - 1)) = _
      rw [h.rows, hdel]
    · show e.cx - 1 = _
      rw [h.cx]
      omega
  rw [if_neg hcol]
  by_cases hfirst : d.line = 0
  · rw [if_pos (by omega), if_pos hfirst]
    exact h
  rw [if_neg (by omega), if_neg (by omega), if_neg hfirst,
    show ((d.line : Int) - 1).toNat = d.line - 1 by omega, h.rows]
  -- At the start of a line it is joined to the one above, unless the two are too long.
  by_cases hfits : (lineAt d.lines (d.line - 1)).length + d.current.length < 4096
  · rw [if_neg (by omega), if_pos hfits]
    have hjoin : rowAppendString (lineAt d.lines (d.line - 1)) d.current =
        lineAt d.lines (d.line - 1) ++ d.current := by
      unfold rowAppendString
      rw [if_neg (by omega)]
    apply Shows.cursorUp (d := ⟨_, d.line, _⟩)
    · refine h.write ?_ rfl rfl rfl rfl
      show (e.rows.set _ _).eraseIdx d.line = _
      rw [h.rows, hjoin]
    · exact Nat.pos_of_ne_zero hfirst
  · rw [if_pos (by omega), if_neg hfits]
    exact h

theorem arrow_shows {a : Arrow} (hd : d.Ok) : Shows (e.moveCursor a) (d.key (.arrow a)) := by
  have hfilerow : e.filerow = d.line := h.filerow
  have hrows : (e.rows.length : Int) = d.lines.length := by rw [h.rows]
  have hcy := h.cy
  have hrowoff := h.rowoff
  have hsame : Shows e.clampCursor d := h.clampCursor_of_ok hd
  unfold Editor.moveCursor
  cases a with
  | up =>
    simp only [Doc.key]
    by_cases hline : 0 < d.line
    · rw [if_pos hline, if_pos]
      · exact (h.cursorUp hline).clampCursor
      · have := h.filerow
        omega
    · rw [if_neg hline, if_neg]
      · exact hsame
      · have := h.filerow
        omega
  | down =>
    simp only [Doc.key]
    by_cases hline : d.line + 1 < d.lines.length
    · rw [if_pos hline, if_pos (by omega)]
      exact h.cursorDown.clampCursor
    · rw [if_neg hline, if_neg (by omega)]
      exact hsame
  | left =>
    simp only [Doc.key]
    by_cases hcol : 0 < d.col
    · rw [if_pos hcol, if_pos (by rw [h.cx]; omega)]
      have hok : Doc.Ok { d with col := d.col - 1 } := by
        have := Doc.key_ok hd (.arrow .left)
        simpa only [Doc.key, if_pos hcol] using this
      have hshows : Shows { e with cx := e.cx - 1 } { d with col := d.col - 1 } := by
        refine h.write h.rows rfl rfl ?_ rfl
        show e.cx - 1 = _
        rw [h.cx]
        omega
      exact hshows.clampCursor_of_ok hok
    · -- At the start of a line, to the end of the one above.
      rw [if_neg hcol, if_neg (by rw [h.cx]; omega), hfilerow]
      by_cases hline : 0 < d.line
      · rw [if_pos hline, if_pos (by omega)]
        have hup := h.cursorUp hline
        have hok : Doc.Ok ⟨d.lines, d.line - 1, (lineAt d.lines (d.line - 1)).length⟩ :=
          ⟨hd.rows, hd.short, (Nat.sub_le _ _).trans hd.line, Nat.le_refl _⟩
        have hshows : Shows { e.cursorUp with cx := (e.cursorUp.row?.getD []).length }
            ⟨d.lines, d.line - 1, (lineAt d.lines (d.line - 1)).length⟩ := by
          refine hup.write hup.rows rfl rfl ?_ rfl
          rw [hup.row?_getD]
          rfl
        exact hshows.clampCursor_of_ok hok
      · rw [if_neg hline, if_neg (by omega)]
        exact hsame
  | right =>
    simp only [Doc.key]
    by_cases hline : d.line < d.lines.length
    swap
    · rw [h.row?_of_le hline, if_neg hline]
      exact hsame
    rw [h.row?_of_lt hline, if_pos hline]
    dsimp only
    rw [h.filecol_eq, hfilerow, hrows]
    by_cases hcol : d.col < d.current.length
    · rw [if_pos hcol, if_pos (by omega)]
      have hok : Doc.Ok { d with col := d.col + 1 } := ⟨hd.rows, hd.short, hd.line, hcol⟩
      have hshows : Shows { e with cx := e.cx + 1 } { d with col := d.col + 1 } := by
        refine h.write h.rows rfl rfl ?_ rfl
        rw [h.cx]
        rfl
      exact hshows.clampCursor_of_ok hok
    · have hend : d.col = d.current.length := Nat.le_antisymm hd.col (Nat.le_of_not_lt hcol)
      rw [if_neg hcol, if_neg (by omega)]
      by_cases hlast : d.line + 1 < d.lines.length
      · rw [if_pos hlast, if_pos (by omega)]
        have hdown := h.cursorDown
        have hok : Doc.Ok ⟨d.lines, d.line + 1, 0⟩ := ⟨hd.rows, hd.short, hlast.le, Nat.zero_le _⟩
        have hshows : Shows { e.cursorDown with cx := 0, coloff := 0 } ⟨d.lines, d.line + 1, 0⟩ :=
          ⟨hdown.rows, hdown.filerow, rfl, rfl, hdown.cy, hdown.rowoff⟩
        exact hshows.clampCursor_of_ok hok
      · rw [if_neg hlast, if_neg (by omega)]
        exact hsame

theorem refresh_shows (hview : InView e .refresh) : Shows e.scroll d := by
  obtain ⟨hrow, hrow', hcol, hcol'⟩ := hview
  have hcy := h.cy
  have hcx : 0 ≤ e.cx := by
    rw [h.cx]
    exact Int.natCast_nonneg _
  -- None of the four comparisons of `editor_scroll` applies.
  have hsame : e.scroll = e := by
    unfold Editor.scroll
    dsimp only
    rw [max_eq_left hcy.1, max_eq_left hcx, if_neg (not_lt.mpr hrow), if_neg (not_le.mpr hrow'),
      if_neg (not_lt.mpr hcol), if_neg (not_le.mpr hcol')]
  rw [hsame]
  exact h

theorem key_shows {k : Key} (hd : d.Ok) (hview : InView e k) : Shows (e.key k) (d.key k) := by
  cases k with
  | char c ok => exact char_shows h hd hview
  | enter ok => exact enter_shows h hd
  | backspace => exact backspace_shows h hd
  | arrow a => exact arrow_shows h hd
  | refresh => exact refresh_shows h hview

omit h

/-! ## Every sequence of keys -/

/-- A key that meets the condition. -/
def Step (e : Editor) (k : Key) (e' : Editor) : Prop := InView e k ∧ e.key k = e'

/-- An editor that has just opened a text. -/
def opened (rows : List Line) : Editor := { Editor.init with rows := rows }

/-- Along every sequence of keys the editor has the text and the cursor of the reference editor, and
the cursor is in the text. -/
theorem editor_refines_lines {keys : List Key} {e : Editor} (hrows : rows.length ≤ editorMaxRows)
    (hshort : ∀ row ∈ rows, row.length ≤ 4095) (hrun : Run Step (opened rows) keys e) :
    Shows e (keys.foldl Doc.key ⟨rows, 0, 0⟩) ∧ (keys.foldl Doc.key ⟨rows, 0, 0⟩).Ok := by
  have hscreen : (0 : Int) < screenrows := by decide
  have hstart : Shows (opened rows) ⟨rows, 0, 0⟩ :=
    ⟨rfl, rfl, rfl, rfl, ⟨Int.le_refl 0, hscreen⟩, Int.le_refl 0⟩
  have hok : Doc.Ok ⟨rows, 0, 0⟩ := ⟨hrows, hshort, Nat.zero_le _, Nat.zero_le _⟩
  -- The induction is on the keys, from any editor that shows any text.
  generalize opened rows = e₀ at hrun hstart
  generalize (⟨rows, 0, 0⟩ : Doc) = d at hstart hok ⊢
  induction hrun generalizing d with
  | nil e => exact ⟨hstart, hok⟩
  | cons hstep _ ih =>
    obtain ⟨hview, rfl⟩ := hstep
    exact ih _ (key_shows hstart hok hview) (Doc.key_ok hok _)

instance (e : Editor) : DecidablePred (InView e)
  | .char _ _ => inferInstanceAs (Decidable (_ < _))
  | .refresh => inferInstanceAs (Decidable (_ ∧ _ ∧ _ ∧ _))
  | .enter _ | .backspace | .arrow _ => instDecidableTrue

/-- Keys in order, as long as they meet the condition. -/
def runInView (e : Editor) (keys : List Key) : Option Editor :=
  keys.foldlM (fun e k => if InView e k then some (e.key k) else none) e

/-- The first of two lines is split, something is typed and deleted, and the lines are joined. -/
def splitAndJoin : List Key :=
  [.refresh, .arrow .right, .enter true, .refresh, .char 120 fun _ => true, .backspace, .backspace]

theorem editor_refines_two_lines :
    ∃ e, Run Step (opened [[97, 98], [99]]) splitAndJoin e ∧
      Shows e (splitAndJoin.foldl Doc.key ⟨[[97, 98], [99]], 0, 0⟩) ∧ e.rows = [[97, 98], [99]] ∧
      e.cx = 1 := by
  have heval : (runInView (opened [[97, 98], [99]]) splitAndJoin).any
      (fun e => e.rows = [[97, 98], [99]] ∧ e.cx = 1) = true := by
    decide +kernel
  obtain ⟨e, he, hstate⟩ := Option.any_eq_true _ _ |>.mp heval
  have hrun : Run Step (opened [[97, 98], [99]]) splitAndJoin e := by
    apply (Run.of_foldlM_some_guarded he).mono
    rintro e k e' ⟨hview, hkey⟩
    exact ⟨hview, Option.some.inj hkey⟩
  exact ⟨e, hrun, (editor_refines_lines (by decide) (by decide) hrun).1, of_decide_eq_true hstate⟩

/-- The Down key so many times, with the refresh that comes before each key. -/
def downs (n : Nat) : List Key := (List.replicate n [Key.refresh, .arrow .down]).flatten

/-- In a file of fifty lines the cursor is moved down to line 43, and the next refresh takes it back. -/
theorem refresh_moves_cursor :
    ((downs 43).foldl Editor.key (opened (List.replicate 50 []))).filerow = 43 ∧
      ((downs 43 ++ [Key.refresh]).foldl Editor.key (opened (List.replicate 50 []))).filerow = 42 ∧
      ((downs 43 ++ [Key.refresh]).foldl Doc.key ⟨List.replicate 50 [], 0, 0⟩).line = 43 := by
  decide +kernel

end TinyOS.Editor
