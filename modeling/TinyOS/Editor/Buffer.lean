import Mathlib.Data.List.Basic

/-!
# The text editor: its buffer

`editor.c` keeps a file as an array of rows, each in a page of its own. A row's rendering, which the
screen shows, is not modelled. Allocations are answered from outside.
-/

namespace TinyOS.Editor

def editorMaxRows : Nat := 256

/-- `sizeof(erow)`: two integers and two pointers. -/
def sizeofErow : Nat := 16

/-- `E.screenrows`. -/
def screenrows : Int := 22

/-- `E.screencols`. -/
def screencols : Int := 80

/-- The text of a row. -/
abbrev Line := List UInt8

/-- `EditorState`. -/
structure Editor where
  /-- The first `numrows` rows. -/
  rows : List Line
  cx : Int
  cy : Int
  rowoff : Int
  coloff : Int
  /-- `NULL` is `none`. -/
  filename : Option (List UInt8)
  dirty : Bool
  statusmsg : String
  deriving DecidableEq

namespace Editor

/-- The state after `editor_init`. -/
def init : Editor := ⟨[], 0, 0, 0, 0, none, false, ""⟩

/-- `editor_set_status_message`. -/
def setStatusMessage (e : Editor) (msg : String) : Editor := { e with statusmsg := msg }

/-- `editor_insert_row`. `ok` says whether both pages of the row are allocated. -/
def insertRow (e : Editor) (i : Nat) (s : Line) (ok : Bool) : Editor :=
  if e.rows.length < i ∨ editorMaxRows ≤ e.rows.length then e
  else if 4096 / sizeofErow ≤ e.rows.length then e
  else if !ok then e.setStatusMessage "Out of memory"
  else { e with rows := e.rows.insertIdx i (s.take 4095), dirty := true }

/-- The row with this number, empty if there is none. -/
def lineAt (rows : List Line) (i : Nat) : Line := rows.getD i []

/-- The row of the file in which the cursor is. -/
def filerow (e : Editor) : Int := e.cy + e.rowoff

/-- The column of the file in which the cursor is. -/
def filecol (e : Editor) : Int := e.cx + e.coloff

/-- `E.rows[filerow]`, if the cursor is in a row. -/
def row? (e : Editor) : Option Line :=
  if e.filerow < e.rows.length then some (lineAt e.rows e.filerow.toNat) else none

/-- Write a row. The functions below set `E.dirty` only if they change it. -/
def setRow (e : Editor) (i : Nat) (row : Line) : Editor :=
  { e with rows := e.rows.set i row, dirty := e.dirty || decide (row ≠ lineAt e.rows i) }

/-- `editor_row_insert_char`. -/
def rowInsertChar (row : Line) (i : Int) (c : UInt8) : Line :=
  if 4095 ≤ row.length then row
  else row.insertIdx (if i < 0 ∨ (row.length : Int) < i then row.length else i.toNat) c

/-- `editor_row_del_char`. -/
def rowDelChar (row : Line) (i : Int) : Line :=
  if i < 0 ∨ (row.length : Int) ≤ i then row else row.eraseIdx i.toNat

/-- `editor_row_append_string`. -/
def rowAppendString (row s : Line) : Line := if 4096 ≤ row.length + s.length then row else row ++ s

/-- The loop of `editor_insert_char` that adds rows until the cursor is in one, `n` times at most. -/
def padRows (ok : Nat → Bool) : Nat → Editor → Editor × Bool
  | 0, e => (e, true)
  | n + 1, e =>
    let e' := e.insertRow e.rows.length [] (ok n)
    if e'.rows.length = e.rows.length then (e', false) else padRows ok n e'

/-- `editor_insert_char`. The cursor moves even when the row is full. -/
def insertChar (e : Editor) (c : UInt8) (ok : Nat → Bool) : Editor :=
  match padRows ok (e.filerow + 1 - e.rows.length).toNat e with
  | (e, false) => e
  | (e, true) =>
    { e.setRow e.filerow.toNat (rowInsertChar (lineAt e.rows e.filerow.toNat) e.filecol c) with
      cx := e.cx + 1 }

/-- The end of `editor_insert_newline`. -/
def cursorToNextLine (e : Editor) : Editor :=
  if screenrows ≤ e.cy + 1 then
    { e with
      rowoff := e.rowoff + (e.cy + 1 - (screenrows - 1)), cy := screenrows - 1, cx := 0, coloff := 0 }
  else { e with cy := e.cy + 1, cx := 0, coloff := 0 }

/-- `editor_insert_newline`. -/
def insertNewline (e : Editor) (ok : Bool) : Editor :=
  match e.row? with
  | none =>
    let e' := e.insertRow e.rows.length [] ok
    if e'.rows.length = e.rows.length then e' else e'.cursorToNextLine
  | some row =>
    let split := max (min e.filecol row.length) 0
    let e' := e.insertRow (e.filerow + 1).toNat (row.drop split.toNat) ok
    if e'.rows.length = e.rows.length then e'
    else (e'.setRow e.filerow.toNat (row.take split.toNat)).cursorToNextLine

/-- The cursor goes to the row above. -/
def cursorUp (e : Editor) : Editor :=
  if 0 < e.cy then { e with cy := e.cy - 1 } else { e with rowoff := e.rowoff - 1 }

/-- The cursor goes to the row below. -/
def cursorDown (e : Editor) : Editor :=
  if e.cy < screenrows - 1 then { e with cy := e.cy + 1 } else { e with rowoff := e.rowoff + 1 }

/-- `editor_del_char`. -/
def delChar (e : Editor) : Editor :=
  match e.row? with
  | none => e
  | some row =>
    if e.filecol ≤ 0 ∧ e.filerow = 0 then e
    else if 0 < e.filecol then
      { e.setRow e.filerow.toNat (rowDelChar row (e.filecol - 1)) with cx := e.cx - 1 }
    else
      let above := lineAt e.rows (e.filerow - 1).toNat
      if 4096 ≤ above.length + row.length then e
      else
        let joined := e.setRow (e.filerow - 1).toNat (rowAppendString above row)
        { joined with
          rows := joined.rows.eraseIdx e.filerow.toNat, dirty := true, cx := above.length }.cursorUp

/-- The arrow keys. -/
inductive Arrow where
  | up
  | down
  | left
  | right
  deriving DecidableEq

/-- The last lines of `editor_move_cursor`. -/
def clampCursor (e : Editor) : Editor :=
  let rowlen : Int := (e.row?.getD []).length
  if rowlen < e.filecol then { e with cx := max (rowlen - e.coloff) 0 } else e

/-- `editor_move_cursor`. -/
def moveCursor (e : Editor) (arrow : Arrow) : Editor :=
  let moved :=
    match arrow with
    | .up => if 0 < e.cy ∨ 0 < e.rowoff then e.cursorUp else e
    | .down => if e.filerow < (e.rows.length : Int) - 1 then e.cursorDown else e
    | .left =>
      if 0 < e.cx then { e with cx := e.cx - 1 }
      else if 0 < e.filerow then
        let e := e.cursorUp
        { e with cx := (e.row?.getD []).length }
      else e
    | .right =>
      match e.row? with
      | none => e
      | some row =>
        if e.filecol < row.length then { e with cx := e.cx + 1 }
        else if e.filecol = row.length ∧ e.filerow < (e.rows.length : Int) - 1 then
          { e.cursorDown with cx := 0, coloff := 0 }
        else e
  moved.clampCursor

/-- `editor_scroll`, at each refresh of the screen. It takes the cursor's place on the screen for its
place in the file. -/
def scroll (e : Editor) : Editor :=
  let e := { e with cy := max e.cy 0, cx := max e.cx 0 }
  let rowoff := if e.cy < e.rowoff then e.cy else e.rowoff
  let rowoff := if rowoff + screenrows ≤ e.cy then e.cy - screenrows + 1 else rowoff
  let coloff := if e.cx < e.coloff then e.cx else e.coloff
  let coloff := if coloff + screencols ≤ e.cx then e.cx - screencols + 1 else coloff
  { e with rowoff := rowoff, coloff := coloff }

end Editor

/-- A key that edits or moves, or a refresh of the screen. Whether rows can be allocated is part of
what happens. -/
inductive Key where
  | char (c : UInt8) (ok : Nat → Bool)
  | enter (ok : Bool)
  | backspace
  | arrow (arrow : Editor.Arrow)
  | refresh

/-- `editor_process_keypress` in normal mode, or `editor_refresh_screen`. -/
def Editor.key (e : Editor) : Key → Editor
  | .char c ok => e.insertChar c ok
  | .enter ok => e.insertNewline ok
  | .backspace => e.delChar
  | .arrow a => e.moveCursor a
  | .refresh => e.scroll

end TinyOS.Editor
