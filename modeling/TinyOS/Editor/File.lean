import TinyOS.Editor.Buffer
import Mathlib.Algebra.Ring.Nat
import TinyOS.Lib.Tokens

/-!
# The text editor: opening and saving a file

`editor_open` splits a file at its newlines, the last line included even if it is empty;
`editor_save` writes every row with a newline behind it. So a file that is opened and saved has one
more newline than before.

* `load_ok`: what the loop of `editor_open` has loaded when it gets to the end.
* `file_is_kept_iff`: no file that the editor can hold is kept, and one that it cannot hold is left
  alone.
-/

namespace TinyOS.Editor

open Lib List

def fileBufferSize : Nat := 64 * 1024

/-- `'\n'`. -/
def newline : UInt8 := 10

/-- `'\r'`. -/
def carriageReturn : UInt8 := 13

/-- What the calls of `editor_open` and `editor_save` find. -/
structure Env where
  /-- The page for the name is allocated. -/
  nameOk : Bool
  /-- The pages for the row with this number are. -/
  rowOk : Nat → Bool
  /-- `ramfs_open` for reading and `ramfs_read` succeed. -/
  opens : Bool
  reads : Bool
  /-- `vfs_protected_modify_allowed`. -/
  allowed : Bool
  /-- `ramfs_open` for writing and `ramfs_truncate` succeed. -/
  opensWrite : Bool
  truncates : Bool
  /-- How many bytes `ramfs_write` finds room for. -/
  room : Nat

namespace Editor

/-- `editor_open_refuse`. -/
def openRefuse (e : Editor) (msg : String) : Editor :=
  { e with rows := [], dirty := false, filename := none }.setStatusMessage msg

/-- A line without the carriage return at its end. -/
def stripCr (line : Line) : Line :=
  if line.getLast? = some carriageReturn then line.dropLast else line

/-- Make a row of a line, or refuse the file. -/
def loadRow (env : Env) (e : Editor) (line : Line) : Except String Editor :=
  let line := stripCr line
  if 4095 < line.length then .error "Error: Line too long (max 4095)"
  else
    let e' := e.insertRow e.rows.length line (env.rowOk e.rows.length)
    if e'.rows.length = e.rows.length then .error "Error: Too many lines or out of memory"
    else .ok e'

/-- The loop of `editor_open`, with the bytes to come and the line so far. -/
def load (env : Env) (e : Editor) : List UInt8 → Line → Except String Editor
  | [], line => loadRow env e line
  | b :: rest, line =>
    if b = newline then
      match loadRow env e line with
      | .error msg => .error msg
      | .ok e => load env e rest []
    else load env e rest (line ++ [b])

/-- `editor_open`, for a file with the given contents, or none. -/
def editorOpen (env : Env) (e : Editor) (filename : List UInt8) (file : Option (List UInt8)) : Editor :=
  if !env.nameOk then { e with filename := none }
  else
    let e := { e with filename := some (filename.take 4095) }
    match file with
    | none => e.setStatusMessage "New file"
    | some bytes =>
      if fileBufferSize ≤ bytes.length then e.openRefuse "Error: File too large (max 64KB)"
      else if !env.opens then e.openRefuse "Error: Cannot open file"
      else if !env.reads then e.openRefuse "Error reading file"
      else
        match load env e (bytes.take (fileBufferSize - 1)) [] with
        | .error msg => e.openRefuse msg
        | .ok e => { e with dirty := false }.setStatusMessage "Loaded file"

/-- The text that `editor_save` builds. -/
def text (e : Editor) : List UInt8 := e.rows.flatMap fun row => row ++ [newline]

/-- The length that `editor_save` counts first. -/
def totalLen (e : Editor) : Nat := (e.rows.map fun row => row.length + 1).sum

/-- `editor_save`: the value returned, the editor, and the contents of the file. -/
def editorSave (env : Env) (e : Editor) (file : List UInt8) : Int × Editor × List UInt8 :=
  if e.filename.isNone then (-1, e.setStatusMessage "No filename", file)
  else if fileBufferSize ≤ e.totalLen then (-1, e.setStatusMessage "File too large", file)
  else if !env.allowed then
    (-1, e.setStatusMessage "Permission denied (protected system path)", file)
  else if !env.opensWrite then (-1, e.setStatusMessage "Error opening file for write", file)
  else if !env.truncates then (-1, e.setStatusMessage "Error writing file", file)
  else
    let written := e.text.take env.room
    if written.length ≠ e.text.length then (-1, e.setStatusMessage "Error writing file", written)
    else (0, { e with dirty := false }.setStatusMessage "File saved", written)

end Editor

open Editor

/-- Open a file that exists, and save it. -/
def openAndSave (env : Env) (filename file : List UInt8) : Int × Editor × List UInt8 :=
  editorSave env (editorOpen env init filename (some file)) file

/-! ## What the editor can hold -/

/-- The rows of a file. -/
def rowsOf (file : List UInt8) : List Line := (List.splitOn newline file).map stripCr

/-- The file is within the limits of the editor. -/
structure Fits (file : List UInt8) : Prop where
  size : file.length < fileBufferSize
  rows : (rowsOf file).length ≤ editorMaxRows
  lines : ∀ line ∈ rowsOf file, line.length ≤ 4095
  saved : ((rowsOf file).map fun row => row.length + 1).sum < fileBufferSize

/-- Nothing fails. -/
structure Env.Good (env : Env) (file : List UInt8) : Prop where
  nameOk : env.nameOk = true
  rowOk : ∀ i, env.rowOk i = true
  opens : env.opens = true
  reads : env.reads = true
  allowed : env.allowed = true
  opensWrite : env.opensWrite = true
  truncates : env.truncates = true
  room : file.length < env.room

/-! ## Loading -/

variable {env : Env} {e e' : Editor}

theorem loadRow_ok {line : Line} (h : loadRow env e line = .ok e') :
    (stripCr line).length ≤ 4095 ∧ e'.rows = e.rows ++ [stripCr line] ∧
      e'.rows.length ≤ editorMaxRows ∧ e'.filename = e.filename := by
  unfold loadRow at h
  dsimp only at h
  split at h
  · cases h
  rename_i hlong
  split at h
  · cases h
  rename_i hrow
  cases h
  unfold insertRow at hrow ⊢
  split
  · rename_i hfull
    rw [if_pos hfull] at hrow
    exact absurd rfl hrow
  rename_i hfull
  rw [if_neg hfull] at hrow
  split
  · rename_i hpage
    rw [if_pos hpage] at hrow
    exact absurd rfl hrow
  rename_i hpage
  rw [if_neg hpage] at hrow
  split
  · rename_i halloc
    rw [if_pos halloc] at hrow
    exact absurd rfl hrow
  have hshort := Nat.le_of_not_lt hlong
  rw [take_of_length_le hshort]
  refine ⟨hshort, insertIdx_length_self, ?_, rfl⟩
  rw [length_insertIdx, if_pos (Nat.le_refl _)]
  exact Nat.lt_of_not_le fun hle => hfull (.inr hle)

/-- A row is made when there is room and memory. -/
theorem loadRow_returns {line : Line} (hline : (stripCr line).length ≤ 4095)
    (hrows : e.rows.length < editorMaxRows) (hok : ∀ i, env.rowOk i = true) :
    ∃ e', loadRow env e line = .ok e' := by
  have hinsert : e.insertRow e.rows.length (stripCr line) (env.rowOk e.rows.length) =
      { e with rows := e.rows ++ [stripCr line], dirty := true } := by
    unfold insertRow
    rw [if_neg (by omega), if_neg (by simpa [sizeofErow, editorMaxRows] using hrows), hok,
      if_neg (by decide), take_of_length_le hline, insertIdx_length_self]
  refine ⟨{ e with rows := e.rows ++ [stripCr line], dirty := true }, ?_⟩
  unfold loadRow
  rw [if_neg (Nat.not_lt.mpr hline), hinsert, if_neg]
  simp

/-- The rows that are made of a line and what follows. -/
def rowsFrom (line : Line) (rest : List UInt8) : List Line :=
  ((List.splitOn newline rest).modifyHead (line ++ ·)).map stripCr

theorem modifyHead_nil_append (lines : List Line) :
    (lines.modifyHead fun line => [] ++ line) = lines := by
  cases lines <;> rfl

theorem rowsFrom_nil (line : Line) : rowsFrom line [] = [stripCr line] := by
  simp [rowsFrom]

theorem rowsFrom_newline (line : Line) (rest : List UInt8) :
    rowsFrom line (newline :: rest) = stripCr line :: rowsFrom [] rest := by
  rw [rowsFrom, rowsFrom, modifyHead_nil_append]
  simp [List.splitOn, splitOnP_cons_eq_if_modifyHead]

theorem rowsFrom_cons {b : UInt8} (hb : b ≠ newline) (line : Line) (rest : List UInt8) :
    rowsFrom line (b :: rest) = rowsFrom (line ++ [b]) rest := by
  unfold rowsFrom List.splitOn
  rw [splitOnP_cons_eq_if_modifyHead, if_neg (by simpa using hb), modifyHead_modifyHead]
  congr 2
  funext l
  simp

theorem load_ok {rest : List UInt8} {line : Line} (h : load env e rest line = .ok e') :
    e'.rows = e.rows ++ rowsFrom line rest ∧ (∀ row ∈ rowsFrom line rest, row.length ≤ 4095) ∧
      e'.rows.length ≤ editorMaxRows ∧ e'.filename = e.filename := by
  induction rest generalizing e line with
  | nil =>
    obtain ⟨hline, hrows, hlength, hname⟩ := loadRow_ok h
    rw [rowsFrom_nil]
    exact ⟨hrows, by simpa using hline, hlength, hname⟩
  | cons b rest ih =>
    unfold load at h
    split at h
    · rename_i hb
      split at h
      · cases h
      rename_i e₁ hrow
      obtain ⟨hline, hrows, _, hname⟩ := loadRow_ok hrow
      obtain ⟨hrows', hlines, hlength, hname'⟩ := ih h
      rw [hb, rowsFrom_newline]
      refine ⟨?_, ?_, hlength, hname'.trans hname⟩
      · rw [hrows', hrows, append_assoc, singleton_append]
      · intro row hrow
        rcases mem_cons.mp hrow with rfl | hrow
        · exact hline
        · exact hlines row hrow
    · rename_i hb
      rw [rowsFrom_cons hb]
      exact ih h

theorem load_returns {rest : List UInt8} {line : Line}
    (hlines : ∀ row ∈ rowsFrom line rest, row.length ≤ 4095)
    (hrows : e.rows.length + (rowsFrom line rest).length ≤ editorMaxRows)
    (hok : ∀ i, env.rowOk i = true) : ∃ e', load env e rest line = .ok e' := by
  induction rest generalizing e line with
  | nil =>
    rw [rowsFrom_nil] at hlines hrows
    exact loadRow_returns (hlines _ (mem_singleton_self _)) hrows hok
  | cons b rest ih =>
    unfold load
    by_cases hb : b = newline
    · rw [hb, rowsFrom_newline] at hlines hrows
      rw [if_pos hb]
      rw [length_cons] at hrows
      obtain ⟨e₁, hrow⟩ : ∃ e₁, loadRow env e line = .ok e₁ :=
        loadRow_returns (hlines _ mem_cons_self) (by omega) hok
      rw [hrow]
      have hadded : e₁.rows.length = e.rows.length + 1 := by
        rw [(loadRow_ok hrow).2.1, length_append, length_singleton]
      refine ih (fun row hmem => hlines row (mem_cons_of_mem _ hmem)) ?_
      omega
    · rw [rowsFrom_cons hb] at hlines hrows
      rw [if_neg hb]
      exact ih hlines hrows

theorem rowsFrom_eq (file : List UInt8) : rowsFrom [] file = rowsOf file := by
  rw [rowsFrom, modifyHead_nil_append, rowsOf]

/-! ## Opening -/

variable {file filename : List UInt8}

/-- A file that was opened and has not lost its name was loaded whole. -/
theorem editorOpen_loaded (h : (editorOpen env init filename (some file)).filename.isSome = true) :
    file.length < fileBufferSize ∧ (editorOpen env init filename (some file)).rows = rowsOf file ∧
      (rowsOf file).length ≤ editorMaxRows ∧ ∀ row ∈ rowsOf file, row.length ≤ 4095 := by
  unfold editorOpen at h ⊢
  split at h
  · cases h
  rename_i hname
  rw [if_neg hname]
  dsimp only at h ⊢
  split at h
  · cases h
  rename_i hsize
  rw [if_neg hsize]
  have hsize := Nat.lt_of_not_le hsize
  split at h
  · cases h
  rename_i hopens
  rw [if_neg hopens]
  split at h
  · cases h
  rename_i hreads
  rw [if_neg hreads]
  split at h
  · cases h
  rename_i e₁ hload
  rw [take_of_length_le (Nat.le_sub_one_of_lt hsize)] at hload
  obtain ⟨hrows, hlines, hlength, _⟩ := load_ok hload
  rw [rowsFrom_eq] at hrows hlines
  have hrows : e₁.rows = rowsOf file := hrows
  exact ⟨hsize, hrows, hrows ▸ hlength, hlines⟩

theorem editorOpen_returns (henv : env.Good file) (hfits : Fits file) :
    (editorOpen env init filename (some file)).filename.isSome = true := by
  have hload : ∃ e', load env { init with filename := some (filename.take 4095) } file [] = .ok e' := by
    refine load_returns ?_ ?_ henv.rowOk
    · rw [rowsFrom_eq]
      exact hfits.lines
    · rw [rowsFrom_eq]
      show 0 + (rowsOf file).length ≤ editorMaxRows
      rw [Nat.zero_add]
      exact hfits.rows
  obtain ⟨e', hload⟩ := hload
  have hname := (load_ok hload).2.2.2
  unfold editorOpen
  rw [if_neg (by rw [henv.nameOk]; decide)]
  dsimp only
  rw [if_neg (Nat.not_le.mpr hfits.size), if_neg (by rw [henv.opens]; decide),
    if_neg (by rw [henv.reads]; decide), take_of_length_le (Nat.le_sub_one_of_lt hfits.size), hload]
  show e'.filename.isSome = true
  rw [hname]
  rfl

/-! ## Saving -/

theorem stripCr_of_not_mem {line : Line} (h : carriageReturn ∉ line) : stripCr line = line := by
  unfold stripCr
  rw [if_neg]
  intro hlast
  exact h (mem_of_getLast? hlast)

/-- No line of a file without carriage returns has one. -/
theorem rowsOf_eq (h : carriageReturn ∉ file) : rowsOf file = List.splitOn newline file := by
  unfold rowsOf
  rw [map_congr_left fun line hline => stripCr_of_not_mem fun hcr => h ((splitOn_piece hline).2 _ hcr),
    map_id']

/-- Whatever fails, a file that exceeds a limit is not touched, and saving it is refused. -/
theorem openAndSave_refused (h : ¬Fits file) :
    (openAndSave env filename file).1 = -1 ∧ (openAndSave env filename file).2.2 = file := by
  unfold openAndSave editorSave
  split
  · exact ⟨rfl, rfl⟩
  rename_i hname
  rw [Option.isNone_iff_eq_none, ← ne_eq, Option.ne_none_iff_isSome] at hname
  obtain ⟨hsize, hrows, hlength, hlines⟩ := editorOpen_loaded hname
  have hlarge : fileBufferSize ≤ (editorOpen env init filename (some file)).totalLen := by
    rw [totalLen, hrows]
    by_contra hsmall
    exact h ⟨hsize, hlength, hlines, Nat.lt_of_not_le hsmall⟩
  rw [if_pos hlarge]
  exact ⟨rfl, rfl⟩

/-- A file that fits is saved with a newline more. -/
theorem openAndSave_appends (henv : env.Good file) (hfits : Fits file)
    (hcr : carriageReturn ∉ file) : (openAndSave env filename file).2.2 = file ++ [newline] := by
  unfold openAndSave
  have hname : (editorOpen env init filename (some file)).filename.isSome = true :=
    editorOpen_returns henv hfits
  obtain ⟨_, hrows, _, _⟩ := editorOpen_loaded hname
  generalize editorOpen env init filename (some file) = e at hname hrows ⊢
  have htext : e.text = file ++ [newline] := by
    obtain ⟨row, rows, hsplit⟩ := exists_cons_of_ne_nil (splitOn_ne_nil newline file)
    rw [text, hrows, rowsOf_eq hcr, hsplit, flatMap_pieces, ← hsplit, intercalate_splitOn]
  have hwhole : e.text.take env.room = e.text := by
    apply take_of_length_le
    rw [htext, length_append, length_singleton]
    exact henv.room
  have hsmall : ¬fileBufferSize ≤ e.totalLen := by
    rw [totalLen, hrows]
    exact Nat.not_le.mpr hfits.saved
  unfold editorSave
  rw [if_neg (by simp [Option.isSome_iff_ne_none.mp hname]), if_neg hsmall,
      if_neg (by rw [henv.allowed]; decide),
    if_neg (by rw [henv.opensWrite]; decide), if_neg (by rw [henv.truncates]; decide)]
  rw [hwhole, if_neg (not_not.mpr rfl)]
  exact htext

/-- The file is kept by opening and saving it, or not touched if a limit is exceeded. -/
def FileIsKept (filename file : List UInt8) : Prop :=
  (Fits file → carriageReturn ∉ file → ∀ env : Env, env.Good file →
    (openAndSave env filename file).2.2 = file) ∧
  (¬Fits file → ∀ env : Env,
    (openAndSave env filename file).1 = -1 ∧ (openAndSave env filename file).2.2 = file)

/-- An environment in which nothing fails. -/
def goodEnv (room : Nat) : Env := ⟨true, fun _ => true, true, true, true, true, true, room⟩

/-- No file without carriage returns that fits is kept. -/
theorem file_is_kept_iff (filename file : List UInt8) :
    FileIsKept filename file ↔ ¬(Fits file ∧ carriageReturn ∉ file) := by
  constructor
  · rintro ⟨hkept, _⟩ ⟨hfits, hcr⟩
    have henv : (goodEnv (file.length + 1)).Good file :=
      ⟨rfl, fun _ => rfl, rfl, rfl, rfl, rfl, rfl, Nat.lt_succ_self _⟩
    have happends : (openAndSave (goodEnv (file.length + 1)) filename file).2.2 = file ++ [newline] :=
      openAndSave_appends henv hfits hcr
    rw [hkept hfits hcr _ henv] at happends
    have hlength := congrArg List.length happends
    rw [length_append, length_singleton] at hlength
    omega
  · intro h
    refine ⟨fun hfits hcr => absurd ⟨hfits, hcr⟩ h, ?_⟩
    intro hfits env
    exact openAndSave_refused hfits

/-- `"a\n"` becomes `"a\n\n"`. -/
theorem saved_file_has_one_more_newline :
    (openAndSave (goodEnv 100) [102] [97, newline]).1 = 0 ∧
      (openAndSave (goodEnv 100) [102] [97, newline]).2.2 = [97, newline, newline] := by
  decide +kernel

end TinyOS.Editor
