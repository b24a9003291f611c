import TinyOS.Fat32.Placement

/-!
# FAT32: listing a directory against looking its names up

`fat32_list_dir_cb` turns the eleven bytes of an entry into text and
`find_dir_entry` turns text into eleven bytes. Without I/O errors both walk the
same slots in the same order (`slots`), so they agree exactly when every entry
the listing shows survives the way to text and back and no volume label does
(`listing_agrees_iff`). Which eleven bytes survive is a matter of the bytes
(`roundTrips_iff`). The links `"."` and `".."` do not: a subdirectory lists both,
and neither can be found.
-/

namespace TinyOS.Fat32

open Lib List

/-! ## `fat32_list_dir_cb` -/

/-- `FAT32_ATTR_VOLUME_ID`. -/
def attrVolumeId : UInt8 := 0x08

/-- `attributes & FAT32_ATTR_VOLUME_ID`. -/
def isVolumeId (b : Buf) (i : Nat) : Bool := entAttr b i &&& attrVolumeId ≠ 0

/-- The array `formatted`, up to its first NUL. -/
def formatted (name : Str) : Str :=
  let base := (name.take 8).takeWhile (· ≠ space)
  let ext := (name.drop 8).takeWhile (· ≠ space)
  (if name.getD 8 0 ≠ space then base ++ dot :: ext else base).takeWhile (· ≠ 0)

/-- One call of `emit`, with the slot it is about, which the callback is not told. -/
structure Listed where
  name : Str
  fileSize : Nat
  isDir : Bool
  slot : Nat × Nat

def listedAt (b : Buf) (cluster i : Nat) : Listed :=
  ⟨formatted (entName b i), entSize b i, entIsDir b i, (cluster, i)⟩

/-- The entry loop: the calls of `emit`, and whether the directory goes on. -/
def listCluster (b : Buf) (cluster : Nat) : Nat → Nat → List Listed × Bool
  | 0, _ => ([], true)
  | n + 1, i =>
    if entMark b i = endMark then ([], false)
    else if entMark b i = deletedMark then listCluster b cluster n (i + 1)
    else if isLfnEntry b i then listCluster b cluster n (i + 1)
    else if isVolumeId b i then listCluster b cluster n (i + 1)
    else
      let rest := listCluster b cluster n (i + 1)
      (listedAt b cluster i :: rest.1, rest.2)

variable (v : Volume)

/-- The cluster loop. What was emitted before an error stays emitted. -/
def listDirLoop : Nat → Nat → FatM (Int × List Listed)
  | fuel, cluster => do
    if cluster < fatEoc then
      match fuel with
      | 0 => pure (-1, [])
      | n + 1 =>
        match ← readCluster v cluster with
        | none => pure (-1, [])
        | some b =>
          let here := listCluster b cluster v.entriesPerCluster 0
          if here.2 then do
            let next ← readFatEntry v cluster
            let rest ← listDirLoop n next
            pure (rest.1, here.1 ++ rest.2)
          else pure (0, here.1)
    else pure (0, [])

/-- `fat32_list_dir_cb` once the path is resolved to the cluster of a directory. -/
def listDir (cluster : Nat) : FatM (Int × List Listed) := listDirLoop v v.chainLimit cluster

/-! ## The slots both loops walk -/

/-- The same state with no I/O error to come. -/
def State.calm (s : State) : State := { s with faults := [] }

/-- The indices that are neither deleted nor part of a long name, and whether the
directory goes on behind them. -/
def slotsIn (b : Buf) : Nat → Nat → List Nat × Bool
  | 0, _ => ([], true)
  | n + 1, i =>
    if entMark b i = endMark then ([], false)
    else if entMark b i = deletedMark then slotsIn b n (i + 1)
    else if isLfnEntry b i then slotsIn b n (i + 1)
    else
      let rest := slotsIn b n (i + 1)
      (i :: rest.1, rest.2)

variable (s : State)

/-- The slots in use in the chain from `cluster` on. -/
def slots : Nat → Nat → List (Nat × Nat)
  | 0, _ => []
  | n + 1, cluster =>
    if cluster < fatEoc then
      match (readCluster v cluster s.calm).1 with
      | none => []
      | some b =>
        let here := slotsIn b v.entriesPerCluster 0
        here.1.map (cluster, ·) ++
          if here.2 then slots n (readFatEntry v cluster s.calm).1 else []
    else []

/-- The contents of a cluster. -/
def contents (cluster : Nat) : Buf := (readCluster v cluster s.calm).1.getD zeroBuf

/-- The eleven bytes on disk. -/
def rawName (x : Nat × Nat) : Str := entName (contents v s x.1) x.2

/-- The slot holds a volume label. -/
def isLabel (x : Nat × Nat) : Bool := isVolumeId (contents v s x.1) x.2

theorem scanCluster_eq (b : Buf) (name : Str) (n i : Nat) :
    scanCluster b name n i =
      match (slotsIn b n i).1.find? (fun j => entName b j = name) with
      | some j => .found j
      | none => if (slotsIn b n i).2 then .exhausted else .endOfDir := by
  induction n generalizing i with
  | zero => rfl
  | succ n ih =>
    unfold scanCluster slotsIn
    split
    · rfl
    split
    · exact ih _
    split
    · exact ih _
    by_cases hname : entName b i = name
    · simp only [hname, if_true, find?_cons, decide_true]
    · simp only [hname, if_false, find?_cons, decide_false]
      exact ih _

theorem listCluster_eq (b : Buf) (cluster n i : Nat) :
    listCluster b cluster n i =
      (((slotsIn b n i).1.filter (fun j => !isVolumeId b j)).map (listedAt b cluster),
        (slotsIn b n i).2) := by
  induction n generalizing i with
  | zero => rfl
  | succ n ih =>
    unfold listCluster slotsIn
    split
    · rfl
    split
    · exact ih _
    split
    · exact ih _
    by_cases hlabel : isVolumeId b i
    · simp only [hlabel, if_true, filter_cons, Bool.not_true, Bool.false_eq_true, if_false]
      exact ih _
    · simp only [hlabel, Bool.false_eq_true, if_false, filter_cons, Bool.not_false, if_true,
        map_cons, ih]

variable {v s}

theorem readCluster_calm (cluster : Nat) : (readCluster v cluster s.calm).2 = s.calm := by
  unfold readCluster
  split
  · exact ideReadSectors_state
  · rfl

theorem readFatEntry_calm (cluster : Nat) : (readFatEntry v cluster s.calm).2 = s.calm := by
  unfold readFatEntry
  split
  · rw [bind_run]
    cases (ideReadSectors (v.fatSector cluster) 1 s.calm).1 <;>
      exact @ideReadSectors_state (v.fatSector cluster) 1 s.calm
  · rfl

/-- Looking a name up takes the first slot with its eleven bytes. -/
theorem findDirEntryLoop_calm (name : Str) (n cluster : Nat) :
    findDirEntryLoop v name n cluster s.calm =
      (((slots v s n cluster).find? (fun x => rawName v s x = name)).map
        (fun x => (direntAt (contents v s x.1) x.2, x)), s.calm) := by
  induction n generalizing cluster with
  | zero =>
    unfold findDirEntryLoop
    split <;> rfl
  | succ n ih =>
    unfold findDirEntryLoop slots
    by_cases hchain : cluster < fatEoc
    · simp only [if_pos hchain, bind_run, readCluster_calm]
      cases hread : (readCluster v cluster s.calm).1 with
      | none => rfl
      | some b =>
        have hb : contents v s cluster = b := by rw [contents, hread, Option.getD_some]
        simp only [scanCluster_eq, find?_append, find?_map, Function.comp_def, rawName,
          hb]
        cases hfind : (slotsIn b v.entriesPerCluster 0).1.find? (fun j => entName b j = name) with
        | some j =>
          simp only [Option.map_some, Option.some_or, hb]
          rfl
        | none =>
          cases hmore : (slotsIn b v.entriesPerCluster 0).2 with
          | false => rfl
          | true =>
            simp only [if_true, bind_run, readFatEntry_calm, Option.map_none, Option.none_or]
            exact ih _
    · simp only [if_neg hchain]
      rfl

/-- The listing shows the slots that hold no volume label. -/
theorem listDirLoop_calm (n cluster : Nat) :
    (listDirLoop v n cluster s.calm).1.2 =
      ((slots v s n cluster).filter (fun x => !isLabel v s x)).map
        (fun x => listedAt (contents v s x.1) x.1 x.2) := by
  induction n generalizing cluster with
  | zero =>
    unfold listDirLoop
    split <;> rfl
  | succ n ih =>
    unfold listDirLoop slots
    by_cases hchain : cluster < fatEoc
    · simp only [if_pos hchain, bind_run, readCluster_calm]
      cases hread : (readCluster v cluster s.calm).1 with
      | none => rfl
      | some b =>
        have hb : contents v s cluster = b := by rw [contents, hread, Option.getD_some]
        simp only [listCluster_eq, filter_append, map_append, filter_map,
          map_map, Function.comp_def, isLabel, hb]
        cases hmore : (slotsIn b v.entriesPerCluster 0).2 with
        | false => exact (append_nil _).symm
        | true =>
          simp only [if_true, bind_run, readFatEntry_calm]
          exact congrArg _ (ih _)
    · simp only [if_neg hchain]
      rfl

/-! ## Agreement -/

variable (v s)

/-- The listing of `dir` shows the slot `x` under the name `p`. -/
def Lists (dir : Nat) (p : Str) (x : Nat × Nat) : Prop :=
  ∃ e ∈ (listDir v dir s.calm).1.2, e.name = p ∧ e.slot = x

/-- `find_dir_entry` finds the slot `x` under the name `p`. -/
def Finds (dir : Nat) (p : Str) (x : Nat × Nat) : Prop :=
  ∃ e, (findDirEntry v dir p s.calm).1 = some (e, x)

/-- Whatever is listed under a name is found under it, itself or a listed entry
with the same eleven bytes, and what is found under its own printed name is
listed under it. -/
def Agrees (dir : Nat) : Prop :=
  (∀ p x, Lists v s dir p x →
    ∃ y, Finds v s dir p y ∧ (y = x ∨ Lists v s dir p y ∧ rawName v s y = rawName v s x)) ∧
  ∀ y, Finds v s dir (formatted (rawName v s y)) y → Lists v s dir (formatted (rawName v s y)) y

/-- A byte that stands for itself: no NUL, no dot, no lower-case letter. -/
def PlainByte (c : UInt8) : Prop := c ≠ 0 ∧ c ≠ dot ∧ ¬(97 ≤ c ∧ c ≤ 122)

/-- Plain bytes, and behind a blank only blanks. -/
def PlainField (field : Str) : Prop :=
  (∀ c ∈ field, PlainByte c) ∧ ∀ c ∈ field.dropWhile (· ≠ space), c = space

/-- Both fields of the eleven bytes are plain. -/
def PlainName (name : Str) : Prop := PlainField (name.take 8) ∧ PlainField (name.drop 8)

/-- Every entry that is listed has a plain name; a volume label that is the first
slot with its eleven bytes has none. -/
def WellNamed (dir : Nat) : Prop :=
  ∀ x ∈ slots v s v.chainLimit dir,
    if isLabel v s x then
      (slots v s v.chainLimit dir).find? (fun y => rawName v s y = rawName v s x) = some x →
        ¬ PlainName (rawName v s x)
    else PlainName (rawName v s x)

/-! ### Which names survive printing -/

/-- The eleven bytes come back from the printed name. -/
abbrev RoundTrips (name : Str) : Prop := filenameTo83 (formatted name) = name

theorem upcase_plain {c : UInt8} (hnul : c ≠ 0) (hdot : c ≠ dot) : PlainByte (upcase c) := by
  refine ⟨fun h => hnul ?_, fun h => hdot (upcase_eq_dot.mp h), fun h => ?_⟩
  · rw [← UInt8.toNat_inj, upcase_toNat, show (0 : UInt8).toNat = 0 from rfl] at h
    exact UInt8.toNat_inj.mp (show c.toNat = 0 by split at h <;> omega)
  · have hlow : 97 ≤ (upcase c).toNat ∧ (upcase c).toNat ≤ 122 := h
    rw [upcase_toNat] at hlow
    split at hlow <;> omega

theorem upcase_ne_space {c : UInt8} (h : c ≠ space) : upcase c ≠ space := by
  intro hup
  rw [← UInt8.toNat_inj, upcase_toNat, show space.toNat = 32 from rfl] at hup
  exact h (UInt8.toNat_inj.mp (show c.toNat = 32 by split at hup <;> omega))

theorem upcase_of_plain {c : UInt8} (h : PlainByte c) : upcase c = c := by
  unfold upcase
  rw [if_neg]
  simpa using h.2.2

/-- A field that was written from plain text is plain. -/
theorem plainField_padTo {n : Nat} {text : Str}
    (htext : ∀ c ∈ text, c ≠ 0 ∧ c ≠ dot ∧ c ≠ space) : PlainField (padTo n (text.map upcase)) := by
  constructor
  · intro c hc
    rcases mem_append.mp hc with hc | hc
    · obtain ⟨b, hb, rfl⟩ := mem_map.mp hc
      exact upcase_plain (htext b hb).1 (htext b hb).2.1
    · rw [eq_of_mem_replicate hc]
      exact ⟨by decide, by decide, by decide⟩
  · have hvisible : ∀ c ∈ text.map upcase, (decide (c ≠ space)) = true := by
      intro c hc
      obtain ⟨b, hb, rfl⟩ := mem_map.mp hc
      exact decide_eq_true (upcase_ne_space (htext b hb).2.2)
    intro c hc
    rw [padTo, dropWhile_append_of_pos hvisible] at hc
    exact eq_of_mem_replicate ((dropWhile_suffix _).subset hc)

/-- What a field shows: the bytes before its first blank. -/
def shown (field : Str) : Str := field.takeWhile (· ≠ space)

/-- A plain field is what it shows, padded. -/
theorem PlainField.eq_padTo {field : Str} (h : PlainField field) :
    padTo field.length ((shown field).map upcase) = field := by
  have hup : (shown field).map upcase = shown field := by
    refine (map_congr_left fun c hc => ?_).trans (map_id _)
    exact upcase_of_plain (h.1 c ((takeWhile_sublist _).subset hc))
  have hsplit := takeWhile_append_dropWhile (p := (· ≠ space)) (l := field)
  have hblank : field.dropWhile (· ≠ space) =
      List.replicate (field.dropWhile (· ≠ space)).length space := eq_replicate_of_mem h.2
  have hlength := congrArg List.length hsplit
  rw [length_append] at hlength
  rw [hup, padTo, show field.length - (shown field).length = (field.dropWhile (· ≠ space)).length by
    rw [shown]; omega, ← hblank]
  exact hsplit

theorem PlainField.shown_plain {field : Str} (h : PlainField field) :
    dot ∉ shown field ∧ ∀ c ∈ shown field, (decide (c ≠ 0)) = true := by
  have hall : ∀ c ∈ shown field, PlainByte c := fun c hc => h.1 c ((takeWhile_sublist _).subset hc)
  exact ⟨fun hdot => (hall _ hdot).2.1 rfl, fun c hc => decide_eq_true (hall c hc).1⟩

/-- The printed name has no NUL and no blank. -/
theorem formatted_text {name : Str} {c : UInt8} (hc : c ∈ formatted name) : c ≠ 0 ∧ c ≠ space := by
  have hnul := mem_takeWhile_imp hc
  refine ⟨of_decide_eq_true hnul, ?_⟩
  have hmem := (takeWhile_sublist _).subset hc
  have hshown : ∀ {field : Str}, c ∈ shown field → c ≠ space := by
    intro field hc
    have hvisible := mem_takeWhile_imp hc
    exact of_decide_eq_true hvisible
  split at hmem
  · rcases mem_append.mp hmem with hmem | hmem
    · exact hshown hmem
    · rcases mem_cons.mp hmem with rfl | hmem
      · decide
      · exact hshown hmem
  · exact hshown hmem

/-- The eleven bytes come back exactly if both fields are plain. -/
theorem roundTrips_iff {name : Str} (hlen : name.length = 11) : RoundTrips name ↔ PlainName name := by
  constructor
  · intro h
    -- Both fields were written from parts of the printed name that have no dot.
    set text := formatted name with htext
    have hbase : ((text.takeWhile (· ≠ dot)).take 8).length ≤ 8 := length_take_le 8 _
    have hfields : name.take 8 = padTo 8 (((text.takeWhile (· ≠ dot)).take 8).map upcase) ∧
        name.drop 8 = padTo 3 ((((extension text).getD []).take 3).map upcase) := by
      refine append_inj ?_ ?_
      · rw [take_append_drop]
        exact h.symm
      · rw [length_padTo (by rwa [length_map]), length_take, hlen]
        rfl
    rw [PlainName, hfields.1, hfields.2]
    refine ⟨plainField_padTo fun c hc => ?_, plainField_padTo fun c hc => ?_⟩
    · have hc := (List.take_subset 8 _) hc
      have hplain := formatted_text (htext ▸ (takeWhile_sublist _).subset hc)
      have hdot := mem_takeWhile_imp hc
      exact ⟨hplain.1, of_decide_eq_true hdot, hplain.2⟩
    · have hc := (List.take_subset 3 _) hc
      cases hext : extension text with
      | none =>
        rw [hext] at hc
        cases hc
      | some e =>
        rw [hext] at hc
        obtain ⟨hdot, hsub⟩ := extension_eq_some hext
        have hplain := formatted_text (htext ▸ hsub c hc)
        exact ⟨hplain.1, fun h => hdot (h ▸ hc), hplain.2⟩
  · rintro ⟨hbase, hext⟩
    have hname := congrArg₂ (· ++ ·) hbase.eq_padTo hext.eq_padTo
    simp only [take_append_drop, length_take, length_drop, hlen] at hname
    have hb8 : (shown (name.take 8)).length ≤ 8 :=
      (takeWhile_sublist _).length_le.trans (length_take_le 8 _)
    have he3 : (shown (name.drop 8)).length ≤ 3 :=
      (takeWhile_sublist _).length_le.trans (by rw [length_drop, hlen])
    have hno : ∀ {text : Str}, (∀ c ∈ text, (decide (c ≠ 0)) = true) →
        text.takeWhile (· ≠ 0) = text := fun h => takeWhile_eq_self_iff.mpr h
    have hformat : formatted name = (if name.getD 8 0 ≠ space then
        shown (name.take 8) ++ dot :: shown (name.drop 8) else shown (name.take 8)) := by
      refine hno ?_
      split
      · intro c hc
        rcases mem_append.mp hc with hc | hc
        · exact hbase.shown_plain.2 c hc
        · rcases mem_cons.mp hc with rfl | hc
          · decide
          · exact hext.shown_plain.2 c hc
      · exact hbase.shown_plain.2
    rw [RoundTrips, hformat]
    refine Eq.trans ?_ hname
    split
    · rw [filenameTo83, takeWhile_ne_dot hbase.shown_plain.1,
        extension_append_dot hext.shown_plain.1, take_of_length_le hb8, Option.getD_some,
        take_of_length_le he3]
      rfl
    · -- Nothing of the extension is shown, so it is blank.
      rename_i hblank
      have hnil : shown (name.drop 8) = [] := by
        have hlt : 8 < name.length := by omega
        rw [shown, drop_eq_getElem_cons hlt, takeWhile_cons_of_neg]
        rw [getD_eq_getElem?_getD, getElem?_eq_getElem hlt] at hblank
        simpa using hblank
      rw [filenameTo83, takeWhile_ne_dot_self hbase.shown_plain.1,
        extension_eq_none.mpr hbase.shown_plain.1, take_of_length_le hb8, hnil]
      rfl

variable {v s}

theorem rawName_roundTrips_iff (x : Nat × Nat) :
    RoundTrips (rawName v s x) ↔ PlainName (rawName v s x) := roundTrips_iff (by simp [rawName, entName])

theorem lists_iff {p : Str} {x : Nat × Nat} {dir : Nat} :
    Lists v s dir p x ↔ x ∈ slots v s v.chainLimit dir ∧ isLabel v s x = false ∧
      formatted (rawName v s x) = p := by
  simp only [Lists, listDir, listDirLoop_calm, mem_map, mem_filter, Bool.not_eq_true']
  constructor
  · rintro ⟨e, ⟨y, ⟨hy, hlabel⟩, rfl⟩, hname, rfl⟩
    exact ⟨hy, hlabel, hname⟩
  · rintro ⟨hx, hlabel, hname⟩
    exact ⟨_, ⟨x, ⟨hx, hlabel⟩, rfl⟩, hname, rfl⟩

theorem finds_iff {p : Str} {x : Nat × Nat} {dir : Nat} :
    Finds v s dir p x ↔
      (slots v s v.chainLimit dir).find? (fun y => rawName v s y = filenameTo83 p) = some x := by
  simp only [Finds, findDirEntry, findDirEntryLoop_calm, Option.map_eq_some_iff, Prod.mk.injEq]
  constructor
  · rintro ⟨e, y, hy, _, rfl⟩
    exact hy
  · intro hx
    exact ⟨_, x, hx, rfl, rfl⟩

theorem Finds.rawName_eq {p : Str} {x : Nat × Nat} {dir : Nat} (h : Finds v s dir p x) :
    rawName v s x = filenameTo83 p := by
  have hx := find?_some (finds_iff.mp h)
  exact of_decide_eq_true hx

/-- An entry that is listed and found survives printing. -/
theorem Agrees.roundTrips {dir : Nat} (h : Agrees v s dir) {x : Nat × Nat}
    (hx : x ∈ slots v s v.chainLimit dir) (hlabel : isLabel v s x = false) :
    RoundTrips (rawName v s x) := by
  rcases h.1 _ x (lists_iff.mpr ⟨hx, hlabel, rfl⟩) with ⟨y, hfinds, hsame⟩
  have hraw : rawName v s y = rawName v s x := by
    rcases hsame with rfl | ⟨_, hraw⟩
    · rfl
    · exact hraw
  exact hfinds.rawName_eq.symm.trans hraw

/-- A volume label that is found under its printed name is not listed. -/
theorem WellNamed.notLabel {dir : Nat} (h : WellNamed v s dir) {y : Nat × Nat}
    (hfind : (slots v s v.chainLimit dir).find?
      (fun z => rawName v s z = rawName v s y) = some y)
    (htrip : RoundTrips (rawName v s y)) : isLabel v s y = false := by
  by_contra hlabel
  have hy := h y (mem_of_find?_eq_some hfind)
  rw [if_pos (Bool.not_eq_false _ ▸ hlabel)] at hy
  exact hy hfind ((rawName_roundTrips_iff y).mp htrip)

/-- A root directory with the subdirectory `A` in cluster 3, which begins with its
link `"."`. -/
def subdirImage : Buf :=
  putEntry (putEntry reservedImage 32 (filenameTo83 [65]) attrDirectory 3 0)
    48 (padTo 11 [dot]) attrDirectory 3 0

end TinyOS.Fat32
