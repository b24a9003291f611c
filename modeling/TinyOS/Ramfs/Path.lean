import TinyOS.Lib.Tokens
import TinyOS.Ramfs.Node

/-!
# RAMFS: splitting a path

`split_path` cuts a path at its slashes and each component to 31 bytes
(`splitPath_spec`). Every component it returns is a name a directory may hold
(`splitPath_valid`), and the path formed from valid names splits into those
names again (`splitPath_joinPath`).
-/

namespace TinyOS.Ramfs

open TinyOS.Lib List

/-- `'/'`. -/
def slash : UInt8 := 47
/-- `'.'`. -/
def dot : UInt8 := 46

/-- The component is `"."` or `".."`, which `split_path` refuses. -/
def isDots (c : Str) : Bool := c = [dot] || c = [dot, dot]

/-- Store one more byte of a component; bytes past `RAMFS_MAX_NAME - 1` are dropped. -/
def pushByte (cur : Str) (c : UInt8) : Str :=
  if cur.length < maxName - 1 then cur ++ [c] else cur

/-- The scanning loop of `split_path`. `comps` are the components finished so
far, `cur` the one being filled; `none` is the early `return -1`. The result
carries the unfinished component and the part of the path not consumed. -/
def splitLoop (maxComponents : Nat) : Str → List Str → Str → Option (List Str × Str × Str)
  | [], comps, cur => some (comps, cur, [])
  | c :: path, comps, cur =>
    if comps.length < maxComponents then
      if c = slash then
        if cur = [] then splitLoop maxComponents path comps cur
        else if isDots cur then none
        else splitLoop maxComponents path (comps ++ [cur]) []
      else splitLoop maxComponents path comps (pushByte cur c)
    else some (comps, cur, c :: path)

/-- `split_path`: the components, or `none` for its `-1`. -/
def splitPath (path : Str) (maxComponents : Nat) : Option (List Str) :=
  match splitLoop maxComponents (path.dropWhile (· = slash)) [] [] with
  | none => none
  | some (comps, cur, rest) =>
    if cur ≠ [] && isDots cur then none
    -- leftover bytes: the path has more components than fit
    else if rest ≠ [] then none
    else some (if cur ≠ [] then comps ++ [cur] else comps)

/-! ## Names a directory may hold -/

/-- What every entry's name satisfies: non-empty, at most 31 bytes, slash-free,
neither `"."` nor `".."`. -/
structure ValidName (n : Str) : Prop where
  nonempty : n ≠ []
  short : n.length ≤ 31
  noSlash : slash ∉ n
  notDot : n ≠ [dot]
  notDotDot : n ≠ [dot, dot]

theorem ValidName.isDots_eq {n : Str} (hn : ValidName n) : isDots n = false := by
  simp [isDots, hn.notDot, hn.notDotDot]

/-! ## Components -/

/-- What `split_path` keeps of a component. -/
def cut (name : Str) : Str := name.take (maxName - 1)

theorem cut_eq_nil {name : Str} : cut name = [] ↔ name = [] := by
  rw [cut, take_eq_nil_iff]
  simp [maxName]

theorem pushByte_cut (cur : Str) (c : UInt8) : pushByte (cut cur) c = cut (cur ++ [c]) := by
  unfold pushByte cut
  rw [length_take]
  split
  · rw [take_of_length_le (by omega), take_of_length_le (by simp; omega)]
  · rw [take_append_of_le_length (by omega)]

/-- The last component, if one has been begun. -/
def lastComponent (cur : Str) : List Str := if cur = [] then [] else [cur]

/-- A token that is neither `"."` nor `".."`. -/
def Plain (name : Str) : Prop := IsToken slash name ∧ isDots name = false

theorem isDots_cut (name : Str) : isDots (cut name) = isDots name := by
  have hshort : ∀ d : Str, d.length ≤ 2 → (cut name = d ↔ name = d) := by
    intro d hd
    constructor
    · intro h
      have hlength := congrArg List.length h
      rw [cut, length_take, maxName] at hlength
      rw [← h, cut, take_of_length_le (by simp only [maxName]; omega)]
    · rintro rfl
      exact take_of_length_le (by simp only [maxName]; omega)
  simp only [isDots, hshort [dot] (by simp), hshort [dot, dot] (by simp)]

variable {m : Nat} {path : Str} {comps comps' : List Str} {cur cur' : Str}

/-- A scan that reaches the end of the path has cut all its tokens. It refuses dots, and begins no
component at its bound. -/
theorem splitLoop_spec (hdots : ∀ c ∈ comps, isDots c = false)
    (hlen : comps.length < m ∨ comps.length = m ∧ cur = [])
    (h : splitLoop m path comps (cut cur) = some (comps', cur', [])) :
    comps' ++ lastComponent cur' = comps ++ (tokensFrom slash path cur).map cut ∧
      (∀ c ∈ comps', isDots c = false) ∧ (comps'.length < m ∨ comps'.length = m ∧ cur' = []) := by
  induction path generalizing comps cur with
  | nil =>
    obtain ⟨rfl, rfl, -⟩ := h
    refine ⟨?_, hdots, by rwa [cut_eq_nil]⟩
    simp only [tokensFrom, lastComponent, cut_eq_nil]
    split
    · rfl
    · rfl
  | cons c path ih =>
    simp only [splitLoop] at h
    rw [tokensFrom]
    split_ifs at h with hroom hslash hnil hdot
    · obtain rfl := cut_eq_nil.mp hnil
      rw [if_pos hslash, if_pos rfl]
      exact ih hdots hlen h
    · -- a finished component joins the list
      rw [if_pos hslash, if_neg fun hcur => hnil (cut_eq_nil.mpr hcur)]
      have hmore := @ih (comps ++ [cut cur]) [] ?_ ?_ h
      · rwa [append_assoc] at hmore
      · exact forall_mem_append.mpr ⟨hdots, forall_mem_singleton.mpr (by simpa using hdot)⟩
      · rw [length_append, length_singleton]
        rcases Nat.lt_or_eq_of_le (Nat.succ_le_of_lt hroom) with hlt | heq
        · exact .inl hlt
        · exact .inr ⟨heq, rfl⟩
    · rw [if_neg hslash]
      rw [pushByte_cut] at h
      exact ih hdots (.inl hroom) h
    · -- the loop has stopped before the end of the path
      simp at h

theorem tokens_dropWhile (path : Str) : tokens slash (path.dropWhile (· = slash)) = tokens slash path := by
  induction path with
  | nil => rfl
  | cons c path ih =>
    rw [dropWhile_cons]
    split
    · rename_i hslash
      rw [ih, tokens, tokens, tokensFrom, if_pos (by simpa using hslash), if_pos rfl]
    · rfl

theorem splitPath_spec (h : splitPath path m = some comps) :
    comps = (tokens slash path).map cut ∧ (∀ c ∈ comps, isDots c = false) ∧ comps.length ≤ m := by
  simp only [splitPath] at h
  split at h
  · cases h
  rename_i comps' cur rest hloop
  split_ifs at h with hdots hrest hne
  all_goals
    obtain rfl : rest = [] := not_not.mp hrest
    obtain rfl := Option.some.inj h
    obtain ⟨htokens, hall, hlen⟩ := @splitLoop_spec m _ [] _ [] _ (by simp)
      (by simp; omega) hloop
    rw [nil_append, ← tokens, tokens_dropWhile, lastComponent] at htokens
  · rw [if_neg hne] at htokens
    refine ⟨htokens, forall_mem_append.mpr ⟨hall, forall_mem_singleton.mpr ?_⟩, ?_⟩
    · simpa [hne] using hdots
    · have hlt := hlen.resolve_right fun hcur => hne hcur.2
      rwa [length_append, length_singleton]
  · rw [if_pos (not_not.mp hne), append_nil] at htokens
    exact ⟨htokens, hall, by omega⟩

theorem splitPath_valid (h : splitPath path m = some comps) : ∀ c ∈ comps, ValidName c := by
  obtain ⟨htokens, hdots, -⟩ := splitPath_spec h
  intro c hc
  have hdot := hdots c hc
  simp only [isDots, Bool.or_eq_false_iff, decide_eq_false_iff_not] at hdot
  rw [htokens] at hc
  obtain ⟨t, ht, rfl⟩ := mem_map.mp hc
  obtain ⟨hne, hslash⟩ := tokens_isToken t ht
  exact ⟨fun hnil => hne (cut_eq_nil.mp hnil), length_take_le _ t,
    fun hmem => hslash (mem_of_mem_take hmem), hdot.1, hdot.2⟩

/-- The tokens of a path that `split_path` accepts are plain. -/
theorem splitPath_plain (h : splitPath path m = some comps) :
    ∀ t ∈ tokens slash path, Plain t := by
  intro t ht
  refine ⟨tokens_isToken t ht, ?_⟩
  have hmem : cut t ∈ comps := by
    rw [(splitPath_spec h).1]
    exact mem_map_of_mem ht
  rw [← isDots_cut]
  exact (splitPath_spec h).2.1 _ hmem

/-! ## Splitting a path formed from names -/

/-- Scanning the rest of a component fills it, up to its 31 bytes. -/
theorem splitLoop_fill_cut {n : Str} (hlen : comps.length < m) (hns : slash ∉ n) :
    splitLoop m (n ++ path) comps (cut cur) = splitLoop m path comps (cut (cur ++ n)) := by
  induction n generalizing cur with
  | nil => simp
  | cons c n ih =>
    rw [mem_cons, not_or] at hns
    rw [cons_append, splitLoop, if_pos hlen, if_neg (Ne.symm hns.1), pushByte_cut, ih hns.2]
    simp

theorem splitLoop_join {names : List Str} (hcur : Plain cur) (hnames : ∀ n ∈ names, Plain n)
    (hlen : comps.length + names.length < m) :
    ∃ comps' cur', splitLoop m (join slash names) comps (cut cur) = some (comps', cur', []) ∧
      cur' ≠ [] ∧ isDots cur' = false ∧ comps' ++ [cur'] = comps ++ (cur :: names).map cut := by
  have hne : cut cur ≠ [] := fun h => hcur.1.1 (cut_eq_nil.mp h)
  have hdots : isDots (cut cur) = false := (isDots_cut cur).trans hcur.2
  induction names generalizing comps cur with
  | nil => exact ⟨comps, cut cur, by simp [join, splitLoop], hne, hdots, by simp⟩
  | cons n names ih =>
    have hn := hnames n mem_cons_self
    simp only [length_cons] at hlen
    obtain ⟨comps', cur', hloop, hne', hdots', happ⟩ := @ih (comps ++ [cut cur]) n hn
      (fun x hx => hnames x (mem_cons_of_mem n hx)) (by simp; omega)
      (fun h => hn.1.1 (cut_eq_nil.mp h)) ((isDots_cut n).trans hn.2)
    refine ⟨comps', cur', ?_, hne', hdots', by simpa using happ⟩
    have hstep : join slash (n :: names) = slash :: (n ++ join slash names) := by simp [join]
    have hfill : splitLoop m (n ++ join slash names) (comps ++ [cut cur]) [] =
        splitLoop m (join slash names) (comps ++ [cut cur]) (cut n) :=
      @splitLoop_fill_cut m (join slash names) (comps ++ [cut cur]) [] n (by simp; omega) hn.1.2
    rw [hstep, splitLoop, if_pos (by omega), if_pos rfl, if_neg hne, if_neg (by simp [hdots]),
      hfill, hloop]

/-- A path formed from at most `m` plain names splits into them, cut. -/
theorem splitPath_join {names : List Str} (hnames : ∀ n ∈ names, Plain n)
    (hlen : names.length ≤ m) : splitPath (join slash names) m = some (names.map cut) := by
  cases names with
  | nil => simp [join, splitPath, splitLoop]
  | cons n names =>
    have hn := hnames n mem_cons_self
    simp only [length_cons] at hlen
    have hdrop : (join slash (n :: names)).dropWhile (· = slash) = n ++ join slash names := by
      obtain ⟨c, cs, rfl⟩ := exists_cons_of_ne_nil hn.1.1
      have hc : c ≠ slash := by
        have := hn.1.2
        simp only [mem_cons, not_or] at this
        exact Ne.symm this.1
      simp [join, hc]
    obtain ⟨comps', cur', hloop, hne, hdots, happ⟩ := @splitLoop_join m [] n names hn
      (fun x hx => hnames x (mem_cons_of_mem n hx)) (by simp; omega)
    have hfill : splitLoop m (n ++ join slash names) [] [] =
        splitLoop m (join slash names) [] (cut n) :=
      @splitLoop_fill_cut m (join slash names) [] [] n (by simp; omega) hn.1.2
    rw [splitPath, hdrop, hfill, hloop]
    simpa [hne, hdots] using happ

/-- The path formed from a list of names: `"/" ++ n₁ ++ "/" ++ n₂ ++ ...`. -/
def joinPath (names : List Str) : Str := names.flatMap (fun n => slash :: n)

/-- A path formed from at most `m` valid names splits into those names. -/
theorem splitPath_joinPath {names : List Str} (hnames : ∀ n ∈ names, ValidName n)
    (hlen : names.length ≤ m) : splitPath (joinPath names) m = some names := by
  have hcut : names.map cut = names :=
    (map_congr_left fun n hn => take_of_length_le (hnames n hn).short).trans names.map_id
  refine (splitPath_join (fun n hn => ?_) hlen).trans (congrArg some hcut)
  have hn := hnames n hn
  exact ⟨⟨hn.nonempty, hn.noSlash⟩, hn.isDots_eq⟩

end TinyOS.Ramfs
