import Mathlib.Data.List.TakeWhile
import TinyOS.Lib.Tokens

/-!
# FAT32: paths and 8.3 names

`component_is_83`, `parse_path` and `filename_to_83` of `fat32.c`, and which
spellings of a component end up as one given 8.3 name
(`filenameTo83_eq_iff_spells`): upper-casing and padding with spaces are the
only things the conversion forgets.

Byte strings are the bytes before the NUL.
-/

namespace TinyOS.Fat32

open Lib List

/-- A C string: the bytes before the terminating NUL. -/
abbrev Str := List UInt8

def slash : UInt8 := 47
def dot : UInt8 := 46
def backslash : UInt8 := 92
def space : UInt8 := 32

/-- The components `parse_path` has room for in every caller. -/
def maxComponents : Nat := 16

def componentIs83 (name : Str) : Bool :=
  if name = [dot] || name = [dot, dot] then true
  else if backslash ∈ name || 1 < name.count dot then false
  else
    match name.findIdx? (· = dot) with
    | none => 1 ≤ name.length && name.length ≤ 8
    | some d => 1 ≤ d && d ≤ 8 && 1 ≤ name.length - d - 1 && name.length - d - 1 ≤ 3

/-- `parse_path`: the components, or `none` for its `-1`. -/
def parsePath (path : Str) (max : Nat) : Option (List Str) :=
  let comps := tokens slash path
  if comps.length ≤ max && comps.all componentIs83 then some comps else none

/-- The conversion to upper case inside `filename_to_83`. -/
def upcase (c : UInt8) : UInt8 := if 97 ≤ c && c ≤ 122 then c - 32 else c

/-- What stands behind the last dot, if there is one. -/
def extension : Str → Option Str
  | [] => none
  | c :: rest =>
    match extension rest with
    | some ext => some ext
    | none => if c = dot then some rest else none

/-- `memset(.., ' ', width)` with the first bytes overwritten by `field`. -/
def padTo (width : Nat) (field : Str) : Str := field ++ List.replicate (width - field.length) space

/-- `filename_to_83`: eight bytes of base name, three of extension. -/
def filenameTo83 (filename : Str) : Str :=
  padTo 8 (((filename.takeWhile (· ≠ dot)).take 8).map upcase) ++
    padTo 3 ((((extension filename).getD []).take 3).map upcase)

/-! ## Which components share an 8.3 name -/

variable {a w : Str}

/-- `padTo` forgets trailing spaces and nothing else. -/
theorem padTo_eq_padTo_iff {n : Nat} (ha : a.length ≤ n) (hw : w.length ≤ n) (hspace : space ∉ w) :
    padTo n a = padTo n w ↔ ∃ k, a = w ++ List.replicate k space := by
  constructor
  · intro h
    rcases Nat.lt_or_ge a.length w.length with hlt | hge
    · -- a shorter `a` is padded where `w` still has a byte of its own
      exfalso
      have hget := congrArg (fun l => l[a.length]?) h
      simp only [padTo] at hget
      rw [getElem?_append_right (Nat.le_refl _), getElem?_append_left hlt,
        getElem?_replicate, if_pos (by omega), getElem?_eq_getElem hlt] at hget
      apply hspace
      rw [Option.some.inj hget]
      exact getElem_mem hlt
    · refine ⟨a.length - w.length, ?_⟩
      have htake := congrArg (List.take a.length) h
      simp only [padTo, take_left] at htake
      rw [take_append, take_of_length_le hge, take_replicate,
        Nat.min_eq_left (by omega)] at htake
      exact htake
  · rintro ⟨k, rfl⟩
    simp only [length_append, length_replicate] at ha
    rw [padTo, padTo, append_assoc, replicate_append_replicate]
    congr 2
    simp only [length_append, length_replicate]
    omega

@[simp] theorem length_padTo {n : Nat} (ha : a.length ≤ n) : (padTo n a).length = n := by
  simp [padTo]
  omega

/-- The ending that `filename_to_83` cannot tell from none: spaces, then
possibly a dot with more spaces. -/
def padding (k m : Nat) : Str :=
  List.replicate k space ++ if m = 0 then [] else dot :: List.replicate m space

/-- `n` is `w` in some mixture of cases, followed by padding. -/
def Spells (w n : Str) : Prop := ∃ k m, n.map upcase = w ++ padding k m

theorem upcase_toNat (c : UInt8) : (upcase c).toNat =
    if 97 ≤ c.toNat ∧ c.toNat ≤ 122 then c.toNat - 32 else c.toNat := by
  simp only [upcase, Bool.and_eq_true, decide_eq_true_eq, UInt8.le_iff_toNat_le, UInt8.toNat_ofNat,
    Nat.reducePow, Nat.reduceMod]
  split
  · rename_i h
    rw [UInt8.toNat_sub_of_le]
    · rfl
    · exact UInt8.le_iff_toNat_le.mpr (Nat.le_trans (by decide : (32 : UInt8).toNat ≤ 97) h.1)
  · rfl

theorem upcase_eq_dot {c : UInt8} : upcase c = dot ↔ c = dot := by
  have hdot : dot.toNat = 46 := rfl
  rw [← UInt8.toNat_inj, ← UInt8.toNat_inj, upcase_toNat, hdot]
  split <;> omega

variable {n : Str}

theorem extension_eq_none : extension n = none ↔ dot ∉ n := by
  induction n with
  | nil => simp [extension]
  | cons c n ih =>
    rw [extension, mem_cons, not_or, ← ih]
    cases extension n with
    | some e => simp
    | none => simp [eq_comm]

/-- The extension is a part of the name, and has no dot. -/
theorem extension_eq_some {e : Str} (h : extension n = some e) : dot ∉ e ∧ ∀ c ∈ e, c ∈ n := by
  induction n with
  | nil => cases h
  | cons c n ih =>
    rw [extension] at h
    cases hn : extension n with
    | some e' =>
      rw [hn] at h ih
      exact ⟨(ih h).1, fun c hc => mem_cons_of_mem _ ((ih h).2 c hc)⟩
    | none =>
      simp only [hn] at h
      split at h
      · cases h
        exact ⟨extension_eq_none.mp hn, fun c hc => mem_cons_of_mem _ hc⟩
      · cases h

variable {base ext : Str}

theorem extension_append_dot (h : dot ∉ ext) : extension (base ++ dot :: ext) = some ext := by
  induction base with
  | nil => simp [extension, extension_eq_none.mpr h]
  | cons c base ih => simp [extension, ih]

theorem takeWhile_ne_dot (h : dot ∉ base) : (base ++ dot :: ext).takeWhile (· ≠ dot) = base := by
  rw [takeWhile_append_of_pos]
  · simp
  · intro c hc
    simpa using ne_of_mem_of_not_mem hc h

theorem takeWhile_ne_dot_self (h : dot ∉ n) : n.takeWhile (· ≠ dot) = n := by
  rw [takeWhile_eq_self_iff]
  intro c hc
  simpa using ne_of_mem_of_not_mem hc h

/-- The shapes `component_is_83` lets through. -/
inductive Shape83 : Str → Prop
  | dots : Shape83 [dot]
  | dotDots : Shape83 [dot, dot]
  | plain {base : Str} : dot ∉ base → base ≠ [] → base.length ≤ 8 → Shape83 base
  | ext {base ext : Str} : dot ∉ base → dot ∉ ext → base.length ≤ 8 → ext ≠ [] →
      ext.length ≤ 3 → Shape83 (base ++ dot :: ext)

theorem shape83_of_componentIs83 (h : componentIs83 n = true) : Shape83 n := by
  simp only [componentIs83] at h
  split at h
  · rename_i hd
    simp only [Bool.or_eq_true, decide_eq_true_eq] at hd
    rcases hd with rfl | rfl
    · exact .dots
    · exact .dotDots
  · split at h
    · simp at h
    rename_i hcount
    simp only [Bool.or_eq_true, decide_eq_true_eq, not_or, Nat.not_lt] at hcount
    split at h
    · rename_i hfind
      have hdot : dot ∉ n := by
        intro hmem
        have := findIdx?_eq_none_iff.mp hfind dot hmem
        simp at this
      simp only [Bool.and_eq_true, decide_eq_true_eq] at h
      refine .plain hdot ?_ h.2
      rintro rfl
      simp at h
    · rename_i d hfind
      -- the single dot splits the name
      rw [findIdx?_eq_some_iff_getElem] at hfind
      rcases hfind with ⟨hlt, hd, hbefore⟩
      simp only [decide_eq_true_eq] at hd
      have hsplit : n = n.take d ++ dot :: n.drop (d + 1) := by
        rw [← hd, getElem_cons_drop hlt, take_append_drop]
      have hbase : dot ∉ n.take d := by
        intro hmem
        rcases mem_take_iff_getElem.mp hmem with ⟨i, hi, heq⟩
        have := hbefore i (by omega)
        simp [heq] at this
      have hext : dot ∉ n.drop (d + 1) := by
        intro hmem
        have hpos := count_pos_iff.mpr hmem
        have hc := hcount.2
        rw [hsplit, count_append, count_cons_self] at hc
        omega
      simp only [Bool.and_eq_true, decide_eq_true_eq] at h
      rw [hsplit]
      refine .ext hbase hext (by simp; omega) ?_ (by simp; omega)
      intro hnil
      have := congrArg List.length hnil
      simp at this
      omega

theorem padding_append_left {k m : Nat} : w ++ padding k m =
      (w ++ List.replicate k space) ++ if m = 0 then [] else dot :: List.replicate m space := by
  simp [padding]

theorem dot_notMem_replicate {k : Nat} : dot ∉ List.replicate k space := by
  intro h
  exact absurd (eq_of_mem_replicate h) (by decide)

/-- The blank extension: three spaces. -/
theorem padTo_blank_iff (h : ext.length ≤ 3) :
    padTo 3 (ext.map upcase) = padTo 3 [] ↔ ext.map upcase = List.replicate ext.length space := by
  rw [padTo_eq_padTo_iff (by simpa using h) (by simp) (by simp)]
  constructor
  · rintro ⟨k, hk⟩
    have hlen := congrArg List.length hk
    simp only [length_map, nil_append, length_replicate] at hlen
    rw [hk, hlen, nil_append]
  · intro h
    exact ⟨ext.length, by simpa using h⟩

/-- An upper-case name without dot or space, of at most eight bytes. -/
structure Plain83 (w : Str) : Prop where
  nonempty : w ≠ []
  short : w.length ≤ 8
  noDot : dot ∉ w
  noSpace : space ∉ w
  upper : w.map upcase = w

theorem Plain83.filenameTo83_eq (hw : Plain83 w) : filenameTo83 w = padTo 8 w ++ padTo 3 [] := by
  rw [filenameTo83, takeWhile_ne_dot_self hw.noDot, extension_eq_none.mpr hw.noDot,
    take_of_length_le hw.short, hw.upper]
  rfl

theorem padTo_append_inj {b : Str} (ha : a.length ≤ 8) (hw : w.length ≤ 8) :
    padTo 8 a ++ b = padTo 8 w ++ padTo 3 [] ↔ padTo 8 a = padTo 8 w ∧ b = padTo 3 [] := by
  constructor
  · intro h
    exact append_inj h (by rw [length_padTo ha, length_padTo hw])
  · rintro ⟨h, rfl⟩
    rw [h]

/-- A dot in a spelling can only be the one in front of the blank extension. -/
theorem spells_dot_iff (hw : Plain83 w) (hb : dot ∉ base) (hne : ext ≠ []) :
    Spells w (base ++ dot :: ext) ↔
      (∃ k, base.map upcase = w ++ List.replicate k space) ∧
        ext.map upcase = List.replicate ext.length space := by
  have hdot : upcase dot = dot := by decide
  constructor
  · rintro ⟨k, m, h⟩
    rw [padding_append_left, map_append, map_cons, hdot] at h
    have hwk : dot ∉ w ++ List.replicate k space := by
      simp only [mem_append, not_or]
      exact ⟨hw.noDot, dot_notMem_replicate⟩
    have hbm : dot ∉ base.map upcase := by
      simp only [mem_map, not_exists, not_and]
      intro c hc hcd
      rw [upcase_eq_dot] at hcd
      exact hb (hcd ▸ hc)
    split at h
    · -- no dot on the right, one on the left
      exfalso
      apply hwk
      rw [append_nil] at h
      rw [← h]
      simp
    · -- both sides are cut at their first dot
      have hcut := congrArg (List.takeWhile (· ≠ dot)) h
      rw [takeWhile_ne_dot hbm, takeWhile_ne_dot hwk] at hcut
      rw [hcut] at h
      have hext := List.cons.inj (append_cancel_left h)
      refine ⟨⟨k, hcut⟩, ?_⟩
      have hlen := congrArg List.length hext.2
      simp only [length_map, length_replicate] at hlen
      rw [hext.2, hlen]
  · rintro ⟨⟨k, hk⟩, hext⟩
    refine ⟨k, ext.length, ?_⟩
    rw [padding_append_left, map_append, map_cons, hdot, hk, hext, if_neg]
    simpa using hne

/-- `"."` and `".."` convert to eleven spaces, which spell no plain name. -/
theorem Plain83.spells_dot {rest : Str} (hw : Plain83 w)
    (hleft : filenameTo83 (dot :: rest) = padTo 8 [] ++ padTo 3 []) :
    filenameTo83 (dot :: rest) = padTo 8 w ++ padTo 3 [] ↔ Spells w (dot :: rest) := by
  rw [hleft, padTo_append_inj (by simp) hw.short,
    padTo_eq_padTo_iff (by simp) hw.short hw.noSpace]
  constructor
  · rintro ⟨⟨k, hk⟩, -⟩
    exact absurd (append_eq_nil_iff.mp hk.symm).1 hw.nonempty
  · rintro ⟨k, m, h⟩
    exfalso
    rcases exists_cons_of_ne_nil hw.nonempty with ⟨c, t, hct⟩
    rw [hct, map_cons, cons_append] at h
    apply hw.noDot
    rw [hct, ← (List.cons.inj h).1]
    simp [show upcase dot = dot by decide]

/-- `filename_to_83` gives a component the name `w` exactly when the component
spells `w`. -/
theorem filenameTo83_eq_iff_spells (hw : Plain83 w) (hn : componentIs83 n = true) :
    filenameTo83 n = filenameTo83 w ↔ Spells w n := by
  rw [hw.filenameTo83_eq]
  cases shape83_of_componentIs83 hn with
  | dots | dotDots => exact hw.spells_dot (by decide)
  | plain hdot hne hlen =>
    rw [filenameTo83, takeWhile_ne_dot_self hdot, extension_eq_none.mpr hdot,
      take_of_length_le hlen]
    rw [padTo_append_inj (by simpa using hlen) hw.short,
      padTo_eq_padTo_iff (by simpa using hlen) hw.short hw.noSpace]
    constructor
    · rintro ⟨⟨k, hk⟩, -⟩
      exact ⟨k, 0, by simpa [padding] using hk⟩
    · rintro ⟨k, m, h⟩
      refine ⟨⟨k, ?_⟩, rfl⟩
      rcases Nat.eq_zero_or_pos m with rfl | hm
      · simpa [padding] using h
      · -- a dot on the right only
        exfalso
        have hmem : dot ∈ n.map upcase := by
          rw [h, padding, if_neg (by omega)]
          simp
        rcases mem_map.mp hmem with ⟨c, hc, hcd⟩
        rw [upcase_eq_dot] at hcd
        exact hdot (hcd ▸ hc)
  | @ext base ext hb he hlen hne hlen' =>
    rw [filenameTo83, takeWhile_ne_dot hb, extension_append_dot he,
      take_of_length_le hlen]
    show padTo 8 (base.map upcase) ++ padTo 3 ((ext.take 3).map upcase) = _ ↔ _
    rw [take_of_length_le hlen', padTo_append_inj (by simpa using hlen) hw.short,
      padTo_eq_padTo_iff (by simpa using hlen) hw.short hw.noSpace, padTo_blank_iff hlen',
      spells_dot_iff hw hb hne]

end TinyOS.Fat32
