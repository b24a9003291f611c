import TinyOS.Lib.Tokens
import Mathlib.Data.List.TakeWhile
import TinyOS.Net.Packet

/-!
# Names in a DNS message

A name on the wire is a sequence of labels, each a length and its bytes, which ends with a zero or with
a pointer to a name elsewhere in the message. `NameAt` says which sequence of labels stands at a
position, and `NameEnds` where the bytes of the name itself end.

`dns.c` decodes a name into a C string, with a dot between two labels, and compares the strings. A label
may have any bytes, so that the string does not determine the labels unless they have neither dots nor
zeros (`Spells.same_name`).
-/

namespace TinyOS.Net.Dns

open Lib List

open Firewall (Packet)

abbrev Label := List UInt8
abbrev Name := List Label

def dot : UInt8 := 0x2E
def maxDomainNameLen : Nat := 253
def maxDnsLabels : Nat := 127
def maxDnsLabelLen : Nat := 63

/-! ## What stands in the message -/

/-- The byte is the first one of a compression pointer. -/
def isPointer (b : UInt8) : Bool := b &&& 0xC0 == 0xC0

/-- Where the pointer at `pos` points. -/
def pointerOffset (d : Packet) (pos : Nat) : Nat :=
  (d.byte pos &&& 0x3F).toNat * 2 ^ 8 + (d.byte (pos + 1)).toNat

def labelLen (d : Packet) (pos : Nat) : Nat := (d.byte pos).toNat

/-- The bytes of the label whose length stands at `pos`. -/
def labelAt (d : Packet) (pos : Nat) : Label := (d.drop (pos + 1)).take (labelLen d pos)

/-- A label with its length stands at `pos`. -/
structure IsLabel (d : Packet) (pos : Nat) : Prop where
  some : labelLen d pos ≠ 0
  short : labelLen d pos ≤ maxDnsLabelLen
  whole : pos + labelLen d pos + 1 ≤ d.length

/-- The name at `pos` has these labels. -/
inductive NameAt (d : Packet) : Nat → Name → Prop
  | root {pos : Nat} : pos < d.length → labelLen d pos = 0 → NameAt d pos []
  | label {pos : Nat} {rest : Name} :
      IsLabel d pos → NameAt d (pos + labelLen d pos + 1) rest → NameAt d pos (labelAt d pos :: rest)
  | pointer {pos : Nat} {name : Name} :
      pos + 1 < d.length → isPointer (d.byte pos) = true → NameAt d (pointerOffset d pos) name →
        NameAt d pos name

/-- The same, and every pointer on the way leads back. -/
inductive Expands (d : Packet) : Nat → Name → Prop
  | root {pos : Nat} : pos < d.length → labelLen d pos = 0 → Expands d pos []
  | label {pos : Nat} {rest : Name} :
      IsLabel d pos → Expands d (pos + labelLen d pos + 1) rest → Expands d pos (labelAt d pos :: rest)
  | pointer {pos : Nat} {name : Name} : pos + 1 < d.length → isPointer (d.byte pos) = true →
      pointerOffset d pos < pos → Expands d (pointerOffset d pos) name → Expands d pos name

/-- The name at `pos` ends, in place, before the second position. -/
inductive NameEnds (d : Packet) : Nat → Nat → Prop
  | root {pos : Nat} : pos < d.length → labelLen d pos = 0 → NameEnds d pos (pos + 1)
  | label {pos stop : Nat} :
      IsLabel d pos → NameEnds d (pos + labelLen d pos + 1) stop → NameEnds d pos stop
  | pointer {pos : Nat} :
      pos + 1 < d.length → isPointer (d.byte pos) = true → NameEnds d pos (pos + 2)

/-- What holds of all bytes can be decided. -/
theorem forall_byte {p : UInt8 → Prop} (h : ∀ n : Fin 256, p (UInt8.ofFin n)) (b : UInt8) : p b :=
  h b.toFin

variable {d : Packet} {pos : Nat}

theorem isPointer_labelLen (h : isPointer (d.byte pos) = true) :
    maxDnsLabelLen < labelLen d pos := by
  have hall : ∀ b : UInt8, isPointer b = true → 63 < b.toNat := forall_byte (by decide +kernel)
  exact hall _ h

theorem IsLabel.not_pointer (h : IsLabel d pos) : ¬isPointer (d.byte pos) = true := by
  intro hpointer
  have := isPointer_labelLen hpointer
  have := h.short
  omega

theorem not_pointer_of_zero (h : labelLen d pos = 0) : ¬isPointer (d.byte pos) = true := by
  intro hpointer
  have := isPointer_labelLen hpointer
  omega

theorem IsLabel.length_labelAt (h : IsLabel d pos) : (labelAt d pos).length = labelLen d pos := by
  have := h.whole
  simp [labelAt]
  omega

theorem NameAt.unique {a b : Name} (ha : NameAt d pos a) (hb : NameAt d pos b) : a = b := by
  induction ha generalizing b with
  | root hin hzero =>
    cases hb with
    | root => rfl
    | label hlabel => exact absurd hzero hlabel.some
    | pointer _ hpointer => exact absurd hpointer (not_pointer_of_zero hzero)
  | label hlabel _ ih =>
    cases hb with
    | root _ hzero => exact absurd hzero hlabel.some
    | label _ hrest => rw [ih hrest]
    | pointer _ hpointer => exact absurd hpointer hlabel.not_pointer
  | pointer _ hpointer _ ih =>
    cases hb with
    | root _ hzero => exact absurd hpointer (not_pointer_of_zero hzero)
    | label hlabel => exact absurd hpointer hlabel.not_pointer
    | pointer _ _ htarget => exact ih htarget

theorem NameEnds.unique {a b : Nat} (ha : NameEnds d pos a) (hb : NameEnds d pos b) : a = b := by
  induction ha generalizing b with
  | root hin hzero =>
    cases hb with
    | root => rfl
    | label hlabel => exact absurd hzero hlabel.some
    | pointer _ hpointer => exact absurd hpointer (not_pointer_of_zero hzero)
  | label hlabel _ ih =>
    cases hb with
    | root _ hzero => exact absurd hzero hlabel.some
    | label _ hrest => exact ih hrest
    | pointer _ hpointer => exact absurd hpointer hlabel.not_pointer
  | pointer _ hpointer =>
    cases hb with
    | root _ hzero => exact absurd hpointer (not_pointer_of_zero hzero)
    | label hlabel => exact absurd hpointer hlabel.not_pointer
    | pointer => rfl

theorem NameAt.ne_nil {name : Name} (h : NameAt d pos name) : ∀ l ∈ name, l ≠ [] := by
  induction h with
  | root => exact fun l hl => absurd hl not_mem_nil
  | @label pos rest hlabel _ ih =>
    intro l hl
    rcases mem_cons.mp hl with rfl | hrest
    · have hpos := hlabel.some
      have hlength := hlabel.length_labelAt
      exact ne_nil_of_length_pos (by omega)
    · exact ih l hrest
  | pointer _ _ _ ih => exact ih

section expansion

variable {name : Name}

theorem Expands.nameAt (h : Expands d pos name) : NameAt d pos name := by
  induction h with
  | root hin hzero => exact .root hin hzero
  | label hlabel _ ih => exact .label hlabel ih
  | pointer hin hpointer _ _ ih => exact .pointer hin hpointer ih

theorem Expands.lt_length (h : Expands d pos name) : pos < d.length := by
  cases h with
  | root hin => exact hin
  | label hlabel =>
    have := hlabel.whole
    omega
  | pointer hin => omega

theorem expands_pointer (hpointer : isPointer (d.byte pos) = true) :
    Expands d pos name ↔
      pos + 1 < d.length ∧ pointerOffset d pos < pos ∧ Expands d (pointerOffset d pos) name := by
  constructor
  · intro h
    cases h with
    | root _ hzero => exact absurd hpointer (not_pointer_of_zero hzero)
    | label hlabel => exact absurd hpointer hlabel.not_pointer
    | pointer hin _ hback htarget => exact ⟨hin, hback, htarget⟩
  · rintro ⟨hin, hback, htarget⟩
    exact .pointer hin hpointer hback htarget

theorem expands_zero (hin : pos < d.length) (hzero : labelLen d pos = 0) :
    Expands d pos name ↔ name = [] := by
  constructor
  · intro h
    cases h with
    | root => rfl
    | label hlabel => exact absurd hzero hlabel.some
    | pointer _ hpointer =>
      exact absurd hpointer (not_pointer_of_zero hzero)
  · rintro rfl
    exact .root hin hzero

theorem expands_label (hzero : ¬labelLen d pos = 0) (hpointer : ¬isPointer (d.byte pos) = true) :
    Expands d pos name ↔
      ∃ rest, name = labelAt d pos :: rest ∧ IsLabel d pos ∧
        Expands d (pos + labelLen d pos + 1) rest := by
  constructor
  · intro h
    cases h with
    | root _ h => exact absurd h hzero
    | label hlabel hrest => exact ⟨_, rfl, hlabel, hrest⟩
    | pointer _ h => exact absurd h hpointer
  · rintro ⟨rest, rfl, hlabel, hrest⟩
    exact .label hlabel hrest

end expansion

/-! ## What the code reads -/

/-- `skip_dns_name`, with the labels that may still follow. It gives the position after the name, where
the source gives the number of bytes. -/
def skipLabels (d : Packet) : (labels : Nat) → (pos : Nat) → Option Nat
  | 0, _ => none
  | labels + 1, pos =>
    if d.length ≤ pos then none
    else if labelLen d pos = 0 then some (pos + 1)
    else if isPointer (d.byte pos) then
      if d.length ≤ pos + 1 then none
      else if d.length ≤ pointerOffset d pos then none
      else if pos ≤ pointerOffset d pos then none
      else some (pos + 2)
    else if maxDnsLabelLen < labelLen d pos then none
    else if d.length < pos + labelLen d pos + 1 then none
    else skipLabels d labels (pos + labelLen d pos + 1)

def skipDnsName (d : Packet) (pos : Nat) : Option Nat := skipLabels d maxDnsLabels pos

/-- The loop of `dns_label_to_domain`, with the labels that may still follow and what has been written. A
pointer leads back and a label uses up one of those that may follow, so the loop ends. -/
def copyLabelsInto (d : Packet) (size labels pos : Nat) (out : List UInt8) : Option (List UInt8) :=
  if labels = 0 then none
  else if d.length ≤ pos then none
  else if labelLen d pos = 0 then some out
  else if isPointer (d.byte pos) then
    if d.length ≤ pos + 1 then none
    else if d.length ≤ pointerOffset d pos ∨ pos ≤ pointerOffset d pos then none
    else copyLabelsInto d size labels (pointerOffset d pos) out
  else if maxDnsLabelLen < labelLen d pos then none
  else if d.length < pos + labelLen d pos + 1 then none
  else if size ≤ out.length + labelLen d pos + 2 then none
  else copyLabelsInto d size (labels - 1) (pos + labelLen d pos + 1) (out ++ labelAt d pos ++ [dot])
termination_by labels * (d.length + 1) + pos
decreasing_by
  · omega
  · rw [Nat.sub_mul, Nat.one_mul]
    have := Nat.le_mul_of_pos_left (d.length + 1) (Nat.pos_of_ne_zero ‹¬labels = 0›)
    omega

def dropTrailingDot (out : List UInt8) : List UInt8 :=
  if out.getLast? = some dot then out.dropLast else out

/-- `dns_label_to_domain`: the bytes before the final zero. -/
def dnsLabelToDomainInto (d : Packet) (size pos : Nat) : Option (List UInt8) :=
  (copyLabelsInto d size maxDnsLabels pos []).map dropTrailingDot

/-- The call with the buffer that every caller has. -/
def dnsLabelToDomain (d : Packet) (pos : Nat) : Option (List UInt8) :=
  dnsLabelToDomainInto d (maxDomainNameLen + 1) pos

/-! ## They read what stands there -/

theorem isLabel_of_checks (hpos : ¬labelLen d pos = 0)
    (hshort : ¬maxDnsLabelLen < labelLen d pos) (hwhole : ¬d.length < pos + labelLen d pos + 1) :
    IsLabel d pos :=
  ⟨hpos, Nat.le_of_not_lt hshort, Nat.le_of_not_lt hwhole⟩

theorem skipLabels_spec {labels stop : Nat}
    (h : skipLabels d labels pos = some stop) : NameEnds d pos stop := by
  fun_induction skipLabels d labels pos with
  | case3 labels pos hin hzero =>
    cases h
    exact .root (Nat.lt_of_not_le hin) hzero
  | case7 labels pos _ _ hpointer hboth =>
    cases h
    exact .pointer (Nat.lt_of_not_le hboth) hpointer
  | case10 labels pos _ hpos _ hshort hwhole ih =>
    exact .label (isLabel_of_checks hpos hshort hwhole) (ih h)
  | _ => cases h

theorem skipDnsName_spec {stop : Nat} (h : skipDnsName d pos = some stop) : NameEnds d pos stop :=
  skipLabels_spec h

variable {text : List UInt8} {size labels start : Nat} {out : List UInt8}

/-- What is written is the name at the start, each label with a dot, if it is short enough. -/
theorem copyLabelsInto_iff :
    copyLabelsInto d size labels pos out = some text ↔
      ∃ name, Expands d pos name ∧ name.length < labels ∧
        (name = [] ∨ (out ++ name.flatMap (· ++ [dot])).length + 2 ≤ size) ∧
        text = out ++ name.flatMap (· ++ [dot]) := by
  fun_induction copyLabelsInto d size labels pos out with
  | case1 => exact iff_of_false nofun fun ⟨_, _, hlabels, _⟩ => absurd hlabels (Nat.not_lt_zero _)
  | case2 _ _ _ _ hout => exact iff_of_false nofun fun ⟨_, h, _⟩ => absurd h.lt_length (by omega)
  | case3 labels pos out hlabels hin hzero =>
    -- the name ends here
    simp only [expands_zero (Nat.lt_of_not_le hin) hzero]
    simp [Nat.pos_of_ne_zero hlabels, eq_comm]
  | case4 _ pos _ _ _ _ hpointer hcut =>
    refine iff_of_false nofun fun ⟨_, h, _⟩ => ?_
    have := ((expands_pointer hpointer).mp h).1
    omega
  | case5 _ pos _ _ hin _ hpointer _ hback =>
    refine iff_of_false nofun fun ⟨_, h, _⟩ => ?_
    have := ((expands_pointer hpointer).mp h).2.1
    omega
  | case6 _ pos _ _ _ _ hpointer hboth hback ih =>
    rw [ih]
    simp only [expands_pointer hpointer, show pos + 1 < d.length by omega,
      show pointerOffset d pos < pos by omega, true_and]
  | case7 _ pos _ _ _ hzero hpointer hlong =>
    simp only [expands_label hzero hpointer]
    refine iff_of_false nofun fun ⟨_, ⟨_, _, hlabel, _⟩, _⟩ => ?_
    exact absurd hlabel.short (Nat.not_le_of_lt hlong)
  | case8 _ pos _ _ _ hzero hpointer _ hcut =>
    simp only [expands_label hzero hpointer]
    refine iff_of_false nofun fun ⟨_, ⟨_, _, hlabel, _⟩, _⟩ => ?_
    exact absurd hlabel.whole (Nat.not_le_of_lt hcut)
  | case9 _ pos out _ _ hzero hpointer _ _ hroom =>
    simp only [expands_label hzero hpointer]
    refine iff_of_false nofun ?_
    rintro ⟨_, ⟨rest, rfl, hlabel, -⟩, -, hfits, -⟩
    have := hlabel.length_labelAt
    simp at hfits
    omega
  | case10 labels pos out hlabels _ hzero hpointer hshort hwhole hroom ih =>
    -- one more label
    have hlabel := isLabel_of_checks hzero hshort hwhole
    have hlen := hlabel.length_labelAt
    simp only [expands_label hzero hpointer]
    rw [ih]
    constructor
    · rintro ⟨rest, hrest, hcount, hfits, rfl⟩
      refine ⟨_, ⟨rest, rfl, hlabel, hrest⟩, by simp; omega, .inr ?_, by simp⟩
      rcases hfits with rfl | hfits
      · simp
        omega
      · simpa [Nat.add_assoc] using hfits
    · rintro ⟨_, ⟨rest, rfl, -, hrest⟩, hcount, hfits, rfl⟩
      refine ⟨rest, hrest, by simp at hcount; omega, .inr ?_, by simp⟩
      simpa [Nat.add_assoc] using hfits

theorem dropTrailingDot_flatMap (name : Name) :
    dropTrailingDot (name.flatMap (· ++ [dot])) = [dot].intercalate name := by
  cases name with
  | nil => rfl
  | cons l rest =>
    rw [flatMap_pieces, dropTrailingDot, getLast?_concat, if_pos rfl, dropLast_concat]

theorem length_flatMap_dot (name : Name) :
    (name.flatMap (· ++ [dot])).length = (name.map (·.length + 1)).sum := by
  simp

/-- The string is that of the name the pointers and labels give, if it is short enough. -/
theorem dnsLabelToDomainInto_iff :
    dnsLabelToDomainInto d size pos = some text ↔
      ∃ name, Expands d pos name ∧ name.length < maxDnsLabels ∧
        (name.map (·.length + 1)).sum ≤ size - 2 ∧ text = [dot].intercalate name := by
  have hfits (name : Name) : (name = [] ∨ ([] ++ name.flatMap (· ++ [dot])).length + 2 ≤ size) ↔
      (name.map (·.length + 1)).sum ≤ size - 2 := by
    cases name with
    | nil => simp
    | cons l rest =>
      simp
      omega
  simp only [dnsLabelToDomainInto, Option.map_eq_some_iff, copyLabelsInto_iff, hfits]
  constructor
  · rintro ⟨out, ⟨name, hname, hlabels, hsum, rfl⟩, rfl⟩
    exact ⟨name, hname, hlabels, hsum, dropTrailingDot_flatMap name⟩
  · rintro ⟨name, hname, hlabels, hsum, rfl⟩
    exact ⟨_, ⟨name, hname, hlabels, hsum, rfl⟩, dropTrailingDot_flatMap name⟩

theorem dnsLabelToDomain_spec (h : dnsLabelToDomain d pos = some text) :
    ∃ name, NameAt d pos name ∧ text = [dot].intercalate name := by
  rw [dnsLabelToDomain, dnsLabelToDomainInto_iff] at h
  obtain ⟨name, hname, -, -, htext⟩ := h
  exact ⟨name, hname.nameAt, htext⟩

theorem Expands.skips {name : Name} (h : Expands d pos name) (hlabels : name.length < labels) :
    ∃ stop, skipLabels d labels pos = some stop := by
  obtain ⟨labels, rfl⟩ : ∃ n, labels = n + 1 := ⟨labels - 1, by omega⟩
  induction h generalizing labels with
  | root hin hzero => exact ⟨_, by rw [skipLabels, if_neg (Nat.not_le_of_lt hin), if_pos hzero]⟩
  | label hlabel _ ih =>
    have hshort := hlabel.short
    have hwhole := hlabel.whole
    rw [skipLabels, if_neg (by omega), if_neg hlabel.some, if_neg hlabel.not_pointer,
      if_neg (by omega), if_neg (by omega)]
    rw [length_cons] at hlabels
    obtain ⟨labels, rfl⟩ : ∃ n, labels = n + 1 := ⟨labels - 1, by omega⟩
    exact ih labels (by omega)
  | pointer hin hpointer hback =>
    have hzero := isPointer_labelLen hpointer
    exact ⟨_, by rw [skipLabels, if_neg (by omega), if_neg (by omega), if_pos hpointer,
      if_neg (by omega), if_neg (by omega), if_neg (by omega)]⟩

/-- A name is expanded as the standard says, and then it can also be skipped. The subtraction is that
of the natural numbers: the root fits in any buffer. -/
theorem expansion_exact (d : Packet) (size pos : Nat) :
    (∀ text, dnsLabelToDomainInto d size pos = some text ↔
      ∃ name, Expands d pos name ∧ name.length ≤ 126 ∧
        (name.map (·.length + 1)).sum ≤ size - 2 ∧ text = [dot].intercalate name) ∧
    ((dnsLabelToDomainInto d size pos).isSome = true →
      ∃ stop, skipDnsName d pos = some stop ∧ NameEnds d pos stop) ∧
    dnsLabelToDomain d pos = dnsLabelToDomainInto d (maxDomainNameLen + 1) pos := by
  have hiff (text : List UInt8) := @dnsLabelToDomainInto_iff d pos text size
  refine ⟨fun text => ?_, fun h => ?_, rfl⟩
  · rw [hiff]
    simp only [maxDnsLabels, Nat.lt_succ_iff]
  · obtain ⟨text, htext⟩ := Option.isSome_iff_exists.mp h
    obtain ⟨name, hname, hlabels, -⟩ := (hiff text).mp htext
    obtain ⟨stop, hstop⟩ := hname.skips hlabels
    exact ⟨stop, hstop, skipDnsName_spec hstop⟩

/-! ## Comparing -/

def toLower (b : UInt8) : UInt8 := if 0x41 ≤ b ∧ b ≤ 0x5A then b + 32 else b

/-- The C string in the buffer. -/
def cString (bytes : List UInt8) : List UInt8 := bytes.takeWhile (· != 0)

/-- `strcasecmp(a, b) == 0`. -/
def sameText (a b : List UInt8) : Bool := (cString a).map toLower == (cString b).map toLower

/-- The names have the same labels, without regard to case. -/
def SameName (a b : Name) : Prop := a.map (·.map toLower) = b.map (·.map toLower)

/-- No label has a dot or a zero. -/
def CleanName (name : Name) : Prop := ∀ l ∈ name, dot ∉ l ∧ 0 ∉ l

/-- The string stands for this name and for no other. -/
structure Spells (text : List UInt8) (name : Name) : Prop where
  joined : text = [dot].intercalate name
  clean : CleanName name
  root : text = [] → name = []

theorem map_intercalate_dot (name : Name) :
    ([dot].intercalate name).map toLower = [dot].intercalate (name.map (·.map toLower)) := by
  induction name with
  | nil => rfl
  | cons l rest ih =>
    cases rest with
    | nil => simp [List.intercalate]
    | cons m rest =>
      simp only [map_cons, intercalate_cons_cons, map_append] at ih ⊢
      rw [ih]
      rfl

theorem toLower_eq_dot {b : UInt8} (h : toLower b = dot) : b = dot := by
  have hall : ∀ b : UInt8, toLower b = dot → b = dot := forall_byte (by decide +kernel)
  exact hall b h

theorem CleanName.lower {name : Name} (h : CleanName name) :
    ∀ l ∈ name.map (·.map toLower), dot ∉ l := by
  intro l hl hmem
  obtain ⟨m, hm, rfl⟩ := mem_map.mp hl
  obtain ⟨b, hb, hlower⟩ := mem_map.mp hmem
  exact (h m hm).1 (toLower_eq_dot hlower ▸ hb)

theorem Spells.cString_eq {name : Name} (h : Spells text name) : cString text = text := by
  refine takeWhile_eq_self_iff.mpr fun b hb => ?_
  refine bne_iff_ne.mpr ?_
  rintro rfl
  have hjoined := h.joined
  cases name with
  | nil =>
    rw [hjoined] at hb
    cases hb
  | cons l rest =>
    rw [hjoined] at hb
    have hflat := mem_append_left [dot] hb
    rw [← flatMap_pieces, mem_flatMap] at hflat
    obtain ⟨m, hm, hzero⟩ := hflat
    rcases mem_append.mp hzero with hzero | hzero
    · exact (h.clean m hm).2 hzero
    · exact absurd (mem_singleton.mp hzero) (by decide)

theorem Spells.same_name {t u : List UInt8} {a b : Name} (ha : Spells t a) (hb : Spells u b)
    (h : sameText t u = true) : SameName a b := by
  rw [sameText, beq_iff_eq, ha.cString_eq, hb.cString_eq] at h
  by_cases hnil : t = []
  · subst hnil
    have hu : u = [] := map_eq_nil_iff.mp h.symm
    rw [ha.root rfl, hb.root hu]
    rfl
  · have hne : ∀ {v : List UInt8} {c : Name}, Spells v c → v ≠ [] → c.map (·.map toLower) ≠ [] := by
      intro v c hv hvne hc
      rw [map_eq_nil_iff] at hc
      exact hvne (by rw [hv.joined, hc]; rfl)
    have hu : u ≠ [] := by
      rintro rfl
      exact hnil (map_eq_nil_iff.mp h)
    have hlower : [dot].intercalate (a.map (·.map toLower)) =
        [dot].intercalate (b.map (·.map toLower)) := by
      rw [← map_intercalate_dot, ← map_intercalate_dot, ← ha.joined, ← hb.joined, h]
    calc a.map (·.map toLower)
        = ([dot].intercalate (a.map (·.map toLower))).splitOn dot :=
          (splitOn_intercalate dot ha.clean.lower (hne ha hnil)).symm
      _ = ([dot].intercalate (b.map (·.map toLower))).splitOn dot := by rw [hlower]
      _ = b.map (·.map toLower) := splitOn_intercalate dot hb.clean.lower (hne hb hu)

/-- A name of the message that has clean labels is the only one with its string. -/
theorem NameAt.spells {name : Name} (h : NameAt d pos name)
    (hclean : CleanName name) : Spells ([dot].intercalate name) name where
  joined := rfl
  clean := hclean
  root := by
    intro hnil
    cases name with
    | nil => rfl
    | cons l rest =>
      have hflat := flatMap_pieces dot l rest
      rw [hnil, flatMap_cons] at hflat
      have hlength := congrArg List.length hflat
      have hl := length_pos_iff.mpr (h.ne_nil l mem_cons_self)
      simp only [length_append, length_singleton, length_nil] at hlength
      omega

/-- A C string that is not empty stands for its labels. -/
theorem spells_splitOn (hne : text ≠ []) (hzero : 0 ∉ text) : Spells text (text.splitOn dot) where
  joined := (intercalate_splitOn dot).symm
  clean := fun _ hl => ⟨(splitOn_piece hl).1, fun h => hzero ((splitOn_piece hl).2 0 h)⟩
  root := fun hnil => absurd hnil hne

end TinyOS.Net.Dns
