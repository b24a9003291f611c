import Mathlib.Data.List.Basic

/-!
# Chains of authenticated entries

A list of entries, each with a tag that a keyed function computed from the tag before it and the
entry. `Linked tag start l` says that the tags of `l` are the ones so computed, beginning from
`start`; `checkChain` is the loop that finds this out.

Where the function is injective, an entry cannot be changed without its tag, nor the tag without
the entry (`Linked.set`), and two entries cannot change places (`Linked.swap`).
-/

namespace TinyOS.Lib

open List

variable {α τ : Type*} {tag : τ → α → τ} {start : τ} {l l' : List (α × τ)} {e e' a b : α × τ}

theorem split_at {β : Type*} {l : List β} {i : Nat} {b : β} (h : l[i]? = some b) :
    ∃ A B, l = A ++ b :: B ∧ A.length = i := by
  obtain ⟨hlt, rfl⟩ := List.getElem?_eq_some_iff.mp h
  refine ⟨l.take i, l.drop (i + 1), ?_, length_take_of_le (Nat.le_of_lt hlt)⟩
  rw [← drop_eq_getElem_cons hlt, take_append_drop]

/-- Each tag is computed from the one before it. -/
def Linked (tag : τ → α → τ) : τ → List (α × τ) → Prop
  | _, [] => True
  | start, e :: l => e.2 = tag start e.1 ∧ Linked tag e.2 l

/-- The tag that the next entry is chained to. -/
def lastTag (start : τ) (l : List (α × τ)) : τ :=
  (l.getLast?.map Prod.snd).getD start

theorem lastTag_cons (start : τ) (e : α × τ) (l : List (α × τ)) :
    lastTag start (e :: l) = lastTag e.2 l := by
  cases l with
  | nil => rfl
  | cons e' l =>
    unfold lastTag
    simp [getLast?_cons]

@[simp] theorem lastTag_append_singleton (start : τ) (l : List (α × τ)) (e : α × τ) :
    lastTag start (l ++ [e]) = e.2 := by
  simp [lastTag]

namespace Linked

theorem append_iff :
    Linked tag start (l ++ l') ↔ Linked tag start l ∧ Linked tag (lastTag start l) l' := by
  induction l generalizing start with
  | nil => exact ⟨fun h => ⟨trivial, h⟩, fun h => h.2⟩
  | cons e l ih =>
    rw [cons_append, lastTag_cons]
    constructor
    · rintro ⟨he, h⟩
      exact ⟨⟨he, (ih.mp h).1⟩, (ih.mp h).2⟩
    · rintro ⟨⟨he, h⟩, h'⟩
      exact ⟨he, ih.mpr ⟨h, h'⟩⟩

/-- An entry that is tagged with the last tag extends the chain. -/
theorem snoc (h : Linked tag start l) (he : e.2 = tag (lastTag start l) e.1) :
    Linked tag start (l ++ [e]) :=
  append_iff.mpr ⟨h, he, trivial⟩

theorem middle (h : Linked tag start (l ++ e :: l')) :
    e.2 = tag (lastTag start l) e.1 ∧ Linked tag e.2 l' :=
  (append_iff.mp h).2

variable (hinj : ∀ p x q y, tag p x = tag q y → p = q ∧ x = y)

include hinj

/-- Two chains that differ in one place differ there in the entry and in the tag, or not at all. -/
theorem replace (h : Linked tag start (l ++ e :: l')) (h' : Linked tag start (l ++ e' :: l')) :
    e'.1 = e.1 ↔ e'.2 = e.2 := by
  have he := h.middle.1
  have he' := h'.middle.1
  constructor
  · intro heq
    rw [he, he', heq]
  · intro heq
    rw [he, he'] at heq
    exact (hinj _ _ _ _ heq).2

/-- Two entries of a chain that change places and leave a chain are equal. -/
theorem exchange {m : List (α × τ)} (h : Linked tag start (l ++ a :: (m ++ b :: l')))
    (h' : Linked tag start (l ++ b :: (m ++ a :: l'))) : a.1 = b.1 := by
  obtain ⟨ha, hm⟩ := h.middle
  obtain ⟨hb', hm'⟩ := h'.middle
  obtain ⟨hb, _⟩ := hm.middle
  -- the two entries were tagged after the same tag
  have hsame : lastTag a.2 m = lastTag start l := (hinj _ _ _ _ (hb.symm.trans hb')).1
  have htags : a.2 = b.2 := by
    cases m with
    | nil =>
      have ha' := hm'.middle.1
      have hsame' : lastTag start l = b.2 := (hinj _ _ _ _ (ha.symm.trans ha')).1
      exact hsame.trans hsame'
    | cons c m =>
      -- the entry after them is chained to either tag
      exact (hinj _ _ _ _ (hm.1.symm.trans hm'.1)).1
  rw [ha, hb'] at htags
  exact (hinj _ _ _ _ htags).2

/-- The same for the entry at an index. -/
theorem set (h : Linked tag start l) {i : Nat} (hi : l[i]? = some e)
    (h' : Linked tag start (l.set i e')) : e'.1 = e.1 ↔ e'.2 = e.2 := by
  obtain ⟨A, B, rfl, rfl⟩ := split_at hi
  rw [set_append_right _ _ (Nat.le_refl _), Nat.sub_self, set_cons_zero] at h'
  exact replace hinj h h'

/-- The same for two indices. -/
theorem swap (h : Linked tag start l) {i j : Nat} (hij : i < j) (hi : l[i]? = some a)
    (hj : l[j]? = some b) (h' : Linked tag start ((l.set i b).set j a)) : a.1 = b.1 := by
  -- the list falls into what is before, between and behind the two
  obtain ⟨A, R, rfl, rfl⟩ := split_at hi
  obtain ⟨k, rfl⟩ := Nat.exists_eq_add_of_lt hij
  rw [Nat.add_assoc, getElem?_append_right (by omega), Nat.add_sub_cancel_left,
    getElem?_cons_succ] at hj
  obtain ⟨B, C, rfl, rfl⟩ := split_at hj
  have hset : ((A ++ a :: (B ++ b :: C)).set A.length b).set (A.length + B.length + 1) a =
      A ++ b :: (B ++ a :: C) := by
    simp [set_append_right, Nat.add_assoc]
  rw [hset] at h'
  exact exchange hinj h h'

end Linked

/-! ## The loop -/

/-- Recompute every tag from the stored tag before it. -/
def checkChain [DecidableEq τ] (tag : τ → α → τ) : τ → List (α × τ) → Bool
  | _, [] => true
  | start, e :: l => if tag start e.1 = e.2 then checkChain tag e.2 l else false

theorem checkChain_iff [DecidableEq τ] : checkChain tag start l = true ↔ Linked tag start l := by
  induction l generalizing start with
  | nil => exact ⟨fun _ => trivial, fun _ => rfl⟩
  | cons e l ih =>
    rw [checkChain, Linked, ← ih]
    split
    · rename_i heq
      exact ⟨fun h => ⟨heq.symm, h⟩, fun h => h.2⟩
    rename_i hne
    constructor
    · intro h
      cases h
    · intro h
      exact absurd h.1.symm hne

end TinyOS.Lib
