import Mathlib.Data.List.Basic
import Mathlib.Data.List.SplitOn

/-!
# Tokens of a separated string

`tokens sep l` are the maximal runs of `l` without `sep`, empty runs dropped,
which is what a scanner that skips consecutive separators produces. Every token
is non-empty and `sep`-free (`tokens_isToken`), and a list of such runs is what
`join` of it splits into (`tokens_join`). Of the pieces that `List.splitOn` keeps, empty ones included,
the last section says what is in them (`splitOn_piece`).
-/

namespace TinyOS.Lib

open List

variable {α : Type*} [DecidableEq α]

/-- The scanning loop: `cur` is the run read so far. -/
def tokensFrom (sep : α) : List α → List α → List (List α)
  | [], cur => if cur = [] then [] else [cur]
  | c :: l, cur =>
    if c = sep then
      if cur = [] then tokensFrom sep l [] else cur :: tokensFrom sep l []
    else tokensFrom sep l (cur ++ [c])

/-- The maximal runs without `sep`. -/
def tokens (sep : α) (l : List α) : List (List α) := tokensFrom sep l []

/-- What a token looks like. -/
def IsToken (sep : α) (t : List α) : Prop := t ≠ [] ∧ sep ∉ t

/-- Each token with a separator before it. -/
def join (sep : α) (ts : List (List α)) : List α := ts.flatMap (sep :: ·)

theorem tokensFrom_isToken {sep : α} {l cur : List α} (hcur : sep ∉ cur) :
    ∀ t ∈ tokensFrom sep l cur, IsToken sep t := by
  induction l generalizing cur with
  | nil =>
    intro t ht
    simp only [tokensFrom] at ht
    split at ht
    · simp at ht
    rename_i hne
    rw [mem_singleton] at ht
    subst ht
    exact ⟨hne, hcur⟩
  | cons c l ih =>
    intro t ht
    simp only [tokensFrom] at ht
    split at ht
    · split at ht
      · exact ih (by simp) t ht
      -- the separator closes the current run
      rename_i hne
      rcases mem_cons.mp ht with heq | ht
      · subst heq
        exact ⟨hne, hcur⟩
      · exact ih (by simp) t ht
    · rename_i hc
      apply ih _ t ht
      simp [hcur, Ne.symm hc]

/-- Every token is non-empty and free of separators. -/
theorem tokens_isToken {sep : α} {l : List α} : ∀ t ∈ tokens sep l, IsToken sep t :=
  tokensFrom_isToken (by simp)

/-- Scanning a separator-free run only lengthens the current one. -/
theorem tokensFrom_append {sep : α} {t l cur : List α} (ht : sep ∉ t) :
    tokensFrom sep (t ++ l) cur = tokensFrom sep l (cur ++ t) := by
  induction t generalizing cur with
  | nil => simp
  | cons c t ih =>
    simp only [mem_cons, not_or] at ht
    rw [cons_append, tokensFrom, if_neg (Ne.symm ht.1), ih ht.2]
    simp

/-- A separator ends the current run. -/
theorem tokensFrom_append_sep {sep : α} {l l' cur : List α} :
    tokensFrom sep (l ++ sep :: l') cur = tokensFrom sep l cur ++ tokensFrom sep l' [] := by
  induction l generalizing cur with
  | nil =>
    simp only [nil_append, tokensFrom, if_true]
    split
    · rfl
    · rfl
  | cons c l ih =>
    simp only [cons_append, tokensFrom]
    split
    · split
      · exact ih
      · rw [ih, cons_append]
    · exact ih

theorem tokensFrom_join {sep : α} {ts : List (List α)} (hts : ∀ t ∈ ts, IsToken sep t)
    {cur : List α} :
    tokensFrom sep (join sep ts) cur = if cur = [] then ts else cur :: ts := by
  induction ts generalizing cur with
  | nil => simp [join, tokensFrom]
  | cons t ts ih =>
    rcases hts t (by simp) with ⟨hne, hfree⟩
    have hrest : ∀ t ∈ ts, IsToken sep t := fun u hu => hts u (by simp [hu])
    have hrun : tokensFrom sep (t ++ join sep ts) [] = t :: ts := by
      rw [tokensFrom_append hfree, ih hrest]
      simp [hne]
    show tokensFrom sep (sep :: (t ++ join sep ts)) cur = _
    rw [tokensFrom, if_pos rfl, hrun]

/-- Joining and splitting again gives the tokens back. -/
theorem tokens_join {sep : α} {ts : List (List α)} (hts : ∀ t ∈ ts, IsToken sep t) :
    tokens sep (join sep ts) = ts := by
  rw [tokens, tokensFrom_join hts, if_pos rfl]

/-! ## Splitting at every separator -/

section pieces

variable {β : Type*} {sep : β}

/-- Pieces with a separator behind each of them. -/
theorem flatMap_pieces (sep : β) (l : List β) (rest : List (List β)) :
    (l :: rest).flatMap (· ++ [sep]) = [sep].intercalate (l :: rest) ++ [sep] := by
  induction rest generalizing l with
  | nil => simp [List.intercalate]
  | cons m rest ih =>
    rw [flatMap_cons, ih]
    simp [List.intercalate]

theorem splitOn_piece [BEq β] [LawfulBEq β] {l t : List β} (ht : t ∈ l.splitOn sep) :
    sep ∉ t ∧ ∀ b ∈ t, b ∈ l := by
  induction l generalizing t with
  | nil => simp_all
  | cons b l ih =>
    rw [splitOn_cons_eq_if_modifyHead] at ht
    split at ht
    · rcases mem_cons.mp ht with rfl | ht
      · simp
      · exact ⟨(ih ht).1, fun c hc => mem_cons_of_mem _ ((ih ht).2 c hc)⟩
    rename_i hb
    obtain ⟨first, rest, hsplit⟩ := exists_cons_of_ne_nil (splitOn_ne_nil sep l)
    rw [hsplit] at ht ih
    rcases mem_cons.mp ht with rfl | ht
    · have hfirst := ih mem_cons_self
      refine ⟨fun hsep => ?_, fun c hc => ?_⟩
      · rcases mem_cons.mp hsep with rfl | hsep
        · exact hb (beq_self_eq_true _)
        · exact hfirst.1 hsep
      · rcases mem_cons.mp hc with rfl | hc
        · exact mem_cons_self
        · exact mem_cons_of_mem _ (hfirst.2 c hc)
    · have hrest := ih (mem_cons_of_mem _ ht)
      exact ⟨hrest.1, fun c hc => mem_cons_of_mem _ (hrest.2 c hc)⟩

end pieces

end TinyOS.Lib
