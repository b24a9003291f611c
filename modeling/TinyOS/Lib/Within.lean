import Mathlib.Order.Defs.Unbundled

/-!
# State computations and the steps they make

How a `StateM` computation runs (`bind_run`, `pure_run`), and computations that
stay within a relation.

`Within R m`: whatever state the computation `m` starts in, `R` relates it to
the state `m` ends in. For a reflexive and transitive `R` the property passes
through `pure`, `>>=` and conditionals, so a program has it when its primitive
steps do.
-/

namespace TinyOS.Lib

universe u

variable {σ : Type u} {R : σ → σ → Prop} {α β : Type u}

/-! ## Running -/

theorem bind_run (m : StateM σ α) (f : α → StateM σ β) (s : σ) :
    (m >>= f) s = f (m s).1 (m s).2 := rfl

theorem pure_run (a : α) (s : σ) : (Pure.pure a : StateM σ α) s = (a, s) := rfl

/-! ## Staying within a relation -/

/-- Every run of `m` is a step of `R`. -/
def Within (R : σ → σ → Prop) (m : StateM σ α) : Prop := ∀ s, R s (m s).2

namespace Within

theorem pure [Std.Refl R] (a : α) : Within R (Pure.pure a : StateM σ α) :=
  fun s => Std.Refl.refl s

theorem bind [IsTrans σ R] {m : StateM σ α} {f : α → StateM σ β} (hm : Within R m)
    (hf : ∀ a, Within R (f a)) : Within R (m >>= f) := by
  intro s
  exact IsTrans.trans _ _ _ (hm s) (hf (m s).1 (m s).2)

theorem bindSome [IsTrans σ R] {m : StateM σ (Option α)} {f : Option α → StateM σ β}
    (hm : Within R m) (hnone : Within R (f none)) (hsome : ∀ a, Within R (f (some a))) :
    Within R (m >>= f) := by
  refine hm.bind fun found => ?_
  cases found with
  | none => exact hnone
  | some a => exact hsome a

theorem ite {c : Prop} [Decidable c] {m n : StateM σ α} (hm : Within R m) (hn : Within R n) :
    Within R (if c then m else n) := by
  split
  · exact hm
  · exact hn

theorem get [Std.Refl R] : Within R (MonadState.get : StateM σ σ) :=
  fun s => Std.Refl.refl s

theorem modify {f : σ → σ} (hf : ∀ s, R s (f s)) :
    Within R (modifyGet fun s => (PUnit.unit, f s) : StateM σ PUnit) :=
  fun s => hf s

end Within

end TinyOS.Lib
