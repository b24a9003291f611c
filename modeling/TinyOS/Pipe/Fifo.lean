import TinyOS.Pipe.System

/-!
# A pipe is a lossless queue

`Lossless` ties the ring to the history: what was stored is what was removed, followed by
what is in the pipe, and each call in progress has stored a prefix of its data. Every
event keeps it, and every call that returns tells the truth about what it did (`Honest`).
-/

namespace TinyOS.Pipe

open Lib List PipeBuffer Sys

/-- The bytes that one call contributed to a history. -/
def bytesOf (id : CallId) (l : List (CallId × List UInt8)) : List UInt8 :=
  (l.filter fun c => c.1 = id).flatMap Prod.snd

theorem bytesOf_append (id : CallId) (l l' : List (CallId × List UInt8)) :
    bytesOf id (l ++ l') = bytesOf id l ++ bytesOf id l' := by
  simp [bytesOf]

theorem bytesOf_self (id : CallId) (bytes : List UInt8) : bytesOf id [(id, bytes)] = bytes := by
  simp [bytesOf]

theorem bytesOf_ne {id id' : CallId} (h : id' ≠ id) (bytes : List UInt8) :
    bytesOf id [(id', bytes)] = [] := by
  simp [bytesOf, h]

namespace Sys

def storedBytes (s : Sys) : List UInt8 := s.chunks.flatMap Prod.snd

def removedBytes (s : Sys) : List UInt8 := s.takes.flatMap Prod.snd

end Sys

/-- What a call in progress has done so far. -/
def Call.InProgress (s : Sys) : Call → Prop
  | .write id data total => total ≤ data.val.length ∧ bytesOf id s.chunks = data.val.take total
  | .read id _ => bytesOf id s.takes = []

/-- The history is what the pipe and the calls say. -/
structure Lossless (s : Sys) : Prop where
  valid : s.pipe.Valid
  allocated : s.pipe.allocated = true
  capture : s.pipe.capture = false
  history : s.storedBytes = s.removedBytes ++ s.pipe.contents
  calls : ∀ t c, s.calls t = some c → c.id < s.nextId ∧ c.InProgress s
  distinct : ∀ t t' c c', s.calls t = some c → s.calls t' = some c' → c.id = c'.id → t = t'
  fresh : ∀ id, s.nextId ≤ id → bytesOf id s.chunks = [] ∧ bytesOf id s.takes = []

/-- A call that returned tells the truth. A write that returns `k` has stored the first `k`
bytes of its data, all of them unless the read end is closed. A read has removed what it
returns, and returns nothing only at the end of the data. -/
def Return.Honest (s : Sys) : Return → Prop
  | .write id data k => 0 ≤ k →
      k.toNat ≤ data.val.length ∧ bytesOf id s.chunks = data.val.take k.toNat ∧
        (k = data.val.length ∨ s.pipe.readClosed = true)
  | .read id size bytes =>
    bytesOf id s.takes = bytes ∧ bytes.length ≤ size ∧
      (0 < size → bytes = [] → s.pipe.writeClosed = true ∧ s.removedBytes = s.storedBytes)

/-- An event keeps the invariant, and a call it ends is honest. -/
def Keeps (s s' : Sys) : Prop :=
  Lossless s' ∧ ∀ r, s'.returned = s.returned ++ [r] → r.Honest s'

namespace Lossless

variable {s : Sys} {t : TaskId} {id : CallId} {data : Data} {total n size : Nat} {r : Return}

theorem init : Lossless Sys.init where
  valid := pipeInit_valid true
  allocated := rfl
  capture := rfl
  history := rfl
  calls t c h := by cases h
  distinct t t' c c' h := by cases h
  fresh id _ := ⟨rfl, rfl⟩

variable (h : Lossless s)

include h

theorem sleepOn (q : Side) : Lossless (s.sleepOn q t) := { h with }

theorem wake (q : Side) : Lossless (s.wake q) := { h with }

/-- The task `t` goes on to `c`; the other calls are where they were, and so is what they have
done. -/
theorem setCall {s' : Sys} {c : Option Call} (hvalid : s'.pipe.Valid)
    (hflags : PipeBuffer.SameFlags s.pipe s'.pipe)
    (hhistory : s'.storedBytes = s'.removedBytes ++ s'.pipe.contents)
    (hnext : s.nextId ≤ s'.nextId) (hcalls : s'.calls = s.calls)
    (hc : ∀ c' ∈ c, c'.id < s'.nextId ∧ c'.InProgress s' ∧
      ∀ t' c'', t' ≠ t → s.calls t' = some c'' → c''.id ≠ c'.id)
    (hothers : ∀ t' c', t' ≠ t → s.calls t' = some c' → c'.InProgress s → c'.InProgress s')
    (hfresh : ∀ id, s'.nextId ≤ id → bytesOf id s'.chunks = [] ∧ bytesOf id s'.takes = []) :
    Lossless (s'.setCall t c) where
  valid := hvalid
  allocated := hflags.allocated.trans h.allocated
  capture := hflags.capture.trans h.capture
  history := hhistory
  fresh := hfresh
  calls t' c' hc' := by
    by_cases ht : t' = t
    · subst ht
      rw [setCall_self] at hc'
      obtain ⟨hlt, hprog, -⟩ := hc c' hc'
      refine ⟨hlt, ?_⟩
      cases c' <;> exact hprog
    · rw [setCall_ne _ ht, hcalls] at hc'
      obtain ⟨hlt, hprog⟩ := h.calls t' c' hc'
      refine ⟨hlt.trans_le hnext, ?_⟩
      have := hothers t' c' ht hc' hprog
      cases c' <;> exact this
  distinct t₁ t₂ c₁ c₂ h₁ h₂ hid := by
    by_cases ht₁ : t₁ = t
    · by_cases ht₂ : t₂ = t
      · exact ht₁.trans ht₂.symm
      rw [ht₁, setCall_self] at h₁
      rw [setCall_ne _ ht₂, hcalls] at h₂
      exact absurd hid.symm ((hc c₁ h₁).2.2 t₂ c₂ ht₂ h₂)
    · rw [setCall_ne _ ht₁, hcalls] at h₁
      by_cases ht₂ : t₂ = t
      · rw [ht₂, setCall_self] at h₂
        exact absurd hid ((hc c₂ h₂).2.2 t₁ c₁ ht₁ h₁)
      · rw [setCall_ne _ ht₂, hcalls] at h₂
        exact h.distinct t₁ t₂ c₁ c₂ h₁ h₂ hid

omit h in
theorem refl_flags (p : PipeBuffer) : PipeBuffer.SameFlags p p := ⟨rfl, rfl, rfl, rfl⟩

theorem finish (r : Return) : Lossless (s.finish t r) := by
  have hset : Lossless (s.setCall t none) :=
    h.setCall h.valid (refl_flags s.pipe) h.history le_rfl rfl
      (fun c' hc' => by cases hc') (fun _ _ _ _ hprog => hprog) h.fresh
  exact { hset with }

theorem number : Lossless { s with nextId := s.nextId + 1 } :=
  { h with
    fresh := fun id hid => h.fresh id (Nat.le_of_succ_le hid)
    calls := fun t c hc => by
      obtain ⟨hlt, hprog⟩ := h.calls t c hc
      refine ⟨Nat.lt_succ_of_lt hlt, ?_⟩
      cases c <;> exact hprog }

theorem begins {c : Call} (hid : c.id = s.nextId)
    (hprog : c.InProgress { s with nextId := s.nextId + 1 }) :
    Lossless (({ s with nextId := s.nextId + 1 } : Sys).setCall t (some c)) := by
  refine h.number.setCall h.valid (refl_flags s.pipe) h.history le_rfl rfl ?_
    (fun _ _ _ _ hprog' => hprog') h.number.fresh
  intro c' hc'
  cases hc'
  refine ⟨?_, hprog, fun t' c'' _ hc'' heq => ?_⟩
  · rw [hid]
    exact Nat.lt_succ_self _
  · -- the calls in progress have smaller numbers
    have hlt := (h.calls t' c'' hc'').1
    rw [heq, hid] at hlt
    exact Nat.lt_irrefl _ hlt

theorem store (hcall : s.calls t = some (.write id data total))
    (hrest : total + n ≤ data.val.length) (hroom : n ≤ s.pipe.room) :
    Lossless ((s.putChunk id ((data.val.drop total).take n)).setCall t
      (some (.write id data (total + n)))) := by
  have hlen : ((data.val.drop total).take n).length = n := by
    rw [length_take, length_drop]
    omega
  have hfits : ((data.val.drop total).take n).length ≤ s.pipe.room := hlen.trans_le hroom
  obtain ⟨hlt, -, hdone⟩ := h.calls t _ hcall
  refine h.setCall (store_valid h.valid hfits) (store_flags _ _) ?_ le_rfl rfl
    ?_ ?_ ?_
  · show (s.chunks ++ [(id, _)]).flatMap Prod.snd = s.removedBytes ++ (s.pipe.store _).contents
    rw [flatMap_append, contents_store h.valid hfits, ← append_assoc,
      ← h.history]
    simp [storedBytes]
  · intro c' hc'
    cases hc'
    refine ⟨hlt, ⟨hrest, ?_⟩, fun t' c'' ht' hc'' heq => ht' (h.distinct t' t c'' _ hc'' hcall heq)⟩
    show bytesOf id (s.chunks ++ [(id, _)]) = _
    rw [bytesOf_append, bytesOf_self, hdone, take_add]
  · -- the other calls have other numbers
    intro t' c' ht' hc' hprog
    cases c' with
    | read id' size' => exact hprog
    | write id' data' total' =>
      have hne : id ≠ id' := fun heq => ht' (h.distinct t' t _ _ hc' hcall heq.symm)
      refine ⟨hprog.1, ?_⟩
      show bytesOf id' (s.chunks ++ [(id, _)]) = _
      rw [bytesOf_append, bytesOf_ne hne, append_nil, hprog.2]
  · intro id' hid'
    have hne : id ≠ id' := fun heq => Nat.not_le_of_lt hlt (heq ▸ hid')
    refine ⟨?_, (h.fresh id' hid').2⟩
    show bytesOf id' (s.chunks ++ [(id, _)]) = _
    rw [bytesOf_append, bytesOf_ne hne, append_nil, (h.fresh id' hid').1]

theorem take (hcall : s.calls t = some (.read id size)) (hn : n ≤ s.pipe.dataSize) :
    Lossless ((s.takeChunk id n).setCall t none) := by
  obtain ⟨hlt, -⟩ := h.calls t _ hcall
  refine h.setCall (load_valid h.valid hn) (load_flags h.valid) ?_ le_rfl rfl
    (fun c' hc' => by cases hc') ?_ ?_
  · show s.storedBytes = (s.takes ++ [(id, _)]).flatMap Prod.snd ++ (s.pipe.load n).2.contents
    rw [flatMap_append, contents_load h.valid, load_fst h.valid hn,
      h.history]
    simp [removedBytes]
  · intro t' c' ht' hc' hprog
    cases c' with
    | write id' data' total' => exact hprog
    | read id' size' =>
      have hne : id ≠ id' := fun heq => ht' (h.distinct t' t _ _ hc' hcall heq.symm)
      show bytesOf id' (s.takes ++ [(id, _)]) = []
      rw [bytesOf_append, bytesOf_ne hne, append_nil]
      exact hprog
  · intro id' hid'
    have hne : id ≠ id' := fun heq => Nat.not_le_of_lt hlt (heq ▸ hid')
    refine ⟨(h.fresh id' hid').1, ?_⟩
    show bytesOf id' (s.takes ++ [(id, _)]) = _
    rw [bytesOf_append, bytesOf_ne hne, append_nil, (h.fresh id' hid').2]

end Lossless

/-! ## Every event -/

namespace Keeps

variable {s s' : Sys} {t : TaskId} {id : CallId} {data : Data} {total size : Nat} {r : Return}

theorem quiet (h : Lossless s') (hret : s'.returned = s.returned) : Keeps s s' := by
  refine ⟨h, fun r hr => ?_⟩
  rw [hret] at hr
  exact absurd hr (by simp)

theorem returns (h : Lossless s') (hret : s'.returned = s.returned ++ [r]) (hr : r.Honest s') :
    Keeps s s' := by
  refine ⟨h, fun r' hr' => ?_⟩
  rw [hret] at hr'
  obtain rfl := singleton_inj.mp (append_cancel_left hr')
  exact hr

theorem toInt_nonneg {n : Nat} (hn : n < 2 ^ 32) (h : 0 ≤ toInt n) : toInt n = n ∧ (toInt n).toNat = n := by
  unfold toInt at *
  split at h
  · next hlt => rw [if_pos hlt]; exact ⟨rfl, rfl⟩
  · omega

/-- A write that returns the number of bytes it has stored is honest. -/
theorem write_returns (h : Lossless s) (hcall : s.calls t = some (.write id data total))
    (hall : total = data.val.length ∨ s.pipe.readClosed = true) :
    Keeps s (s.finish t (.write id data (toInt total))) := by
  obtain ⟨-, hle, hdone⟩ := h.calls t _ hcall
  refine returns (h.finish _) rfl fun hk => ?_
  obtain ⟨hcast, hnat⟩ := toInt_nonneg (hle.trans_lt data.property) hk
  rw [hnat]
  refine ⟨hle, hdone, ?_⟩
  rcases hall with hall | hall
  · left
    rw [hcast, hall]
  · exact Or.inr hall

theorem writePass (h : Lossless s) (hcall : s.calls t = some (.write id data total))
    (hlt : total < data.val.length) : Keeps s (s.writePass t id data total) := by
  unfold Sys.writePass
  split
  · next hbroken =>
    -- the pipe has its queues, so the read end is closed
    have hclosed : s.pipe.readClosed = true := by simpa [h.allocated] using hbroken
    by_cases htotal : total > 0
    · rw [if_pos htotal]
      exact write_returns h hcall (Or.inr hclosed)
    · rw [if_neg htotal]
      exact returns (h.finish _) rfl fun hk => absurd hk (by decide)
  split
  · exact quiet (h.sleepOn .writers) rfl
  have hn : (if data.val.length - total < pipeBufferSize - s.pipe.dataSize then
      data.val.length - total else pipeBufferSize - s.pipe.dataSize) =
      min (data.val.length - total) s.pipe.room := by
    simp only [PipeBuffer.room]
    split <;> omega
  simp only [hn]
  refine quiet (Lossless.wake (h.store hcall ?_ (Nat.min_le_right _ _)) .readers) rfl
  omega

theorem readPass (h : Lossless s) (hcall : s.calls t = some (.read id size)) :
    Keeps s (s.readPass t id size) := by
  have hnone := (h.calls t _ hcall).2
  unfold Sys.readPass
  split
  · next heof =>
    have hempty : s.pipe.dataSize = 0 ∧ s.pipe.writeClosed = true := by
      simpa [h.allocated] using heof
    refine returns (h.finish _) rfl ⟨hnone, Nat.zero_le _, fun _ _ => ⟨hempty.2, ?_⟩⟩
    have hcontents : s.pipe.contents = [] := by
      rw [← length_eq_zero_iff, length_contents]
      exact hempty.1
    show s.removedBytes = s.storedBytes
    rw [h.history, hcontents, append_nil]
  split
  · have hn : (if size < s.pipe.dataSize then size else s.pipe.dataSize) =
        min size s.pipe.dataSize := by
      split <;> omega
    simp only [hn]
    have hle : min size s.pipe.dataSize ≤ s.pipe.dataSize := Nat.min_le_right _ _
    have hlen : (s.pipe.load (min size s.pipe.dataSize)).1.length = min size s.pipe.dataSize := by
      rw [load_fst h.valid hle, length_take, length_contents]
      omega
    have htake := h.take hcall hle
    refine returns { htake with } rfl ⟨?_, ?_, fun hsize hnil => ?_⟩
    · show bytesOf id (s.takes ++ [(id, _)]) = _
      rw [bytesOf_append, bytesOf_self, hnone, nil_append]
    · rw [hlen]
      exact Nat.min_le_left _ _
    · -- there was something to read
      rw [hnil, length_nil] at hlen
      omega
  · exact quiet (h.sleepOn .readers) rfl

theorem step (h : Lossless s) {e : Event} (hstep : s.Steps e s') : Keeps s s' := by
  cases e with
  | write t data =>
    simp only [Sys.Steps, Sys.step, Option.ite_none_right_eq_some, Option.some.injEq] at hstep
    obtain ⟨-, rfl⟩ := hstep
    unfold Sys.pipeWrite
    simp only [h.capture, h.allocated, Bool.not_true, Bool.or_false, Bool.false_eq_true, if_false]
    split
    · exact returns (h.number.finish _) rfl fun hk => absurd hk (by decide)
    · refine quiet (h.begins rfl ⟨Nat.zero_le _, ?_⟩) rfl
      exact (h.fresh s.nextId le_rfl).1
  | read t size =>
    simp only [Sys.Steps, Sys.step, Option.ite_none_right_eq_some, Option.some.injEq] at hstep
    obtain ⟨-, rfl⟩ := hstep
    unfold Sys.pipeRead
    simp only [h.allocated, Bool.not_true, Bool.false_eq_true, if_false]
    exact quiet (h.begins rfl (h.fresh s.nextId le_rfl).2) rfl
  | run t =>
    simp only [Sys.Steps, Sys.step, Sys.run] at hstep
    split at hstep
    · cases hstep
    split at hstep
    · cases hstep
    · next id data total hcall =>
      cases hstep
      unfold writeTurn
      split
      · next hlt => exact writePass h hcall hlt
      have hle := (h.calls t _ hcall).2.1
      exact write_returns h hcall (Or.inl (by omega))
    · next id size hcall =>
      cases hstep
      exact readPass h hcall
  | closeWrite | closeRead =>
    cases hstep
    exact quiet { h with valid := ⟨h.valid.size_le, h.valid.read_lt, h.valid.write_eq⟩ } rfl

end Keeps

/-- In every state that any number of tasks can reach with any calls: what was removed is a
prefix of what was stored, the size of the pipe is the difference and at most 4096, and every
call that returns next is honest. -/
theorem blocking_pipe_is_lossless_fifo {events : List Event} {s : Sys}
    (hrun : Run Sys.Steps Sys.init events s) :
    s.removedBytes <+: s.storedBytes ∧
      s.removedBytes.length + s.pipe.dataSize = s.storedBytes.length ∧
      s.pipe.dataSize ≤ pipeBufferSize ∧
      ∀ e s' r, s.Steps e s' → s'.returned = s.returned ++ [r] → r.Honest s' := by
  have h : Lossless s := hrun.invariant (fun s e s' h hstep => (Keeps.step h hstep).1) Lossless.init
  refine ⟨?_, ?_, h.valid.size_le, fun e s' r hstep => (Keeps.step h hstep).2 r⟩
  · rw [h.history]
    exact prefix_append _ _
  · rw [h.history, length_append, length_contents]

/-- Three bytes are stored, and the first two of them are read. -/
theorem two_of_three_bytes_are_read :
    ∃ s s', Run Sys.Steps Sys.init [.write 1 ⟨[7, 8, 9], by decide⟩, .run 1, .read 2 2] s ∧
      s.Steps (.run 2) s' ∧ s'.returned = s.returned ++ [.read 1 2 [7, 8]] ∧
      s.removedBytes <+: s.storedBytes ∧ (Return.read 1 2 [7, 8]).Honest s' := by
  have hrun : ∃ s, Run Sys.Steps init [.write 1 ⟨[7, 8, 9], by decide⟩, .run 1, .read 2 2] s ∧
      ∃ s', s.Steps (.run 2) s' ∧ s'.returned = s.returned ++ [.read 1 2 [7, 8]] :=
    ⟨_, .cons rfl (.cons rfl (.cons rfl (.nil _))), _, rfl, rfl⟩
  obtain ⟨s, hrun, s', hstep, hret⟩ := hrun
  obtain ⟨hfix, -, -, hhonest⟩ := blocking_pipe_is_lossless_fifo hrun
  exact ⟨s, s', hrun, hstep, hret, hfix, hhonest _ _ _ hstep hret⟩

end TinyOS.Pipe
