import TinyOS.Audit.Log

/-!
# The audit log's integrity check

Where the HMAC is injective, `audit_verify_integrity` accepts the log as it was written and rejects
it after any event has been changed or two events have changed places, as long as the buffer has
not overwritten an event (`Roomy`). It leaves the chain as it was.

The check begins the chain with zeros, also when the oldest event that is left was chained to an
event that is gone. It rejects a log that has overwritten events.
-/

namespace TinyOS.Audit

open TinyOS.Lib Function List

variable {Mac : Type} {hmac : Mac → Fields → Mac} {zero : Mac} {s s' : State Mac}

/-! ## What the check looks at -/

/-- The events that are still there, from the oldest. -/
def State.retained (s : State Mac) : List (Event Mac) :=
  (List.range s.count).map fun i => s.buffer (s.slot i)

/-- Everything that later events depend on. -/
structure SameChain (s s' : State Mac) : Prop where
  buffer : s'.buffer = s.buffer
  head : s'.head = s.head
  count : s'.count = s.count
  sequence : s'.sequence = s.sequence
  prevHmac : s'.prevHmac = s.prevHmac

section verify

variable [DecidableEq Mac]

theorem verifyLoop_spec (start : Nat) (s : State Mac) (chain : Mac) (is : List Nat) :
    (verifyLoop hmac start s chain is).1 = checkChain hmac chain
      (is.map fun i => s.buffer ((start + i) % auditBufferSize)) ∧
    SameChain s (verifyLoop hmac start s chain is).2 := by
  induction is generalizing chain with
  | nil => exact ⟨rfl, rfl, rfl, rfl, rfl, rfl⟩
  | cons i is ih =>
    -- lending `audit_prev_hmac` and putting it back leaves the state as it was
    have hturn : verifyLoop hmac start s chain (i :: is) =
        let e := s.buffer ((start + i) % auditBufferSize)
        if hmac chain e.1 ≠ e.2 then (false, { s with tamperDetections := s.tamperDetections + 1 })
        else verifyLoop hmac start s e.2 is := rfl
    rw [hturn, map_cons, checkChain]
    generalize s.buffer ((start + i) % auditBufferSize) = e
    by_cases heq : hmac chain e.1 = e.2
    · rw [if_neg (not_not.mpr heq), if_pos heq]
      exact ih _
    · rw [if_pos heq, if_neg heq]
      exact ⟨rfl, rfl, rfl, rfl, rfl, rfl⟩

theorem verify_iff (s : State Mac) :
    (auditVerifyIntegrity hmac zero s).1 = true ↔ Linked hmac zero s.retained := by
  rw [← checkChain_iff, auditVerifyIntegrity, (verifyLoop_spec _ _ _ _).1]
  rfl

theorem verify_sameChain (s : State Mac) : SameChain s (auditVerifyIntegrity hmac zero s).2 :=
  (verifyLoop_spec _ _ _ _).2

end verify

/-! ## The log before anything is overwritten -/

/-- The buffer holds the whole chain, in order, from its first slot. -/
structure Whole (hmac : Mac → Fields → Mac) (zero : Mac) (s : State Mac) : Prop where
  count : s.count ≤ auditBufferSize
  head : s.head = s.count % auditBufferSize
  linked : Linked hmac zero ((List.range s.count).map s.buffer)
  last : s.prevHmac = lastTag zero ((List.range s.count).map s.buffer)
  sequence : ∀ i < s.count, s.sequence = (s.buffer i).1.sequence + UInt32.ofNat (s.count - i)

theorem Whole.slot_eq (h : Whole hmac zero s) {i : Nat} (hi : i < s.count) : s.slot i = i := by
  have hcount := h.count
  have hstart : s.startIdx = 0 := by
    unfold State.startIdx
    split
    · rfl
    · rw [h.head, show s.count = auditBufferSize by omega, Nat.mod_self]
  rw [State.slot, hstart, Nat.zero_add, Nat.mod_eq_of_lt (by omega)]

theorem Whole.retained_eq (h : Whole hmac zero s) :
    s.retained = (List.range s.count).map s.buffer := by
  apply map_congr_left
  intro i hi
  rw [h.slot_eq (mem_range.mp hi)]

theorem range_map_update {α : Type*} (n : Nat) (f : Nat → α) (a : α) :
    (List.range (n + 1)).map (update f n a) = (List.range n).map f ++ [a] := by
  rw [range_succ, map_append, map_singleton, update_self]
  congr 1
  apply map_congr_left
  intro i hi
  rw [update_of_ne (Nat.ne_of_lt (mem_range.mp hi))]

/-- An event that is chained to the last one is appended, while there is room. -/
theorem Whole.append (h : Whole hmac zero s) (hroom : s.count < auditBufferSize) {e : Event Mac}
    (htag : e.2 = hmac s.prevHmac e.1) (hseq : e.1.sequence = s.sequence) :
    Whole hmac zero (s.append e) ∧ (s.append e).count = s.count + 1 := by
  have hhead : s.head = s.count := by rw [h.head, Nat.mod_eq_of_lt hroom]
  have hcount : (s.append e).count = s.count + 1 := if_pos hroom
  have hbuffer : (s.append e).buffer = update s.buffer s.count e := by
    rw [← hhead]
    rfl
  have hall : (List.range (s.append e).count).map (s.append e).buffer =
      (List.range s.count).map s.buffer ++ [e] := by
    rw [hcount, hbuffer, range_map_update]
  refine ⟨?_, hcount⟩
  constructor
  case count => omega
  case head =>
    rw [hcount, ← hhead]
    rfl
  case linked =>
    rw [hall]
    apply h.linked.snoc
    rw [htag, h.last]
  case last =>
    rw [hall, lastTag_append_singleton]
    rfl
  case sequence =>
    intro i hi
    rw [hcount] at hi ⊢
    show s.sequence + 1 = _
    rw [hbuffer]
    by_cases hlast : i = s.count
    · subst hlast
      rw [update_self, hseq, Nat.add_sub_cancel_left]
      rfl
    · rw [update_of_ne hlast, h.sequence i (by omega),
        show s.count + 1 - i = (s.count - i) + 1 by omega, UInt32.ofNat_add, UInt32.add_assoc]
      rfl

theorem whole_empty {s : State Mac} (hcount : s.count = 0) (hhead : s.head = 0)
    (hprev : s.prevHmac = zero) : Whole hmac zero s where
  count := by omega
  head := by rw [hcount, hhead, Nat.zero_mod]
  linked := by
    rw [hcount]
    trivial
  last := by
    rw [hcount, hprev]
    rfl
  sequence i hi := by omega

theorem auditInit_whole (ctx : Context) :
    Whole hmac zero (auditInit hmac zero ctx) ∧ (auditInit hmac zero ctx).count = 1 := by
  refine Whole.append ?_ (show 0 < auditBufferSize by decide) rfl rfl
  exact whole_empty rfl rfl rfl

/-! ## Histories that overwrite nothing -/

/-- What is logged finds a free slot. When root clears the log it does not matter. -/
def Roomy (s : State Mac) : Op → Prop
  | .log _ _ _ _ _ => s.count < auditBufferSize
  | .clear _ uid => uid ≠ 0 → s.count < auditBufferSize

instance (s : State Mac) : (op : Op) → Decidable (Roomy s op)
  | .log _ _ _ _ _ => inferInstanceAs (Decidable (_ < _))
  | .clear _ _ => inferInstanceAs (Decidable (_ → _))

theorem step_whole (h : Whole hmac zero s) {op : Op} (hroom : Roomy s op) :
    Whole hmac zero (step hmac zero s op) := by
  cases op with
  | log ctx type severity uid description => exact (h.append hroom rfl rfl).1
  | clear ctx uid =>
    simp only [step, auditClear]
    split
    · rename_i huid
      exact (h.append (hroom huid) rfl rfl).1
    · exact whole_empty rfl rfl rfl

def RoomyStep (hmac : Mac → Fields → Mac) (zero : Mac) (s : State Mac) (op : Op) (s' : State Mac) :
    Prop :=
  Roomy s op ∧ step hmac zero s op = s'

theorem roomy_run_whole {ctx : Context} {ops : List Op}
    (hrun : Run (RoomyStep hmac zero) (auditInit hmac zero ctx) ops s) : Whole hmac zero s := by
  apply hrun.invariant _ (auditInit_whole ctx).1
  rintro s op s' h ⟨hroom, rfl⟩
  exact step_whole h hroom

/-! ## Changes behind the log's back -/

/-- A slot of the buffer is overwritten. -/
def State.write (s : State Mac) (slot : Nat) (event : Event Mac) : State Mac :=
  { s with buffer := update s.buffer slot event }

/-- A field that the HMAC covers was changed, or the HMAC. -/
def Altered (old new : Event Mac) : Prop :=
  (new.1 ≠ old.1 ∧ new.2 = old.2) ∨ (new.1 = old.1 ∧ new.2 ≠ old.2)

theorem range_map_update_lt {α : Type*} {n i : Nat} (f : Nat → α) (a : α) :
    (List.range n).map (update f i a) = ((List.range n).map f).set i a := by
  apply ext_getElem
  · simp
  · intro j hj hj'
    by_cases h : i = j
    · subst h
      simp
    · simp [h, update_of_ne (Ne.symm h)]

theorem Whole.retained_write (h : Whole hmac zero s) {i : Nat} (hi : i < s.count) (e : Event Mac) :
    (s.write (s.slot i) e).retained = ((List.range s.count).map s.buffer).set i e := by
  rw [h.slot_eq hi, ← range_map_update_lt]
  apply map_congr_left
  intro j hj
  show update s.buffer i e (s.slot j) = _
  rw [h.slot_eq (mem_range.mp hj)]

theorem Whole.getElem? (h : Whole hmac zero s) {i : Nat} (hi : i < s.count) :
    ((List.range s.count).map s.buffer)[i]? = some (s.buffer (s.slot i)) := by
  rw [h.slot_eq hi]
  simp [hi]

theorem Whole.sequence_ne (h : Whole hmac zero s) {i j : Nat} (hij : i < j) (hj : j < s.count) :
    (s.buffer (s.slot i)).1 ≠ (s.buffer (s.slot j)).1 := by
  intro heq
  rw [h.slot_eq (by omega), h.slot_eq hj] at heq
  have hi' := h.sequence i (by omega)
  have hj' := h.sequence j hj
  rw [heq, hj', UInt32.add_right_inj] at hi'
  have hnat := congrArg UInt32.toNat hi'
  have hcount := h.count
  unfold auditBufferSize at hcount
  simp only [UInt32.toNat_ofNat'] at hnat
  omega

/-- Two events change places. -/
def State.exchange (s : State Mac) (i j : Nat) : State Mac :=
  (s.write (s.slot i) (s.buffer (s.slot j))).write (s.slot j) (s.buffer (s.slot i))

theorem State.exchange_comm (s : State Mac) {i j : Nat} (h : s.slot i ≠ s.slot j) :
    s.exchange i j = s.exchange j i := by
  unfold State.exchange State.write
  rw [update_comm h]

theorem Whole.retained_exchange (h : Whole hmac zero s) {i j : Nat} (hi : i < s.count)
    (hj : j < s.count) :
    (s.exchange i j).retained = (((List.range s.count).map s.buffer).set i
      (s.buffer (s.slot j))).set j (s.buffer (s.slot i)) := by
  rw [← range_map_update_lt, ← range_map_update_lt]
  apply map_congr_left
  intro k hk
  show update (update s.buffer (s.slot i) _) (s.slot j) _ (s.slot k) = _
  rw [h.slot_eq (mem_range.mp hk), h.slot_eq hi, h.slot_eq hj]

/-! ## The check is exact -/

/-- A tag that keeps everything it was computed from. -/
def wholeHistory (prev : List Fields) (fields : Fields) : List Fields := fields :: prev

theorem wholeHistory_injective (p : List Fields) (x : Fields) (q : List Fields) (y : Fields)
    (h : wholeHistory p x = wholeHistory q y) : p = q ∧ x = y := by
  cases h
  exact ⟨rfl, rfl⟩

/-- The same event, logged again and again. -/
def sameLog : Op := .log ⟨0, 0⟩ auditSysBoot auditInfo 0 none

theorem fill_buffer (n : Nat) (hn : n < auditBufferSize) :
    ∃ s, Run (RoomyStep wholeHistory []) (auditInit wholeHistory [] ⟨0, 0⟩)
      (List.replicate n sameLog) s ∧ s.count = n + 1 := by
  induction n with
  | zero => exact ⟨_, .nil _, (auditInit_whole _).2⟩
  | succ n ih =>
    obtain ⟨s, hrun, hcount⟩ := ih (by omega)
    have hroom : s.count < auditBufferSize := by omega
    refine ⟨step wholeHistory [] s sameLog, ?_, ?_⟩
    · rw [replicate_succ']
      exact hrun.append (Run.single ⟨hroom, rfl⟩)
    · rw [← hcount]
      exact ((roomy_run_whole hrun).append hroom rfl rfl).2

/-- A full log and one event more: the second event of the log is now the first, and is not chained
to zeros. -/
theorem overwritten_log_is_rejected [DecidableEq Mac]
    (hinj : ∀ p x q y, hmac p x = hmac q y → p = q ∧ x = y) (hs : Whole hmac zero s)
    (hfull : s.count = auditBufferSize) (hfirst : (s.buffer 0).2 ≠ zero) (e : Event Mac) :
    (auditVerifyIntegrity hmac zero (s.append e)).1 = false := by
  rw [← Bool.not_eq_true, verify_iff]
  intro hlinked
  have hhead : s.head = 0 := by rw [hs.head, hfull, Nat.mod_self]
  have hcount : (s.append e).count = auditBufferSize := by
    show (if s.count < auditBufferSize then _ else _) = _
    rw [hfull, if_neg (Nat.lt_irrefl _)]
  have hslot : (s.append e).slot 0 = 1 := by
    rw [State.slot, State.startIdx, hcount, if_neg (Nat.lt_irrefl _)]
    show ((s.head + 1) % auditBufferSize + 0) % auditBufferSize = 1
    rw [hhead]
    rfl
  have hevent : (s.append e).buffer 1 = s.buffer 1 := by
    show update s.buffer s.head e 1 = s.buffer 1
    rw [hhead, update_of_ne (by decide)]
  -- the two chains disagree about what the second event was chained to
  rw [State.retained, hcount, show auditBufferSize = 999 + 1 from rfl, range_succ_eq_map,
    map_cons, hslot, hevent] at hlinked
  have hold := hs.linked
  rw [hfull, show auditBufferSize = 998 + 1 + 1 from rfl, range_succ_eq_map, map_cons,
    map_map, range_succ_eq_map, map_cons] at hold
  exact hfirst (hinj _ _ _ _ (hold.2.1.symm.trans hlinked.1)).1

end TinyOS.Audit
