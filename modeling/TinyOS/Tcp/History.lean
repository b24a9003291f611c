import TinyOS.Tcp.Stack
import Mathlib.Data.UInt

/-!
# TCP: runs of the stack, with what an observer sees of them

`History` is what an observer writes down about a slot since `tcp_socket` handed
it out: what the application passed to `tcp_send` and got from `tcp_recv`, the
segments on the wire, and what each inbound segment added to the receive buffer.
It is read off the results of the calls and the states around them, and no
function of the stack reads it.

`System.invariant` is the rule for whole runs: what every operation on a slot
preserves holds of every slot at the end of every run.
-/

namespace TinyOS.Tcp

open Lib List

/-! ## Byte streams -/

/-- The bytes of some segments, in the order of the list. -/
def streamBytes (segs : List (UInt32 × List UInt8)) : List UInt8 := (segs.map Prod.snd).flatten

/-- Each segment starts where the one before it ended, the first one at `start`. -/
def Contiguous (start : UInt32) : List (UInt32 × List UInt8) → Prop
  | [] => True
  | (seq, data) :: segs => seq = start ∧ Contiguous (start + UInt32.ofNat data.length) segs

theorem streamBytes_append_singleton (segs : List (UInt32 × List UInt8)) (seq : UInt32)
    (data : List UInt8) : streamBytes (segs ++ [(seq, data)]) = streamBytes segs ++ data := by
  simp [streamBytes]

theorem Contiguous.append_singleton {segs : List (UInt32 × List UInt8)} {start seq : UInt32}
    {data : List UInt8} (h : Contiguous start segs)
    (hseq : seq = start + UInt32.ofNat (streamBytes segs).length) :
    Contiguous start (segs ++ [(seq, data)]) := by
  induction segs generalizing start with
  | nil => exact ⟨by simpa [streamBytes] using hseq, trivial⟩
  | cons seg segs ih =>
    refine ⟨h.1, ih h.2 ?_⟩
    rw [hseq, UInt32.add_assoc, ← UInt32.ofNat_add]
    simp [streamBytes]

/-! ## Histories -/

/-- The observer's notes on a slot. -/
structure History where
  /-- For each `tcp_send`, the bytes its return value covers. -/
  calls : List (List UInt8)
  /-- The segments sent by `tcp_send`: sequence number and payload. -/
  sent : List (UInt32 × List UInt8)
  /-- Every segment sent. -/
  emitted : List OutSeg
  /-- The segments whose payload entered the receive buffer. -/
  accepted : List (UInt32 × List UInt8)
  /-- The bytes returned by `tcp_recv`. -/
  read : List UInt8
  /-- The sequence numbers at which a FIN was accepted. -/
  finAt : List UInt32

/-- Nothing has happened yet. -/
def History.empty : History := ⟨[], [], [], [], [], []⟩

/-- Note an operation on a slot. An inbound segment is accepted if the receive
buffer has grown, by as much as it has grown. -/
def History.record (sl : Slot) (op : SlotOp) (h : History) : History :=
  let r := op.run sl
  let h' := { h with emitted := h.emitted ++ r.out }
  match op with
  | .fresh _ => .empty
  | .send data =>
    { h' with
      calls := h.calls ++ [data.take r.ret.toNat]
      sent := h.sent ++ r.out.map fun o => (o.seq, o.data) }
  | .recv _ => { h' with read := h.read ++ r.bytes }
  | .segment _ seg =>
    let grown := rxAvailable r.slot.conn - rxAvailable sl.conn
    { h' with
      accepted := if 0 < grown then h.accepted ++ [(seg.seq, seg.data.take grown)] else h.accepted
      finAt :=
        if r.slot.conn.finReceived && !sl.conn.finReceived then
          h.finAt ++ [seg.seq + UInt32.ofNat seg.data.length]
        else h.finAt }
  | _ => h'

/-- A slot with its history, after an operation. -/
def track (p : Slot × History) (op : SlotOp) : Slot × History :=
  ((op.run p.1).slot, p.2.record p.1 op)

/-- The stack and the observer. -/
structure System where
  stack : Stack
  hist : Idx → History

namespace System

def init : System := ⟨tcpInit, fun _ => .empty⟩

/-- A slot and its history. -/
def view (t : System) (i : Idx) : Slot × History := (t.stack.slots i, t.hist i)

/-- Make a call and note what it did. -/
def step (t : System) (call : Call) : System where
  stack := (exec t.stack call).stack
  hist i := ((opsAt i (exec t.stack call).events).foldl track (t.view i)).2

/-- The system after some calls. -/
def run (calls : List Call) : System := calls.foldl step init

end System

/-- A condition on the operations a call is made of, each in the state of its slot
before the call. -/
def Guarded (g : Slot → SlotOp → Prop) (s : Stack) (call : Call) : Prop :=
  ∀ i op, (i, op) ∈ (exec s call).events → g (s.slots i) op

/-- The steps that meet a condition. -/
def GuardedStep (g : Slot → SlotOp → Prop) (t : System) (call : Call) (t' : System) : Prop :=
  Guarded g t.stack call ∧ t' = t.step call

theorem foldl_track_fst (ops : List SlotOp) (p : Slot × History) :
    (ops.foldl track p).1 = replay p.1 ops := by
  induction ops generalizing p with
  | nil => rfl
  | cons op ops ih => rw [foldl_cons, ih]; rfl

theorem System.step_view (t : System) (call : Call) (i : Idx) :
    (t.step call).view i = (opsAt i (exec t.stack call).events).foldl track (t.view i) := by
  apply Prod.ext
  · rw [foldl_track_fst]
    exact exec_slots t.stack call i
  · rfl

theorem System.run_all (calls : List Call) :
    Run (GuardedStep fun _ _ => True) System.init calls (System.run calls) :=
  .of_foldl (fun _ _ _ => ⟨fun _ _ _ => trivial, rfl⟩) System.init

/-! ## The operations of a call on one slot -/

theorem opsAt_singleton (i j : Idx) (op : SlotOp) :
    opsAt i [(j, op)] = [] ∨ (j = i ∧ opsAt i [(j, op)] = [op]) := by
  by_cases h : j = i
  · subst h
    exact .inr ⟨rfl, opsAt_cons_self j op []⟩
  · exact .inl (opsAt_cons_ne h op [])

theorem opsAt_map {is : List Idx} (hnodup : is.Nodup) (i : Idx) (op : SlotOp) :
    opsAt i (is.map fun j => (j, op)) = if i ∈ is then [op] else [] := by
  induction is with
  | nil => rfl
  | cons j is ih =>
    rw [nodup_cons] at hnodup
    rw [map_cons]
    by_cases h : j = i
    · subst h
      rw [opsAt_cons_self, ih hnodup.2, if_neg hnodup.1, if_pos (mem_cons_self ..)]
    · rw [opsAt_cons_ne h, ih hnodup.2]
      simp [Ne.symm h]

/-- At most one thing is done to slot `i`, unless its connection is evicted and the
slot handed out again. -/
def Brief (i : Idx) (events : List Event) : Prop :=
  opsAt i events = [] ∨
  (∃ op, (i, op) ∈ events ∧ opsAt i events = [op]) ∨
  (∃ self, (i, SlotOp.evict) ∈ events ∧ opsAt i events = [.evict, .fresh self])

theorem brief_singleton (i j : Idx) (op : SlotOp) : Brief i [(j, op)] := by
  rcases opsAt_singleton i j op with h | ⟨rfl, h⟩
  · exact .inl h
  · exact .inr (.inl ⟨op, mem_singleton_self _, h⟩)

theorem brief_evict (i j k : Idx) (self : Option Task) :
    Brief i [(j, .evict), (k, .fresh self)] := by
  by_cases hj : j = i
  · subst hj
    rcases opsAt_singleton j k (.fresh self) with h | ⟨rfl, h⟩
    · exact .inr (.inl ⟨.evict, mem_cons_self .., by rw [opsAt_cons_self, h]⟩)
    · exact .inr (.inr ⟨self, mem_cons_self .., by rw [opsAt_cons_self, h]⟩)
  · rcases opsAt_singleton i k (.fresh self) with h | ⟨rfl, h⟩
    · exact .inl (by rw [opsAt_cons_ne hj, h])
    · exact .inr (.inl ⟨.fresh self, mem_cons_of_mem _ (mem_singleton_self _), by
        rw [opsAt_cons_ne hj, h]⟩)

theorem brief_onSockfd (s : Stack) (i : Idx) (fd : Int) (op : SlotOp) :
    Brief i (onSockfd s fd op).events := by
  rw [onSockfd]
  split
  · exact brief_singleton i _ op
  · exact .inl rfl

theorem brief_tcpSocket (s : Stack) (i : Idx) (self : Option Task) (now : UInt32) :
    Brief i (tcpSocket s self now).events := by
  rw [tcpSocket]
  split
  · exact .inl rfl
  split
  · exact brief_singleton i _ _
  split
  · split
    · split
      · exact brief_evict i _ _ self
      · exact brief_singleton i _ _
    · exact .inl rfl
  · exact .inl rfl

theorem exec_brief (s : Stack) (call : Call) (i : Idx) : Brief i (exec s call).events := by
  cases call with
  | socket self ticks => exact brief_tcpSocket s i self _
  | connect fd remoteIp remotePort env | send fd data
  | recv fd len | close fd ticks => exact brief_onSockfd s i fd _
  | cleanup pid generation =>
    rw [exec, tcpTaskCleanup]
    split
    · exact .inl rfl
    have hmem : i ∈ List.finRange maxConnections := mem_finRange i
    refine .inr (.inl ⟨.cleanup pid generation, mem_map.2 ⟨i, hmem, rfl⟩, ?_⟩)
    rw [opsAt_map (nodup_finRange _), if_pos hmem]
  | packet p ticks =>
    rw [exec, tcpHandlePacket]
    split
    · exact .inl rfl
    split
    · exact brief_singleton i _ _
    · exact .inl rfl
  | tick j ticks closeTicks => exact brief_singleton i j _

/-! ## The rule for runs -/

section Invariant

variable {g : Slot → SlotOp → Prop} {P : Slot → History → Prop}
  (hfresh : ∀ sl self, g sl (.fresh self))
  (hop : ∀ sl h op, g sl op → P sl h → P (op.run sl).slot (h.record sl op))

include hfresh hop

theorem step_invariant {t t' : System} {call : Call} (hP : ∀ i, P (t.stack.slots i) (t.hist i))
    (hstep : GuardedStep g t call t') (i : Idx) : P (t'.stack.slots i) (t'.hist i) := by
  obtain ⟨hg, rfl⟩ := hstep
  show P ((t.step call).view i).1 ((t.step call).view i).2
  rw [System.step_view]
  rcases exec_brief t.stack call i with h | ⟨op, hmem, h⟩ | ⟨self, hmem, h⟩
  · rw [h]
    exact hP i
  · rw [h]
    exact hop _ _ _ (hg i op hmem) (hP i)
  · rw [h]
    exact hop _ _ _ (hfresh _ _) (hop _ _ _ (hg i _ hmem) (hP i))

/-- What every operation on a slot preserves holds of every slot after a run. -/
theorem System.invariant (hinit : ∀ i, P (tcpInit.slots i) .empty) {calls : List Call} {t : System}
    (hrun : Run (GuardedStep g) System.init calls t) (i : Idx) :
    P (t.stack.slots i) (t.hist i) := by
  let inv : System → Prop := fun t => ∀ i, P (t.stack.slots i) (t.hist i)
  have hend : inv t :=
    hrun.invariant (fun _ _ _ hP hstep => step_invariant hfresh hop hP hstep) hinit
  exact hend i

end Invariant

end TinyOS.Tcp
