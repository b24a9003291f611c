import TinyOS.Tcp.Moves

/-!
# TCP: window updates

Every segment tells the peer the free space of the receive buffer. `tcp_recv` sends one when that
space has grown by more than 512 bytes over `rcv_wnd`. But it stores the space in `rcv_wnd` at every
read, also when it sends nothing, so small reads add up to space that the peer does not know of.
-/

namespace TinyOS.Tcp

open Lib Ring

/-- In use, not closed, and while there is something to read, `rcv_wnd` is the free space, or 0 because
the last data did not fit. -/
structure Receiving (c : Conn) : Prop where
  inUse : c.inUse = true
  isOpen : c.state ≠ .closed
  stored : 0 < rxAvailable c → c.rcvWnd = UInt32.ofNat (rxFreeSpace c) ∨ c.rcvWnd = 0

/-- The bytes read since the last data, or since the last call that took more than 512 of them or found
0 in `rcv_wnd`. -/
def readSince (c : Conn) (since : Nat) : SlotOp → Nat
  | .recv len =>
    let n := min len (rxAvailable c)
    if 512 < n ∨ c.rcvWnd = 0 then 0 else since + n
  | _ => 0

/-- A slot, the window in the last segment that it sent, and what was read in small portions. -/
structure Receiver where
  slot : Slot
  window : Nat
  since : Nat

namespace Receiver

/-- The last segment told the peer what is free. -/
def start (sl : Slot) : Receiver := ⟨sl, rxFreeSpace sl.conn, 0⟩

def after (r : Receiver) (op : SlotOp) : Receiver where
  slot := (op.run r.slot).slot
  window := (((op.run r.slot).out.getLast?).map OutSeg.window).getD r.window
  since := readSince r.slot.conn r.since op

/-- A read, or data in order while established. -/
def Due (c : Conn) : SlotOp → Prop
  | .recv _ => True
  | .segment _ seg => c.state = .established ∧ has seg.flags tcpRst = false ∧
      0 < seg.data.length ∧ seg.seq = c.rcvNxt
  | _ => False

def Step (r : Receiver) (op : SlotOp) (r' : Receiver) : Prop :=
  Due r.slot.conn op ∧ r' = r.after op

/-- What is free is what the peer knows of and what was read in small portions since. -/
structure Tracked (r : Receiver) : Prop where
  conn : Receiving r.slot.conn
  free : rxFreeSpace r.slot.conn = r.window + r.since
  zero : r.window = 0 ∨ r.slot.conn.rcvWnd = 0 → r.since = 0

variable {r r' : Receiver} {sl : Slot}

theorem start_tracked (hc : Receiving sl.conn) : Tracked (start sl) := ⟨hc, rfl, fun _ => rfl⟩

theorem segment_acked {now : UInt32} {seg : Segment} (hc : Receiving sl.conn)
    (hdue : Due sl.conn (.segment now seg)) :
    Receiving (processEstablished now sl seg).1.conn ∧ ∃ out,
      (processEstablished now sl seg).2 = out ++ [ackOf (processEstablished now sl seg).1.conn] := by
  -- Both branches end in an ACK, which tells the space that is left.
  obtain ⟨-, -, hlen, hseq⟩ := hdue
  obtain ⟨una, wnd, hack⟩ : ∃ una wnd,
      establishedAck sl.conn seg = { sl.conn with sndUna := una, sndWnd := wnd } := by
    rw [establishedAck]
    split
    · exact ⟨_, _, rfl⟩
    · exact ⟨_, _, rfl⟩
  rw [processEstablished, hack, establishedData, if_neg (by simp [tcpValidateSequence, hseq]),
    if_pos (by simp [hlen, hseq])]
  dsimp only
  split
  · rw [sendAck_eq]
    exact ⟨⟨hc.inUse, hc.isOpen, fun _ => .inr rfl⟩, [], rfl⟩
  rw [sendAck_eq]
  dsimp only
  rw [if_pos rfl, establishedFin]
  split
  · split
    · exact ⟨⟨hc.inUse, hc.isOpen, fun _ => .inl rfl⟩, [], rfl⟩
    · rw [sendAck_eq]
      exact ⟨⟨hc.inUse, by simp, fun _ => .inl rfl⟩, [_], rfl⟩
  · exact ⟨⟨hc.inUse, hc.isOpen, fun _ => .inl rfl⟩, [], rfl⟩

theorem rxFreeSpace_popN {c : Conn} {k : Nat} (hk : k ≤ rxAvailable c) :
    rxFreeSpace { c with rx := (popN k c.rx).2 } = rxFreeSpace c + k := by
  have hlt := c.rx.available_lt
  have hk' : k ≤ c.rx.available := hk
  rw [rxFreeSpace, rxFreeSpace, rxAvailable, rxAvailable, ← length_contents, contents_popN hk',
    List.length_drop, length_contents]
  omega

/-- `tcp_recv` compares the new space with `rcv_wnd`, which is the old space or 0. -/
theorem sends_iff {c : Conn} (hc : Receiving c) (hsome : 0 < rxAvailable c) (k : Nat) :
    (c.rcvWnd.toNat % 2 ^ 16 = 0 ∧ 0 < rxFreeSpace c + k ∨
        c.rcvWnd.toNat % 2 ^ 16 + 512 < rxFreeSpace c + k) ↔
      c.rcvWnd = 0 ∧ 0 < rxFreeSpace c + k ∨ 512 < k := by
  have hsmall : rxFreeSpace c < 2048 := by
    simp only [rxFreeSpace, rxBufferSize]
    omega
  have hzero : c.rcvWnd = 0 ↔ c.rcvWnd.toNat = 0 := UInt32.toNat_inj.symm
  rcases hc.stored hsome with hwnd | hwnd
  · have hnat : c.rcvWnd.toNat = rxFreeSpace c := by
      rw [hwnd, UInt32.toNat_ofNat_of_lt' (by simp only [UInt32.size]; omega)]
    rw [hzero, hnat]
    omega
  · rw [hzero, hzero.mp hwnd]
    omega

theorem recv_tracked (len : Nat) (h : Tracked r) : Tracked (r.after (.recv len)) := by
  have hc := h.conn
  have hfree := h.free
  have hzero := h.zero
  rw [after, readSince, SlotOp.run, tcpRecv, if_neg (by simp [hc.inUse, hc.isOpen])]
  dsimp only
  by_cases hsome : rxAvailable r.slot.conn = 0
  · -- Nothing is there to read: nothing is sent, and nothing is counted.
    rw [if_pos hsome, hsome, Nat.min_zero]
    have hkept : (if 512 < 0 ∨ r.slot.conn.rcvWnd = 0 then 0 else r.since + 0) = r.since := by
      split_ifs with hwnd
      · exact (hzero (.inr (by simpa using hwnd))).symm
      · rfl
    rw [hkept]
    exact h
  rw [if_neg hsome]
  obtain ⟨k, hk, hle⟩ : ∃ k, min len (rxAvailable r.slot.conn) = k ∧ k ≤ rxAvailable r.slot.conn :=
    ⟨_, rfl, Nat.min_le_right _ _⟩
  have hread : (if len < rxAvailable r.slot.conn then len else rxAvailable r.slot.conn) = k := by
    rw [← hk]
    split <;> omega
  rw [hread, hk]
  simp only [rxFreeSpace_popN hle, Bool.or_eq_true, Bool.and_eq_true, decide_eq_true_eq,
    sends_iff hc (Nat.pos_of_ne_zero hsome) k]
  have hnow : Receiving { r.slot.conn with
      rx := (popN k r.slot.conn.rx).2, rcvWnd := UInt32.ofNat (rxFreeSpace r.slot.conn + k) } :=
    ⟨hc.inUse, hc.isOpen, fun _ => .inl (by rw [← rxFreeSpace_popN hle]; rfl)⟩
  by_cases hsends : r.slot.conn.rcvWnd = 0 ∧ 0 < rxFreeSpace r.slot.conn + k ∨ 512 < k
  · -- The ACK tells all the space, and the count starts again.
    rw [if_pos hsends, sendAck_eq, if_pos (by tauto)]
    exact start_tracked hnow
  · rw [if_neg hsends]
    have hspace := rxFreeSpace_popN hle
    by_cases hwnd : r.slot.conn.rcvWnd = 0
    · -- A window of 0 that stays: nothing was read, and nothing had been before.
      rw [if_pos (.inr hwnd)]
      have hsince := hzero (.inr hwnd)
      refine ⟨hnow, hspace.trans ?_, fun _ => rfl⟩
      show _ = r.window + 0
      simp only [hwnd, true_and] at hsends
      omega
    · -- A small read that the peer is not told of.
      rw [if_neg (by tauto)]
      have hpos : rxFreeSpace r.slot.conn ≠ 0 := fun hnone =>
        (hc.stored (Nat.pos_of_ne_zero hsome)).elim (fun h => hwnd (by rw [h, hnone]; rfl)) hwnd
      refine ⟨hnow, hspace.trans ?_, fun (hnone : r.window = 0 ∨
        UInt32.ofNat (rxFreeSpace r.slot.conn + k) = 0) => ?_⟩
      · show _ = r.window + (r.since + k)
        omega
      · rcases hnone with hnone | hnone
        · exact absurd (hfree.trans (by rw [hnone, hzero (.inl hnone)])) hpos
        · have hsmall : rxFreeSpace r.slot.conn + k < UInt32.size := by
            simp only [rxFreeSpace, rxBufferSize, UInt32.size]
            omega
          have hnat := congrArg UInt32.toNat hnone
          rw [UInt32.toNat_ofNat_of_lt' hsmall] at hnat
          exact absurd hnat (by simp only [UInt32.toNat_zero]; omega)

theorem Step.tracked {op : SlotOp} (h : Tracked r) (hstep : Step r op r') : Tracked r' := by
  obtain ⟨hdue, rfl⟩ := hstep
  cases op with
  | recv len => exact recv_tracked len h
  | segment now seg =>
    obtain ⟨hconn, out, hout⟩ := segment_acked h.conn hdue
    have hrun : SlotOp.run r.slot (.segment now seg) =
        ⟨0, [], (processEstablished now r.slot seg).1, (processEstablished now r.slot seg).2⟩ := by
      simp [SlotOp.run, tcpProcessSegment, hdue.1, hdue.2.1]
    have hafter : r.after (.segment now seg) = start (processEstablished now r.slot seg).1 := by
      rw [after, hrun, hout, List.getLast?_concat]
      rfl
    rw [hafter]
    exact start_tracked hconn
  | _ => exact hdue.elim

/-- The peer is told in time exactly while small reads have taken at most 512 bytes. A window of 0 is
always taken back. -/
theorem window_update_in_time_iff {ops : List SlotOp} (hc : Receiving sl.conn)
    (hrun : Run Step (start sl) ops r') :
    (rxFreeSpace r'.slot.conn ≤ r'.window + 512 ∧
      (r'.window = 0 → rxFreeSpace r'.slot.conn = 0)) ↔ r'.since ≤ 512 := by
  have h : Tracked r' := hrun.invariant (fun _ _ _ h hstep => hstep.tracked h) (start_tracked hc)
  have hfree := h.free
  have hzero := h.zero
  omega

/-- A connection just established. -/
def opened : Slot := ⟨{ Conn.fresh none with state := .established }, 0, 0⟩

theorem opened_receiving : Receiving opened.conn :=
  ⟨rfl, by decide, fun h => absurd h (by decide)⟩

/-- Data of 513 bytes, as the peer sends it first. -/
def firstData : SlotOp := .segment 0 ⟨tcpAck, 0, 0, 0, List.replicate 513 0⟩

theorem opened_run (len : Nat) : Run Step (start opened) [firstData, .recv len]
    (((start opened).after firstData).after (.recv len)) :=
  .cons ⟨⟨rfl, rfl, by decide +kernel, rfl⟩, rfl⟩ (.cons ⟨trivial, rfl⟩ (.nil _))

/-- After a read of 512 bytes the peer knows of all the space but those 512 bytes. -/
theorem one_small_read_in_time :
    rxFreeSpace (((start opened).after firstData).after (.recv 512)).slot.conn ≤
      (((start opened).after firstData).after (.recv 512)).window + 512 :=
  ((window_update_in_time_iff opened_receiving (opened_run 512)).mpr (by decide +kernel)).1

/-- 513 bytes arrive and are read by two calls, for 1 and for 512 bytes. -/
theorem two_silent_reads : ∃ r', Run Step (start opened) [firstData, .recv 1, .recv 512] r' ∧
    r'.window = 1534 ∧ rxFreeSpace r'.slot.conn = 2047 := by
  refine ⟨_, .cons ⟨⟨rfl, rfl, by decide +kernel, rfl⟩, rfl⟩
    (.cons ⟨trivial, rfl⟩ (.cons ⟨trivial, rfl⟩ (.nil _))), ?_⟩
  decide +kernel

end Receiver

end TinyOS.Tcp
