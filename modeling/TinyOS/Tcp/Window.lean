import TinyOS.Tcp.SendSeq

/-!
# TCP: the peer's window

What an established connection sends, against the window in the last acknowledgement that it has
accepted. `tcp_send` does not look at the window: it sends as much as the application asks for, up to
one segment. The timer does look at it, and probes a window of zero with one byte.
-/

namespace TinyOS.Tcp

open Lib

/-- In `TCP_ESTABLISHED`, the acknowledgement in the segment is accepted, and its window with it. -/
def acceptsWindow (c : Conn) (seg : Segment) : Bool :=
  tcpValidateSequence seg.seq c.rcvNxt c.rcvWnd &&
    (has seg.flags tcpAck && seqGt seg.ack c.sndUna && seqLeq seg.ack c.sndNxt)

/-- What happens to a connection that sends. -/
def OfSender : SlotOp → Prop
  | .send _ | .tick _ _ => True
  | .segment _ seg => has seg.flags tcpRst = false
  | _ => False

/-- The window accepted last, after an operation. -/
def windowAfter (c : Conn) (window : UInt32) : SlotOp → UInt32
  | .segment _ seg => if acceptsWindow c seg then seg.window.toUInt32 else window
  | _ => window

/-- A connection with the window that it has accepted last. -/
abbrev Sender := Slot × UInt32

def Sender.after (p : Sender) (op : SlotOp) : Sender :=
  ((op.run p.1).slot, windowAfter p.1.conn p.2 op)

/-- A step of an established connection. -/
def SenderStep (p : Sender) (op : SlotOp) (p' : Sender) : Prop :=
  p.1.conn.state = .established ∧ OfSender op ∧ p' = p.after op

/-- `snd_wnd` is the window that was accepted last. -/
def WindowKnown (p : Sender) : Prop := p.2 = p.1.conn.sndWnd

/-- Data that the step sends is within the window, or it is the one byte of a probe. -/
def WindowKept (p : Sender) (op : SlotOp) (p' : Sender) : Prop :=
  ∀ o ∈ (op.run p.1).out, o.data ≠ [] →
    inFlight p'.1.conn ≤ p'.2.toNat ∨
      (∃ now closeTime, op = .tick now closeTime) ∧ o.data.length = 1 ∧ p'.2 = 0

/-- The caller asks for no more than the window has room for, beside what is in flight. One call sends
one segment. -/
def SendFits (p : Sender) : SlotOp → Prop
  | .send data => data ≠ [] → inFlight p.1.conn + min data.length maxSegmentSize ≤ p.2.toNat
  | _ => True

/-! ## What each operation sends -/

theorem tcpSend_window (c : Conn) (data : List UInt8) : (tcpSend c data).conn.sndWnd = c.sndWnd ∧
    (¬(c.inUse = true ∧ (taken c data).length ≠ 0) → (tcpSend c data).out = []) := by
  unfold tcpSend
  dsimp only
  split
  · exact ⟨rfl, fun _ => rfl⟩
  rename_i huse
  split
  · exact ⟨rfl, fun _ => rfl⟩
  rename_i hlen
  refine ⟨rfl, fun h => absurd ⟨?_, hlen⟩ h⟩
  simp only [Bool.or_eq_true, Bool.not_eq_true', not_or, Bool.not_eq_false] at huse
  exact huse.1

theorem tcpClose_out (c : Conn) (now : UInt32) :
    (tcpClose c now).conn.sndWnd = c.sndWnd ∧ ∀ o ∈ (tcpClose c now).out, o.data = [] := by
  fun_cases tcpClose c now <;> simp [sendFin, tcpSendSegment, Conn.release]

/-- A probe has one byte, and is only sent into a window of zero. -/
theorem tcpTickSlot_out (c : Conn) (now closeTime : UInt32) :
    (tcpTickSlot c now closeTime).1.sndWnd = c.sndWnd ∧
      ∀ o ∈ (tcpTickSlot c now closeTime).2, o.data ≠ [] → o.data.length = 1 ∧ c.sndWnd = 0 := by
  unfold tcpTickSlot
  dsimp only
  generalize hclosed : (if c.inUse && c.orphaned then _ else (c, [])) = r
  have hr : r.1.sndWnd = c.sndWnd ∧ ∀ o ∈ r.2, o.data = [] := by
    rw [← hclosed]
    split
    · exact tcpClose_out _ closeTime
    · exact ⟨rfl, by simp⟩
  split
  · exact ⟨hr.1, fun o ho hdata => absurd (hr.2 o ho) hdata⟩
  generalize hexpired : expireFinWait2 _ now = c₁
  have hc₁ : c₁.sndWnd = c.sndWnd := by
    rw [← hexpired, ← hr.1]
    rcases expire_cases r.1 now with h | h
    · rw [h]
    · rw [h]
      rfl
  refine ⟨?_, fun o ho hdata => ?_⟩
  · rw [zeroWindowProbe]
    split <;> exact hc₁
  · rcases List.mem_append.mp ho with ho | ho
    · exact absurd (hr.2 o ho) hdata
    rw [zeroWindowProbe] at ho
    split at ho
    · rename_i hprobe
      simp only [Bool.and_eq_true, decide_eq_true_eq] at hprobe
      rw [List.mem_singleton.mp ho]
      exact ⟨rfl, hc₁ ▸ hprobe.1.1.2⟩
    · cases ho

theorem processEstablished_out (now : UInt32) (sl : Slot) (seg : Segment) :
    (processEstablished now sl seg).1.conn.sndWnd =
        (if acceptsWindow sl.conn seg then seg.window.toUInt32 else sl.conn.sndWnd) ∧
      ∀ o ∈ (processEstablished now sl seg).2, o.data = [] := by
  have hack : (establishedAck sl.conn seg).sndWnd = if has seg.flags tcpAck &&
      seqGt seg.ack sl.conn.sndUna && seqLeq seg.ack sl.conn.sndNxt then seg.window.toUInt32
      else sl.conn.sndWnd := by
    unfold establishedAck
    split <;> rfl
  unfold processEstablished acceptsWindow
  split
  · rename_i hvalid
    simp only [Bool.not_eq_true'] at hvalid
    simp [hvalid, ackOf]
  rename_i hvalid
  rw [Bool.not_eq_true, Bool.not_eq_false'] at hvalid
  rw [hvalid, Bool.true_and, ← hack]
  unfold establishedData establishedFin
  simp only [sendAck_eq]
  split
  · split
    · simp [ackOf]
    · split_ifs <;> simp [ackOf]
  · split_ifs <;> simp [ackOf]

/-! ## Runs -/

section runs

variable {p p' : Sender} {op : SlotOp}

theorem tcpProcessSegment_established {now : UInt32} {sl : Slot} {seg : Segment}
    (hstate : sl.conn.state = .established) (hrst : has seg.flags tcpRst = false) :
    tcpProcessSegment now sl seg = processEstablished now sl seg := by
  simp only [tcpProcessSegment, hstate, hrst, Bool.false_eq_true, if_false]

theorem SenderStep.known (h : SenderStep p op p') (hw : WindowKnown p) : WindowKnown p' := by
  obtain ⟨hstate, hop, rfl⟩ := h
  cases op with
  | send data => exact hw.trans (tcpSend_window p.1.conn data).1.symm
  | tick now closeTime => exact hw.trans (tcpTickSlot_out p.1.conn now closeTime).1.symm
  | segment now seg =>
    have hrun := (processEstablished_out now p.1 seg).1
    rw [← tcpProcessSegment_established hstate hop, ← hw] at hrun
    exact hrun.symm
  | _ => cases hop

/-- A call that sends moves `snd_nxt`, and is judged by what is in flight then. -/
theorem send_kept_iff {data : List UInt8} (hstate : p.1.conn.state = .established)
    (huse : p.1.conn.inUse = true) (hlen : (taken p.1.conn data).length ≠ 0) :
    WindowKept p (.send data) (p.after (.send data)) ↔
      (inFlight p.1.conn + min (taken p.1.conn data).length maxSegmentSize) % 2 ^ 32 ≤ p.2.toNat := by
  obtain ⟨c', n, o, heq, -, -, hsent⟩ := tcpSend_open huse hstate hlen
  have hafter : inFlight c' =
      (inFlight p.1.conn + min (taken p.1.conn data).length maxSegmentSize) % 2 ^ 32 := by
    rw [inFlight, inFlight, hsent.nxt, hsent.una, hsent.count, ahead_add _ p.1.conn.sndNxt,
      ahead_add_ofNat _ _ (by simp only [ahead_self, maxSegmentSize]; omega), ahead_self,
      Nat.zero_add, Nat.add_comm]
  have hdata : o.data ≠ [] := by
    refine List.ne_nil_of_length_pos ?_
    rw [hsent.length, hsent.count]
    simp only [maxSegmentSize]
    omega
  simp only [WindowKept, Sender.after, SlotOp.run, ConnResult.toSlot, heq, windowAfter, hafter]
  constructor
  · intro hkept
    rcases hkept o (List.mem_singleton.mpr rfl) hdata with hle | ⟨⟨_, _, htick⟩, -⟩
    · exact hle
    · cases htick
  · intro hle o' _ _
    exact .inl hle

theorem SenderStep.kept (h : SenderStep p op p') (hw : WindowKnown p) (hfits : SendFits p op) :
    WindowKept p op p' := by
  obtain ⟨hstate, hop, rfl⟩ := h
  cases op with
  | send data =>
    by_cases hsends : p.1.conn.inUse = true ∧ (taken p.1.conn data).length ≠ 0
    · rw [send_kept_iff hstate hsends.1 hsends.2]
      -- what the buffer takes is a part of what the caller asks for
      have hle : (taken p.1.conn data).length ≤ data.length := List.length_take_le' ..
      have hroom := hfits (List.ne_nil_of_length_pos (by omega))
      have hmod := Nat.mod_le
        (inFlight p.1.conn + min (taken p.1.conn data).length maxSegmentSize) (2 ^ 32)
      omega
    · intro o ho
      rw [show (SlotOp.run p.1 (.send data)).out = [] from (tcpSend_window _ _).2 hsends] at ho
      cases ho
  | tick now closeTime =>
    intro o ho hdata
    obtain ⟨hlen, hzero⟩ := (tcpTickSlot_out p.1.conn now closeTime).2 o ho hdata
    exact .inr ⟨⟨_, _, rfl⟩, hlen, hw.trans hzero⟩
  | segment now seg =>
    intro o ho hdata
    simp only [SlotOp.run, tcpProcessSegment_established hstate hop] at ho
    exact absurd ((processEstablished_out now p.1 seg).2 o ho) hdata
  | _ => cases hop

theorem SenderStep.kept_iff {data : List UInt8} (h : SenderStep p (.send data) p')
    (huse : p.1.conn.inUse = true) (hflight : inFlight p.1.conn < 2 ^ 31)
    (hroom : data.length < txBufferSize - txAvailable p.1.conn) :
    WindowKept p (.send data) p' ↔ SendFits p (.send data) := by
  obtain ⟨hstate, -, rfl⟩ := h
  have htaken : taken p.1.conn data = data := List.take_of_length_le (by omega)
  by_cases hnone : data = []
  · refine iff_of_true (fun o ho => ?_) fun h => absurd hnone h
    rw [show (SlotOp.run p.1 (.send data)).out = [] from
      (tcpSend_window _ _).2 (by rw [htaken, hnone]; simp)] at ho
    cases ho
  · have hmod := Nat.mod_eq_of_lt (a := inFlight p.1.conn + min data.length maxSegmentSize)
      (b := 2 ^ 32) (by simp only [maxSegmentSize]; omega)
    rw [send_kept_iff hstate huse (by simpa [htaken] using hnone), htaken, hmod]
    exact ⟨fun h _ => h, fun h => h hnone⟩

end runs

/-- After any calls of `tcp_send`, acknowledgements and ticks, a step keeps to the window that was
accepted last, probes apart, if its caller asks for no more than this window has room for. For a call
whose bytes fit the transmit buffer this is exact. -/
theorem window_kept_of_send_fits {sl : Slot} {ops : List SlotOp} {p p' : Sender} {op : SlotOp}
    (hrun : Run SenderStep (sl, sl.conn.sndWnd) ops p) (hstep : SenderStep p op p') :
    (SendFits p op → WindowKept p op p') ∧
      ∀ data, op = .send data → p.1.conn.inUse = true → inFlight p.1.conn < 2 ^ 31 →
        data.length < txBufferSize - txAvailable p.1.conn →
        (WindowKept p op p' ↔ SendFits p op) := by
  have hw : WindowKnown p := hrun.invariant (fun _ _ _ h hstep => hstep.known h) rfl
  refine ⟨fun hfits => hstep.kept hw hfits, ?_⟩
  rintro data rfl huse hflight hroom
  exact hstep.kept_iff huse hflight hroom

/-- A connection that the peer has accepted with a window of two bytes. -/
def narrow : Sender :=
  let sl := replay (tcpInit.slots 0)
    [.fresh none, .connect ⟨1, 80, 0, 49152, true, 100, 0⟩,
      .segment 0 ⟨tcpSyn ||| tcpAck, 500, 102, 2, []⟩]
  (sl, sl.conn.sndWnd)

theorem narrow_step (data : List UInt8) :
    SenderStep narrow (.send data) (narrow.after (.send data)) := ⟨by decide, trivial, rfl⟩

theorem two_bytes_fit_the_window :
    WindowKept narrow (.send [7, 8]) (narrow.after (.send [7, 8])) :=
  (window_kept_of_send_fits (.nil _) (narrow_step _)).1 fun _ => by decide

/-- Three bytes are sent at once, though the window has room for two. -/
theorem three_bytes_exceed_the_window :
    SenderStep narrow (.send [7, 8, 9]) (narrow.after (.send [7, 8, 9])) ∧ narrow.2 = 2 ∧
      inFlight (narrow.after (.send [7, 8, 9])).1.conn = 3 ∧
      ¬ WindowKept narrow (.send [7, 8, 9]) (narrow.after (.send [7, 8, 9])) := by
  refine ⟨narrow_step _, by decide, by decide, fun hkept => ?_⟩
  have hfits := ((narrow_step _).kept_iff (by decide) (by decide) (by decide)).mp hkept (by decide)
  revert hfits
  decide

end TinyOS.Tcp
