import TinyOS.Tcp.Moves

/-!
# TCP: the byte stream `tcp_recv` delivers

Whatever segments arrive, in whatever order, the receive buffer holds exactly the
bytes that were accepted and not yet read. Segments are accepted only where the
stream stands, so they are contiguous from `irs + 1`, and `rcv_nxt` counts them and
the peer's FIN.
-/

namespace TinyOS.Tcp

open Lib List Conn

/-- How many bytes have been stored. -/
def History.stored (h : History) : Nat := (streamBytes h.accepted).length

/-- One if the peer's FIN was accepted. -/
def Conn.finCount (c : Conn) : Nat := if c.finReceived then 1 else 0

/-- The sequence number of the byte after the first `n` of the peer's stream. -/
def Conn.streamPos (c : Conn) (n : Nat) : UInt32 := c.irs + 1 + UInt32.ofNat n

theorem Conn.streamPos_add (c : Conn) (m n : Nat) :
    c.streamPos (m + n) = c.streamPos m + UInt32.ofNat n := by
  rw [streamPos, streamPos, UInt32.ofNat_add, UInt32.add_assoc, UInt32.add_assoc, UInt32.add_assoc]

theorem Conn.streamPos_congr {c c' : Conn} (irs : c'.irs = c.irs) (n : Nat) :
    c'.streamPos n = c.streamPos n := by
  rw [streamPos, streamPos, irs]

/-- An acknowledgement covers no more than what was stored, and the FIN. -/
def AckCovered (c : Conn) (h : History) (o : OutSeg) : Prop :=
  has o.flags tcpAck = true → ∃ n, n ≤ h.stored + c.finCount ∧ o.ack = c.streamPos n

/-- The integrity of the receive stream. -/
structure RecvInv (c : Conn) (h : History) : Prop where
  /-- Nothing accepted is lost, duplicated, reordered or overwritten before it is read. -/
  stream : h.read ++ c.rx.contents = streamBytes h.accepted
  contiguous : Contiguous (c.irs + 1) h.accepted
  next : c.state.synchronized = true → c.rcvNxt = c.streamPos (h.stored + c.finCount)
  /-- A FIN is accepted once, behind everything that was stored. -/
  fin : h.finAt = if c.finReceived then [c.streamPos h.stored] else []
  acks : ∀ o ∈ h.emitted, AckCovered c h o
  early : Early c → h.accepted = [] ∧ ∀ o ∈ h.emitted, has o.flags tcpAck = false

namespace RecvInv

variable {c c' : Conn} {h : History} {o : OutSeg}

theorem not_early_of_sync (hsync : c.state.synchronized = true) : ¬ Early c := by
  rintro (he | ⟨he, _⟩) <;> simp [he, TcpState.synchronized] at hsync

variable (hinv : RecvInv c h)

include hinv

theorem of_same (recv : SameRecv c c')
    (hsync : c'.state.synchronized = true → c.state.synchronized = true)
    (hearly : Early c' → Early c) : RecvInv c' h := by
  have hpos := streamPos_congr recv.irs
  have hfin : c'.finCount = c.finCount := by rw [finCount, finCount, recv.fin]
  refine ⟨by rw [recv.rx, hinv.stream], by rw [recv.irs]; exact hinv.contiguous, fun hs => ?_, ?_,
    fun o ho hack => ?_, fun he => hinv.early (hearly he)⟩
  · rw [recv.nxt, hpos, hfin]
    exact hinv.next (hsync hs)
  · rw [recv.fin, hpos]
    exact hinv.fin
  · rw [hfin]
    obtain ⟨n, hn, heq⟩ := hinv.acks o ho hack
    exact ⟨n, hn, heq.trans (hpos n).symm⟩

theorem of_state (recv : SameRecv c c') (state : SameState c c') : RecvInv c' h :=
  hinv.of_same recv (fun hs => state.state ▸ hs)
    fun he => by rwa [Early, state.state, state.inUse] at he

theorem of_late (recv : SameRecv c c') (hsync : c.state.synchronized = true)
    (hsync' : c'.state.synchronized = true) : RecvInv c' h :=
  hinv.of_same recv (fun _ => hsync) fun he => absurd he (not_early_of_sync hsync')

/-- A segment that carries `rcv_nxt`, sent past the handshake. -/
theorem emit (hsync : c.state.synchronized = true) (hack : o.ack = c.rcvNxt) :
    RecvInv c { h with emitted := h.emitted ++ [o] } :=
  { hinv with
    acks := fun o' ho' => by
      rcases mem_append.1 ho' with ho' | ho'
      · exact hinv.acks o' ho'
      · cases mem_singleton.1 ho'
        exact fun _ => ⟨_, le_rfl, hack.trans (hinv.next hsync)⟩
    early := fun he => absurd he (not_early_of_sync hsync) }

/-- The observer's notes on the sending side do not matter here. -/
theorem congr_send (calls : List (List UInt8)) (sent : List (UInt32 × List UInt8)) :
    RecvInv c { h with calls := calls, sent := sent } :=
  { hinv with }

theorem stored {seg : Segment} (state : SameState c c') (hstate : c.state = .established)
    (hnofin : c.finReceived = false) (hseq : seg.seq = c.rcvNxt)
    (hfit : seg.data.length ≤ rxFreeSpace c) (rx : c'.rx = Ring.pushAll seg.data c.rx)
    (rcv : c'.rcvNxt = c.rcvNxt + UInt32.ofNat seg.data.length) (irs : c'.irs = c.irs)
    (fin : c'.finReceived = c.finReceived) :
    RecvInv c' { h with accepted := h.accepted ++ [(seg.seq, seg.data)] } := by
  have hsync : c.state.synchronized = true := by rw [hstate]; rfl
  have hnext := hinv.next hsync
  have hlt := c.rx.available_lt
  have hroom : c.rx.available + seg.data.length < rxBufferSize := by
    rw [rxFreeSpace, rxAvailable] at hfit
    omega
  have hpos := streamPos_congr irs
  have hcount : c.finCount = 0 := by rw [finCount, hnofin]; rfl
  have hcount' : c'.finCount = 0 := by rw [finCount, fin, hnofin]; rfl
  have hstored : History.stored { h with accepted := h.accepted ++ [(seg.seq, seg.data)] } =
      h.stored + seg.data.length := by
    rw [History.stored, streamBytes_append_singleton, length_append]
    rfl
  rw [hcount, Nat.add_zero] at hnext
  refine ⟨?_, ?_, fun _ => ?_, ?_, fun o ho hack => ?_, fun he => ?_⟩
  · rw [rx, Ring.contents_pushAll hroom, ← append_assoc, hinv.stream,
      streamBytes_append_singleton]
  · rw [irs]
    exact hinv.contiguous.append_singleton (hseq.trans hnext)
  · rw [hstored, hcount', Nat.add_zero, hpos, streamPos_add, ← hnext, rcv]
  · rw [fin, hnofin]
    simpa [hnofin] using hinv.fin
  · obtain ⟨n, hn, heq⟩ := hinv.acks o ho hack
    refine ⟨n, ?_, heq.trans (hpos n).symm⟩
    omega
  · rw [Early, state.state, hstate] at he
    rcases he with he | ⟨he, _⟩ <;> cases he

theorem finished {seg : Segment} (hsync : c.state.synchronized = true)
    (hsync' : c'.state.synchronized = true) (hnofin : c.finReceived = false)
    (hseq : seg.seq + UInt32.ofNat seg.data.length = c.rcvNxt) (rcv : c'.rcvNxt = c.rcvNxt + 1)
    (irs : c'.irs = c.irs) (rx : c'.rx = c.rx) (fin : c'.finReceived = true) :
    RecvInv c' { h with finAt := h.finAt ++ [seg.seq + UInt32.ofNat seg.data.length] } := by
  have hnext := hinv.next hsync
  have hpos := streamPos_congr irs
  have hcount : c.finCount = 0 := by rw [finCount, hnofin]; rfl
  have hcount' : c'.finCount = 1 := by rw [finCount, fin]; rfl
  rw [hcount, Nat.add_zero] at hnext
  have hnil : h.finAt = [] := by simpa [hnofin] using hinv.fin
  refine ⟨by rw [rx, hinv.stream], by rw [irs]; exact hinv.contiguous, fun _ => ?_, ?_,
    fun o ho hack => ?_, fun he => absurd he (not_early_of_sync hsync')⟩
  · show c'.rcvNxt = c'.streamPos (h.stored + c'.finCount)
    rw [hcount', hpos, streamPos_add, ← hnext, rcv]
    rfl
  · show h.finAt ++ [_] = if c'.finReceived then [c'.streamPos h.stored] else []
    rw [hnil, hseq, fin, hpos, ← hnext]
    rfl
  · obtain ⟨n, hn, heq⟩ := hinv.acks o ho hack
    refine ⟨n, ?_, heq.trans (hpos n).symm⟩
    show n ≤ h.stored + c'.finCount
    omega

end RecvInv

theorem RecvInv.fresh (self : Option Task) : RecvInv (Conn.fresh self) .empty where
  stream := rfl
  contiguous := trivial
  next h := by cases h
  fin := rfl
  acks := by simp [History.empty]
  early _ := ⟨rfl, by simp [History.empty]⟩

theorem RecvInv.move {c c' : Conn} {l : Label} {h : History} (hc : Sane c) (hm : Move c l c')
    (hinv : RecvInv c h) : RecvInv c' (h.note l) := by
  cases hm with
  | quiet send recv state =>
    cases state with
    | same hs => exact hinv.of_state recv hs
    | released hstate huse =>
      refine hinv.of_same recv (fun hs => by rw [hstate] at hs; cases hs) fun he => ?_
      rcases he with he | ⟨_, he⟩
      · rw [hstate] at he; cases he
      · rw [huse] at he; cases he
    | timeWait hs hs' => exact hinv.of_late recv (by rw [hs]; rfl) (by rw [hs']; rfl)
  | fresh self => exact RecvInv.fresh self
  | opened recv huse hstate huse' hstate' tx hseq hflags hdata =>
    rename_i o
    obtain ⟨haccepted, hemitted⟩ := hinv.early (.inr ⟨hstate, huse⟩)
    have hopen := hinv.of_same recv (fun hs => by rw [hstate'] at hs; cases hs)
      fun _ => .inr ⟨hstate, huse⟩
    have hnoack : ∀ o' ∈ h.emitted ++ [o], has o'.flags tcpAck = false := by
      intro o' ho'
      rcases mem_append.1 ho' with ho' | ho'
      · exact hemitted o' ho'
      · cases mem_singleton.1 ho'
        rw [hflags]
        decide
    refine { hopen with acks := fun o' ho' hack => ?_, early := fun _ => ⟨haccepted, hnoack⟩ }
    rw [hnoack o' ho'] at hack
    cases hack
  | handshake hstate hstate' huse tx una nxt rcv irs rx fin =>
    obtain ⟨haccepted, hemitted⟩ := hinv.early (.inl hstate)
    have hnofin := hc.noFin (by rw [hstate]; rfl)
    refine ⟨by rw [rx]; exact hinv.stream, by rw [History.note, haccepted]; trivial, fun _ => ?_, ?_,
      fun o ho hack => ?_, fun he => ?_⟩
    · rw [rcv, streamPos, irs, finCount, fin, hnofin, History.note, History.stored,
        haccepted]
      simp [streamBytes]
    · show h.finAt = _
      rw [fin, hnofin]
      simpa [hnofin] using hinv.fin
    · rw [hemitted o ho] at hack
      cases hack
    · rw [Early, hstate'] at he
      rcases he with he | ⟨he, _⟩ <;> cases he
  | acked recv una nxt tx check =>
    cases check with
    | new hs hs' => exact hinv.of_state recv hs'
    | all hs hs' => exact hinv.of_late recv (by rw [hs]; rfl) (by rw [hs']; rfl)
  | ackedAny recv state => exact hinv.of_state recv state
  | emit send recv state hsync hack =>
    exact (hinv.of_state recv state).emit (by rwa [state.state]) (hack.trans recv.nxt.symm)
  | stored send state hstate hseq hpos hfit rx rcv irs fin =>
    exact hinv.stored state hstate (hc.noFin (by rw [hstate]; rfl)) hseq hfit rx rcv irs fin
  | finished send state huse hseq rcv irs rx fin =>
    cases state with
    | closeWait hs hs' | closing hs hs' | timeWait hs hs' =>
      exact hinv.finished (by rw [hs]; rfl) (by rw [hs']; rfl) (hc.noFin (by rw [hs]; rfl)) hseq rcv
        irs rx fin
  | read send state hk rx rcv irs fin =>
    rename_i k
    -- the bytes move from the front of the buffer to the end of what was read
    have hpos := streamPos_congr irs
    have hcount : c'.finCount = c.finCount := by rw [finCount, finCount, fin]
    refine ⟨?_, by rw [irs]; exact hinv.contiguous, fun hs => ?_, ?_, fun o ho hack => ?_, fun he => ?_⟩
    · show (h.read ++ (Ring.popN k c.rx).1) ++ c'.rx.contents = streamBytes h.accepted
      rw [rx, Ring.popN_fst hk, Ring.contents_popN hk, append_assoc, take_append_drop,
        hinv.stream]
    · rw [rcv, hcount, hpos]
      exact hinv.next (state.state ▸ hs)
    · rw [fin, hpos]
      exact hinv.fin
    · obtain ⟨n, hn, heq⟩ := hinv.acks o ho hack
      exact ⟨n, by rw [hcount]; exact hn, heq.trans (hpos n).symm⟩
    · rw [Early, state.state, state.inUse] at he
      exact hinv.early he
  | called => exact hinv.congr_send _ _
  | sent recv state huse hstate hsent =>
    have hsync : c'.state.synchronized = true := by rw [state.state, hstate]; rfl
    exact ((hinv.of_state recv state).emit hsync (hsent.ack.trans recv.nxt.symm)).congr_send _ _
  | fin recv huse hstate una nxt tx hseq hflags hack =>
    have hsync : c.state.synchronized = true ∧ c'.state.synchronized = true := by
      rcases hstate with ⟨hs, hs'⟩ | ⟨hs, hs'⟩ <;> rw [hs, hs'] <;> exact ⟨rfl, rfl⟩
    exact (hinv.of_late recv hsync.1 hsync.2).emit hsync.2 (hack.trans recv.nxt.symm)

theorem recvInv_run (calls : List Call) (i : Idx) :
    RecvInv ((System.run calls).stack.conn i) ((System.run calls).hist i) :=
  (moves_invariant (fun _ _ => True) RecvInv (fun _ _ => trivial) (fun _ _ _ _ _ _ => trivial)
    (fun _ _ _ _ hc hm _ hinv => hinv.move hc hm) (fun _ => ⟨rfl, trivial, (by cases ·), rfl,
      by simp [History.empty], fun _ => ⟨rfl, by simp [History.empty]⟩⟩)
    (System.run_all calls) i).2

/-- What the receiver promises about the peer's stream, in terms of what an
observer sees. -/
structure ReceiveIntegrity (c : Conn) (h : History) : Prop where
  /-- `tcp_recv` has returned a prefix of the stream of accepted segments. -/
  delivered : h.read <+: streamBytes h.accepted
  /-- The rest of it is in the buffer. -/
  unread : h.read ++ c.rx.contents = streamBytes h.accepted
  /-- The accepted segments are in order, from `irs + 1`. -/
  contiguous : Contiguous (c.irs + 1) h.accepted
  next : c.state.synchronized = true → c.rcvNxt =
    c.irs + 1 + UInt32.ofNat (streamBytes h.accepted).length + (if c.finReceived then 1 else 0)
  /-- A FIN was accepted only where all bytes before it were stored. -/
  finLast : ∀ p ∈ h.finAt, p = c.irs + 1 + UInt32.ofNat (streamBytes h.accepted).length
  finSeen : c.finReceived = true ↔ h.finAt ≠ []
  bounded : rxAvailable c ≤ 2047
  /-- Acknowledged is only what was stored, and so is read or in the buffer. -/
  acknowledged : ∀ o ∈ h.emitted, has o.flags tcpAck = true →
    ∃ n, n ≤ (streamBytes h.accepted).length + (if c.finReceived then 1 else 0) ∧
      o.ack = c.irs + 1 + UInt32.ofNat n

/-- Whatever calls are made and whatever segments arrive, the receive stream of
every connection is intact. -/
theorem receive_stream_integrity (calls : List Call) (i : Idx) :
    ReceiveIntegrity ((System.run calls).stack.conn i) ((System.run calls).hist i) := by
  have hinv := recvInv_run calls i
  generalize (System.run calls).stack.conn i = c at hinv
  refine ⟨⟨_, hinv.stream⟩, hinv.stream, hinv.contiguous, fun hs => ?_, fun p hp => ?_, ?_, ?_, hinv.acks⟩
  · rw [hinv.next hs, streamPos_add, finCount]
    split <;> rfl
  · rw [hinv.fin] at hp
    split at hp
    · exact mem_singleton.1 hp
    · cases hp
  · rw [hinv.fin]
    cases c.finReceived <;> simp
  · exact Nat.le_of_lt_succ c.rx.available_lt

/-- A handshake, a segment ahead of a gap, three bytes in order, and a read of two. -/
example :
    (((System.run
      [.socket (some ⟨0, 1, 0⟩) 0, .connect 0 1 80 ⟨fun _ => 0, true, 100, 0⟩,
       .packet ⟨1, 80, 49152, 500, 102, 0x50, tcpSyn ||| tcpAck, 1000, []⟩ 0,
       .packet ⟨1, 80, 49152, 504, 102, 0x50, tcpAck, 1000, [9]⟩ 0,
       .packet ⟨1, 80, 49152, 501, 102, 0x50, tcpAck, 1000, [1, 2, 3]⟩ 0,
       .recv 0 2]).hist 0).accepted = [(501, [1, 2, 3])]) := by
  decide

end TinyOS.Tcp
