import TinyOS.Tcp.History

/-!
# TCP: the moves an operation is made of

Every operation on a slot is a short run of a few kinds of moves, which say what
happens to the two byte streams: a segment is stored, a FIN is accepted, an
acknowledgement moves `snd_una`, something is sent. Everything else an operation
does is quiet.

- `run_moves`: what `SlotOp.run` does to the connection is a run of moves, and the
  history notes exactly these moves.
- `moves_invariant`: an invariant of connection and history that each move keeps
  holds in every slot after every run of calls.
-/

namespace TinyOS.Tcp

open Lib History List Ring

/-! ## What `tcp_send_segment` does for each kind of segment -/

/-- The pure acknowledgement a connection sends. -/
def ackOf (c : Conn) : OutSeg := ⟨c.sndNxt, c.rcvNxt, tcpAck, rxFreeSpace c, []⟩

@[simp] theorem sendAck_eq (c : Conn) : sendAck c = (c, [ackOf c]) := by
  have hsyn : has tcpAck tcpSyn = false := by decide
  have hfin : has tcpAck tcpFin = false := by decide
  simp [sendAck, tcpSendSegment, hsyn, hfin, ackOf]

theorem tcpSendSegment_data (c : Conn) {data : List UInt8} (h : data.length ≤ maxSegmentSize) :
    tcpSendSegment c (tcpAck ||| tcpPsh) data =
      ({ c with sndNxt := c.sndNxt + UInt32.ofNat data.length },
        ⟨c.sndNxt, c.rcvNxt, tcpAck ||| tcpPsh, rxFreeSpace c, data⟩) := by
  have hsyn : has (tcpAck ||| tcpPsh) tcpSyn = false := by decide
  have hfin : has (tcpAck ||| tcpPsh) tcpFin = false := by decide
  simp [tcpSendSegment, hsyn, hfin, take_of_length_le h]

theorem tcpSendSegment_syn (c : Conn) :
    tcpSendSegment c tcpSyn [] =
      ({ c with sndNxt := c.sndNxt + 1 }, ⟨c.sndNxt, c.rcvNxt, tcpSyn, rxFreeSpace c, []⟩) := by
  have hsyn : has tcpSyn tcpSyn = true := by decide
  have hfin : has tcpSyn tcpFin = false := by decide
  simp [tcpSendSegment, hsyn, hfin]

theorem tcpSendSegment_fin (c : Conn) :
    tcpSendSegment c (tcpAck ||| tcpFin) [] =
      ({ c with sndNxt := c.sndNxt + 1 },
        ⟨c.sndNxt, c.rcvNxt, tcpAck ||| tcpFin, rxFreeSpace c, []⟩) := by
  have hsyn : has (tcpAck ||| tcpFin) tcpSyn = false := by decide
  have hfin : has (tcpAck ||| tcpFin) tcpFin = true := by decide
  simp [tcpSendSegment, hsyn, hfin]

/-! ## Moves -/

/-- The sending side is untouched. -/
structure SameSend (c c' : Conn) : Prop where
  una : c'.sndUna = c.sndUna
  nxt : c'.sndNxt = c.sndNxt
  tx : c'.tx = c.tx

/-- The receiving side is untouched. -/
structure SameRecv (c c' : Conn) : Prop where
  nxt : c'.rcvNxt = c.rcvNxt
  irs : c'.irs = c.irs
  rx : c'.rx = c.rx
  fin : c'.finReceived = c.finReceived

/-- The connection stays in its state. -/
structure SameState (c c' : Conn) : Prop where
  state : c'.state = c.state
  inUse : c'.inUse = c.inUse

theorem SameSend.refl (c : Conn) : SameSend c c := ⟨rfl, rfl, rfl⟩
theorem SameRecv.refl (c : Conn) : SameRecv c c := ⟨rfl, rfl, rfl, rfl⟩
theorem SameState.refl (c : Conn) : SameState c c := ⟨rfl, rfl⟩

/-- The names of the moves, with what the observer notes about them. -/
inductive Label where
  | quiet
  | fresh
  | opened (o : OutSeg)
  | handshake (seg : Segment)
  | acked (seg : Segment)
  | ackedAny (seg : Segment)
  | emit (o : OutSeg)
  | stored (seg : Segment)
  | finished (seg : Segment)
  | read (bytes : List UInt8)
  /-- A `tcp_send` that sends nothing. -/
  | called
  | sent (data : List UInt8) (n : Nat) (o : OutSeg)
  | fin (o : OutSeg)

/-- State changes that are no concern of the streams: the slot is released, or the
last acknowledgement of a simultaneous close arrives. -/
inductive QuietState (c c' : Conn) : Prop
  | same (h : SameState c c')
  | released (hstate : c'.state = .closed) (huse : c'.inUse = false)
  | timeWait (h : c.state = .closing) (h' : c'.state = .timeWait) (huse : c'.inUse = c.inUse)

/-- An acknowledgement that is checked before `snd_una` takes it. -/
inductive CheckedAck (c c' : Conn) (seg : Segment) : Prop
  | new (h : c.state = .established) (h' : SameState c c') (hgt : seqGt seg.ack c.sndUna)
      (hleq : seqLeq seg.ack c.sndNxt)
  | all (h : c.state = .finWait1) (h' : c'.state = .finWait2) (huse : c'.inUse = c.inUse)
      (hack : seg.ack = c.sndNxt)

/-- The states around an accepted FIN. -/
inductive FinState (c c' : Conn) : Prop
  | closeWait (h : c.state = .established) (h' : c'.state = .closeWait)
  | closing (h : c.state = .finWait1) (h' : c'.state = .closing)
  | timeWait (h : c.state = .finWait2) (h' : c'.state = .timeWait)

/-- The bytes a `tcp_send` puts into the ring. -/
def taken (c : Conn) (data : List UInt8) : List UInt8 :=
  data.take (txBufferSize - txAvailable c - 1)

/-- A `tcp_send` of `data` that sends `n` bytes in the segment `o`. They come from
the front of the ring, behind whose contents the new bytes were put. -/
structure SentFrom (c c' : Conn) (data : List UInt8) (n : Nat) (o : OutSeg) : Prop where
  count : n = min (taken c data).length maxSegmentSize
  bytes : o.data = (c.tx.contents ++ taken c data).take n
  tx : c'.tx.contents = (c.tx.contents ++ taken c data).drop n
  una : c'.sndUna = c.sndUna
  nxt : c'.sndNxt = c.sndNxt + UInt32.ofNat n
  seq : o.seq = c.sndNxt
  ack : o.ack = c.rcvNxt

/-- What one move does to a connection. -/
inductive Move : Conn → Label → Conn → Prop
  | quiet {c c' : Conn} (send : SameSend c c') (recv : SameRecv c c') (state : QuietState c c') :
      Move c .quiet c'
  | fresh (c : Conn) (self : Option Task) : Move c .fresh (Conn.fresh self)
  | opened {c c' : Conn} {o : OutSeg} (recv : SameRecv c c') (huse : c.inUse = true)
      (hstate : c.state = .closed) (huse' : c'.inUse = true) (hstate' : c'.state = .synSent)
      (tx : c'.tx = c.tx) (hseq : c'.sndNxt = o.seq + 1) (hflags : o.flags = tcpSyn)
      (hdata : o.data = []) : Move c (.opened o) c'
  | handshake {c c' : Conn} {seg : Segment} (hstate : c.state = .synSent)
      (hstate' : c'.state = .established) (huse : c'.inUse = c.inUse) (tx : c'.tx = c.tx)
      (una : c'.sndUna = c.sndNxt) (nxt : c'.sndNxt = c.sndNxt) (rcv : c'.rcvNxt = seg.seq + 1)
      (irs : c'.irs = seg.seq) (rx : c'.rx = c.rx) (fin : c'.finReceived = c.finReceived) :
      Move c (.handshake seg) c'
  | acked {c c' : Conn} {seg : Segment} (recv : SameRecv c c') (una : c'.sndUna = seg.ack)
      (nxt : c'.sndNxt = c.sndNxt) (tx : c'.tx = c.tx) (check : CheckedAck c c' seg) :
      Move c (.acked seg) c'
  | ackedAny {c c' : Conn} {seg : Segment} (recv : SameRecv c c') (state : SameState c c')
      (hstate : c.state = .closeWait) (una : c'.sndUna = seg.ack) (nxt : c'.sndNxt = c.sndNxt)
      (tx : c'.tx = c.tx) : Move c (.ackedAny seg) c'
  | emit {c c' : Conn} {o : OutSeg} (send : SameSend c c') (recv : SameRecv c c')
      (state : SameState c c') (hsync : c.state.synchronized = true) (hack : o.ack = c.rcvNxt) :
      Move c (.emit o) c'
  | stored {c c' : Conn} {seg : Segment} (send : SameSend c c') (state : SameState c c')
      (hstate : c.state = .established) (hseq : seg.seq = c.rcvNxt) (hpos : 0 < seg.data.length)
      (hfit : seg.data.length ≤ rxFreeSpace c) (rx : c'.rx = Ring.pushAll seg.data c.rx)
      (rcv : c'.rcvNxt = c.rcvNxt + UInt32.ofNat seg.data.length) (irs : c'.irs = c.irs)
      (fin : c'.finReceived = c.finReceived) : Move c (.stored seg) c'
  | finished {c c' : Conn} {seg : Segment} (send : SameSend c c') (state : FinState c c')
      (huse : c'.inUse = c.inUse) (hseq : seg.seq + UInt32.ofNat seg.data.length = c.rcvNxt)
      (rcv : c'.rcvNxt = c.rcvNxt + 1) (irs : c'.irs = c.irs) (rx : c'.rx = c.rx)
      (fin : c'.finReceived = true) : Move c (.finished seg) c'
  | read {c c' : Conn} {k : Nat} (send : SameSend c c') (state : SameState c c')
      (hk : k ≤ c.rx.available) (rx : c'.rx = (Ring.popN k c.rx).2) (rcv : c'.rcvNxt = c.rcvNxt)
      (irs : c'.irs = c.irs) (fin : c'.finReceived = c.finReceived) :
      Move c (.read (Ring.popN k c.rx).1) c'
  | called (c : Conn) : Move c .called c
  | sent {c c' : Conn} {data : List UInt8} {n : Nat} {o : OutSeg} (recv : SameRecv c c')
      (state : SameState c c') (huse : c.inUse = true) (hstate : c.state = .established)
      (send : SentFrom c c' data n o) : Move c (.sent data n o) c'
  | fin {c c' : Conn} {o : OutSeg} (recv : SameRecv c c') (huse : c'.inUse = c.inUse)
      (hstate : c.state = .established ∧ c'.state = .finWait1 ∨
        c.state = .closeWait ∧ c'.state = .lastAck)
      (una : c'.sndUna = c.sndUna) (nxt : c'.sndNxt = c.sndNxt + 1) (tx : c'.tx = c.tx)
      (hseq : o.seq = c.sndNxt) (hflags : o.flags = tcpAck ||| tcpFin) (hack : o.ack = c.rcvNxt) :
      Move c (.fin o) c'

/-- Where the moves come from whose effect depends on what the peer or the
application asks for. -/
def Origin (c₀ : Conn) (op : SlotOp) (c : Conn) : Label → Prop
  | .sent data _ _ => op = .send data ∧ c = c₀
  | .fresh => ∃ self, op = .fresh self
  | .handshake _ => c = c₀
  | .ackedAny seg => c = c₀ ∧ has seg.flags tcpRst = false ∧ has seg.flags tcpAck = true ∧
      ∃ now, op = .segment now seg
  | .fin _ => SameSend c₀ c ∧ SameState c₀ c ∧ c₀.inUse = true ∧
      ((∃ now, op = .close now) ∨ c₀.orphaned = true ∧ ∃ now closeTime, op = .tick now closeTime)
  | _ => True

/-- The moves of one operation. -/
def OpRun (c₀ : Conn) (op : SlotOp) : Conn → List Label → Conn → Prop :=
  Run fun c l c' => Move c l c' ∧ Origin c₀ op c l

/-- Note a move. -/
def History.note (h : History) : Label → History
  | .fresh => .empty
  | .opened o | .emit o | .fin o => { h with emitted := h.emitted ++ [o] }
  | .stored seg => { h with accepted := h.accepted ++ [(seg.seq, seg.data)] }
  | .finished seg => { h with finAt := h.finAt ++ [seg.seq + UInt32.ofNat seg.data.length] }
  | .read bytes => { h with read := h.read ++ bytes }
  | .called => { h with calls := h.calls ++ [[]] }
  | .sent data n o =>
    { h with
      calls := h.calls ++ [data.take n]
      sent := h.sent ++ [(o.seq, o.data)]
      emitted := h.emitted ++ [o] }
  | .quiet | .handshake _ | .acked _ | .ackedAny _ => h

/-- Note a list of moves. -/
def History.noteAll (h : History) (labels : List Label) : History := labels.foldl History.note h

/-- Note some segments sent. -/
def History.noteOut (out : List OutSeg) (h : History) : History :=
  { h with emitted := h.emitted ++ out }

/-- What a segment leaves in the history: whether it was stored and whether its
FIN was accepted. -/
def History.noteSegment (seg : Segment) (out : List OutSeg) (stored fin : Bool) (h : History) :
    History :=
  { h with
    emitted := h.emitted ++ out
    accepted := if stored then h.accepted ++ [(seg.seq, seg.data)] else h.accepted
    finAt := if fin then h.finAt ++ [seg.seq + UInt32.ofNat seg.data.length] else h.finAt }

/-- Moves of the operation `op` on `c₀` lead from `c` to `c'`, and what they leave
in the history is `f`. -/
def Effect (c₀ : Conn) (op : SlotOp) (c c' : Conn) (f : History → History) : Prop :=
  ∃ labels, OpRun c₀ op c labels c' ∧ ∀ h, h.noteAll labels = f h

namespace Effect

variable {c₀ c c₁ c' : Conn} {op : SlotOp} {f g : History → History}

theorem refl (c₀ : Conn) (op : SlotOp) (c : Conn) : Effect c₀ op c c id :=
  ⟨[], .nil c, fun _ => rfl⟩

theorem single (l : Label) (hf : ∀ h, h.note l = f h) (h : Move c l c') (ho : Origin c₀ op c l) :
    Effect c₀ op c c' f :=
  ⟨[l], .single ⟨h, ho⟩, hf⟩

theorem trans (h₁ : Effect c₀ op c c₁ f) (h₂ : Effect c₀ op c₁ c' g) :
    Effect c₀ op c c' fun h => g (f h) := by
  obtain ⟨labels₁, hrun₁, hnote₁⟩ := h₁
  obtain ⟨labels₂, hrun₂, hnote₂⟩ := h₂
  refine ⟨labels₁ ++ labels₂, hrun₁.append hrun₂, fun h => ?_⟩
  show _ = g (f h)
  rw [← hnote₂, ← hnote₁]
  exact foldl_append ..

theorem congr (h : Effect c₀ op c c' f) (hfg : ∀ h, f h = g h) : Effect c₀ op c c' g := by
  obtain rfl : f = g := funext hfg
  exact h

end Effect

/-! ## States that are never reached

There is no passive open, and a FIN is only received on the way out. -/

/-- A FIN has been received, or the connection is gone. -/
def TcpState.finSeen : TcpState → Bool
  | closed | closeWait | closing | lastAck | timeWait => true
  | _ => false

/-- Not yet past the handshake. -/
def Early (c : Conn) : Prop := c.state = .synSent ∨ c.state = .closed ∧ c.inUse = true

/-- What every connection keeps to. -/
structure Sane (c : Conn) : Prop where
  listen : c.state ≠ .listen
  synReceived : c.state ≠ .synReceived
  fin : c.finReceived = true → c.state.finSeen = true
  early : Early c → c.finReceived = false ∧ c.rx.available = 0

theorem Conn.sane_fresh (self : Option Task) : Sane (Conn.fresh self) where
  listen := by simp [Conn.fresh, Conn.zero]
  synReceived := by simp [Conn.fresh, Conn.zero]
  fin := by simp [Conn.fresh, Conn.zero]
  early _ := ⟨rfl, rfl⟩

namespace Sane

variable {c c' : Conn}

theorem of_same (hc : Sane c) (state : SameState c c') (fin : c'.finReceived = c.finReceived)
    (rx : c'.rx.available ≤ c.rx.available) : Sane c' where
  listen := state.state ▸ hc.listen
  synReceived := state.state ▸ hc.synReceived
  fin hf := state.state ▸ hc.fin (fin ▸ hf)
  early h := by
    rw [Early, state.state, state.inUse] at h
    have := hc.early h
    exact ⟨fin.trans this.1, by omega⟩

/-- A connection past the handshake whose FIN, if received, its state shows. -/
theorem of_late (hsync : c'.state.synchronized = true)
    (fin : c'.finReceived = true → c'.state.finSeen = true) : Sane c' where
  listen h := by simp [h, TcpState.synchronized] at hsync
  synReceived h := by simp [h, TcpState.synchronized] at hsync
  fin := fin
  early h := by rcases h with h | ⟨h, _⟩ <;> simp [h, TcpState.synchronized] at hsync

theorem noFin (hc : Sane c) (h : c.state.finSeen = false) : c.finReceived = false := by
  cases hf : c.finReceived with
  | false => rfl
  | true => rw [hc.fin hf] at h; cases h

end Sane

theorem Move.sane {c c' : Conn} {l : Label} (h : Move c l c') (hc : Sane c) : Sane c' := by
  cases h with
  | quiet send recv state =>
    cases state with
    | same h => exact hc.of_same h recv.fin (recv.rx ▸ le_rfl)
    | released hstate huse => constructor <;> simp [hstate, huse, TcpState.finSeen, Early]
    | timeWait h h' huse => exact .of_late (by rw [h']; rfl) fun _ => by rw [h']; rfl
  | fresh self => exact Conn.sane_fresh _
  | opened recv huse hstate huse' hstate' =>
    have hearly := hc.early (.inr ⟨hstate, huse⟩)
    constructor <;> simp [hstate', recv.fin, recv.rx, hearly]
  | handshake hstate hstate' huse tx una nxt rcv irs rx fin =>
    have hf := hc.noFin (by rw [hstate]; rfl)
    exact .of_late (by rw [hstate']; rfl) fun h => by rw [fin, hf] at h; cases h
  | acked recv una nxt tx check =>
    cases check with
    | new h h' hgt hleq => exact hc.of_same h' recv.fin (recv.rx ▸ le_rfl)
    | all h h' huse hack =>
      have hf := hc.noFin (by rw [h]; rfl)
      exact .of_late (by rw [h']; rfl) fun h => by rw [recv.fin, hf] at h; cases h
  | ackedAny recv state hstate una nxt tx
  | emit send recv state hsync hack
  | sent recv state => exact hc.of_same state recv.fin (recv.rx ▸ le_rfl)
  | stored send state hstate hseq hpos hfit rx rcv irs fin =>
    have hf := hc.noFin (by rw [hstate]; rfl)
    exact .of_late (by rw [state.state, hstate]; rfl) fun h => by rw [fin, hf] at h; cases h
  | finished send state huse hseq rcv irs rx fin =>
    cases state with
    | closeWait h h' | closing h h'
    | timeWait h h' => exact .of_late (by rw [h']; rfl) fun _ => by rw [h']; rfl
  | read send state hk rx rcv irs fin =>
    refine hc.of_same state fin ?_
    rw [rx, ← length_contents, contents_popN hk, length_drop, length_contents]
    exact Nat.sub_le ..
  | called => exact hc
  | fin recv huse hstate =>
    rcases hstate with ⟨h, h'⟩ | ⟨h, h'⟩
    · have hf := hc.noFin (by rw [h]; rfl)
      exact .of_late (by rw [h']; rfl) fun h => by rw [recv.fin, hf] at h; cases h
    · exact .of_late (by rw [h']; rfl) fun _ => by rw [h']; rfl

/-! ## Calls -/

section Calls

variable {c₀ c : Conn} {op : SlotOp}

theorem Move.ack (hsync : c.state.synchronized = true) : Move c (.emit (ackOf c)) c :=
  .emit (.refl c) (.refl c) (.refl c) hsync rfl

theorem Effect.singleAck {c' : Conn} {f : History → History} (l : Label)
    (hf : ∀ h, (h.note l).noteOut [ackOf c'] = f h) (h : Move c l c') (ho : Origin c₀ op c l)
    (hsync : c'.state.synchronized = true) : Effect c₀ op c c' f :=
  ((Effect.single l (fun _ => rfl) h ho).trans
    (.single (.emit (ackOf c')) (fun _ => rfl) (.ack hsync) trivial)).congr hf

theorem Effect.quiet {c' : Conn} (h : Move c .quiet c') : Effect c₀ op c c' (History.noteOut []) :=
  .single .quiet (fun h => by simp [note, noteOut]) h trivial

theorem Conn.release_quiet (c : Conn) : Move c .quiet c.release :=
  .quiet ⟨rfl, rfl, rfl⟩ ⟨rfl, rfl, rfl, rfl⟩ (.released rfl rfl)

theorem Conn.quiet_refl (c : Conn) : Move c .quiet c :=
  .quiet (.refl c) (.refl c) (.same (.refl c))

theorem tcpConnect_effect (c : Conn) (r : ConnectRequest) (op : SlotOp) :
    Effect c op c (tcpConnect c r).conn (History.noteOut (tcpConnect c r).out) := by
  have hquiet : ∀ c', SameSend c c' → SameRecv c c' → SameState c c' →
      Effect c op c c' (noteOut []) := fun c' hs hr hst => .quiet (.quiet hs hr (.same hst))
  by_cases hopen : (!c.inUse || c.state ≠ .closed) = true
  · rw [tcpConnect, if_pos hopen]
    exact hquiet c (.refl c) (.refl c) (.refl c)
  rw [tcpConnect, if_neg hopen]
  split
  · exact hquiet c (.refl c) (.refl c) (.refl c)
  dsimp only
  generalize (if c.localPort = 0 then r.newPort else c.localPort) = port
  split
  · exact hquiet _ ⟨rfl, rfl, rfl⟩ ⟨rfl, rfl, rfl, rfl⟩ ⟨rfl, rfl⟩
  split
  · exact hquiet _ ⟨rfl, rfl, rfl⟩ ⟨rfl, rfl, rfl, rfl⟩ ⟨rfl, rfl⟩
  rw [tcpSendSegment_syn]
  have huse : c.inUse = true ∧ c.state = .closed := by simpa using hopen
  exact .single (.opened _) (fun _ => rfl)
    (.opened ⟨rfl, rfl, rfl, rfl⟩ huse.1 huse.2 huse.1 rfl rfl rfl rfl rfl) trivial

theorem contents_taken (c : Conn) (data : List UInt8) :
    (Ring.pushAll (taken c data) c.tx).contents = c.tx.contents ++ taken c data := by
  apply contents_pushAll
  have hlt := c.tx.available_lt
  have hlen : (taken c data).length ≤ txBufferSize - c.tx.available - 1 := length_take_le ..
  omega

theorem tcpSend_open {c : Conn} {data : List UInt8} (huse : c.inUse = true)
    (hstate : c.state = .established) (hpos : (taken c data).length ≠ 0) :
    ∃ (c' : Conn) (n : Nat) (o : OutSeg), tcpSend c data = ⟨n, [], c', [o]⟩ ∧
      SameRecv c c' ∧ SameState c c' ∧
      SentFrom c c' data n o := by
  have hmin : (if (taken c data).length < maxSegmentSize then (taken c data).length
      else maxSegmentSize) = min (taken c data).length maxSegmentSize := by
    split <;> omega
  have hle : min (taken c data).length maxSegmentSize ≤
      (pushAll (taken c data) c.tx).available := by
    rw [← length_contents, contents_taken, length_append]
    omega
  have hbuf := popN_fst hle
  have hlen : (popN (min (taken c data).length maxSegmentSize)
      (pushAll (taken c data) c.tx)).1.length = min (taken c data).length maxSegmentSize := by
    rw [hbuf, length_take, length_contents]
    exact Nat.min_eq_left hle
  rw [tcpSend, if_neg (by simp [huse, hstate])]
  dsimp only
  rw [← taken, if_neg hpos, hmin, tcpSendSegment_data _ (by rw [hlen]; exact Nat.min_le_right ..)]
  refine ⟨_, _, _, rfl, ⟨rfl, rfl, rfl, rfl⟩, ⟨rfl, rfl⟩, rfl, ?_, ?_, rfl, ?_, rfl, rfl⟩
  · rw [← contents_taken]
    exact hbuf
  · rw [← contents_taken]
    exact contents_popN hle
  · rw [hlen]

theorem tcpSend_effect (c : Conn) (data : List UInt8) :
    Effect c (.send data) c (tcpSend c data).conn fun h =>
      { h with
        calls := h.calls ++ [data.take (tcpSend c data).ret.toNat]
        sent := h.sent ++ (tcpSend c data).out.map fun o => (o.seq, o.data)
        emitted := h.emitted ++ (tcpSend c data).out } := by
  have hcalled : Effect c (.send data) c c fun h => { h with calls := h.calls ++ [[]] } :=
    .single .called (fun _ => rfl) (.called c) trivial
  by_cases hopen : c.inUse = true ∧ c.state = .established
  · by_cases hpos : (taken c data).length = 0
    · have hsend : tcpSend c data = ⟨0, [], c, []⟩ := by
        rw [tcpSend, if_neg (by simp [hopen])]
        exact if_pos hpos
      rw [hsend]
      exact hcalled.congr fun h => by simp
    · obtain ⟨c', n, o, hsend, hrecv, hstate, hsent⟩ := tcpSend_open hopen.1 hopen.2 hpos
      rw [hsend]
      exact .single (.sent data n o) (fun _ => rfl) (.sent hrecv hstate hopen.1 hopen.2 hsent)
        ⟨rfl, rfl⟩
  · have hsend : tcpSend c data = ⟨-1, [], c, []⟩ := by
      apply if_pos
      simpa [imp_iff_not_or] using hopen
    rw [hsend]
    exact hcalled.congr fun h => by simp

theorem tcpRecv_effect (c : Conn) (len : Nat) (op : SlotOp) (hc : Sane c) :
    Effect c op c (tcpRecv c len).conn fun h =>
      { h with
        emitted := h.emitted ++ (tcpRecv c len).out
        read := h.read ++ (tcpRecv c len).bytes } := by
  rw [tcpRecv]
  split
  · exact (Effect.refl c op c).congr fun h => by simp
  dsimp only [rxAvailable]
  split
  · exact (Effect.refl c op c).congr fun h => by simp
  rename_i hopen havail
  generalize hk : (if len < c.rx.available then len else c.rx.available) = k
  have hle : k ≤ c.rx.available := by
    rw [← hk]
    split <;> omega
  have hread : ∀ w, Effect c op c { c with rx := (popN k c.rx).2, rcvWnd := w } fun h =>
      { h with read := h.read ++ (popN k c.rx).1 } :=
    fun w => .single (.read _) (fun _ => rfl)
      (.read ⟨rfl, rfl, rfl⟩ ⟨rfl, rfl⟩ hle rfl rfl rfl rfl) trivial
  split
  · -- the buffer is not empty, so the handshake is over
    have hsync : c.state.synchronized = true := by
      cases hs : c.state with
      | closed => simp [hs] at hopen
      | listen => exact absurd hs hc.listen
      | synReceived => exact absurd hs hc.synReceived
      | synSent => exact absurd (hc.early (.inl hs)).2 havail
      | _ => rfl
    rw [sendAck_eq]
    exact (hread _).trans (.single (.emit _) (fun _ => rfl) (.ack hsync) trivial)
  · exact (hread _).congr fun h => by simp

/-- `tcp_close`, called on a connection that differs from the operation's by no
more than the mark that it lost its owner. -/
theorem tcpClose_effect {c₀ c : Conn} {op : SlotOp} (now : UInt32) (hsend : SameSend c₀ c)
    (hstate : SameState c₀ c)
    (hop : (∃ now, op = .close now) ∨
      c₀.orphaned = true ∧ ∃ now closeTime, op = .tick now closeTime) :
    Effect c₀ op c (tcpClose c now).conn (History.noteOut (tcpClose c now).out) := by
  rw [tcpClose]
  split
  · exact .quiet c.quiet_refl
  rename_i huse
  have huse : c₀.inUse = true := by
    rw [← hstate.inUse]
    simpa using huse
  cases hs : c.state with
  | established =>
    simp only [sendFin, tcpSendSegment_fin]
    exact .single (.fin _) (fun _ => rfl)
      (.fin ⟨rfl, rfl, rfl, rfl⟩ rfl (.inl ⟨hs, rfl⟩) rfl rfl rfl rfl rfl rfl)
      ⟨hsend, hstate, huse, hop⟩
  | closeWait =>
    simp only [sendFin, tcpSendSegment_fin]
    exact .single (.fin _) (fun _ => rfl)
      (.fin ⟨rfl, rfl, rfl, rfl⟩ rfl (.inr ⟨hs, rfl⟩) rfl rfl rfl rfl rfl rfl)
      ⟨hsend, hstate, huse, hop⟩
  | closed | listen | synSent | synReceived => exact .quiet c.release_quiet
  | finWait1 | finWait2 | closing | lastAck | timeWait => exact .quiet c.quiet_refl

theorem taskCleanup_quiet (c : Conn) (hc : Sane c) (pid generation : UInt32) :
    Move c .quiet (taskCleanup c pid generation) := by
  rw [taskCleanup]
  split
  · exact c.quiet_refl
  dsimp only
  split
  · rename_i h
    have hclosed : c.state = .closed := by
      have := hc.listen
      simpa [this] using h
    exact .quiet ⟨rfl, rfl, rfl⟩ ⟨rfl, rfl, rfl, rfl⟩ (.released hclosed rfl)
  · exact .quiet ⟨rfl, rfl, rfl⟩ ⟨rfl, rfl, rfl, rfl⟩ (.same ⟨rfl, rfl⟩)

/-! ## The timer -/

theorem expired_ite {d : Conn} (p : Prop) [Decidable p] (hd : d = c ∨ d = c.release) :
    (if p then d.release else d) = c ∨ (if p then d.release else d) = c.release := by
  split
  · rcases hd with rfl | rfl <;> exact .inr rfl
  · exact hd

/-- The timeouts together release the connection or leave it alone. -/
theorem expire_cases (c : Conn) (now : UInt32) :
    expireFinWait2 (expireTimeWait (expireClosing (expireHandshake c now) now) now) now = c ∨
    expireFinWait2 (expireTimeWait (expireClosing (expireHandshake c now) now) now) now =
      c.release :=
  expired_ite _ (expired_ite _ (expired_ite _ (expired_ite _ (.inl rfl))))

theorem zeroWindowProbe_effect (c₀ c : Conn) (op : SlotOp) (now : UInt32) :
    Effect c₀ op c (zeroWindowProbe c now).1 (History.noteOut (zeroWindowProbe c now).2) := by
  rw [zeroWindowProbe]
  split
  · rename_i h
    have hstate : c.state = .established := by
      simp only [Bool.and_eq_true, decide_eq_true_eq] at h
      exact h.1.1.1
    have hflags : tcpPsh ||| tcpAck = tcpAck ||| tcpPsh := by decide
    rw [hflags, tcpSendSegment_data c (by simp [maxSegmentSize])]
    exact .single (.emit _) (fun _ => rfl)
      (.emit ⟨rfl, rfl, rfl⟩ ⟨rfl, rfl, rfl, rfl⟩ ⟨rfl, rfl⟩ (by rw [hstate]; rfl) rfl) trivial
  · exact (Effect.refl c₀ op c).congr fun h => by simp [noteOut]

theorem tcpTickSlot_effect (c : Conn) (now closeTime : UInt32) :
    Effect c (.tick now closeTime) c (tcpTickSlot c now closeTime).1
      (History.noteOut (tcpTickSlot c now closeTime).2) := by
  have hclose : ∃ c₁ out, (if c.inUse && c.orphaned then
        ((tcpClose { c with orphaned := false } closeTime).conn,
          (tcpClose { c with orphaned := false } closeTime).out)
      else (c, [])) = (c₁, out) ∧ Effect c (.tick now closeTime) c c₁ (noteOut out) := by
    split
    · rename_i h
      refine ⟨_, _, rfl, ?_⟩
      have horphan : c.orphaned = true := (Bool.and_eq_true .. ▸ h).2
      have hmark : Effect c (.tick now closeTime) c { c with orphaned := false } id :=
        .single .quiet (fun _ => rfl)
          (.quiet ⟨rfl, rfl, rfl⟩ ⟨rfl, rfl, rfl, rfl⟩ (.same ⟨rfl, rfl⟩)) trivial
      exact hmark.trans (tcpClose_effect closeTime ⟨rfl, rfl, rfl⟩ ⟨rfl, rfl⟩
        (.inr ⟨horphan, _, _, rfl⟩))
    · exact ⟨_, _, rfl, (Effect.refl ..).congr fun h => by simp [noteOut]⟩
  obtain ⟨c₁, out, heq, hclose⟩ := hclose
  rw [tcpTickSlot]
  dsimp only
  rw [heq]
  split
  · exact hclose
  refine (hclose.trans ((Effect.single .quiet (fun _ => rfl) ?_ trivial).trans
    (zeroWindowProbe_effect c _ (.tick now closeTime) now))).congr fun h => by
      simp [noteOut, note]
  rcases expire_cases c₁ now with h | h
  · rw [h]
    exact c₁.quiet_refl
  · rw [h]
    exact c₁.release_quiet

end Calls

/-! ## Segments -/

/-- What processing a segment comes to: the moves, and what happened to the receive
buffer and to the FIN mark, as the observer will find them. -/
def SegmentEffect (c₀ : Conn) (op : SlotOp) (seg : Segment) (c c' : Conn) (out : List OutSeg) :
    Prop :=
  ∃ stored fin, Effect c₀ op c c' (History.noteSegment seg out stored fin) ∧
    (stored = false ∧ c'.rx = c.rx ∨
      stored = true ∧ 0 < seg.data.length ∧ seg.data.length ≤ rxFreeSpace c ∧
        c'.rx = Ring.pushAll seg.data c.rx) ∧
    (fin = false ∧ c'.finReceived = c.finReceived ∨
      fin = true ∧ c.finReceived = false ∧ c'.finReceived = true)

section Segments

variable {c₀ c c' : Conn} {op : SlotOp} {seg : Segment}

theorem SegmentEffect.plain {out : List OutSeg} (h : Effect c₀ op c c' (History.noteOut out))
    (recv : c'.rx = c.rx) (fin : c'.finReceived = c.finReceived) :
    SegmentEffect c₀ op seg c c' out :=
  ⟨false, false, h.congr fun _ => rfl, .inl ⟨rfl, recv⟩, .inl ⟨rfl, fin⟩⟩

theorem SegmentEffect.quiet (h : Move c .quiet c') : SegmentEffect c₀ op seg c c' [] := by
  have heffect : Effect c₀ op c c' (noteOut []) := .quiet h
  cases h with
  | quiet send recv state => exact .plain heffect recv.rx recv.fin

theorem processRst_quiet (now : UInt32) (sl : Slot) (seg : Segment) :
    Move sl.conn .quiet (processRst now sl seg).conn := by
  rw [processRst]
  split
  · exact sl.conn.quiet_refl
  dsimp only
  split
  · exact sl.conn.quiet_refl
  split
  · exact sl.conn.quiet_refl
  · exact sl.conn.release_quiet

theorem processSynSent_effect (hstate : c.state = .synSent) :
    SegmentEffect c op seg c (processSynSent c seg).1 (processSynSent c seg).2 := by
  rw [processSynSent]
  split
  · rename_i h
    have hack : seg.ack = c.sndNxt := by
      simp only [Bool.and_eq_true, decide_eq_true_eq] at h
      exact h.2
    rw [sendAck_eq]
    refine .plain ?_ rfl rfl
    exact .singleAck (.handshake seg) (fun _ => rfl)
      (.handshake hstate rfl rfl rfl hack rfl rfl rfl rfl rfl) rfl rfl
  · exact .quiet c.quiet_refl

theorem establishedAck_effect (c₀ : Conn) (op : SlotOp) (seg : Segment)
    (hstate : c.state = .established) :
    Effect c₀ op c (establishedAck c seg) id ∧ SameRecv c (establishedAck c seg) ∧
      SameState c (establishedAck c seg) := by
  rw [establishedAck]
  split
  · rename_i h
    simp only [Bool.and_eq_true] at h
    exact ⟨.single (.acked seg) (fun _ => rfl) (.acked ⟨rfl, rfl, rfl, rfl⟩ rfl rfl rfl
      (.new hstate ⟨rfl, rfl⟩ h.1.2 h.2)) trivial, ⟨rfl, rfl, rfl, rfl⟩, ⟨rfl, rfl⟩⟩
  · exact ⟨.refl c₀ op c, .refl c, .refl c⟩

theorem establishedData_effect (c₀ : Conn) (op : SlotOp) (seg : Segment)
    (hstate : c.state = .established) :
    ∃ stored,
      Effect c₀ op c (establishedData c seg).1
        (History.noteSegment seg (establishedData c seg).2.1 stored false) ∧
      (stored = false ∧ (establishedData c seg).1.rx = c.rx ∨
        stored = true ∧ 0 < seg.data.length ∧ seg.data.length ≤ rxFreeSpace c ∧
          (establishedData c seg).1.rx = Ring.pushAll seg.data c.rx) ∧
      SameState c (establishedData c seg).1 ∧
      (establishedData c seg).1.finReceived = c.finReceived := by
  have hsync : c.state.synchronized = true := by rw [hstate]; rfl
  rw [establishedData]
  split
  · rename_i h
    simp only [Bool.and_eq_true, decide_eq_true_eq] at h
    split
    · -- in order, but there is no room
      rw [sendAck_eq]
      exact ⟨false, .single (.emit _) (fun _ => rfl)
        (.emit ⟨rfl, rfl, rfl⟩ ⟨rfl, rfl, rfl, rfl⟩ ⟨rfl, rfl⟩ hsync rfl) trivial,
        .inl ⟨rfl, rfl⟩, ⟨rfl, rfl⟩, rfl⟩
    · rename_i hfit
      dsimp only
      rw [sendAck_eq]
      refine ⟨true, ?_, .inr ⟨rfl, h.1, Nat.le_of_not_lt hfit, rfl⟩, ⟨rfl, rfl⟩, rfl⟩
      exact .singleAck (.stored seg) (fun _ => rfl)
        (.stored ⟨rfl, rfl, rfl⟩ ⟨rfl, rfl⟩ hstate h.2 h.1 (Nat.le_of_not_lt hfit) rfl rfl rfl rfl)
        trivial hsync
  · exact ⟨false, (Effect.refl c₀ op c).congr fun h => by simp [noteSegment],
      .inl ⟨rfl, rfl⟩, .refl c, rfl⟩

theorem fin_effect {d : Conn} (hfin : tcpFinInOrder c seg = true) (send : SameSend c d)
    (state : FinState c d) (huse : d.inUse = c.inUse) (rcv : d.rcvNxt = c.rcvNxt + 1)
    (irs : d.irs = c.irs) (rx : d.rx = c.rx) (fin : d.finReceived = true) :
    Effect c₀ op c d (History.noteSegment seg [ackOf d] false true) := by
  have hsync : d.state.synchronized = true := by
    cases state with
    | closeWait h h' => rw [h']; rfl
    | closing h h' => rw [h']; rfl
    | timeWait h h' => rw [h']; rfl
  have hseq : seg.seq + UInt32.ofNat seg.data.length = c.rcvNxt := by
    simpa [tcpFinInOrder] using hfin
  exact .singleAck (.finished seg) (fun _ => rfl)
    (.finished send state huse hseq rcv irs rx fin) trivial hsync

theorem establishedFin_effect (c₀ : Conn) (op : SlotOp) (seg : Segment) (now : UInt32) (sl : Slot)
    (hstate : sl.conn.state = .established) :
    ∃ fin,
      Effect c₀ op sl.conn (establishedFin now sl seg).1.conn
        (History.noteSegment seg (establishedFin now sl seg).2 false fin) ∧
      (establishedFin now sl seg).1.conn.rx = sl.conn.rx ∧
      (fin = false ∧ (establishedFin now sl seg).1.conn.finReceived = sl.conn.finReceived ∨
        fin = true ∧ (establishedFin now sl seg).1.conn.finReceived = true) := by
  have hnone : Effect c₀ op sl.conn sl.conn (noteSegment seg [] false false) :=
    (Effect.refl c₀ op sl.conn).congr fun h => by simp [noteSegment]
  rw [establishedFin]
  split
  · rename_i h
    simp only [Bool.and_eq_true] at h
    split
    · exact ⟨false, hnone, rfl, .inl ⟨rfl, rfl⟩⟩
    rw [sendAck_eq]
    exact ⟨true, fin_effect h.2 ⟨rfl, rfl, rfl⟩ (.closeWait hstate rfl) rfl rfl rfl rfl rfl, rfl,
      .inr ⟨rfl, rfl⟩⟩
  · exact ⟨false, hnone, rfl, .inl ⟨rfl, rfl⟩⟩

theorem processEstablished_effect {now : UInt32} {sl : Slot} (hc : Sane sl.conn)
    (hstate : sl.conn.state = .established) :
    SegmentEffect c₀ op seg sl.conn (processEstablished now sl seg).1.conn
      (processEstablished now sl seg).2 := by
  have hnofin := hc.noFin (by rw [hstate]; rfl)
  rw [processEstablished]
  split
  · rw [sendAck_eq]
    exact .plain (.single (.emit _) (fun _ => rfl) (.ack (by rw [hstate]; rfl)) trivial) rfl rfl
  obtain ⟨hack, hrecv, hsame⟩ := establishedAck_effect c₀ op seg hstate
  generalize establishedAck sl.conn seg = c₁ at hack hrecv hsame
  obtain ⟨stored, hdata, hstored, hsame', hfin'⟩ :=
    establishedData_effect c₀ op seg (hsame.state.trans hstate)
  have hfree : rxFreeSpace c₁ = rxFreeSpace sl.conn := by
    rw [rxFreeSpace, rxFreeSpace, rxAvailable, rxAvailable, hrecv.rx]
  rw [hrecv.rx, hfree] at hstored
  rw [hrecv.fin] at hfin'
  have htwo := hack.trans hdata
  generalize establishedData c₁ seg = r at hstored hsame' hfin' htwo
  obtain ⟨c₂, out, goesOn⟩ := r
  cases goesOn with
  | false => exact ⟨stored, false, htwo, hstored, .inl ⟨rfl, hfin'⟩⟩
  | true =>
    have hstate₂ : c₂.state = .established :=
      hsame'.state.trans (hsame.state.trans hstate)
    obtain ⟨fin, hfin, hrx, hcases⟩ :=
      establishedFin_effect c₀ op seg now { sl with conn := c₂ } hstate₂
    refine ⟨stored, fin, (htwo.trans hfin).congr fun h => ?_, ?_, ?_⟩
    · cases stored <;> cases fin <;> simp [noteSegment]
    · rcases hstored with ⟨h, h'⟩ | ⟨h, hpos, hfit, h'⟩
      · exact .inl ⟨h, hrx.trans h'⟩
      · exact .inr ⟨h, hpos, hfit, hrx.trans h'⟩
    · rcases hcases with ⟨h, h'⟩ | ⟨h, h'⟩
      · exact .inl ⟨h, h'.trans hfin'⟩
      · exact .inr ⟨h, hnofin, h'⟩

theorem closingFin_effect (c₀ : Conn) (op : SlotOp) (seg : Segment) (now : UInt32) (hc : Sane c)
    (hstate : c.state = .finWait1 ∨ c.state = .finWait2) :
    SegmentEffect c₀ op seg c (closingFin now c seg).1 (closingFin now c seg).2 := by
  have hnofin : c.finReceived = false := hc.noFin (by rcases hstate with h | h <;> rw [h] <;> rfl)
  rw [closingFin]
  split
  · rename_i h
    simp only [Bool.and_eq_true] at h
    rcases hstate with hstate | hstate
    · rw [if_neg (by simp [hstate]), sendAck_eq]
      exact ⟨false, true, fin_effect h.2 ⟨rfl, rfl, rfl⟩ (.closing hstate rfl) rfl rfl rfl rfl rfl,
        .inl ⟨rfl, rfl⟩, .inr ⟨rfl, hnofin, rfl⟩⟩
    · rw [if_pos (by simp [hstate]), sendAck_eq]
      exact ⟨false, true, fin_effect h.2 ⟨rfl, rfl, rfl⟩ (.timeWait hstate rfl) rfl rfl rfl rfl rfl,
        .inl ⟨rfl, rfl⟩, .inr ⟨rfl, hnofin, rfl⟩⟩
  · exact .quiet c.quiet_refl

theorem finWait1_effect {now : UInt32} (hc : Sane c) (hstate : c.state = .finWait1) :
    SegmentEffect c₀ op seg c (closingFin now (finWait1Ack now c seg) seg).1
      (closingFin now (finWait1Ack now c seg) seg).2 := by
  rw [finWait1Ack]
  split
  · rename_i h
    simp only [Bool.and_eq_true, decide_eq_true_eq] at h
    have hmove : Move c (.acked seg)
        { c with sndUna := seg.ack, state := .finWait2, finWait2Start := now } :=
      .acked ⟨rfl, rfl, rfl, rfl⟩ rfl rfl rfl (.all hstate rfl rfl h.2)
    obtain ⟨stored, fin, heffect, hrx, hfin⟩ :=
      closingFin_effect c₀ op seg now (hmove.sane hc) (.inr rfl)
    exact ⟨stored, fin, (Effect.single (f := id) _ (fun _ => rfl) hmove trivial).trans heffect, hrx,
      hfin⟩
  · exact closingFin_effect c₀ op seg now hc (.inl hstate)

theorem processClosing_quiet {now : UInt32} (hstate : c.state = .closing) :
    Move c .quiet (processClosing now c seg) := by
  rw [processClosing]
  split
  · exact .quiet ⟨rfl, rfl, rfl⟩ ⟨rfl, rfl, rfl, rfl⟩ (.timeWait hstate rfl rfl)
  · exact c.quiet_refl

theorem processLastAck_quiet : Move c .quiet (processLastAck c seg) := by
  rw [processLastAck]
  split
  · exact c.release_quiet
  · exact c.quiet_refl

theorem processCloseWait_effect {now : UInt32} (hrst : has seg.flags tcpRst = false)
    (hstate : c.state = .closeWait) :
    SegmentEffect c (.segment now seg) seg c (processCloseWait c seg) [] := by
  rw [processCloseWait]
  split
  · rename_i h
    refine .plain (.single (.ackedAny seg) (fun h => ?_)
      (.ackedAny ⟨rfl, rfl, rfl, rfl⟩ ⟨rfl, rfl⟩ hstate rfl rfl rfl) ⟨rfl, hrst, h, now, rfl⟩) rfl rfl
    simp [note, noteOut]
  · exact .quiet c.quiet_refl

end Segments

theorem tcpProcessSegment_effect (now : UInt32) (sl : Slot) (seg : Segment) (hc : Sane sl.conn) :
    SegmentEffect sl.conn (.segment now seg) seg sl.conn (tcpProcessSegment now sl seg).1.conn
      (tcpProcessSegment now sl seg).2 := by
  rw [tcpProcessSegment]
  split
  · exact .quiet (processRst_quiet now sl seg)
  rename_i hrst
  split
  · rename_i hs; exact processSynSent_effect hs
  · rename_i hs; exact absurd hs hc.synReceived
  · rename_i hs; exact processEstablished_effect hc hs
  · rename_i hs; exact finWait1_effect hc hs
  · rename_i hs; exact closingFin_effect _ _ seg now hc (.inr hs)
  · rename_i hs; exact .quiet (processClosing_quiet hs)
  · rename_i hs; exact processCloseWait_effect (by simpa using hrst) hs
  · exact .quiet processLastAck_quiet
  · exact .quiet sl.conn.quiet_refl
  · exact .quiet sl.conn.quiet_refl
  · exact .quiet sl.conn.quiet_refl

/-- How the observer finds out what a segment did. -/
theorem recordSegment_eq {seg : Segment} {c c' : Conn} {stored fin : Bool} (out : List OutSeg)
    (hrx : stored = false ∧ c'.rx = c.rx ∨
      stored = true ∧ 0 < seg.data.length ∧ seg.data.length ≤ rxFreeSpace c ∧
        c'.rx = Ring.pushAll seg.data c.rx)
    (hfin : fin = false ∧ c'.finReceived = c.finReceived ∨
      fin = true ∧ c.finReceived = false ∧ c'.finReceived = true) (h : History) :
    { h with
      emitted := h.emitted ++ out
      accepted :=
        if 0 < rxAvailable c' - rxAvailable c then
          h.accepted ++ [(seg.seq, seg.data.take (rxAvailable c' - rxAvailable c))]
        else h.accepted
      finAt :=
        if c'.finReceived && !c.finReceived then
          h.finAt ++ [seg.seq + UInt32.ofNat seg.data.length]
        else h.finAt } = h.noteSegment seg out stored fin := by
  have haccepted : (if 0 < rxAvailable c' - rxAvailable c then
        h.accepted ++ [(seg.seq, seg.data.take (rxAvailable c' - rxAvailable c))]
      else h.accepted) =
      if stored then h.accepted ++ [(seg.seq, seg.data)] else h.accepted := by
    rcases hrx with ⟨rfl, hrx⟩ | ⟨rfl, hpos, hfit, hrx⟩
    · simp [rxAvailable, hrx]
    · have hgrown : rxAvailable c' = rxAvailable c + seg.data.length := by
        rw [rxFreeSpace, rxAvailable] at hfit
        rw [rxAvailable, rxAvailable, hrx, ← length_contents, contents_pushAll (by omega),
          length_append, length_contents]
      rw [hgrown, Nat.add_sub_cancel_left, if_pos hpos, take_length, if_pos rfl]
  have hfinAt : (c'.finReceived && !c.finReceived) = fin := by
    rcases hfin with ⟨rfl, hfin⟩ | ⟨rfl, hfin, hfin'⟩
    · simp [hfin]
    · simp [hfin, hfin']
  rw [haccepted, hfinAt, noteSegment]

/-- Every operation is a run of moves, and the history notes these moves. -/
theorem run_moves (sl : Slot) (op : SlotOp) (hc : Sane sl.conn) :
    Effect sl.conn op sl.conn (op.run sl).slot.conn fun h => h.record sl op := by
  cases op with
  | evict => exact .quiet sl.conn.release_quiet
  | fresh self => exact .single .fresh (fun _ => rfl) (.fresh sl.conn self) ⟨self, rfl⟩
  | connect r => exact tcpConnect_effect sl.conn r _
  | send data => exact tcpSend_effect sl.conn data
  | recv len => exact tcpRecv_effect sl.conn len _ hc
  | close now => exact tcpClose_effect now (.refl _) (.refl _) (.inl ⟨now, rfl⟩)
  | cleanup pid generation => exact .quiet (taskCleanup_quiet sl.conn hc pid generation)
  | segment now seg =>
    obtain ⟨stored, fin, heffect, hrx, hfin⟩ := tcpProcessSegment_effect now sl seg hc
    exact heffect.congr fun h => (recordSegment_eq _ hrx hfin h).symm
  | tick now closeTime => exact tcpTickSlot_effect sl.conn now closeTime

/-! ## The rule for invariants -/

section Invariant

variable {g : Slot → SlotOp → Prop} (allowed : Conn → Label → Prop) (Inv : Conn → History → Prop)

/-- An invariant of connection and history that each allowed move keeps is kept by
the moves of an operation. -/
theorem OpRun.invariant
    (hmove : ∀ c l c' h, Sane c → Move c l c' → allowed c l → Inv c h → Inv c' (h.note l))
    {c₀ c c' : Conn} {op : SlotOp} {labels : List Label}
    (hallowed : ∀ c l, Origin c₀ op c l → allowed c l) (hrun : OpRun c₀ op c labels c')
    (hc : Sane c) {h : History} (hinv : Inv c h) : Sane c' ∧ Inv c' (h.noteAll labels) := by
  induction hrun generalizing h with
  | nil c => exact ⟨hc, hinv⟩
  | cons hstep _ ih =>
    obtain ⟨hm, ho⟩ := hstep
    exact ih (hm.sane hc) (hmove _ _ _ h hc hm (hallowed _ _ ho) hinv)

theorem op_sane {sl : Slot} (op : SlotOp) (hc : Sane sl.conn) : Sane (op.run sl).slot.conn := by
  obtain ⟨labels, hrun, _⟩ := run_moves sl op hc
  exact (hrun.invariant (fun _ _ => True) (fun _ _ => True) (fun _ _ _ _ _ _ _ _ => trivial)
    (fun _ _ _ => trivial) hc (h := .empty) trivial).1

theorem tcpInit_sane (i : Idx) : Sane (tcpInit.slots i).conn where
  listen := by simp [tcpInit, Conn.zero]
  synReceived := by simp [tcpInit, Conn.zero]
  fin := by simp [tcpInit, Conn.zero]
  early _ := ⟨rfl, rfl⟩

/-- Every connection is sane, and what each allowed move keeps holds of every
connection after every run of calls. -/
theorem moves_invariant (hfresh : ∀ sl self, g sl (.fresh self))
    (hallowed : ∀ sl op c l, g sl op → Origin sl.conn op c l → allowed c l)
    (hmove : ∀ c l c' h, Sane c → Move c l c' → allowed c l → Inv c h → Inv c' (h.note l))
    (hinit : ∀ i, Inv (tcpInit.slots i).conn .empty) {calls : List Call} {t : System}
    (hrun : Run (GuardedStep g) System.init calls t) (i : Idx) :
    Sane (t.stack.conn i) ∧ Inv (t.stack.conn i) (t.hist i) := by
  have hop : ∀ sl h op, g sl op → Sane sl.conn ∧ Inv sl.conn h →
      Sane (op.run sl).slot.conn ∧ Inv (op.run sl).slot.conn (h.record sl op) := by
    intro sl h op hg ⟨hc, hinv⟩
    obtain ⟨labels, hmoves, hnote⟩ := run_moves sl op hc
    have hrecord : h.record sl op = h.noteAll labels := (hnote h).symm
    rw [hrecord]
    exact hmoves.invariant allowed Inv hmove (fun c l => hallowed sl op c l hg) hc hinv
  exact System.invariant (P := fun sl h => Sane sl.conn ∧ Inv sl.conn h) hfresh hop
    (fun i => ⟨tcpInit_sane i, hinit i⟩) hrun i

end Invariant

/-- After any calls and packets no connection waits passively, and one that has not been established
holds no data and has seen no FIN. -/
theorem connections_are_sane (calls : List Call) (i : Idx) :
    Sane ((System.run calls).stack.conn i) := by
  have hall := moves_invariant (fun _ _ => True) (fun _ _ => True) (by simp) (by simp) (by simp)
    (by simp) (System.run_all calls) i
  exact hall.1

end TinyOS.Tcp
