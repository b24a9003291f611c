import TinyOS.Lib.Serial
import TinyOS.Tcp.SendStream

/-!
# TCP: `snd_una` and `snd_nxt`

Past the handshake, `snd_una` should stay within half the sequence space behind
`snd_nxt`, never move backwards, and only take values that acknowledge something
sent. Two things break this: `TCP_CLOSE_WAIT` stores whatever acknowledgement
number arrives, and nothing limits how much is sent unacknowledged.

The conditions that repair it (`SeqGuard`) are on what comes in: an acknowledgement
that meets `TCP_CLOSE_WAIT` is of something outstanding, and half the sequence space
is never in flight.
-/

namespace TinyOS.Tcp

open Lib

/-! ## The acknowledgement test of `TCP_ESTABLISHED` -/

theorem ahead_pos_of_seqGt {a b : UInt32} (h : seqGt a b = true) :
    0 < ahead a b ∧ ahead a b < 2 ^ 31 := by
  simp only [seqGt, negative, Bool.and_eq_true, Bool.not_eq_true', decide_eq_false_iff_not,
    decide_eq_true_eq] at h
  refine ⟨Nat.pos_of_ne_zero fun h0 => h.2 ?_, by simpa [ahead] using h.1⟩
  rw [eq_of_ahead_eq_zero h0, UInt32.sub_self]

theorem ahead_le_of_seqLeq {ack una nxt : UInt32} (hgt : seqGt ack una = true)
    (hleq : seqLeq ack nxt = true) (hwin : ahead nxt una < 2 ^ 31) :
    ahead ack una ≤ ahead nxt una := by
  obtain ⟨hpos, hlt⟩ := ahead_pos_of_seqGt hgt
  have hadd := ahead_add ack nxt una
  have hcases : 2 ^ 31 ≤ ahead ack nxt ∨ ahead ack nxt = 0 := by
    simp only [seqLeq, negative, Bool.or_eq_true, decide_eq_true_eq] at hleq
    rcases hleq with h | h
    · exact .inl h
    · exact .inr (by simp [ahead, h])
  have := ahead_lt ack nxt
  omega

/-! ## The invariant -/

/-- What is sent and not acknowledged. -/
def inFlight (c : Conn) : Nat := ahead c.sndNxt c.sndUna

/-- `x` acknowledges some or all of a segment. -/
def Acknowledges (x : UInt32) (o : OutSeg) : Prop := 0 < ahead x o.seq ∧ ahead x o.seq ≤ o.seqLen

/-- The condition on an operation: acknowledgements in `TCP_CLOSE_WAIT` are of
something outstanding, and what is sent leaves less than half the sequence space in
flight. -/
def SeqGuard (sl : Slot) : SlotOp → Prop
  | .segment _ seg =>
    sl.conn.state = .closeWait → has seg.flags tcpRst = false → has seg.flags tcpAck = true →
      ahead seg.ack sl.conn.sndUna ≤ inFlight sl.conn
  | .send data =>
    sl.conn.inUse = true → sl.conn.state = .established →
      inFlight sl.conn + min data.length maxSegmentSize < 2 ^ 31
  | .close _ =>
    sl.conn.inUse = true → sl.conn.state = .established ∨ sl.conn.state = .closeWait →
      inFlight sl.conn + 1 < 2 ^ 31
  | .tick _ _ =>
    sl.conn.inUse = true → sl.conn.orphaned = true →
      sl.conn.state = .established ∨ sl.conn.state = .closeWait → inFlight sl.conn + 1 < 2 ^ 31
  | _ => True

/-- What `SeqGuard` means for a move. -/
def SeqMove (c : Conn) : Label → Prop
  | .ackedAny seg => c.state = .closeWait → ahead seg.ack c.sndUna ≤ inFlight c
  | .sent data _ _ => c.inUse = true → c.state = .established →
      inFlight c + min data.length maxSegmentSize < 2 ^ 31
  | .fin _ => c.state = .established ∨ c.state = .closeWait → inFlight c + 1 < 2 ^ 31
  | _ => True

theorem SameSend.inFlight {c c' : Conn} (h : SameSend c c') : inFlight c' = inFlight c := by
  rw [Tcp.inFlight, Tcp.inFlight, h.nxt, h.una]

theorem SeqGuard.move {sl : Slot} {op : SlotOp} {c : Conn} {l : Label} (hg : SeqGuard sl op)
    (ho : Origin sl.conn op c l) : SeqMove c l := by
  cases l with
  | sent data n o =>
    obtain ⟨rfl, rfl⟩ := ho
    exact hg
  | ackedAny seg =>
    obtain ⟨rfl, hrst, hack, now, rfl⟩ := ho
    exact fun hstate => hg hstate hrst hack
  | fin o =>
    obtain ⟨hsend, hstate, huse, ⟨now, rfl⟩ | ⟨horphan, now, closeTime, rfl⟩⟩ := ho
    · intro hs
      rw [hsend.inFlight]
      exact hg huse (by rwa [← hstate.state])
    · intro hs
      rw [hsend.inFlight]
      exact hg huse horphan (by rwa [← hstate.state])
  | _ => trivial

/-- The sending side past the handshake. -/
structure SeqInv (c : Conn) (h : History) : Prop where
  window : c.state.synchronized = true → inFlight c < 2 ^ 31
  acked : c.state.synchronized = true → ∃ o ∈ h.emitted, Acknowledges c.sndUna o
  /-- Every number up to `snd_nxt` would acknowledge something. -/
  covered : c.state.synchronized = true → ∀ x, 0 < ahead x c.sndUna → ahead x c.sndUna ≤ inFlight c →
    ∃ o ∈ h.emitted, Acknowledges x o
  syn : c.state = .synSent → ∃ o ∈ h.emitted, Acknowledges c.sndNxt o

namespace SeqInv

variable {c c' : Conn} {h h' : History} {o : OutSeg}

/-- A move that leaves the sending side alone and forgets no segment. -/
theorem of_same (hinv : SeqInv c h) (una : c'.sndUna = c.sndUna) (nxt : c'.sndNxt = c.sndNxt)
    (hsync : c'.state.synchronized = true → c.state.synchronized = true)
    (hsyn : c'.state = .synSent → c.state = .synSent) (hsub : h.emitted ⊆ h'.emitted) :
    SeqInv c' h' := by
  have hflight : inFlight c' = inFlight c := by rw [inFlight, inFlight, nxt, una]
  refine ⟨fun hs => hflight ▸ hinv.window (hsync hs), fun hs => ?_, fun hs x hpos hle => ?_,
    fun hs => ?_⟩
  · obtain ⟨o, ho, hack⟩ := hinv.acked (hsync hs)
    exact ⟨o, hsub ho, una ▸ hack⟩
  · obtain ⟨o, ho, hack⟩ := hinv.covered (hsync hs) x (una ▸ hpos) (by rwa [una, hflight] at hle)
    exact ⟨o, hsub ho, hack⟩
  · obtain ⟨o, ho, hack⟩ := hinv.syn (hsyn hs)
    exact ⟨o, hsub ho, nxt ▸ hack⟩

theorem of_state (hinv : SeqInv c h) (send : SameSend c c') (state : SameState c c')
    (hsub : h.emitted ⊆ h'.emitted) : SeqInv c' h' :=
  hinv.of_same send.una send.nxt (fun hs => state.state ▸ hs) (fun hs => state.state ▸ hs) hsub

/-- A move to a state that is neither past the handshake nor in it. -/
theorem of_gone (hsync : c'.state.synchronized = false) (hsyn : c'.state ≠ .synSent) : SeqInv c' h' where
  window hs := by rw [hsync] at hs; cases hs
  acked hs := by rw [hsync] at hs; cases hs
  covered hs := by rw [hsync] at hs; cases hs
  syn hs := absurd hs hsyn

/-- `snd_una` takes an acknowledgement of something outstanding. -/
theorem ack {x : UInt32} (hinv : SeqInv c h) (hsync : c.state.synchronized = true)
    (hsync' : c'.state.synchronized = true) (hx : ahead x c.sndUna ≤ inFlight c)
    (una : c'.sndUna = x) (nxt : c'.sndNxt = c.sndNxt) : SeqInv c' h := by
  have hwin := hinv.window hsync
  have hflight : inFlight c' = inFlight c - ahead x c.sndUna := by
    rw [inFlight, una, nxt]
    exact ahead_split hx
  refine ⟨fun _ => by omega, fun _ => ?_, fun _ y hpos hle => ?_, fun hs => ?_⟩
  · rw [una]
    rcases Nat.eq_zero_or_pos (ahead x c.sndUna) with h0 | hpos
    · rw [eq_of_ahead_eq_zero h0]
      exact hinv.acked hsync
    · exact hinv.covered hsync x hpos hx
  · -- a number ahead of the new `snd_una` was ahead of the old one
    rw [una] at hpos hle
    have hadd := ahead_add y x c.sndUna
    exact hinv.covered hsync y (by omega) (by omega)
  · rw [hs] at hsync'
    cases hsync'

/-- A segment of `n` sequence numbers goes out at `snd_nxt`. -/
theorem send {n : Nat} (hinv : SeqInv c h) (hsync : c.state.synchronized = true)
    (hsync' : c'.state.synchronized = true) (hroom : inFlight c + n < 2 ^ 31)
    (una : c'.sndUna = c.sndUna) (nxt : c'.sndNxt = c.sndNxt + UInt32.ofNat n)
    (hseq : o.seq = c.sndNxt) (hlen : n ≤ o.seqLen) (hsub : h.emitted ⊆ h'.emitted)
    (hmem : o ∈ h'.emitted) : SeqInv c' h' := by
  have hflight : inFlight c' = inFlight c + n := by
    rw [inFlight, una, nxt]
    exact ahead_add_ofNat _ _ (by rw [inFlight] at hroom; omega)
  refine ⟨fun _ => by omega, fun _ => ?_, fun _ x hpos hle => ?_, fun hs => ?_⟩
  · obtain ⟨o', ho', hack⟩ := hinv.acked hsync
    exact ⟨o', hsub ho', una ▸ hack⟩
  · rw [una] at hpos hle
    by_cases hold : ahead x c.sndUna ≤ inFlight c
    · obtain ⟨o', ho', hack⟩ := hinv.covered hsync x hpos hold
      exact ⟨o', hsub ho', hack⟩
    -- past the old `snd_nxt`: it is inside the new segment
    have hdef : inFlight c = ahead c.sndNxt c.sndUna := rfl
    have hsplit : ahead x c.sndNxt = ahead x c.sndUna - inFlight c :=
      ahead_split (by omega)
    refine ⟨o, hmem, ?_⟩
    rw [Acknowledges, hseq, hsplit]
    omega
  · rw [hs] at hsync'
    cases hsync'

end SeqInv

theorem SentFrom.length {c c' : Conn} {data : List UInt8} {n : Nat} {o : OutSeg}
    (hsent : SentFrom c c' data n o) : o.data.length = n := by
  have hcount := hsent.count
  rw [hsent.bytes, List.length_take, List.length_append]
  omega

theorem SentFrom.le {c c' : Conn} {data : List UInt8} {n : Nat} {o : OutSeg}
    (hsent : SentFrom c c' data n o) : n ≤ min data.length maxSegmentSize := by
  have hcount := hsent.count
  have htaken : (taken c data).length ≤ data.length := List.length_take_le' ..
  omega

theorem SeqInv.move {c c' : Conn} {l : Label} {h : History} (hm : Move c l c') (hg : SeqMove c l)
    (hinv : SeqInv c h) : SeqInv c' (h.note l) := by
  cases hm with
  | quiet send recv state =>
    cases state with
    | same hs => exact hinv.of_state send hs (List.Subset.refl _)
    | released hstate huse => exact .of_gone (by rw [hstate]; rfl) (by simp [hstate])
    | timeWait hs hs' =>
      exact hinv.of_same send.una send.nxt (fun _ => by rw [hs]; rfl)
        (fun h => by rw [hs'] at h; cases h) (List.Subset.refl _)
  | fresh self => exact .of_gone rfl (by simp [Conn.fresh, Conn.zero])
  | opened recv huse hstate huse' hstate' tx hseq hflags hdata =>
    rename_i o
    have hsyn : has tcpSyn tcpSyn = true := by decide
    have hlen : 1 ≤ o.seqLen := by
      rw [OutSeg.seqLen, hflags, if_pos hsyn]
      omega
    have hone : ahead (o.seq + 1) o.seq = 1 := by
      have := ahead_add_ofNat o.seq o.seq (n := 1) (by rw [ahead_self]; decide)
      rwa [ahead_self] at this
    refine ⟨fun hs => ?_, fun hs => ?_, fun hs => ?_, fun _ => ⟨o, by simp [History.note], ?_⟩⟩
    · rw [hstate'] at hs; cases hs
    · rw [hstate'] at hs; cases hs
    · rw [hstate'] at hs; cases hs
    · rw [hseq, Acknowledges, hone]
      exact ⟨Nat.one_pos, hlen⟩
  | handshake hstate hstate' huse tx una nxt =>
    -- nothing but the SYN is out, and it has just been acknowledged
    have hflight : inFlight c' = 0 := by rw [inFlight, una, nxt, ahead_self]
    refine ⟨fun _ => by rw [hflight]; decide, fun _ => ?_, fun _ x hpos hle => ?_, fun hs => ?_⟩
    · rw [una]
      exact hinv.syn hstate
    · omega
    · rw [hstate'] at hs; cases hs
  | acked recv una nxt tx check =>
    cases check with
    | new hs hs' hgt hleq =>
      have hsync : c.state.synchronized = true := by rw [hs]; rfl
      exact hinv.ack hsync (by rw [hs'.state]; exact hsync)
        (ahead_le_of_seqLeq hgt hleq (hinv.window hsync)) una nxt
    | all hs hs' huse hack =>
      exact hinv.ack (by rw [hs]; rfl) (by rw [hs']; rfl) (by rw [hack]; exact le_rfl) una nxt
  | ackedAny recv state hstate una nxt tx =>
    have hsync : c.state.synchronized = true := by rw [hstate]; rfl
    exact hinv.ack hsync (by rw [state.state]; exact hsync) (hg hstate) una nxt
  | emit send recv state => exact hinv.of_state send state (List.subset_append_left ..)
  | stored send state | read send state => exact hinv.of_state send state (List.Subset.refl _)
  | finished send state =>
    cases state with
    | closeWait hs hs' | closing hs hs' | timeWait hs hs' =>
      exact hinv.of_same send.una send.nxt (fun _ => by rw [hs]; rfl)
        (fun h => by rw [hs'] at h; cases h) (List.Subset.refl _)
  | called => exact hinv.of_state (.refl c) (.refl c) (List.Subset.refl _)
  | sent recv state huse hstate hsent =>
    have hsync : c.state.synchronized = true := by rw [hstate]; rfl
    have hroom := hg huse hstate
    have hle := hsent.le
    refine hinv.send hsync (by rw [state.state]; exact hsync) (by omega) hsent.una hsent.nxt
      hsent.seq ?_ (List.subset_append_left ..) (by simp [History.note])
    rw [OutSeg.seqLen, hsent.length]
    omega
  | fin recv huse hstate una nxt tx hseq hflags hack =>
    rename_i o
    have hfin : has (tcpAck ||| tcpFin) tcpFin = true := by decide
    have hlen : 1 ≤ o.seqLen := by
      rw [OutSeg.seqLen, hflags, if_pos hfin]
      omega
    have hsync : c.state.synchronized = true ∧ c'.state.synchronized = true := by
      rcases hstate with ⟨hs, hs'⟩ | ⟨hs, hs'⟩ <;> rw [hs, hs'] <;> exact ⟨rfl, rfl⟩
    have hroom := hg (hstate.imp And.left And.left)
    exact hinv.send (n := 1) hsync.1 hsync.2 hroom una nxt hseq hlen (List.subset_append_left ..)
      (by simp [History.note])

/-! ## `snd_una` only moves forward -/

/-- During an operation that starts past the handshake, `snd_una` moves by less than
half the sequence space. -/
def Forward (c₀ c : Conn) : Prop :=
  c₀.state.synchronized = true → c.state.synchronized = true →
    ahead c.sndUna c₀.sndUna + inFlight c < 2 ^ 31

namespace Forward

variable {c₀ c c' : Conn}

theorem of_same (hf : Forward c₀ c) (una : c'.sndUna = c.sndUna) (nxt : c'.sndNxt = c.sndNxt)
    (hsync : c'.state.synchronized = true → c.state.synchronized = true) : Forward c₀ c' := by
  intro h₀ hs
  rw [inFlight, una, nxt]
  exact hf h₀ (hsync hs)

theorem of_gone (hsync : c'.state.synchronized = false) : Forward c₀ c' := by
  intro _ hs
  rw [hsync] at hs
  cases hs

theorem ack {x : UInt32} (hf : Forward c₀ c) (hsync : c.state.synchronized = true)
    (hx : ahead x c.sndUna ≤ inFlight c) (una : c'.sndUna = x) (nxt : c'.sndNxt = c.sndNxt) :
    Forward c₀ c' := by
  intro h₀ _
  have hold := hf h₀ hsync
  have hflight : inFlight c' = inFlight c - ahead x c.sndUna := by
    rw [inFlight, una, nxt]
    exact ahead_split hx
  have hadd := ahead_add x c.sndUna c₀.sndUna
  rw [una]
  omega

/-- Nothing has been acknowledged since the operation began. -/
theorem of_window (una : c'.sndUna = c₀.sndUna)
    (hwin : c'.state.synchronized = true → inFlight c' < 2 ^ 31) : Forward c₀ c' := by
  intro _ hs
  rw [una, ahead_self, Nat.zero_add]
  exact hwin hs

end Forward

theorem Forward.move {c₀ c c' : Conn} {op : SlotOp} {l : Label} {h : History} (hm : Move c l c')
    (ho : Origin c₀ op c l) (hg : SeqMove c l) (hinv : SeqInv c h) (hf : Forward c₀ c) :
    Forward c₀ c' := by
  have hwin := (hinv.move hm hg).window
  cases hm with
  | quiet send recv state =>
    cases state with
    | same hs => exact hf.of_same send.una send.nxt fun h => hs.state ▸ h
    | released hstate huse => exact .of_gone (by rw [hstate]; rfl)
    | timeWait hs hs' => exact hf.of_same send.una send.nxt fun _ => by rw [hs]; rfl
  | fresh self => exact .of_gone rfl
  | opened recv huse hstate huse' hstate' => exact .of_gone (by rw [hstate']; rfl)
  | handshake hstate =>
    obtain rfl : c = c₀ := ho
    intro h₀
    rw [hstate] at h₀
    cases h₀
  | acked recv una nxt tx check =>
    cases check with
    | new hs hs' hgt hleq =>
      have hsync : c.state.synchronized = true := by rw [hs]; rfl
      exact hf.ack hsync (ahead_le_of_seqLeq hgt hleq (hinv.window hsync)) una nxt
    | all hs hs' huse hack => exact hf.ack (by rw [hs]; rfl) (by rw [hack]; exact le_rfl) una nxt
  | ackedAny recv state hstate una nxt tx => exact hf.ack (by rw [hstate]; rfl) (hg hstate) una nxt
  | emit send recv state
  | stored send state
  | read send state => exact hf.of_same send.una send.nxt fun h => state.state ▸ h
  | finished send state =>
    cases state with
    | closeWait hs | closing hs | timeWait hs =>
      exact hf.of_same send.una send.nxt fun _ => by rw [hs]; rfl
  | called => exact hf
  | sent recv state huse hstate hsent =>
    obtain ⟨_, rfl⟩ := ho
    exact .of_window hsent.una hwin
  | fin recv huse hstate una => exact .of_window (una.trans ho.1.una) hwin

theorem op_forward {sl : Slot} {h : History} {op : SlotOp} (hg : SeqGuard sl op) (hc : Sane sl.conn)
    (hinv : SeqInv sl.conn h) : Forward sl.conn (op.run sl).slot.conn := by
  obtain ⟨labels, hrun, _⟩ := run_moves sl op hc
  have hstart : Forward sl.conn sl.conn := .of_window rfl hinv.window
  exact (hrun.invariant (fun c l => Origin sl.conn op c l ∧ SeqMove c l)
    (fun c h => SeqInv c h ∧ Forward sl.conn c)
    (fun c l c' h _ hm ha hi => ⟨hi.1.move hm ha.2, hi.2.move hm ha.1 ha.2 hi.1⟩)
    (fun c l ho => ⟨ho, hg.move ho⟩) hc ⟨hinv, hstart⟩).2.2

/-! ## Runs -/

/-- Past `TCP_SYN_SENT`. -/
def PastSynSent (c : Conn) : Prop :=
  c.inUse = true ∧ c.state ≠ .closed ∧ c.state ≠ .listen ∧ c.state ≠ .synSent

theorem PastSynSent.synchronized {c : Conn} (h : PastSynSent c) (hc : Sane c) :
    c.state.synchronized = true := by
  obtain ⟨_, hclosed, hlisten, hsyn⟩ := h
  cases hs : c.state with
  | closed => exact absurd hs hclosed
  | listen => exact absurd hs hlisten
  | synSent => exact absurd hs hsyn
  | synReceived => exact absurd hs hc.synReceived
  | _ => rfl

instance (c : Conn) : Decidable (PastSynSent c) := inferInstanceAs (Decidable (_ ∧ _))

theorem seqInv_run {calls : List Call} {t : System}
    (hrun : Run (GuardedStep SeqGuard) System.init calls t) (i : Idx) :
    Sane (t.stack.conn i) ∧ SeqInv (t.stack.conn i) (t.hist i) :=
  moves_invariant SeqMove SeqInv (fun _ _ => trivial) (fun _ _ _ _ hg ho => hg.move ho)
    (fun _ _ _ _ _ hm hg hinv => hinv.move hm hg)
    (fun _ => .of_gone rfl (by simp [tcpInit, Conn.zero])) hrun i

theorem step_forward {t t' : System} {call : Call} {i : Idx} (hc : Sane (t.stack.conn i))
    (hinv : SeqInv (t.stack.conn i) (t.hist i)) (hstep : GuardedStep SeqGuard t call t') :
    Forward (t.stack.conn i) (t'.stack.conn i) := by
  obtain ⟨hg, rfl⟩ := hstep
  show Forward _ ((t.step call).view i).1.conn
  rw [System.step_view]
  rcases exec_brief t.stack call i with h | ⟨op, hmem, h⟩ | ⟨self, hmem, h⟩
  · rw [h]
    exact .of_window rfl hinv.window
  · rw [h]
    exact op_forward (hg i op hmem) hc hinv
  · -- the slot was handed out again, so the connection is gone
    rw [h]
    exact .of_gone rfl

/-- In every run whose operations meet the condition, every connection past
`TCP_SYN_SENT` has less than half the sequence space in flight, its `snd_una`
acknowledges something it sent, and no further such step moves `snd_una` back. -/
theorem send_sequence_of_guarded {calls : List Call} {t : System}
    (hrun : Run (GuardedStep SeqGuard) System.init calls t) (i : Idx)
    (hpast : PastSynSent (t.stack.conn i)) :
    ((t.stack.conn i).sndNxt - (t.stack.conn i).sndUna).toNat < 2 ^ 31 ∧
    (∃ o ∈ (t.hist i).emitted, Acknowledges (t.stack.conn i).sndUna o) ∧
    ∀ call t', GuardedStep SeqGuard t call t' → PastSynSent (t'.stack.conn i) →
      ((t'.stack.conn i).sndUna - (t.stack.conn i).sndUna).toNat < 2 ^ 31 := by
  obtain ⟨hc, hinv⟩ := seqInv_run hrun i
  have hsync := hpast.synchronized hc
  refine ⟨hinv.window hsync, hinv.acked hsync, fun call t' hstep hpast' => ?_⟩
  have hc' := (seqInv_run (hrun.append (.single hstep)) i).1
  have hforward := step_forward hc hinv hstep hsync (hpast'.synchronized hc')
  exact Nat.lt_of_le_of_lt (Nat.le_add_right ..) hforward

/-- Outside the states in which data or a FIN is sent, the condition is met. -/
theorem seqGuard_of_states {s : Stack}
    (h : ∀ i, (s.conn i).state ≠ .established ∧ (s.conn i).state ≠ .closeWait) (call : Call) :
    Guarded SeqGuard s call := by
  intro i op _
  obtain ⟨hest, hwait⟩ := h i
  cases op with
  | segment now seg => exact fun hs => absurd hs hwait
  | send data => exact fun _ hs => absurd hs hest
  | close now => exact fun _ hs => (hs.elim hest hwait).elim
  | tick now closeTime => exact fun _ _ hs => (hs.elim hest hwait).elim
  | _ => trivial

/-- Two bytes are sent on a connection that has just been established. -/
theorem sent_run_seqGuard : Run (GuardedStep SeqGuard) System.init (openCalls ++ [.send 0 [7, 8]])
    (openSystem.step (.send 0 [7, 8])) := by
  have hsend : Guarded SeqGuard openSystem.stack (.send 0 [7, 8]) := by
    intro i op hmem
    have hone : (exec openSystem.stack (.send 0 [7, 8])).events = [(0, .send [7, 8])] := rfl
    rw [hone, List.mem_singleton] at hmem
    cases hmem
    exact fun _ _ => by decide
  exact .cons ⟨seqGuard_of_states (by decide) _, rfl⟩ <|
    .cons ⟨seqGuard_of_states (by decide) _, rfl⟩ <|
    .cons ⟨seqGuard_of_states (by decide) _, rfl⟩ <| .cons ⟨hsend, rfl⟩ <| .nil _

/-- They are in flight then. -/
theorem send_sequence_of_two_bytes :
    inFlight ((openSystem.step (.send 0 [7, 8])).stack.conn 0) = 2 ∧
      (∃ o ∈ ((openSystem.step (.send 0 [7, 8])).hist 0).emitted,
        Acknowledges ((openSystem.step (.send 0 [7, 8])).stack.conn 0).sndUna o) :=
  ⟨by decide, (send_sequence_of_guarded sent_run_seqGuard 0 (by decide)).2.1⟩

/-- In `TCP_CLOSE_WAIT`, an acknowledgement of a number that was never sent. -/
theorem closeWait_takes_any_ack :
    ∃ t, Run (GuardedStep fun _ _ => True) System.init
        (openCalls ++
          [.packet ⟨1, 80, 49152, 501, 102, 0x50, tcpAck ||| tcpFin, 1000, []⟩ 10,
           .packet ⟨1, 80, 49152, 502, 103, 0x50, tcpAck, 1000, []⟩ 20]) t ∧
      PastSynSent (t.stack.conn 0) ∧
      2 ^ 31 ≤ ((t.stack.conn 0).sndNxt - (t.stack.conn 0).sndUna).toNat :=
  ⟨_, System.run_all _, by decide, by decide⟩

end TinyOS.Tcp
