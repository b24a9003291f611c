import TinyOS.Tcp.Moves

/-!
# TCP: the byte stream `tcp_send` puts on the wire

`tcp_send` queues as much of its data as the ring has room for, but sends at most
one segment of it and returns the length of that segment. What is left over stays
in the ring, and the next call sends it in place of its own data.

- As long as the ring is empty before each `tcp_send`, the bytes on the wire are
  the bytes the calls report, without a gap in the sequence numbers.
- 1461 bytes and then one more (`two_sends`), and the wire carries the wrong byte.
-/

namespace TinyOS.Tcp

open Lib List

/-- The ring is empty when `tcp_send` is called. -/
def TxIdle (sl : Slot) : SlotOp → Prop
  | .send _ => sl.conn.inUse = true → sl.conn.state = .established → txAvailable sl.conn = 0
  | _ => True

/-- What `TxIdle` means for a move. -/
def IdleMove (c : Conn) : Label → Prop
  | .sent _ _ _ => c.inUse = true → c.state = .established → txAvailable c = 0
  | _ => True

theorem TxIdle.move {sl : Slot} {op : SlotOp} {c : Conn} {l : Label} (hg : TxIdle sl op)
    (ho : Origin sl.conn op c l) : IdleMove c l := by
  cases l with
  | sent data n o =>
    obtain ⟨rfl, rfl⟩ := ho
    exact hg
  | _ => trivial

/-- The stream sent so far. -/
structure SendInv (c : Conn) (h : History) : Prop where
  bytes : streamBytes h.sent = h.calls.flatten
  early : Early c → h.sent = []
  contiguous : ∃ start, Contiguous start h.sent ∧
    (c.state = .established → c.sndNxt = start + UInt32.ofNat (streamBytes h.sent).length)

namespace SendInv

variable {c c' : Conn} {h h' : History}

/-- A move that sends nothing for `tcp_send` and does not touch `snd_nxt` while
the connection is established. -/
theorem of_same (hinv : SendInv c h) (hsent : h'.sent = h.sent)
    (hcalls : h'.calls.flatten = h.calls.flatten) (hearly : Early c' → Early c)
    (hnxt : c'.state = .established → c.state = .established ∧ c'.sndNxt = c.sndNxt) :
    SendInv c' h' := by
  obtain ⟨start, hcont, hend⟩ := hinv.contiguous
  refine ⟨by rw [hsent, hcalls, hinv.bytes], fun he => hsent.trans (hinv.early (hearly he)), start,
    by rwa [hsent], fun hs => ?_⟩
  rw [hsent, (hnxt hs).2]
  exact hend (hnxt hs).1

/-- A connection on which `tcp_send` has sent nothing yet. -/
theorem of_nothing (hsent : h.sent = []) (hcalls : h.calls.flatten = []) : SendInv c h where
  bytes := by rw [hsent, hcalls]; rfl
  early _ := hsent
  contiguous := ⟨c.sndNxt, by rw [hsent]; trivial, fun _ => by simp [hsent, streamBytes]⟩

theorem of_state (hinv : SendInv c h) (state : SameState c c') (nxt : c'.sndNxt = c.sndNxt)
    (hsent : h'.sent = h.sent) (hcalls : h'.calls.flatten = h.calls.flatten) : SendInv c' h' :=
  hinv.of_same hsent hcalls (fun he => by rwa [Early, state.state, state.inUse] at he)
    fun hs => ⟨state.state ▸ hs, nxt⟩

theorem of_late (hinv : SendInv c h) (hsync : c'.state.synchronized = true)
    (hstate : c'.state ≠ .established) (hsent : h'.sent = h.sent)
    (hcalls : h'.calls.flatten = h.calls.flatten) : SendInv c' h' :=
  hinv.of_same hsent hcalls
    (fun he => by rcases he with he | ⟨he, _⟩ <;> simp [he, TcpState.synchronized] at hsync)
    fun hs => absurd hs hstate

end SendInv

/-- From an empty ring, `tcp_send` sends the first bytes of its data. -/
theorem SentFrom.bytes_of_idle {c c' : Conn} {data : List UInt8} {n : Nat} {o : OutSeg}
    (hsent : SentFrom c c' data n o) (hidle : txAvailable c = 0) :
    o.data = data.take n ∧ o.data.length = n := by
  have hnil : c.tx.contents = [] := Ring.contents_eq_nil_iff.2 hidle
  have hle : n ≤ (taken c data).length := by
    rw [hsent.count]
    exact Nat.min_le_left ..
  have hbytes := hsent.bytes
  rw [hnil, nil_append] at hbytes
  refine ⟨?_, by rw [hbytes, length_take, Nat.min_eq_left hle]⟩
  rw [hbytes, taken, take_take, Nat.min_eq_left]
  rw [taken, length_take] at hle
  omega

theorem SendInv.move {c c' : Conn} {l : Label} {h : History} (hm : Move c l c')
    (hidle : IdleMove c l) (hinv : SendInv c h) : SendInv c' (h.note l) := by
  cases hm with
  | quiet send recv state =>
    cases state with
    | same hs => exact hinv.of_state hs send.nxt rfl rfl
    | released hstate huse =>
      refine hinv.of_same rfl rfl (fun he => ?_) fun hs => by rw [hstate] at hs; cases hs
      rcases he with he | ⟨_, he⟩
      · rw [hstate] at he; cases he
      · rw [huse] at he; cases he
    | timeWait hs hs' huse => exact hinv.of_late (by rw [hs']; rfl) (by simp [hs']) rfl rfl
  | fresh self => exact .of_nothing rfl rfl
  | opened recv huse hstate huse' hstate' =>
    refine hinv.of_same rfl rfl (fun _ => .inr ⟨hstate, huse⟩) fun hs => ?_
    rw [hstate'] at hs
    cases hs
  | handshake hstate hstate' =>
    have hsent := hinv.early (.inl hstate)
    refine .of_nothing hsent ?_
    rw [History.note, ← hinv.bytes, hsent]
    rfl
  | acked recv una nxt tx check =>
    cases check with
    | new hs hs' => exact hinv.of_state hs' nxt rfl rfl
    | all hs hs' => exact hinv.of_late (by rw [hs']; rfl) (by simp [hs']) rfl rfl
  | ackedAny recv state hstate una nxt => exact hinv.of_state state nxt rfl rfl
  | emit send recv state | stored send state
  | read send state => exact hinv.of_state state send.nxt rfl rfl
  | finished send state =>
    cases state with
    | closeWait hs hs'
    | closing hs hs'
    | timeWait hs hs' => exact hinv.of_late (by rw [hs']; rfl) (by simp [hs']) rfl rfl
  | called => exact hinv.of_state (.refl c) rfl rfl (by simp [History.note])
  | sent recv state huse hstate hsent =>
    rename_i data n o
    obtain ⟨hbytes, hlen⟩ := hsent.bytes_of_idle (hidle huse hstate)
    obtain ⟨start, hcont, hend⟩ := hinv.contiguous
    refine ⟨?_, fun he => ?_, start, ?_, fun _ => ?_⟩
    · show streamBytes (h.sent ++ [(o.seq, o.data)]) = (h.calls ++ [data.take n]).flatten
      rw [streamBytes_append_singleton, hinv.bytes, hbytes]
      simp
    · rw [Early, state.state, hstate] at he
      rcases he with he | ⟨he, _⟩ <;> cases he
    · exact hcont.append_singleton (hsent.seq.trans (hend hstate))
    · show c'.sndNxt = start + UInt32.ofNat (streamBytes (h.sent ++ [(o.seq, o.data)])).length
      rw [streamBytes_append_singleton, length_append, UInt32.ofNat_add, ← UInt32.add_assoc,
        ← hend hstate, hlen, hsent.nxt]
  | fin recv huse hstate =>
    rcases hstate with ⟨_, hs'⟩ | ⟨_, hs'⟩
    · exact hinv.of_late (by rw [hs']; rfl) (by simp [hs']) rfl rfl
    · exact hinv.of_late (by rw [hs']; rfl) (by simp [hs']) rfl rfl

/-- As long as the ring is empty before each `tcp_send`, what `tcp_send` has put on
the wire is what its calls reported, in one contiguous stretch of the sequence
space. -/
theorem stream_of_idle {calls : List Call} {t : System}
    (hrun : Run (GuardedStep TxIdle) System.init calls t) (i : Idx) :
    streamBytes (t.hist i).sent = (t.hist i).calls.flatten ∧
      ∃ start, Contiguous start (t.hist i).sent := by
  have hinv := (moves_invariant IdleMove SendInv (fun _ _ => trivial)
    (fun _ _ _ _ hg ho => hg.move ho) (fun _ _ _ _ _ hm hidle hinv => hinv.move hm hidle)
    (fun _ => .of_nothing rfl rfl) hrun i).2
  obtain ⟨start, hcont, _⟩ := hinv.contiguous
  exact ⟨hinv.bytes, start, hcont⟩

theorem txIdle_of_empty {s : Stack} (h : ∀ i, txAvailable (s.conn i) = 0) (call : Call) :
    Guarded TxIdle s call := by
  intro i op _
  cases op with
  | send data => exact fun _ _ => h i
  | _ => trivial

/-- The calls that open a connection on slot 0 from port 49152, with the peer's
answer. -/
def openCalls : List Call :=
  [.socket (some ⟨0, 1, 0⟩) 0,
   .connect 0 1 80 ⟨fun _ => 0, true, 100, 0⟩,
   .packet ⟨1, 80, 49152, 500, 102, 0x50, tcpSyn ||| tcpAck, 1000, []⟩ 0]

/-- An established connection. -/
def openSystem : System := System.run openCalls

theorem stream_of_three_bytes :
    Run (GuardedStep TxIdle) System.init (openCalls ++ [.send 0 [7, 8, 9]])
        (openSystem.step (.send 0 [7, 8, 9])) ∧
      ((openSystem.step (.send 0 [7, 8, 9])).hist 0).sent = [(102, [7, 8, 9])] ∧
      streamBytes ((openSystem.step (.send 0 [7, 8, 9])).hist 0).sent =
        ((openSystem.step (.send 0 [7, 8, 9])).hist 0).calls.flatten := by
  have hrun : Run (GuardedStep TxIdle) System.init (openCalls ++ [.send 0 [7, 8, 9]])
      (openSystem.step (.send 0 [7, 8, 9])) :=
    .cons ⟨txIdle_of_empty (by decide) _, rfl⟩ <| .cons ⟨txIdle_of_empty (by decide) _, rfl⟩ <|
      .cons ⟨txIdle_of_empty (by decide) _, rfl⟩ <| .cons ⟨txIdle_of_empty (by decide) _, rfl⟩ <|
      .nil _
  exact ⟨hrun, by decide, (stream_of_idle hrun 0).1⟩

/-! ## A send of more than one segment -/

theorem step_send_view (t : System) (data : List UInt8) :
    (t.step (.send 0 data)).view 0 = track (t.view 0) (.send data) := by
  rw [System.step_view]
  rfl

/-- A `tcp_send` that sends something, as the observer sees it. -/
theorem track_send {sl : Slot} {h : History} {data : List UInt8} (huse : sl.conn.inUse = true)
    (hstate : sl.conn.state = .established) (hpos : (taken sl.conn data).length ≠ 0) :
    ∃ (c' : Conn) (n : Nat) (o : OutSeg), SameState sl.conn c' ∧ SentFrom sl.conn c' data n o ∧
      (track (sl, h) (.send data)).1.conn = c' ∧
      (track (sl, h) (.send data)).2.calls = h.calls ++ [data.take n] ∧
      (track (sl, h) (.send data)).2.sent = h.sent ++ [(o.seq, o.data)] := by
  obtain ⟨c', n, o, hsend, _, hsame, hsent⟩ := tcpSend_open huse hstate hpos
  refine ⟨c', n, o, hsame, hsent, ?_, ?_, ?_⟩
  · show (tcpSend sl.conn data).conn = c'
    rw [hsend]
  · show h.calls ++ [data.take (tcpSend sl.conn data).ret.toNat] = _
    rw [hsend]
    rfl
  · show h.sent ++ (tcpSend sl.conn data).out.map (fun o => (o.seq, o.data)) = _
    rw [hsend]
    rfl

/-- More than one segment from an empty ring, and then one byte: what is on the
wire, and what the calls reported. -/
theorem two_sends (sl : Slot) (h : History) (data : List UInt8) (b : UInt8)
    (huse : sl.conn.inUse = true) (hstate : sl.conn.state = .established)
    (hidle : txAvailable sl.conn = 0) (hlen : data.length = maxSegmentSize + 1) :
    streamBytes (track (track (sl, h) (.send data)) (.send [b])).2.sent =
        streamBytes h.sent ++ data ∧
      (track (track (sl, h) (.send data)) (.send [b])).2.calls.flatten =
        h.calls.flatten ++ (data.take maxSegmentSize ++ [b]) := by
  have hall : taken sl.conn data = data := by
    rw [taken, hidle]
    exact take_of_length_le (by rw [hlen]; decide)
  obtain ⟨c₁, n₁, o₁, hsame₁, hsent₁, hconn₁, hcalls₁, hwire₁⟩ :=
    track_send (h := h) huse hstate (by rw [hall, hlen]; decide : (taken sl.conn data).length ≠ 0)
  have hn₁ : n₁ = maxSegmentSize := by
    rw [hsent₁.count, hall, hlen]
    exact Nat.min_eq_right (Nat.le_succ _)
  obtain ⟨hbytes₁, _⟩ := hsent₁.bytes_of_idle hidle
  -- one byte of the first call is left in the ring
  have hring : c₁.tx.contents = data.drop maxSegmentSize := by
    rw [hsent₁.tx, hall, Ring.contents_eq_nil_iff.2 hidle, hn₁]
    rfl
  have hone : (data.drop maxSegmentSize).length = 1 := by
    rw [length_drop, hlen, Nat.add_sub_cancel_left]
  have havail : txAvailable c₁ = 1 := by
    rw [txAvailable, ← Ring.length_contents, hring, hone]
  generalize track (sl, h) (.send data) = p at hconn₁ hcalls₁ hwire₁
  obtain ⟨sl₁, h₁⟩ := p
  subst hconn₁
  have htaken : taken sl₁.conn [b] = [b] := by
    rw [taken, havail]
    rfl
  obtain ⟨c₂, n₂, o₂, _, hsent₂, _, hcalls₂, hwire₂⟩ :=
    track_send (h := h₁) (hsame₁.inUse.trans huse) (hsame₁.state.trans hstate)
      (by rw [htaken]; exact Nat.one_ne_zero : (taken sl₁.conn [b]).length ≠ 0)
  have hn₂ : n₂ = 1 := by
    rw [hsent₂.count, htaken]
    rfl
  have hbytes₂ : o₂.data = data.drop maxSegmentSize := by
    rw [hsent₂.bytes, hring, hn₂]
    exact take_left' hone
  constructor
  · rw [hwire₂, hwire₁, streamBytes_append_singleton, streamBytes_append_singleton, hbytes₁, hbytes₂,
      hn₁, append_assoc, take_append_drop]
  · rw [hcalls₂, hcalls₁, hn₁, hn₂]
    simp

/-- On an established connection, 1461 bytes and then one more: the second call
reports its byte as sent, but the wire carries the last of the first call's bytes. -/
theorem leftover_sent_instead :
    ∃ t, Run (GuardedStep fun _ _ => True) System.init
        (openCalls ++ [.send 0 (List.replicate 1461 0), .send 0 [1]]) t ∧
      streamBytes (t.hist 0).sent = List.replicate 1461 0 ∧
      (t.hist 0).calls.flatten = List.replicate 1460 0 ++ [1] ∧
      streamBytes (t.hist 0).sent ≠ (t.hist 0).calls.flatten := by
  have huse : (openSystem.stack.conn 0).inUse = true := by decide
  have hstate : (openSystem.stack.conn 0).state = .established := by decide
  have hidle : txAvailable (openSystem.stack.conn 0) = 0 := by decide
  obtain ⟨hwire, hcalls⟩ := two_sends (openSystem.stack.slots 0) (openSystem.hist 0)
    (List.replicate 1461 0) 1 huse hstate hidle length_replicate
  have hview : ((openSystem.step (.send 0 (List.replicate 1461 0))).step (.send 0 [1])).view 0 =
      track (track (openSystem.view 0) (.send (List.replicate 1461 0))) (.send [1]) := by
    rw [step_send_view, step_send_view]
  have hcalls₀ : (openSystem.hist 0).calls.flatten = [] := by decide
  rw [hcalls₀, nil_append, take_replicate] at hcalls
  generalize ht : (openSystem.step (.send 0 (List.replicate 1461 0))).step (.send 0 [1]) = t at hview
  have hhist : t.hist 0 =
      (track (track (openSystem.view 0) (.send (List.replicate 1461 0))) (.send [1])).2 :=
    congrArg Prod.snd hview
  have hwire' : streamBytes (t.hist 0).sent = List.replicate 1461 0 := hhist ▸ hwire
  have hcalls' : (t.hist 0).calls.flatten = List.replicate 1460 0 ++ [1] := hhist ▸ hcalls
  refine ⟨t, ?_, hwire', hcalls', ?_⟩
  · have hrun := System.run_all (openCalls ++ [.send 0 (List.replicate 1461 0), .send 0 [1]])
    exact ht ▸ hrun
  · rw [hwire', hcalls', replicate_succ']
    intro h
    have hlast := append_cancel_left h
    revert hlast
    decide

end TinyOS.Tcp
