import TinyOS.Tcp.SendStream

/-!
# TCP: resets that are rejected

A RST that fails validation leaves the connection alone, but it still counts for the limiter of the
slot: a RST within 100 ms after it is not even looked at. So it matters when the next ones arrive. A
RST that comes later than that is looked at with and without the rejected one, and from then on the
limiter is in the same state.
-/

namespace TinyOS.Tcp

/-- The RST fails validation. -/
def rejectsRst (c : Conn) (seg : Segment) : Bool :=
  (c.state.synchronized && !tcpValidateSequence seg.seq c.rcvNxt c.rcvWnd) ||
    (c.state = .synSent && (!has seg.flags tcpAck || seg.ack ≠ c.sndNxt))

/-- What an operation returns and sends, and the connection after it. -/
def SlotResult.seen (r : SlotResult) : Int × List UInt8 × Conn × List OutSeg :=
  (r.ret, r.bytes, r.slot.conn, r.out)

/-- When the RST arrives, if the operation is one. -/
def SlotOp.rstTime : SlotOp → Option UInt32
  | .segment now seg => if has seg.flags tcpRst then some now else none
  | _ => none

/-- How the operations are handled one after the other. -/
def handling (sl : Slot) : List SlotOp → List (Int × List UInt8 × Conn × List OutSeg)
  | [] => []
  | op :: ops => (op.run sl).seen :: handling (op.run sl).slot ops

/-- Less than 100 ms lie between the two times. -/
abbrev SoonAfter (last t : UInt32) : Prop := t - last < rstFinMinInterval

/-- After RSTs at `last` and at `now`: the first one that does not come soon after both of them comes
soon after neither. -/
def OutOfReach (last now : UInt32) : List UInt32 → Prop
  | [] => True
  | t :: times =>
    if SoonAfter last t ∧ SoonAfter now t then OutOfReach last now times
    else ¬SoonAfter last t ∧ ¬SoonAfter now t

/-- The slots differ in the time of the last RST at most. -/
def Twins (a b : Slot) : Prop := b.conn = a.conn ∧ b.lastFinTime = a.lastFinTime

theorem processRst_eq (now : UInt32) (sl : Slot) (seg : Segment) :
    processRst now sl seg =
      if now - sl.lastRstTime < rstFinMinInterval then sl
      else ⟨if rejectsRst sl.conn seg then sl.conn else sl.conn.release, now, sl.lastFinTime⟩ := by
  unfold processRst
  split
  · rfl
  dsimp only [rejectsRst]
  split
  · rename_i h
    simp [h]
  · rename_i h
    simp only [h, Bool.false_or]
    split <;> rfl

section step

variable {a b : Slot} {op : SlotOp}

/-- Nothing but the handling of a RST looks at the limiter. -/
theorem Twins.run (h : Twins a b) (hrst : op.rstTime = none) :
    (op.run b).seen = (op.run a).seen ∧ Twins (op.run a).slot (op.run b).slot ∧
      (op.run a).slot.lastRstTime = a.lastRstTime ∧ (op.run b).slot.lastRstTime = b.lastRstTime := by
  obtain ⟨_, la, _⟩ := a
  obtain ⟨c, lb, fin⟩ := b
  obtain ⟨rfl, rfl⟩ := h
  cases op with
  | segment now seg =>
    have hrst : has seg.flags tcpRst = false := by
      cases h : has seg.flags tcpRst with
      | false => rfl
      | true => simp [SlotOp.rstTime, h] at hrst
    simp only [SlotOp.run, tcpProcessSegment, hrst, Bool.false_eq_true, if_false]
    cases c.state
    case established =>
      unfold processEstablished establishedFin
      dsimp only
      split
      · exact ⟨rfl, ⟨rfl, rfl⟩, rfl, rfl⟩
      split
      · split
        · split <;> exact ⟨rfl, ⟨rfl, rfl⟩, rfl, rfl⟩
        · exact ⟨rfl, ⟨rfl, rfl⟩, rfl, rfl⟩
      · exact ⟨rfl, ⟨rfl, rfl⟩, rfl, rfl⟩
    all_goals exact ⟨rfl, ⟨rfl, rfl⟩, rfl, rfl⟩
  | _ => exact ⟨rfl, ⟨rfl, rfl⟩, rfl, rfl⟩

theorem run_rst {now : UInt32} {seg : Segment} (hrst : has seg.flags tcpRst = true) :
    SlotOp.run a (.segment now seg) = ⟨0, [], processRst now a seg, []⟩ := by
  simp only [SlotOp.run, tcpProcessSegment, hrst, if_true]

theorem rstTime_eq_some {t : UInt32} (h : op.rstTime = some t) :
    ∃ seg, op = .segment t seg ∧ has seg.flags tcpRst = true := by
  cases op with
  | segment now seg =>
    simp only [SlotOp.rstTime] at h
    split at h
    · rename_i hrst
      cases h
      exact ⟨seg, rfl, hrst⟩
    · cases h
  | _ => cases h

end step

/-- Twins handle everything alike if the RSTs are out of reach of the times in which they differ. -/
theorem Twins.handling_eq {a b : Slot} (h : Twins a b) {ops : List SlotOp}
    (hout : OutOfReach a.lastRstTime b.lastRstTime (ops.filterMap SlotOp.rstTime)) :
    handling b ops = handling a ops := by
  induction ops generalizing a b with
  | nil => rfl
  | cons op ops ih =>
    rw [handling, handling]
    cases hrst : op.rstTime with
    | none =>
      obtain ⟨hseen, htwins, hla, hlb⟩ := h.run hrst
      rw [List.filterMap_cons_none hrst, ← hla, ← hlb] at hout
      rw [hseen, ih htwins hout]
    | some t =>
      obtain ⟨seg, rfl, hflag⟩ := rstTime_eq_some hrst
      rw [List.filterMap_cons_some hrst, OutOfReach] at hout
      rw [run_rst hflag, run_rst hflag, processRst_eq, processRst_eq]
      split at hout
      · -- Both limiters drop it.
        rename_i hsoon
        rw [if_pos hsoon.1, if_pos hsoon.2, ih h hout]
        exact congrArg (· :: _) (congrArg (fun c => (0, [], c, [])) h.1)
      · -- Both look at it, and remember the same time.
        rw [if_neg hout.1, if_neg hout.2, h.1, h.2]

/-- A RST that every state but those without a connection obeys. -/
def obeyed (c : Conn) : Segment := ⟨tcpRst ||| tcpAck, c.rcvNxt, c.sndNxt, 0, []⟩

theorem obeyed_isRst (c : Conn) : has (obeyed c).flags tcpRst = true := by
  show has (tcpRst ||| tcpAck) tcpRst = true
  decide

/-- Where a RST can be rejected, there is one that closes the connection. -/
theorem obeyed_releases {c : Conn} {seg : Segment} (h : rejectsRst c seg = true) :
    rejectsRst c (obeyed c) = false ∧ c.release ≠ c := by
  have hflag : has (tcpRst ||| tcpAck) tcpAck = true := by decide
  refine ⟨by simp [rejectsRst, obeyed, tcpValidateSequence, hflag], fun hsame => ?_⟩
  have hclosed : c.state = .closed := by
    rw [← hsame]
    rfl
  simp [rejectsRst, hclosed, TcpState.synchronized] at h

/-- RSTs within reach, if they are obeyed, are handled differently. -/
theorem handling_ne {sl : Slot} {seg : Segment} (hrejected : rejectsRst sl.conn seg = true)
    {now : UInt32} {times : List UInt32} (hreach : ¬OutOfReach sl.lastRstTime now times) :
    handling { sl with lastRstTime := now } (times.map fun t => .segment t (obeyed sl.conn)) ≠
      handling sl (times.map fun t => .segment t (obeyed sl.conn)) := by
  obtain ⟨haccepts, hchanges⟩ := obeyed_releases hrejected
  have hflag := obeyed_isRst sl.conn
  induction times with
  | nil => exact absurd trivial hreach
  | cons t times ih =>
    rw [OutOfReach] at hreach
    rw [List.map_cons, handling, handling, run_rst hflag, run_rst hflag, processRst_eq, processRst_eq]
    split at hreach
    · rename_i hsoon
      rw [if_pos hsoon.1, if_pos hsoon.2]
      intro heq
      exact ih hreach (List.cons.inj heq).2
    · -- One of the two looks at it and releases the connection.
      rename_i hnot
      intro heq
      have hconn := congrArg (fun x => x.2.2.1) (List.cons.inj heq).1
      simp only [SlotResult.seen, haccepts] at hconn
      by_cases hlast : SoonAfter sl.lastRstTime t
      · have hnow : ¬SoonAfter now t := fun h => hnot ⟨hlast, h⟩
        simp only [if_pos hlast, if_neg hnow] at hconn
        exact hchanges hconn
      · have hnow : SoonAfter now t := by
          by_contra hnow
          exact hreach ⟨hlast, hnow⟩
        simp only [if_neg hlast, if_pos hnow] at hconn
        exact hchanges hconn.symm

/-- Whatever comes behind a RST that is rejected is handled as it is without that RST, exactly if the
limiter had dropped it, or the RSTs among what comes arrive out of its reach. -/
theorem rejected_reset_matters_iff {sl : Slot} {now : UInt32} {seg : Segment}
    (hrst : has seg.flags tcpRst = true) (hrejected : rejectsRst sl.conn seg = true)
    (times : List UInt32) :
    (∀ ops : List SlotOp, ops.filterMap SlotOp.rstTime = times →
        handling (SlotOp.run sl (.segment now seg)).slot ops = handling sl ops) ↔
      SoonAfter sl.lastRstTime now ∨ OutOfReach sl.lastRstTime now times := by
  rw [run_rst hrst, processRst_eq]
  by_cases hsoon : SoonAfter sl.lastRstTime now
  · exact iff_of_true (fun ops _ => by rw [if_pos hsoon]) (.inl hsoon)
  rw [if_neg hsoon, if_pos hrejected, or_iff_right hsoon]
  constructor
  · intro hall
    by_contra hreach
    refine handling_ne hrejected hreach (hall _ ?_)
    have htime : SlotOp.rstTime ∘ (fun t => .segment t (obeyed sl.conn)) = some :=
      funext fun t => if_pos (obeyed_isRst sl.conn)
    rw [List.filterMap_map, htime, List.filterMap_some]
  · rintro hout ops rfl
    exact Twins.handling_eq (a := sl) (b := ⟨sl.conn, now, sl.lastFinTime⟩) ⟨rfl, rfl⟩ hout

/-- A RST with this sequence number. -/
def rst (seq : UInt32) : Segment := ⟨tcpRst, seq, 0, 0, []⟩

/-- 100 ms after one that is rejected, a valid RST is looked at as ever. -/
theorem valid_reset_in_time :
    handling (SlotOp.run (openSystem.stack.slots 0) (.segment 1000 (rst 0))).slot
        [.recv 1, .segment 1100 (rst 501)] =
      handling (openSystem.stack.slots 0) [.recv 1, .segment 1100 (rst 501)] :=
  (rejected_reset_matters_iff (by decide) (by decide) [1100]).mpr
    (.inr (by rw [OutOfReach, if_neg (by decide)]; decide)) [.recv 1, .segment 1100 (rst 501)] rfl

/-- A valid RST closes the connection, but not within 100 ms after one that was rejected. -/
theorem valid_reset_after_a_rejected_one :
    rejectsRst (openSystem.stack.slots 0).conn (rst 0) = true ∧
      (handling (openSystem.stack.slots 0) [.segment 1050 (rst 501)]).map (·.2.2.1.inUse) = [false] ∧
      (handling (SlotOp.run (openSystem.stack.slots 0) (.segment 1000 (rst 0))).slot
        [.segment 1050 (rst 501)]).map (·.2.2.1.inUse) = [true] := by
  decide

end TinyOS.Tcp
