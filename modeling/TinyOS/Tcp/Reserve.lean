import TinyOS.Lib.Tally
import TinyOS.Tcp.Moves

/-!
# TCP: the sockets kept for root

`tcp_socket` refuses a user's request when at most two slots are left, and counts
the slots in `TCP_TIME_WAIT` among those left, since root could evict them. But it
evicts only if at least four slots are in `TCP_TIME_WAIT`. With no slot free and one
to three of them there, root is refused.

Root gets a socket exactly when a slot is free or four can be evicted from
(`RootServed`). Calls other than `tcp_socket` keep this, and so does a user's
`tcp_socket` that leaves enough (`LeavesEnough`).
-/

namespace TinyOS.Tcp

open Lib List

/-! ## Counting slots -/

/-- How many slots are not in use. -/
def freeSlots (s : Stack) : Nat := s.count fun c => !c.inUse

variable {s : Stack}

theorem exists_free_of_pos (h : 0 < freeSlots s) : ∃ i, (s.conn i).inUse = false := by
  obtain ⟨i, _, hi⟩ := countP_pos_iff.1 h
  exact ⟨i, by simpa using hi⟩

/-- If two slots are free, one is free besides any given one. -/
theorem exists_other_free (h : 2 ≤ freeSlots s) (i : Idx) :
    ∃ j, j ≠ i ∧ (s.conn j).inUse = false := by
  by_contra hnone
  push Not at hnone
  have hle := tally_le_succ (p := fun k => !(s.conn k).inUse) (q := fun _ => false) i
    fun k hk hfree => by simp_all
  have hzero : (tally fun _ : Idx => false) = 0 := by simp [tally]
  exact absurd (Nat.le_trans h hle) (by rw [hzero]; decide)

variable {s' : Stack}

theorem timeWait_le (h : ∀ i, inTimeWait (s.conn i) = true → inTimeWait (s'.conn i) = true) :
    tcpCountTimeWaitConnections s ≤ tcpCountTimeWaitConnections s' :=
  countP_mono_left fun i _ hi => h i hi

theorem timeWait_le_succ (j : Idx)
    (h : ∀ i, i ≠ j → inTimeWait (s.conn i) = true → inTimeWait (s'.conn i) = true) :
    tcpCountTimeWaitConnections s ≤ tcpCountTimeWaitConnections s' + 1 :=
  tally_le_succ j h

theorem firstUnused_eq_none (h : firstUnused s = none) (i : Idx) : (s.conn i).inUse = true := by
  have := find?_eq_none.1 h i (mem_finRange i)
  simpa using this

theorem firstUnused_eq_some {i : Idx} (h : firstUnused s = some i) : (s.conn i).inUse = false := by
  have := find?_some h
  simpa using this

/-! ## When root is served -/

/-- A slot is free, or enough are in `TCP_TIME_WAIT` to evict one. -/
def RootServed (s : Stack) : Prop :=
  (∃ i, (s.conn i).inUse = false) ∨ timeWaitEvictionThreshold ≤ tcpCountTimeWaitConnections s

/-- What an operation that does not hand out a slot leaves of the slots root could
have: free slots stay free, and evictable ones are evictable or free. -/
structure SpareKept (c c' : Conn) : Prop where
  free : c.inUse = false → c'.inUse = false
  timeWait : inTimeWait c = true → inTimeWait c' = true ∨ c'.inUse = false

namespace SpareKept

variable {c c₁ c' : Conn}

theorem refl (c : Conn) : SpareKept c c := ⟨id, .inl⟩

theorem trans (h₁ : SpareKept c c₁) (h₂ : SpareKept c₁ c') : SpareKept c c' where
  free h := h₂.free (h₁.free h)
  timeWait h := (h₁.timeWait h).elim h₂.timeWait fun h => .inr (h₂.free h)

theorem of_state (state : SameState c c') : SpareKept c c' where
  free h := state.inUse.trans h
  timeWait h := .inl (by rw [inTimeWait, state.state, state.inUse]; exact h)

theorem of_use (huse : c'.inUse = c.inUse) (hstate : c.state ≠ .timeWait) : SpareKept c c' where
  free h := huse.trans h
  timeWait h := by simp [inTimeWait, hstate] at h

end SpareKept

theorem Move.spareKept {c c' : Conn} {l : Label} (hm : Move c l c') (hl : l ≠ .fresh) :
    SpareKept c c' := by
  cases hm with
  | quiet send recv state =>
    cases state with
    | same hs => exact .of_state hs
    | released hstate huse => exact ⟨fun _ => huse, fun _ => .inr huse⟩
    | timeWait hs hs' huse => exact .of_use huse (by simp [hs])
  | fresh self => exact absurd rfl hl
  | opened recv huse hstate huse' => exact .of_use (huse'.trans huse.symm) (by simp [hstate])
  | handshake hstate hstate' huse => exact .of_use huse (by simp [hstate])
  | acked recv una nxt tx check =>
    cases check with
    | new hs hs' => exact .of_state hs'
    | all hs hs' huse => exact .of_use huse (by simp [hs])
  | ackedAny recv state | emit send recv state | stored send state
  | read send state | sent recv state => exact .of_state state
  | finished send state huse =>
    cases state with
    | closeWait hs | closing hs | timeWait hs => exact .of_use huse (by simp [hs])
  | called => exact .refl c
  | fin recv huse hstate =>
    refine .of_use huse ?_
    rcases hstate with ⟨hs, _⟩ | ⟨hs, _⟩ <;> simp [hs]

theorem op_spareKept {sl : Slot} {op : SlotOp} (hop : ∀ self, op ≠ .fresh self)
    (hc : Sane sl.conn) : SpareKept sl.conn (op.run sl).slot.conn := by
  obtain ⟨labels, hrun, _⟩ := run_moves sl op hc
  refine (hrun.invariant (fun _ l => l ≠ .fresh) (fun c _ => SpareKept sl.conn c)
    (fun c l c' _ _ hm hl hi => hi.trans (hm.spareKept hl)) (fun c l ho => ?_) hc (.refl _)
    (h := .empty)).2
  rintro rfl
  obtain ⟨self, rfl⟩ := ho
  exact hop self rfl

theorem RootServed.of_spareKept (h : ∀ i, SpareKept (s.conn i) (s'.conn i))
    (hs : RootServed s) : RootServed s' := by
  rcases hs with ⟨i, hi⟩ | htw
  · exact .inl ⟨i, (h i).free hi⟩
  · by_cases hfree : ∃ i, (s'.conn i).inUse = false
    · exact .inl hfree
    · push Not at hfree
      exact .inr (Nat.le_trans htw (timeWait_le fun i hi => ((h i).timeWait hi).resolve_right (hfree i)))

/-! ## The clock

Times are ten times a tick count, so they are even, and eviction can never overlook
a slot for having the largest possible start time. -/

theorem timeMs_even (ticks : UInt32) : (timeMs ticks).toNat % 2 = 0 := by
  show ticks.toNat * 10 % 2 ^ 32 % 2 = 0
  omega

/-- The start of `TCP_TIME_WAIT` is an even time. -/
def EvenStart (sl : Slot) : Prop := sl.conn.timeWaitStart.toNat % 2 = 0

theorem tcpClose_timeWaitStart (c : Conn) (now : UInt32) :
    (tcpClose c now).conn.timeWaitStart = c.timeWaitStart := by
  rw [tcpClose]
  split
  · rfl
  · split <;> rfl

theorem tcpTickSlot_timeWaitStart (c : Conn) (now closeTime : UInt32) :
    (tcpTickSlot c now closeTime).1.timeWaitStart = c.timeWaitStart := by
  have hprobe : ∀ d : Conn, (zeroWindowProbe d now).1.timeWaitStart = d.timeWaitStart := fun d => by
    rw [zeroWindowProbe]
    split <;> rfl
  have hexpire : ∀ d : Conn, (expireFinWait2 (expireTimeWait (expireClosing (expireHandshake d now)
      now) now) now).timeWaitStart = d.timeWaitStart := fun d => by
    rcases expire_cases d now with h | h <;> rw [h]
    rfl
  have hclose := tcpClose_timeWaitStart { c with orphaned := false } closeTime
  rw [tcpTickSlot]
  dsimp only
  split_ifs
  · exact hclose
  · rw [hprobe, hexpire]
    exact hclose
  · rfl
  · rw [hprobe, hexpire]

theorem processEstablished_timeWaitStart (now : UInt32) (sl : Slot) (seg : Segment) :
    (processEstablished now sl seg).1.conn.timeWaitStart = sl.conn.timeWaitStart := by
  have hack : ∀ c, (establishedAck c seg).timeWaitStart = c.timeWaitStart := fun c => by
    rw [establishedAck]
    split <;> rfl
  have hdata : ∀ c, (establishedData c seg).1.timeWaitStart = c.timeWaitStart := fun c => by
    rw [establishedData]
    split_ifs <;> rfl
  have hfin : ∀ sl, (establishedFin now sl seg).1.conn.timeWaitStart = sl.conn.timeWaitStart :=
    fun sl => by
      rw [establishedFin]
      split_ifs <;> rfl
  rw [processEstablished]
  dsimp only
  split_ifs
  · rfl
  · rw [hfin, hdata, hack]
  · rw [hdata, hack]

theorem tcpProcessSegment_timeWaitStart (now : UInt32) (sl : Slot) (seg : Segment) :
    (tcpProcessSegment now sl seg).1.conn.timeWaitStart = sl.conn.timeWaitStart ∨
    (tcpProcessSegment now sl seg).1.conn.timeWaitStart = now := by
  have hfin : ∀ c, (closingFin now c seg).1.timeWaitStart = c.timeWaitStart ∨
      (closingFin now c seg).1.timeWaitStart = now := fun c => by
    rw [closingFin]
    dsimp only
    split_ifs
    · exact .inr rfl
    · exact .inl rfl
    · exact .inl rfl
  have hack : (finWait1Ack now sl.conn seg).timeWaitStart = sl.conn.timeWaitStart := by
    rw [finWait1Ack]
    split <;> rfl
  rw [tcpProcessSegment]
  split
  · rw [processRst]
    dsimp only
    split_ifs <;> exact .inl rfl
  split
  · dsimp only [processSynSent]
    split_ifs <;> exact .inl rfl
  · rw [processSynReceived]
    split <;> exact .inl rfl
  · exact .inl (processEstablished_timeWaitStart ..)
  · rw [← hack]
    exact hfin _
  · exact hfin _
  · rw [processClosing]
    split
    · exact .inr rfl
    · exact .inl rfl
  · rw [processCloseWait]
    split <;> exact .inl rfl
  · rw [processLastAck]
    split <;> exact .inl rfl
  · exact .inl rfl
  · exact .inl rfl
  · exact .inl rfl

/-- The time a segment is processed at is even. -/
def EvenTime : SlotOp → Prop
  | .segment now _ => now.toNat % 2 = 0
  | _ => True

theorem op_evenStart {sl : Slot} {op : SlotOp} (hop : EvenTime op) (h : EvenStart sl) :
    EvenStart (op.run sl).slot := by
  have hkeep : ∀ c : Conn, c.timeWaitStart = sl.conn.timeWaitStart → c.timeWaitStart.toNat % 2 = 0 :=
    fun c hc => by rw [hc]; exact h
  cases op with
  | evict => exact h
  | fresh self => rfl
  | connect r =>
    refine hkeep _ ?_
    show (tcpConnect sl.conn r).conn.timeWaitStart = _
    rw [tcpConnect]
    dsimp only
    split_ifs <;> rfl
  | send data =>
    refine hkeep _ ?_
    show (tcpSend sl.conn data).conn.timeWaitStart = _
    rw [tcpSend]
    dsimp only
    split
    · rfl
    · split <;> rfl
  | recv len =>
    refine hkeep _ ?_
    show (tcpRecv sl.conn len).conn.timeWaitStart = _
    rw [tcpRecv]
    dsimp only
    split_ifs <;> rfl
  | close now => exact hkeep _ (tcpClose_timeWaitStart sl.conn now)
  | cleanup pid generation =>
    refine hkeep _ ?_
    show (taskCleanup sl.conn pid generation).timeWaitStart = _
    rw [taskCleanup]
    dsimp only
    split_ifs <;> rfl
  | segment now seg =>
    show (tcpProcessSegment now sl seg).1.conn.timeWaitStart.toNat % 2 = 0
    rcases tcpProcessSegment_timeWaitStart now sl seg with heq | heq
    · rw [heq]
      exact h
    · rw [heq]
      exact hop
  | tick now closeTime => exact hkeep _ (tcpTickSlot_timeWaitStart sl.conn now closeTime)

theorem exec_evenTime {call : Call} {i : Idx} {op : SlotOp}
    (h : (i, op) ∈ (exec s call).events) : EvenTime op := by
  have hissue := exec_issues h
  cases op with
  | segment now seg =>
    cases call with
    | packet p ticks =>
      obtain ⟨seg', heq⟩ := hissue
      cases heq
      exact timeMs_even ticks
    | socket => rcases hissue with h | h <;> cases h
    | connect => obtain ⟨_, h⟩ := hissue; cases h
    | _ => cases hissue
  | _ => trivial

/-! ## Root's request -/

theorem oldestTimeWait_isSome {is : List Idx} {oldest : UInt32} {found : Option Idx}
    (h : found.isSome = true ∨
      ∃ i ∈ is, inTimeWait (s.conn i) = true ∧ (s.conn i).timeWaitStart < oldest) :
    (oldestTimeWait s is oldest found).isSome = true := by
  induction is generalizing oldest found with
  | nil =>
    rcases h with h | ⟨i, hi, _⟩
    · exact h
    · cases hi
  | cons j is ih =>
    rw [oldestTimeWait]
    split
    · exact ih (.inl rfl)
    rename_i hj
    apply ih
    rcases h with h | ⟨i, hi, htw, hlt⟩
    · exact .inl h
    · -- the slot is not the one just passed over
      rcases mem_cons.1 hi with rfl | hi
      · exact absurd (by simp [htw, hlt]) hj
      · exact .inr ⟨i, hi, htw, hlt⟩

theorem exists_timeWait_of_pos (h : 0 < tcpCountTimeWaitConnections s) :
    ∃ i, inTimeWait (s.conn i) = true := by
  obtain ⟨i, _, hi⟩ := countP_pos_iff.1 h
  exact ⟨i, hi⟩

theorem evict_conn {j : Idx} {now : UInt32} (h : tcpEvictOldestTimeWait s now = some (j, s')) :
    (s'.conn j).inUse = false ∧ ∀ i, i ≠ j → s'.conn i = s.conn i := by
  rw [tcpEvictOldestTimeWait, Option.map_eq_some_iff] at h
  obtain ⟨_, _, heq⟩ := h
  cases heq
  constructor
  · show ((s.perform (j, .evict)).slots j).conn.inUse = false
    rw [perform_slots_self]
    rfl
  · intro i hi
    show ((s.perform (j, .evict)).slots i).conn = _
    rw [perform_slots_ne s (Ne.symm hi)]
    rfl

theorem root_socket {task : Task} (now : UInt32) (huid : task.uid = 0)
    (heven : ∀ i, EvenStart (s.slots i)) (hserved : RootServed s) :
    0 ≤ (tcpSocket s (some task) now).ret := by
  have hlimit : tcpSocketOverLimit s (some task) = false := by simp [tcpSocketOverLimit, huid]
  rw [tcpSocket, if_neg (by simp [hlimit])]
  split
  · exact Int.natCast_nonneg _
  rename_i hnone
  have htw : timeWaitEvictionThreshold ≤ tcpCountTimeWaitConnections s := by
    rcases hserved with ⟨i, hi⟩ | h
    · rw [firstUnused_eq_none hnone i] at hi
      cases hi
    · exact h
  rw [if_pos htw]
  obtain ⟨i, hi⟩ := exists_timeWait_of_pos (Nat.lt_of_lt_of_le (by decide) htw)
  have hstart : (s.conn i).timeWaitStart < 0xFFFFFFFF := by
    have hlt := (s.conn i).timeWaitStart.toNat_lt
    have hmod : (s.conn i).timeWaitStart.toNat % 2 = 0 := heven i
    show (s.conn i).timeWaitStart.toNat < 4294967295
    omega
  have hsome : (oldestTimeWait s (List.finRange maxConnections) 0xFFFFFFFF none).isSome = true :=
    oldestTimeWait_isSome (.inr ⟨i, mem_finRange i, hi, hstart⟩)
  split
  · rename_i j s' hevict
    split
    · exact Int.natCast_nonneg _
    rename_i hfull
    have hfree := (evict_conn hevict).1
    rw [firstUnused_eq_none hfull j] at hfree
    cases hfree
  · rename_i hevict
    rw [tcpEvictOldestTimeWait, Option.map_eq_none_iff] at hevict
    rw [hevict] at hsome
    cases hsome

/-! ## A user's request -/

/-- After one more slot is handed out, root is still served. -/
def LeavesEnough (s : Stack) : Prop :=
  2 ≤ freeSlots s ∨
  freeSlots s = 1 ∧ timeWaitEvictionThreshold ≤ tcpCountTimeWaitConnections s ∨
  freeSlots s = 0 ∧ timeWaitEvictionThreshold + 1 ≤ tcpCountTimeWaitConnections s

instance (s : Stack) : Decidable (LeavesEnough s) := inferInstanceAs (Decidable (_ ∨ _))

theorem perform_conn_ne (s : Stack) {i j : Idx} (h : i ≠ j) (op : SlotOp) :
    (s.perform (j, op)).conn i = s.conn i := by
  rw [Stack.conn, perform_slots_ne s (Ne.symm h)]
  rfl

theorem RootServed.fresh {i : Idx} (hi : (s.conn i).inUse = false)
    (henough : LeavesEnough s) (self : Option Task) : RootServed (s.perform (i, .fresh self)) := by
  have hpos : 0 < freeSlots s :=
    countP_pos_iff.2 ⟨i, mem_finRange i, by simpa using hi⟩
  rcases henough with htwo | ⟨_, htw⟩ | ⟨hzero, _⟩
  · obtain ⟨j, hj, hfree⟩ := exists_other_free htwo i
    exact .inl ⟨j, by rw [perform_conn_ne s hj]; exact hfree⟩
  · refine .inr (Nat.le_trans htw (timeWait_le fun k hk => ?_))
    by_cases h : k = i
    · subst h
      simp [inTimeWait, hi] at hk
    · rwa [perform_conn_ne s h]
  · omega

/-- The oldest slot in `TCP_TIME_WAIT` is evicted and handed out. -/
theorem RootServed.evict {i j : Idx} {now : UInt32} (hnone : firstUnused s = none)
    (henough : LeavesEnough s) (hevict : tcpEvictOldestTimeWait s now = some (j, s'))
    (hi : firstUnused s' = some i) (self : Option Task) :
    RootServed (s'.perform (i, .fresh self)) := by
  obtain ⟨_, hother⟩ := evict_conn hevict
  -- all other slots are in use, so the evicted slot is the one handed out
  obtain rfl : i = j := by
    by_contra h
    have hfree := firstUnused_eq_some hi
    rw [hother i h, firstUnused_eq_none hnone i] at hfree
    cases hfree
  have hzero : freeSlots s = 0 := by
    by_contra h
    obtain ⟨k, hk⟩ := exists_free_of_pos (Nat.pos_of_ne_zero h)
    rw [firstUnused_eq_none hnone k] at hk
    cases hk
  have htw : timeWaitEvictionThreshold + 1 ≤ tcpCountTimeWaitConnections s := by
    rcases henough with h | ⟨h, _⟩ | ⟨_, h⟩
    · omega
    · omega
    · exact h
  have hle : tcpCountTimeWaitConnections s ≤
      tcpCountTimeWaitConnections (s'.perform (i, .fresh self)) + 1 := by
    apply timeWait_le_succ i
    intro k hk htw
    rw [perform_conn_ne s' hk, hother k hk]
    exact htw
  exact .inr (by omega)

theorem RootServed.socket {self : Option Task} {now : UInt32} (hserved : RootServed s)
    (henough : tcpSocketOverLimit s self = true ∨ LeavesEnough s) :
    RootServed (tcpSocket s self now).stack := by
  rw [tcpSocket]
  split
  · exact hserved
  rename_i hlimit
  have henough : LeavesEnough s := henough.resolve_left (by simpa using hlimit)
  split
  · rename_i i hi
    exact .fresh (firstUnused_eq_some hi) henough self
  rename_i hnone
  split
  · split
    · rename_i j s' hevict
      split
      · rename_i i hi
        exact .evict hnone henough hevict hi self
      · exact .inl ⟨j, (evict_conn hevict).1⟩
    · exact hserved
  · exact hserved

/-! ## Runs -/

/-- Sockets are requested by tasks that are not root's. -/
def Call.byUser : Call → Bool
  | .socket (some task) _ => task.uid ≠ 0
  | .socket none _ => false
  | _ => true

/-- The calls of users, each request for a socket refused or leaving enough. -/
def ReserveGuard (s : Stack) (call : Call) : Prop :=
  call.byUser = true ∧
    ∀ self ticks, call = .socket self ticks → tcpSocketOverLimit s self = true ∨ LeavesEnough s

/-- A step of the stack that meets a condition. -/
def StackStep (G : Stack → Call → Prop) (s : Stack) (call : Call) (s' : Stack) : Prop :=
  G s call ∧ s' = (exec s call).stack

/-- What holds along a run. -/
structure ReserveInv (s : Stack) : Prop where
  sane : ∀ i, Sane (s.slots i).conn
  even : ∀ i, EvenStart (s.slots i)
  served : RootServed s

theorem exec_spareKept {call : Call} (hcall : ∀ self ticks, call ≠ .socket self ticks)
    (hsane : ∀ i, Sane (s.slots i).conn) (i : Idx) :
    SpareKept (s.conn i) ((exec s call).stack.conn i) := by
  have hfresh : ∀ op, (i, op) ∈ (exec s call).events → ∀ self, op ≠ .fresh self := by
    rintro op hmem self rfl
    have hissue := exec_issues hmem
    cases call with
    | socket self ticks => exact hcall self ticks rfl
    | connect | packet => obtain ⟨_, h⟩ := hissue; cases h
    | _ => cases hissue
  show SpareKept _ ((exec s call).stack.slots i).conn
  rw [exec_slots]
  exact (replay_invariant (P := fun sl => Sane sl.conn ∧ SpareKept (s.conn i) sl.conn)
    (fun op hmem sl hP => ⟨op_sane op hP.1,
      hP.2.trans (op_spareKept (hfresh op (mem_of_mem_opsAt hmem)) hP.1)⟩)
    ⟨hsane i, .refl _⟩).2

theorem ReserveInv.step {call : Call} (hinv : ReserveInv s)
    (hstep : StackStep ReserveGuard s call s') : ReserveInv s' := by
  obtain ⟨hg, rfl⟩ := hstep
  refine ⟨exec_invariant (P := fun sl => Sane sl.conn) (fun _ op _ _ h => op_sane op h) hinv.sane,
    exec_invariant (fun _ _ hmem _ h => op_evenStart (exec_evenTime hmem) h) hinv.even, ?_⟩
  by_cases hcall : ∃ self ticks, call = .socket self ticks
  · obtain ⟨self, ticks, rfl⟩ := hcall
    exact hinv.served.socket (hg.2 self ticks rfl)
  · push Not at hcall
    exact hinv.served.of_spareKept (exec_spareKept hcall hinv.sane)

/-- In every state reached by users' calls, inbound segments and timer ticks in
which each user's request for a socket is refused or leaves enough, root gets a
socket. -/
theorem root_served_of_guarded {calls : List Call} {s : Stack}
    (hrun : Run (StackStep ReserveGuard) tcpInit calls s) {task : Task} (huid : task.uid = 0)
    (ticks : UInt32) : 0 ≤ (exec s (.socket (some task) ticks)).ret := by
  have hinit : ReserveInv tcpInit := ⟨tcpInit_sane, fun _ => rfl, .inl ⟨0, rfl⟩⟩
  have hinv : ReserveInv s := hrun.invariant (fun _ _ _ hinv hstep => hinv.step hstep) hinit
  exact root_socket _ huid hinv.even hinv.served

/-- A user takes two sockets of an empty table. -/
theorem root_served_after_two :
    Run (StackStep ReserveGuard) tcpInit [.socket (some ⟨1, 1, 0⟩) 0, .socket (some ⟨1, 1, 0⟩) 0]
        (exec (exec tcpInit (.socket (some ⟨1, 1, 0⟩) 0)).stack (.socket (some ⟨1, 1, 0⟩) 0)).stack ∧
      0 ≤ (exec (exec (exec tcpInit (.socket (some ⟨1, 1, 0⟩) 0)).stack
        (.socket (some ⟨1, 1, 0⟩) 0)).stack (.socket (some ⟨0, 2, 0⟩) 0)).ret := by
  have hrun : Run (StackStep ReserveGuard) tcpInit
      [.socket (some ⟨1, 1, 0⟩) 0, .socket (some ⟨1, 1, 0⟩) 0]
      (exec (exec tcpInit (.socket (some ⟨1, 1, 0⟩) 0)).stack (.socket (some ⟨1, 1, 0⟩) 0)).stack :=
    .cons ⟨⟨by decide, fun _ _ _ => .inr (by decide)⟩, rfl⟩ <|
      .cons ⟨⟨by decide, fun _ _ _ => .inr (by decide)⟩, rfl⟩ <| .nil _
  exact ⟨hrun, root_served_of_guarded hrun rfl 0⟩

/-! ## Users that leave root without a socket -/

/-- A user opens a connection on slot `fd` from port `port` and closes it, and the
peer agrees: the slot ends in `TCP_TIME_WAIT`. -/
def timeWaitCalls (fd : Int) (draw port : UInt16) : List Call :=
  [.socket (some ⟨1, 1, 0⟩) 0,
   .connect fd 1 80 ⟨fun _ => draw, true, 100, 0⟩,
   .packet ⟨1, 80, port, 500, 102, 0x50, tcpSyn ||| tcpAck, 1000, []⟩ 0,
   .close fd 0,
   .packet ⟨1, 80, port, 501, 103, 0x50, tcpAck ||| tcpFin, 1000, []⟩ 0]

/-- Two slots go to `TCP_TIME_WAIT`, and three more users take two sockets each. -/
def fillCalls : List Call :=
  timeWaitCalls 0 0 49152 ++ timeWaitCalls 1 1 49153 ++
    [.socket (some ⟨2, 2, 0⟩) 0, .socket (some ⟨2, 2, 0⟩) 0,
     .socket (some ⟨3, 3, 0⟩) 0, .socket (some ⟨3, 3, 0⟩) 0,
     .socket (some ⟨4, 4, 0⟩) 0, .socket (some ⟨4, 4, 0⟩) 0]

/-- Users fill the table, and root's request is refused. -/
theorem root_refused :
    ∃ s, Run (StackStep fun _ call => call.byUser = true) tcpInit fillCalls s ∧
      (exec s (.socket (some ⟨0, 9, 0⟩) 0)).ret = socketFull := by
  have husers : ∀ call ∈ fillCalls, call.byUser = true := by decide
  exact ⟨_, .of_foldl (fun call hcall _ => ⟨husers call hcall, rfl⟩) tcpInit, by decide +kernel⟩

end TinyOS.Tcp
