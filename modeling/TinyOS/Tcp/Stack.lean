import TinyOS.Tcp.Segment
import TinyOS.Lib.Run

/-!
# TCP: the connection table

The table of eight slots, the calls made on it (`tcp_socket`, `tcp_connect`,
`tcp_send`, `tcp_recv`, `tcp_close`, `tcp_task_cleanup`, `tcp_handle_packet`) and
the timer (`tcp_tick`, which takes the lock anew for each slot).

A call finds its slots and then operates on them one by one. `Reply.events` lists
these operations, and `exec_slots` says that the table after a call is the table
before it with the events replayed.
-/

namespace TinyOS.Tcp

open Lib List

/-- `TCP_USER_MAX_SOCKETS`. -/
def userMaxSockets : Nat := 2
/-- `TCP_ROOT_RESERVED_SOCKETS`. -/
def rootReservedSockets : Nat := 2
def timeWaitEvictionThreshold : Nat := maxConnections / 2
/-- `TCP_PORT_QUARANTINE_SLOTS`. -/
def portQuarantineSlots : Nat := maxConnections * 2
/-- `TCP_SOCKET_FULL`. -/
def socketFull : Int := -1
/-- `TCP_SOCKET_LIMIT`. -/
def socketLimit : Int := -2

/-- An index into `tcp_connections`. -/
abbrev Idx := Fin maxConnections

instance : NeZero maxConnections := ⟨by decide⟩

/-- `tcp_port_quarantine_t`. -/
structure Quarantine where
  port : UInt16
  untilMs : UInt32

/-- The tables of `tcp.c`. -/
structure Stack where
  slots : Idx → Slot
  quarantine : Nat → Quarantine

def tcpInit : Stack where
  slots _ := ⟨{ Conn.zero with rcvWnd := UInt32.ofNat rxBufferSize }, 0, 0⟩
  quarantine _ := ⟨0, 0⟩

namespace Stack

/-- The connection in a slot. -/
def conn (s : Stack) (i : Idx) : Conn := (s.slots i).conn

/-- How many connections satisfy `p`. -/
def count (s : Stack) (p : Conn → Bool) : Nat :=
  (List.finRange maxConnections).countP fun i => p (s.conn i)

end Stack

/-- `in_use && state == TCP_TIME_WAIT`. -/
def inTimeWait (c : Conn) : Bool := c.inUse && c.state = .timeWait

def tcpCountHalfOpenConnections (s : Stack) : Nat :=
  s.count fun c => c.inUse && (c.state = .synSent || c.state = .synReceived)

def tcpCountTimeWaitConnections (s : Stack) : Nat := s.count inTimeWait

/-! ## Ports -/

/-- The slot `tcp_quarantine_port` overwrites: the first one that is empty or
expired, or else the one closest to expiry. -/
def quarantineVictim (q : Nat → Quarantine) (now : UInt32) : List Nat → Nat → Nat
  | [], victim => victim
  | i :: is, victim =>
    if (q i).port = 0 || !timeBefore now (q i).untilMs then i
    else quarantineVictim q now is
      (if timeBefore (q i).untilMs (q victim).untilMs then i else victim)

def tcpQuarantinePort (q : Nat → Quarantine) (now : UInt32) (port : UInt16) (untilMs : UInt32) :
    Nat → Quarantine :=
  Function.update q (quarantineVictim q now (List.range portQuarantineSlots) 0) ⟨port, untilMs⟩

def tcpPortIsFree (s : Stack) (port : UInt16) (now : UInt32) : Bool :=
  ((List.finRange maxConnections).all fun i => !((s.conn i).inUse && (s.conn i).localPort = port)) &&
    (List.range portQuarantineSlots).all fun i =>
      !((s.quarantine i).port = port && timeBefore now (s.quarantine i).untilMs)

/-- `tcp_allocate_port`, with the random draws it makes. -/
def tcpAllocatePort (s : Stack) (draws : Nat → UInt16) (now : UInt32) : UInt16 :=
  (((List.range 64).map fun attempt => 49152 + draws attempt % 16384).find? fun port =>
    tcpPortIsFree s port now).getD 0

/-! ## Calls -/

/-- An operation on a slot. -/
abbrev Event := Idx × SlotOp

/-- Do an operation on its slot. -/
def Stack.perform (s : Stack) (e : Event) : Stack :=
  { s with slots := Function.update s.slots e.1 (e.2.run (s.slots e.1)).slot }

/-- What a call returns, with the operations it was made of. -/
structure Reply where
  ret : Int
  bytes : List UInt8
  stack : Stack
  events : List Event

/-- A call that does nothing. -/
def Reply.refused (s : Stack) (ret : Int) : Reply := ⟨ret, [], s, []⟩

/-- A call that is one operation on one slot. -/
def Reply.onSlot (s : Stack) (i : Idx) (op : SlotOp) : Reply :=
  let r := op.run (s.slots i)
  ⟨r.ret, r.bytes, s.perform (i, op), [(i, op)]⟩

/-- A call on a descriptor: `sockfd < 0 || sockfd >= TCP_MAX_CONNECTIONS` is an
error. -/
def onSockfd (s : Stack) (fd : Int) (op : SlotOp) : Reply :=
  if h : 0 ≤ fd ∧ fd.toNat < maxConnections then Reply.onSlot s ⟨fd.toNat, h.2⟩ op
  else Reply.refused s (-1)

def tcpSocketOverLimit (s : Stack) : Option Task → Bool
  | none => false
  | some self =>
    if self.uid = 0 then false
    else
      let avail := s.count fun c => !c.inUse || c.state = .timeWait
      let held := s.count fun c =>
        !(!c.inUse || c.state = .timeWait) && (c.ownerUid = self.uid && !c.finSent && !c.orphaned)
      userMaxSockets ≤ held || avail ≤ rootReservedSockets

/-- The first slot that is not in use. -/
def firstUnused (s : Stack) : Option Idx :=
  (List.finRange maxConnections).find? fun i => !(s.conn i).inUse

/-- The search of `tcp_evict_oldest_time_wait`. -/
def oldestTimeWait (s : Stack) : List Idx → UInt32 → Option Idx → Option Idx
  | [], _, found => found
  | i :: is, oldest, found =>
    if inTimeWait (s.conn i) && (s.conn i).timeWaitStart < oldest then
      oldestTimeWait s is (s.conn i).timeWaitStart (some i)
    else oldestTimeWait s is oldest found

/-- `tcp_evict_oldest_time_wait`, with the slot it evicted. -/
def tcpEvictOldestTimeWait (s : Stack) (now : UInt32) : Option (Idx × Stack) :=
  (oldestTimeWait s (List.finRange maxConnections) 0xFFFFFFFF none).map fun i =>
    (i, { s.perform (i, .evict) with
      quarantine := tcpQuarantinePort s.quarantine now (s.conn i).localPort
        ((s.conn i).timeWaitStart + timeWaitTimeout) })

def tcpSocket (s : Stack) (self : Option Task) (now : UInt32) : Reply :=
  if tcpSocketOverLimit s self then Reply.refused s socketLimit
  else
    match firstUnused s with
    | some i => ⟨i, [], s.perform (i, .fresh self), [(i, .fresh self)]⟩
    | none =>
      if timeWaitEvictionThreshold ≤ tcpCountTimeWaitConnections s then
        match tcpEvictOldestTimeWait s now with
        | some (j, s') =>
          -- Try allocation again after eviction
          match firstUnused s' with
          | some i => ⟨i, [], s'.perform (i, .fresh self), [(j, .evict), (i, .fresh self)]⟩
          | none => ⟨socketFull, [], s', [(j, .evict)]⟩
        | none => Reply.refused s socketFull
      else Reply.refused s socketFull

def tcpTaskCleanup (s : Stack) (pid generation : UInt32) : Reply :=
  if pid = 0 then Reply.refused s 0
  else
    let events := (List.finRange maxConnections).map fun i => (i, SlotOp.cleanup pid generation)
    ⟨0, [], events.foldl Stack.perform s, events⟩

def tcpFindConnection (s : Stack) (remoteIp : Ip) (remotePort localPort : UInt16) : Option Idx :=
  (List.finRange maxConnections).find? fun i =>
    (s.conn i).inUse && (s.conn i).localPort = localPort && (s.conn i).remotePort = remotePort &&
      (s.conn i).remoteIp = remoteIp

/-- An inbound packet: the fixed TCP header, and the bytes behind it. -/
structure Packet where
  srcIp : Ip
  srcPort : UInt16
  destPort : UInt16
  sequenceNumber : UInt32
  acknowledgementNumber : UInt32
  offsetReserved : UInt8
  flags : UInt8
  windowSize : UInt16
  /-- Options and payload. -/
  rest : List UInt8

/-- `sizeof(tcp_header_t)`. -/
def tcpHeaderSize : Nat := 20

/-- The segment in a packet, if its data offset is valid. -/
def Packet.segment? (p : Packet) : Option Segment :=
  let words := (p.offsetReserved >>> 4).toNat
  if words < 5 || 15 < words then none
  else if tcpHeaderSize + p.rest.length < words * 4 then none
  else
    some
      { flags := p.flags
        seq := p.sequenceNumber
        ack := p.acknowledgementNumber
        window := p.windowSize
        data := p.rest.drop (words * 4 - tcpHeaderSize) }

def tcpHandlePacket (s : Stack) (p : Packet) (now : UInt32) : Reply :=
  match p.segment? with
  | none => Reply.refused s 0
  | some seg =>
    match tcpFindConnection s p.srcIp p.srcPort p.destPort with
    | some i => Reply.onSlot s i (.segment now seg)
    | none => Reply.refused s 0

/-- What `tcp_connect` gets from outside the stack. -/
structure ConnectEnv where
  /-- The random draws of `tcp_allocate_port`. -/
  draws : Nat → UInt16
  routed : Bool
  isn : UInt32
  ticks : UInt32

/-- A call on the stack, or a slot's turn in `tcp_tick`. -/
inductive Call where
  | socket (self : Option Task) (ticks : UInt32)
  | connect (fd : Int) (remoteIp : Ip) (remotePort : UInt16) (env : ConnectEnv)
  | send (fd : Int) (data : List UInt8)
  | recv (fd : Int) (len : Nat)
  | close (fd : Int) (ticks : UInt32)
  | cleanup (pid generation : UInt32)
  | packet (p : Packet) (ticks : UInt32)
  | tick (i : Idx) (ticks closeTicks : UInt32)

/-- Make a call. -/
def exec (s : Stack) : Call → Reply
  | .socket self ticks => tcpSocket s self (timeMs ticks)
  | .connect fd remoteIp remotePort env =>
    onSockfd s fd (.connect
      { remoteIp := remoteIp
        remotePort := remotePort
        halfOpen := tcpCountHalfOpenConnections s
        newPort := tcpAllocatePort s env.draws (timeMs env.ticks)
        routed := env.routed
        isn := env.isn
        now := timeMs env.ticks })
  | .send fd data => onSockfd s fd (.send data)
  | .recv fd len => onSockfd s fd (.recv len)
  | .close fd ticks => onSockfd s fd (.close (timeMs ticks))
  | .cleanup pid generation => tcpTaskCleanup s pid generation
  | .packet p ticks => tcpHandlePacket s p (timeMs ticks)
  | .tick i ticks closeTicks => Reply.onSlot s i (.tick (timeMs ticks) (timeMs closeTicks))

/-! ## What a call does to a slot -/

/-- The operations on slot `i`, in order. -/
def opsAt (i : Idx) (events : List Event) : List SlotOp :=
  events.filterMap fun e => if e.1 = i then some e.2 else none

@[simp] theorem opsAt_cons_self (i : Idx) (op : SlotOp) (events : List Event) :
    opsAt i ((i, op) :: events) = op :: opsAt i events := by
  simp [opsAt]

theorem opsAt_cons_ne {i j : Idx} (h : j ≠ i) (op : SlotOp) (events : List Event) :
    opsAt i ((j, op) :: events) = opsAt i events := by
  simp [opsAt, h]

/-- A slot after some operations on it. -/
def replay (sl : Slot) (ops : List SlotOp) : Slot := ops.foldl (fun sl op => (op.run sl).slot) sl

theorem mem_of_mem_opsAt {i : Idx} {op : SlotOp} {events : List Event} (h : op ∈ opsAt i events) :
    (i, op) ∈ events := by
  obtain ⟨⟨j, op'⟩, hmem, heq⟩ := mem_filterMap.1 h
  split at heq
  · rename_i hj
    cases hj
    cases heq
    exact hmem
  · cases heq

theorem replay_invariant {P : Slot → Prop} {ops : List SlotOp}
    (hop : ∀ op ∈ ops, ∀ sl, P sl → P (op.run sl).slot) {sl : Slot} (h : P sl) :
    P (replay sl ops) :=
  foldlRecOn ops _ h fun sl hsl op hmem => hop op hmem sl hsl

theorem perform_slots_self (s : Stack) (i : Idx) (op : SlotOp) :
    (s.perform (i, op)).slots i = (op.run (s.slots i)).slot := by
  simp [Stack.perform]

theorem perform_slots_ne (s : Stack) {i j : Idx} (h : j ≠ i) (op : SlotOp) :
    (s.perform (j, op)).slots i = s.slots i := by
  simp [Stack.perform, Function.update_of_ne (Ne.symm h)]

theorem replay_perform (s : Stack) (i : Idx) (e : Event) (events : List Event) :
    replay (s.slots i) (opsAt i (e :: events)) =
      replay ((s.perform e).slots i) (opsAt i events) := by
  obtain ⟨j, op⟩ := e
  by_cases h : j = i
  · subst h
    rw [opsAt_cons_self, perform_slots_self]
    rfl
  · rw [opsAt_cons_ne h, perform_slots_ne s h]

theorem foldl_perform_slots (events : List Event) (s : Stack) (i : Idx) :
    (events.foldl Stack.perform s).slots i = replay (s.slots i) (opsAt i events) := by
  induction events generalizing s with
  | nil => rfl
  | cons e events ih => rw [foldl_cons, ih, replay_perform]

theorem onSlot_slots (s : Stack) (i j : Idx) (op : SlotOp) :
    (Reply.onSlot s j op).stack.slots i =
      replay (s.slots i) (opsAt i (Reply.onSlot s j op).events) :=
  foldl_perform_slots [(j, op)] s i

theorem onSockfd_slots (s : Stack) (i : Idx) (fd : Int) (op : SlotOp) :
    (onSockfd s fd op).stack.slots i = replay (s.slots i) (opsAt i (onSockfd s fd op).events) := by
  rw [onSockfd]
  split
  · exact onSlot_slots s i _ op
  · rfl

theorem tcpSocket_slots (s : Stack) (i : Idx) (self : Option Task) (now : UInt32) :
    (tcpSocket s self now).stack.slots i =
      replay (s.slots i) (opsAt i (tcpSocket s self now).events) := by
  rw [tcpSocket]
  split
  · rfl
  split
  · exact foldl_perform_slots [(_, _)] s i
  split
  swap
  · rfl
  split
  swap
  · rfl
  rename_i j s' hevict
  -- eviction also writes the quarantine table, which no slot depends on
  have hslots : s'.slots = (s.perform (j, .evict)).slots := by
    rw [tcpEvictOldestTimeWait, Option.map_eq_some_iff] at hevict
    obtain ⟨_, _, heq⟩ := hevict
    cases heq
    rfl
  split
  · rename_i k _
    rw [replay_perform, ← hslots]
    exact foldl_perform_slots [(k, .fresh self)] s' i
  · rw [hslots]
    exact foldl_perform_slots [(j, .evict)] s i

/-- After a call, a slot is what the call's operations on it make of it. -/
theorem exec_slots (s : Stack) (call : Call) (i : Idx) :
    (exec s call).stack.slots i = replay (s.slots i) (opsAt i (exec s call).events) := by
  cases call with
  | socket self ticks => exact tcpSocket_slots s i self _
  | connect fd remoteIp remotePort env | send fd data
  | recv fd len | close fd ticks => exact onSockfd_slots s i fd _
  | cleanup pid generation =>
    rw [exec, tcpTaskCleanup]
    split
    · rfl
    · exact foldl_perform_slots _ s i
  | packet p ticks =>
    rw [exec, tcpHandlePacket]
    split
    · rfl
    split
    · exact onSlot_slots s i _ _
    · rfl
  | tick j ticks closeTicks => exact onSlot_slots s i j _

/-- The operations a call can be made of. -/
def Call.Issues : Call → SlotOp → Prop
  | .socket self _, op => op = .evict ∨ op = .fresh self
  | .connect _ _ _ _, op => ∃ r, op = .connect r
  | .send _ data, op => op = .send data
  | .recv _ len, op => op = .recv len
  | .close _ ticks, op => op = .close (timeMs ticks)
  | .cleanup pid generation, op => op = .cleanup pid generation
  | .packet _ ticks, op => ∃ seg, op = .segment (timeMs ticks) seg
  | .tick _ ticks closeTicks, op => op = .tick (timeMs ticks) (timeMs closeTicks)

theorem mem_onSockfd {s : Stack} {fd : Int} {e : Event} {op : SlotOp}
    (h : e ∈ (onSockfd s fd op).events) : e.2 = op := by
  rw [onSockfd] at h
  split at h
  · cases mem_singleton.1 h
    rfl
  · cases h

theorem exec_issues {s : Stack} {call : Call} {e : Event} (h : e ∈ (exec s call).events) :
    call.Issues e.2 := by
  cases call with
  | socket self ticks =>
    simp only [exec, tcpSocket] at h
    split at h
    · cases h
    split at h
    · cases mem_singleton.1 h
      exact .inr rfl
    split at h
    swap
    · cases h
    split at h
    · split at h
      · rcases mem_cons.1 h with rfl | h
        · exact .inl rfl
        · cases mem_singleton.1 h
          exact .inr rfl
      · cases mem_singleton.1 h
        exact .inl rfl
    · cases h
  | connect fd remoteIp remotePort env => exact ⟨_, mem_onSockfd h⟩
  | send fd data | recv fd len | close fd ticks => exact mem_onSockfd h
  | cleanup pid generation =>
    rw [exec, tcpTaskCleanup] at h
    split at h
    · cases h
    · obtain ⟨i, _, rfl⟩ := mem_map.1 h
      rfl
  | packet p ticks =>
    rw [exec, tcpHandlePacket] at h
    split at h
    · cases h
    split at h
    · cases mem_singleton.1 h
      exact ⟨_, rfl⟩
    · cases h
  | tick i ticks closeTicks =>
    cases mem_singleton.1 h
    rfl

/-- What every operation of a call keeps holds of every slot after the call. -/
theorem exec_invariant {P : Slot → Prop} {s : Stack} {call : Call}
    (hop : ∀ i op, (i, op) ∈ (exec s call).events → ∀ sl, P sl → P (op.run sl).slot)
    (h : ∀ i, P (s.slots i)) (i : Idx) : P ((exec s call).stack.slots i) := by
  rw [exec_slots]
  exact replay_invariant (fun op hmem => hop i op (mem_of_mem_opsAt hmem)) (h i)

end TinyOS.Tcp
