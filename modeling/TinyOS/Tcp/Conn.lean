import TinyOS.Lib.Ring

/-!
# TCP: connections and the segments they send

The connection block `tcp_connection_t` of `tcp.c`, sequence-number comparison,
and the functions that work on one connection: `tcp_send_segment`, the bodies of
`tcp_send`, `tcp_recv` and `tcp_close`, and one slot of `tcp_tick`. Each returns
the connection with the segments it put on the wire.

Sequence numbers and times are `UInt32`, as in the source, and wrap. Left out are
the fields nothing reads (`snd_wl1`, `snd_wl2`, `last_ack_time`,
`retransmit_time`, `retransmit_count`, `ack_pending`), the peer's MAC address,
which is only copied into frames, and the statistics counters.
-/

namespace TinyOS.Tcp

open Lib

/-! ## Constants of `tcp.h` and `tcp.c` -/

/-- `TCP_MAX_CONNECTIONS`. -/
def maxConnections : Nat := 8
/-- `TCP_RX_BUFFER_SIZE`. -/
def rxBufferSize : Nat := 2048
/-- `TCP_TX_BUFFER_SIZE`. -/
def txBufferSize : Nat := 2048
/-- `TCP_MAX_SEGMENT_SIZE`. -/
def maxSegmentSize : Nat := 1460
/-- `TCP_INITIAL_WINDOW`. -/
def initialWindow : UInt32 := 4096
/-- `TCP_TIME_WAIT_TIMEOUT`. -/
def timeWaitTimeout : UInt32 := 30000
/-- `TCP_FIN_WAIT_2_TIMEOUT`. -/
def finWait2Timeout : UInt32 := 60000
/-- `TCP_SYN_SENT_TIMEOUT_MS`. -/
def synSentTimeout : UInt32 := 10000
/-- `TCP_ZERO_WINDOW_PROBE_INTERVAL_MS`. -/
def zeroWindowProbeInterval : UInt32 := 5000

def tcpFin : UInt8 := 0x01
def tcpSyn : UInt8 := 0x02
def tcpRst : UInt8 := 0x04
def tcpPsh : UInt8 := 0x08
def tcpAck : UInt8 := 0x10

/-- `flags & f`. -/
def has (flags f : UInt8) : Bool := flags &&& f ≠ 0

/-! ## Sequence numbers -/

/-- `(int32_t)x < 0`. -/
def negative (x : UInt32) : Bool := 2 ^ 31 ≤ x.toNat

/-- `TCP_SEQ_GT`. -/
def seqGt (a b : UInt32) : Bool := !negative (a - b) && a - b ≠ 0
/-- `TCP_SEQ_LEQ`. -/
def seqLeq (a b : UInt32) : Bool := negative (a - b) || a - b = 0

/-- `tcp_time_before`. -/
def timeBefore (a b : UInt32) : Bool := negative (a - b)

/-- `tcp_get_time_ms`: the 100 Hz tick counter in milliseconds. -/
def timeMs (ticks : UInt32) : UInt32 := ticks * 10

/-! ## Connections -/

/-- `tcp_state_t`. -/
inductive TcpState where
  | closed
  | listen
  | synSent
  | synReceived
  | established
  | finWait1
  | finWait2
  | closeWait
  | closing
  | lastAck
  | timeWait
deriving DecidableEq, Repr

/-- `state >= TCP_ESTABLISHED`. -/
def TcpState.synchronized : TcpState → Bool
  | closed | listen | synSent | synReceived => false
  | _ => true

/-- The four bytes of an address. -/
abbrev Ip := UInt32

/-- What the stack reads of a task. -/
structure Task where
  uid : UInt32
  pid : UInt32
  generation : UInt32

/-- `tcp_connection_t`. -/
structure Conn where
  state : TcpState
  inUse : Bool
  remoteIp : Ip
  localPort : UInt16
  remotePort : UInt16
  sndUna : UInt32
  sndNxt : UInt32
  sndWnd : UInt32
  iss : UInt32
  rcvNxt : UInt32
  rcvWnd : UInt32
  irs : UInt32
  timeWaitStart : UInt32
  finWait2Start : UInt32
  synSentStart : UInt32
  zeroWindowProbeTime : UInt32
  /-- `rx_buffer`, `rx_head`, `rx_tail`. -/
  rx : Ring UInt8 rxBufferSize
  /-- `tx_buffer`, `tx_head`, `tx_tail`. -/
  tx : Ring UInt8 txBufferSize
  finSent : Bool
  finReceived : Bool
  ownerUid : UInt32
  ownerPid : UInt32
  ownerGeneration : UInt32
  orphaned : Bool
  closeStart : UInt32

/-- A connection block after `memset`. -/
def Conn.zero : Conn where
  state := .closed
  inUse := false
  remoteIp := 0
  localPort := 0
  remotePort := 0
  sndUna := 0
  sndNxt := 0
  sndWnd := 0
  iss := 0
  rcvNxt := 0
  rcvWnd := 0
  irs := 0
  timeWaitStart := 0
  finWait2Start := 0
  synSentStart := 0
  zeroWindowProbeTime := 0
  rx := .empty 0 (by decide)
  tx := .empty 0 (by decide)
  finSent := false
  finReceived := false
  ownerUid := 0
  ownerPid := 0
  ownerGeneration := 0
  orphaned := false
  closeStart := 0

/-- `TCP_SOCKET_OWNER_KERNEL`. -/
def socketOwnerKernel : UInt32 := 0xFFFFFFFF

/-- The block `tcp_socket` hands out, stamped by `tcp_stamp_owner`. -/
def Conn.fresh (self : Option Task) : Conn :=
  { Conn.zero with
    inUse := true
    rcvWnd := UInt32.ofNat rxBufferSize
    ownerUid := (self.map Task.uid).getD socketOwnerKernel
    ownerPid := (self.map Task.pid).getD 0
    ownerGeneration := (self.map Task.generation).getD 0 }

/-- `conn->state = TCP_CLOSED; conn->in_use = false`. -/
def Conn.release (c : Conn) : Conn := { c with state := .closed, inUse := false }

/-- `tcp_rx_available`. -/
def rxAvailable (c : Conn) : Nat := c.rx.available

/-- `tcp_rx_free_space`. -/
def rxFreeSpace (c : Conn) : Nat := rxBufferSize - rxAvailable c - 1

/-- `tcp_tx_available`. -/
def txAvailable (c : Conn) : Nat := c.tx.available

/-! ## Sending -/

/-- A segment on the wire. -/
structure OutSeg where
  seq : UInt32
  ack : UInt32
  flags : UInt8
  window : Nat
  data : List UInt8

/-- The sequence numbers a segment takes up. -/
def OutSeg.seqLen (o : OutSeg) : Nat :=
  o.data.length + (if has o.flags tcpSyn then 1 else 0) + (if has o.flags tcpFin then 1 else 0)

/-- `tcp_send_segment`. Payloads beyond one frame are cut. -/
def tcpSendSegment (c : Conn) (flags : UInt8) (data : List UInt8) : Conn × OutSeg :=
  let data := data.take maxSegmentSize
  let o : OutSeg := ⟨c.sndNxt, c.rcvNxt, flags, rxFreeSpace c, data⟩
  let nxt := if has flags tcpSyn then c.sndNxt + UInt32.ofNat data.length + 1
    else c.sndNxt + UInt32.ofNat data.length
  ({ c with sndNxt := if has flags tcpFin then nxt + 1 else nxt }, o)

/-- `tcp_send_segment(conn, TCP_ACK, NULL, 0)`. -/
def sendAck (c : Conn) : Conn × List OutSeg :=
  let (c, o) := tcpSendSegment c tcpAck []
  (c, [o])

/-- What a call on one connection returns: the result, the bytes delivered, the
connection and the segments sent. -/
structure ConnResult where
  ret : Int
  bytes : List UInt8
  conn : Conn
  out : List OutSeg

/-- `tcp_send`, from the lock on. -/
def tcpSend (c : Conn) (data : List UInt8) : ConnResult :=
  if !c.inUse || c.state ≠ .established then ⟨-1, [], c, []⟩
  else
    let space := txBufferSize - txAvailable c - 1
    let data := data.take space
    if data.length = 0 then ⟨0, [], c, []⟩
    else
      let tx := Ring.pushAll data c.tx
      let toSend := if data.length < maxSegmentSize then data.length else maxSegmentSize
      let (buf, tx) := Ring.popN toSend tx
      let (c, o) := tcpSendSegment { c with tx := tx } (tcpAck ||| tcpPsh) buf
      ⟨toSend, [], c, [o]⟩

/-- `tcp_recv`, from the lock on. -/
def tcpRecv (c : Conn) (len : Nat) : ConnResult :=
  if !c.inUse || c.state = .closed then ⟨-1, [], c, []⟩
  else
    let available := rxAvailable c
    if available = 0 then ⟨0, [], c, []⟩
    else
      let toRead := if len < available then len else available
      let old := c.rcvWnd.toNat % 2 ^ 16
      let (bytes, rx) := Ring.popN toRead c.rx
      let c := { c with rx := rx }
      let new := rxFreeSpace c
      let c := { c with rcvWnd := UInt32.ofNat new }
      if (old = 0 && 0 < new) || old + 512 < new then
        let (c, out) := sendAck c
        ⟨toRead, bytes, c, out⟩
      else ⟨toRead, bytes, c, []⟩

/-- The active half of `tcp_close`: send our FIN and wait in `state`. -/
def sendFin (c : Conn) (now : UInt32) (state : TcpState) : ConnResult :=
  let (c, o) := tcpSendSegment { c with finSent := true, closeStart := now, state := state }
    (tcpAck ||| tcpFin) []
  ⟨0, [], c, [o]⟩

def tcpClose (c : Conn) (now : UInt32) : ConnResult :=
  if !c.inUse then ⟨-1, [], c, []⟩
  else
    match c.state with
    | .established => sendFin c now .finWait1
    | .closeWait => sendFin c now .lastAck
    | .closed | .listen | .synSent | .synReceived => ⟨0, [], c.release, []⟩
    | _ => ⟨0, [], c, []⟩

/-! ## Timers -/

/-- The timeouts of `tcp_tick_slot`, each looking at the state the one before it
left. -/
def expireHandshake (c : Conn) (now : UInt32) : Conn :=
  if (c.state = .synSent || c.state = .synReceived) && synSentTimeout < now - c.synSentStart then
    c.release
  else c

def expireClosing (c : Conn) (now : UInt32) : Conn :=
  if (c.state = .finWait1 || c.state = .closing || c.state = .lastAck) && c.finSent &&
      finWait2Timeout < now - c.closeStart then
    c.release
  else c

def expireTimeWait (c : Conn) (now : UInt32) : Conn :=
  if c.state = .timeWait && timeWaitTimeout < now - c.timeWaitStart then c.release else c

def expireFinWait2 (c : Conn) (now : UInt32) : Conn :=
  if c.state = .finWait2 && 0 < c.finWait2Start && finWait2Timeout < now - c.finWait2Start then
    c.release
  else c

/-- The zero-window probe: one queued byte, `snd_nxt` put back afterwards. -/
def zeroWindowProbe (c : Conn) (now : UInt32) : Conn × List OutSeg :=
  if c.state = .established && c.sndWnd = 0 && 0 < txAvailable c &&
      (zeroWindowProbeInterval ≤ now - c.zeroWindowProbeTime || c.zeroWindowProbeTime = 0) then
    let (c', o) := tcpSendSegment c (tcpPsh ||| tcpAck) [c.tx.cells c.tx.tail]
    ({ c' with sndNxt := c.sndNxt, zeroWindowProbeTime := now }, [o])
  else (c, [])

/-- `tcp_tick_slot`. The close of an orphaned connection reads the clock itself;
`closeTime` is that reading. -/
def tcpTickSlot (c : Conn) (now closeTime : UInt32) : Conn × List OutSeg :=
  let (c, out) :=
    if c.inUse && c.orphaned then
      let r := tcpClose { c with orphaned := false } closeTime
      (r.conn, r.out)
    else (c, [])
  if !c.inUse then (c, out)
  else
    let c := expireFinWait2 (expireTimeWait (expireClosing (expireHandshake c now) now) now) now
    let (c, out') := zeroWindowProbe c now
    (c, out ++ out')

/-- `tcp_task_cleanup` on one connection. -/
def taskCleanup (c : Conn) (pid generation : UInt32) : Conn :=
  if !c.inUse || c.ownerPid ≠ pid || c.ownerGeneration ≠ generation then c
  else
    let c := { c with ownerPid := 0, ownerGeneration := 0 }
    if c.state = .closed || c.state = .listen then { c with inUse := false }
    else { c with orphaned := true }

end TinyOS.Tcp
