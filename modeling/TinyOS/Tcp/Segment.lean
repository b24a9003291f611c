import TinyOS.Tcp.Conn

/-!
# TCP: the state machine

`tcp_process_segment`, one function per state of its switch. A slot of the
connection table is a connection with the two rate limiters the function keeps
per slot (`last_rst_time`, `last_fin_time`), which outlive the connection.

`SlotOp` lists everything the stack does to one slot. `SlotOp.run` does it.
-/

namespace TinyOS.Tcp

open Lib

/-- `RST_FIN_MIN_INTERVAL_MS`. -/
def rstFinMinInterval : UInt32 := 100

/-- A slot of `tcp_connections`, with the rate limiters kept for it. -/
structure Slot where
  conn : Conn
  lastRstTime : UInt32
  lastFinTime : UInt32

/-- What `tcp_process_segment` reads of a segment. -/
structure Segment where
  flags : UInt8
  seq : UInt32
  ack : UInt32
  window : UInt16
  data : List UInt8

def tcpValidateSequence (seq expected window : UInt32) : Bool :=
  seq = expected || seq - expected < window

def tcpFinInOrder (c : Conn) (seg : Segment) : Bool :=
  seg.seq + UInt32.ofNat seg.data.length = c.rcvNxt

/-- The RST branch. -/
def processRst (now : UInt32) (sl : Slot) (seg : Segment) : Slot :=
  if now - sl.lastRstTime < rstFinMinInterval then sl
  else
    let sl := { sl with lastRstTime := now }
    if sl.conn.state.synchronized &&
        !tcpValidateSequence seg.seq sl.conn.rcvNxt sl.conn.rcvWnd then sl
    else if sl.conn.state = .synSent && (!has seg.flags tcpAck || seg.ack ≠ sl.conn.sndNxt) then sl
    else { sl with conn := sl.conn.release }

/-- `case TCP_SYN_SENT`. -/
def processSynSent (c : Conn) (seg : Segment) : Conn × List OutSeg :=
  if has seg.flags tcpSyn && has seg.flags tcpAck && seg.ack = c.sndNxt then
    sendAck
      { c with
        rcvNxt := seg.seq + 1
        irs := seg.seq
        sndUna := seg.ack
        sndWnd := seg.window.toUInt32
        state := .established }
  else (c, [])

/-- `case TCP_SYN_RECEIVED`. -/
def processSynReceived (c : Conn) (seg : Segment) : Conn :=
  if has seg.flags tcpAck && seg.ack = c.sndNxt then
    { c with sndUna := seg.ack, sndWnd := seg.window.toUInt32, state := .established }
  else c

/-- The acknowledgement of our data in `case TCP_ESTABLISHED`. -/
def establishedAck (c : Conn) (seg : Segment) : Conn :=
  if has seg.flags tcpAck && seqGt seg.ack c.sndUna && seqLeq seg.ack c.sndNxt then
    { c with sndUna := seg.ack, sndWnd := seg.window.toUInt32 }
  else c

/-- Incoming data in `case TCP_ESTABLISHED`. The flag is false where the source
returns: the data was in order and did not fit. -/
def establishedData (c : Conn) (seg : Segment) : Conn × List OutSeg × Bool :=
  if 0 < seg.data.length && seg.seq = c.rcvNxt then
    if rxFreeSpace c < seg.data.length then
      let (c, out) := sendAck { c with rcvWnd := 0 }
      (c, out, false)
    else
      let c :=
        { c with
          rx := Ring.pushAll seg.data c.rx
          rcvNxt := c.rcvNxt + UInt32.ofNat seg.data.length }
      let (c, out) := sendAck { c with rcvWnd := UInt32.ofNat (rxFreeSpace c) }
      (c, out, true)
  else (c, [], true)

/-- The peer's FIN in `case TCP_ESTABLISHED`, rate limited. -/
def establishedFin (now : UInt32) (sl : Slot) (seg : Segment) : Slot × List OutSeg :=
  if has seg.flags tcpFin && tcpFinInOrder sl.conn seg then
    if now - sl.lastFinTime < rstFinMinInterval then (sl, [])
    else
      let (c, out) := sendAck
        { sl.conn with
          rcvNxt := sl.conn.rcvNxt + 1
          finReceived := true
          state := .closeWait }
      ({ sl with conn := c, lastFinTime := now }, out)
  else (sl, [])

/-- `case TCP_ESTABLISHED`. -/
def processEstablished (now : UInt32) (sl : Slot) (seg : Segment) : Slot × List OutSeg :=
  if !tcpValidateSequence seg.seq sl.conn.rcvNxt sl.conn.rcvWnd then
    let (c, out) := sendAck sl.conn
    ({ sl with conn := c }, out)
  else
    let (c, out, goesOn) := establishedData (establishedAck sl.conn seg) seg
    if goesOn then
      let (sl, out') := establishedFin now { sl with conn := c } seg
      (sl, out ++ out')
    else ({ sl with conn := c }, out)

/-- The peer's FIN after ours, which is not rate limited. -/
def closingFin (now : UInt32) (c : Conn) (seg : Segment) : Conn × List OutSeg :=
  if has seg.flags tcpFin && tcpFinInOrder c seg then
    let c := { c with rcvNxt := c.rcvNxt + 1, finReceived := true }
    if c.state = .finWait2 then sendAck { c with state := .timeWait, timeWaitStart := now }
    else sendAck { c with state := .closing }
  else (c, [])

/-- `case TCP_FIN_WAIT_1`, up to the peer's FIN. -/
def finWait1Ack (now : UInt32) (c : Conn) (seg : Segment) : Conn :=
  if has seg.flags tcpAck && seg.ack = c.sndNxt then
    { c with sndUna := seg.ack, state := .finWait2, finWait2Start := now }
  else c

/-- `case TCP_CLOSING`. -/
def processClosing (now : UInt32) (c : Conn) (seg : Segment) : Conn :=
  if has seg.flags tcpAck && seg.ack = c.sndNxt then
    { c with state := .timeWait, timeWaitStart := now }
  else c

/-- `case TCP_CLOSE_WAIT`. -/
def processCloseWait (c : Conn) (seg : Segment) : Conn :=
  if has seg.flags tcpAck then { c with sndUna := seg.ack } else c

/-- `case TCP_LAST_ACK`. -/
def processLastAck (c : Conn) (seg : Segment) : Conn :=
  if has seg.flags tcpAck && seg.ack = c.sndNxt then c.release else c

def tcpProcessSegment (now : UInt32) (sl : Slot) (seg : Segment) : Slot × List OutSeg :=
  if has seg.flags tcpRst then (processRst now sl seg, [])
  else
    match sl.conn.state with
    | .synSent =>
      let (c, out) := processSynSent sl.conn seg
      ({ sl with conn := c }, out)
    | .synReceived => ({ sl with conn := processSynReceived sl.conn seg }, [])
    | .established => processEstablished now sl seg
    | .finWait1 =>
      let (c, out) := closingFin now (finWait1Ack now sl.conn seg) seg
      ({ sl with conn := c }, out)
    | .finWait2 =>
      let (c, out) := closingFin now sl.conn seg
      ({ sl with conn := c }, out)
    | .closing => ({ sl with conn := processClosing now sl.conn seg }, [])
    | .closeWait => ({ sl with conn := processCloseWait sl.conn seg }, [])
    | .lastAck => ({ sl with conn := processLastAck sl.conn seg }, [])
    | .timeWait | .closed | .listen => (sl, [])

/-! ## Everything that happens to a slot -/

/-- A `tcp_connect` as the slot sees it: what the call asks for, and what it finds
in the rest of the system. -/
structure ConnectRequest where
  remoteIp : Ip
  remotePort : UInt16
  /-- `tcp_count_half_open_connections()`. -/
  halfOpen : Nat
  /-- `tcp_allocate_port()`, zero when it fails. -/
  newPort : UInt16
  /-- `get_route_mac` knows the next hop. -/
  routed : Bool
  /-- `tcp_generate_isn`. -/
  isn : UInt32
  now : UInt32

/-- `TCP_MAX_HALF_OPEN_CONNECTIONS`. -/
def maxHalfOpenConnections : Nat := 4

def tcpConnect (c : Conn) (r : ConnectRequest) : ConnResult :=
  if !c.inUse || c.state ≠ .closed then ⟨-1, [], c, []⟩
  else if maxHalfOpenConnections ≤ r.halfOpen then ⟨-1, [], c, []⟩
  else
    let c :=
      { c with
        remoteIp := r.remoteIp
        remotePort := r.remotePort
        localPort := if c.localPort = 0 then r.newPort else c.localPort }
    if c.localPort = 0 then ⟨-1, [], c, []⟩
    else if !r.routed then ⟨-1, [], c, []⟩
    else
      let (c, o) := tcpSendSegment
        { c with
          iss := r.isn
          sndUna := r.isn
          sndNxt := r.isn + 1
          sndWnd := initialWindow
          state := .synSent
          synSentStart := r.now }
        tcpSyn []
      ⟨0, [], c, [o]⟩

/-- What the stack does to a slot. -/
inductive SlotOp where
  /-- Cut short by `tcp_evict_oldest_time_wait`. -/
  | evict
  /-- Handed out by `tcp_socket`. -/
  | fresh (self : Option Task)
  | connect (r : ConnectRequest)
  | send (data : List UInt8)
  | recv (len : Nat)
  | close (now : UInt32)
  | cleanup (pid generation : UInt32)
  | segment (now : UInt32) (seg : Segment)
  | tick (now closeTime : UInt32)

/-- The result of an operation on a slot. -/
structure SlotResult where
  ret : Int
  bytes : List UInt8
  slot : Slot
  out : List OutSeg

/-- A call on the connection, as an operation on its slot. -/
def ConnResult.toSlot (r : ConnResult) (sl : Slot) : SlotResult :=
  ⟨r.ret, r.bytes, { sl with conn := r.conn }, r.out⟩

/-- Run an operation on a slot. -/
def SlotOp.run (sl : Slot) : SlotOp → SlotResult
  | evict => ⟨0, [], { sl with conn := sl.conn.release }, []⟩
  | fresh self => ⟨0, [], { sl with conn := Conn.fresh self }, []⟩
  | connect r => (tcpConnect sl.conn r).toSlot sl
  | send data => (tcpSend sl.conn data).toSlot sl
  | recv len => (tcpRecv sl.conn len).toSlot sl
  | close now => (tcpClose sl.conn now).toSlot sl
  | cleanup pid generation => ⟨0, [], { sl with conn := taskCleanup sl.conn pid generation }, []⟩
  | segment now seg =>
    let (sl', out) := tcpProcessSegment now sl seg
    ⟨0, [], sl', out⟩
  | tick now closeTime =>
    let (c, out) := tcpTickSlot sl.conn now closeTime
    ⟨0, [], { sl with conn := c }, out⟩

end TinyOS.Tcp
