import TinyOS.Lib.Run
import Mathlib.Data.List.Basic

/-!
# The packet filter

`firewall_check_packet` decides whether an inbound IP packet is let in. It asks the packet's headers,
the rate of its sender, the connection table and the rules, in this order. A packet that a rule lets
in is entered in the connection table, and so is every flow that the system itself begins
(`firewall_track_outgoing`).

Not modelled are the SYN flood and port scan detectors, the statistics and the audit records: the
filter writes them and reads none of them.
-/

namespace TinyOS.Firewall

def firewallMaxRules : Nat := 64
def firewallMaxConnections : Nat := 128
def firewallMaxRateLimits : Nat := 32
/-- In ticks. -/
def firewallRateLimitWindow : UInt32 := 1000
def globalRateLimit : UInt32 := 3200
def sourceRateLimit : UInt32 := 100

def ipprotoTcp : UInt8 := 6
def ipprotoUdp : UInt8 := 17
def dhcpServerPort : UInt16 := 67
def dhcpClientPort : UInt16 := 68

/-! ## Packets -/

/-- The packet's bytes, beginning with the IP header; `packet_len` is their number. -/
abbrev Packet := List UInt8

namespace Packet

def byte (p : Packet) (i : Nat) : UInt8 := p.getD i 0

/-- `ntohs` of the field at this offset. -/
def half (p : Packet) (i : Nat) : UInt16 :=
  (p.byte i).toUInt16 <<< 8 ||| (p.byte (i + 1)).toUInt16

/-- `ntohl` of the field at this offset. -/
def word (p : Packet) (i : Nat) : UInt32 :=
  (p.half i).toUInt32 <<< 16 ||| (p.half (i + 2)).toUInt32

/-- The length of the IP header, in bytes. -/
def ihl (p : Packet) : Nat := (p.byte 0 &&& 0x0F).toNat * 4

def totalLength (p : Packet) : Nat := (p.half 2).toNat

def flagsFragment (p : Packet) : UInt16 := p.half 6

def protocol (p : Packet) : UInt8 := p.byte 9

def srcIp (p : Packet) : UInt32 := p.word 12

def dstIp (p : Packet) : UInt32 := p.word 16

/-- More fragments follow, or this is not the first one. -/
def isFragment (p : Packet) : Bool :=
  p.flagsFragment &&& 0x2000 != 0 || p.flagsFragment &&& 0x1FFF != 0

def hasPorts (p : Packet) : Bool :=
  p.protocol == ipprotoTcp || p.protocol == ipprotoUdp

/-- TCP and UDP both begin with the two ports; other protocols have none. -/
def srcPort (p : Packet) : UInt16 := if p.hasPorts then p.half p.ihl else 0

def dstPort (p : Packet) : UInt16 := if p.hasPorts then p.half (p.ihl + 2) else 0

/-- UDP between the two DHCP ports, in either direction. -/
def isDhcp (p : Packet) : Bool :=
  p.protocol == ipprotoUdp &&
    ((p.srcPort == dhcpServerPort && p.dstPort == dhcpClientPort) ||
      (p.srcPort == dhcpClientPort && p.dstPort == dhcpServerPort))

end Packet

/-- What the connection table and the rules tell packets apart by. -/
structure Flow where
  srcIp : UInt32
  dstIp : UInt32
  srcPort : UInt16
  dstPort : UInt16
  protocol : UInt8
  deriving DecidableEq, Repr

/-- The same endpoints, seen from the other side. -/
def Flow.reverse (f : Flow) : Flow where
  srcIp := f.dstIp
  dstIp := f.srcIp
  srcPort := f.dstPort
  dstPort := f.srcPort
  protocol := f.protocol

def Flow.tracked (f : Flow) : Bool :=
  f.protocol == ipprotoTcp || f.protocol == ipprotoUdp

def Packet.flow (p : Packet) : Flow where
  srcIp := p.srcIp
  dstIp := p.dstIp
  srcPort := p.srcPort
  dstPort := p.dstPort
  protocol := p.protocol

/-- Addresses that no sender can have. -/
def isBogonIp (ip : UInt32) : Bool :=
  ip &&& 0xFF000000 == 0x00000000 || ip &&& 0xFF000000 == 0x7F000000 ||
    ip &&& 0xFFFF0000 == 0xA9FE0000 || ip &&& 0xF0000000 == 0xE0000000 ||
    (ip &&& 0xF0000000 == 0xF0000000 && ip != 0xFFFFFFFF) || ip == 0xFFFFFFFF

/-! ## Rules -/

inductive Action
  | accept
  | drop
  | reject
  | log
  | logDrop
  deriving DecidableEq, Repr

def Action.isDeny : Action → Bool
  | .drop => true
  | .reject => true
  | .logDrop => true
  | .accept => false
  | .log => false

/-- `firewall_rule_t`, without the counters and the description. -/
structure Rule where
  srcIp : UInt32 := 0
  srcIpMask : UInt32 := 0
  dstIp : UInt32 := 0
  dstIpMask : UInt32 := 0
  srcPort : UInt16 := 0
  dstPort : UInt16 := 0
  protocol : UInt8 := 0
  action : Action := .accept
  enabled : Bool := false
  priority : UInt32 := 0
  deriving DecidableEq, Repr

def ipMatches (packetIp ruleIp mask : UInt32) : Bool :=
  ruleIp == 0 || packetIp &&& mask == ruleIp &&& mask

def portMatches (packetPort rulePort : UInt16) : Bool :=
  rulePort == 0 || packetPort == rulePort

/-- The rule is considered in this round of the search, and matches. -/
def Rule.selects (r : Rule) (prio : Nat) (deny : Bool) (f : Flow) : Bool :=
  r.enabled && r.priority.toNat == prio && r.action.isDeny == deny &&
    (r.protocol == 0 || r.protocol == f.protocol) &&
    ipMatches f.srcIp r.srcIp r.srcIpMask && ipMatches f.dstIp r.dstIp r.dstIpMask &&
    portMatches f.srcPort r.srcPort && portMatches f.dstPort r.dstPort

/-- `match_rule`: by priority, and in each priority the rules that deny first. -/
def matchRule (rules : List Rule) (f : Flow) : Option Rule :=
  (List.range 1000).findSome? fun prio =>
    [true, false].findSome? fun deny => rules.find? fun r => r.selects prio deny f

/-! ## Tables -/

inductive ConnState
  | new
  | established
  | related
  | invalid
  | closed
  deriving DecidableEq, Repr

/-- `connection_entry_t`; of the counters, the one that is written. -/
structure Connection where
  flow : Flow
  state : ConnState
  createdTime : UInt32
  lastSeen : UInt32
  packetsSent : UInt32
  active : Bool
  deriving DecidableEq, Repr

/-- An entry after `memset`. -/
def Connection.empty : Connection where
  flow := ⟨0, 0, 0, 0, 0⟩
  state := .new
  createdTime := 0
  lastSeen := 0
  packetsSent := 0
  active := false

structure RateLimit where
  srcIp : UInt32
  packetCount : UInt32
  windowStart : UInt32
  totalDropped : UInt32
  lastSeen : UInt32
  deriving DecidableEq, Repr

/-- The filter's tables. `rules` and `rateLimits` hold the entries below `rule_count` and
`rate_limit_count`. -/
structure State where
  enabled : Bool
  rules : List Rule
  connections : List Connection
  rateLimits : List RateLimit
  globalPacketCount : UInt32
  globalWindowStart : UInt32
  deriving DecidableEq, Repr

/-- `firewall_init`; the two global counters are not reset, and are what they were. -/
def firewallInit (packetCount windowStart : UInt32) : State where
  enabled := true
  rules := []
  connections := List.replicate firewallMaxConnections .empty
  rateLimits := []
  globalPacketCount := packetCount
  globalWindowStart := windowStart

/-- The first of the entries that were seen longest ago. -/
def oldest (lastSeen : List UInt32) : Nat :=
  (List.range lastSeen.length).foldl
    (fun best i => if lastSeen.getD i 0 < lastSeen.getD best 0 then i else best) 0

/-! ## Connections -/

def Connection.carries (c : Connection) (f : Flow) : Bool :=
  c.active && (c.flow == f || c.flow == f.reverse)

def findConnection (connections : List Connection) (f : Flow) : Option Nat :=
  connections.findIdx? fun c => c.carries f

/-- `create_connection`: the table, and the entry in it. A full table gives up its oldest entry. -/
def createConnection (connections : List Connection) (now : UInt32) (f : Flow) :
    List Connection × Nat :=
  let i := match connections.findIdx? fun c => !c.active with
    | some i => i
    | none => oldest (connections.map Connection.lastSeen)
  (connections.set i
    { flow := f
      state := .new
      createdTime := now
      lastSeen := now
      packetsSent := 0
      active := true }, i)

def establish (connections : List Connection) (i : Nat) : List Connection :=
  connections.modify i fun c => { c with state := .established }

def firewallTrackOutgoing (s : State) (now : UInt32) (f : Flow) : State :=
  if f.tracked = false then s
  else
    let (connections, i) := match findConnection s.connections f with
      | some i => (s.connections, i)
      | none => createConnection s.connections now f
    { s with
      connections := (establish connections i).modify i fun c => { c with lastSeen := now } }

/-! ## Rate limiting -/

/-- The part of `check_rate_limit` that counts for one source. -/
def checkSourceRate (s : State) (now : UInt32) (src : UInt32) : Bool × State :=
  match s.rateLimits.findIdx? fun e => e.srcIp == src with
  | some i =>
    let e := s.rateLimits.getD i ⟨0, 0, 0, 0, 0⟩
    if firewallRateLimitWindow < now - e.windowStart then
      (true, { s with
        rateLimits :=
          s.rateLimits.set i { e with lastSeen := now, packetCount := 1, windowStart := now } })
    else if sourceRateLimit < e.packetCount + 1 then
      (false, { s with
        rateLimits :=
          s.rateLimits.set i
            { e with
              lastSeen := now
              packetCount := e.packetCount + 1
              totalDropped := e.totalDropped + 1 } })
    else
      (true, { s with
        rateLimits :=
          s.rateLimits.set i { e with lastSeen := now, packetCount := e.packetCount + 1 } })
  | none =>
    let e : RateLimit :=
      { srcIp := src
        packetCount := 1
        windowStart := now
        totalDropped := 0
        lastSeen := now }
    if s.rateLimits.length < firewallMaxRateLimits then
      (true, { s with rateLimits := s.rateLimits ++ [e] })
    else
      (true, { s with
        rateLimits := s.rateLimits.set (oldest (s.rateLimits.map RateLimit.lastSeen)) e })

def checkRateLimit (s : State) (now : UInt32) (src : UInt32) : Bool × State :=
  if firewallRateLimitWindow < now - s.globalWindowStart then
    checkSourceRate { s with globalPacketCount := 1, globalWindowStart := now } now src
  else if globalRateLimit < s.globalPacketCount + 1 then
    (false, { s with globalPacketCount := s.globalPacketCount + 1 })
  else checkSourceRate { s with globalPacketCount := s.globalPacketCount + 1 } now src

/-! ## The decision -/

/-- The rules decide; `known` says that the flow has an entry in the connection table. -/
def checkRules (s : State) (now : UInt32) (f : Flow) (known : Bool) : Bool × State :=
  match matchRule s.rules f with
  | none => (false, s)
  | some r =>
    if r.action = .accept ∨ r.action = .log then
      if known = false ∧ f.tracked = true then
        let (connections, i) := createConnection s.connections now f
        (true, { s with connections := establish connections i })
      else (true, s)
    else (false, s)

/-- The connection table is asked, and then the rules. -/
def checkFlow (s : State) (now : UInt32) (f : Flow) : Bool × State :=
  match findConnection s.connections f with
  | none => checkRules s now f false
  | some i =>
    let s' : State :=
      { s with
        connections :=
          s.connections.modify i fun c =>
            { c with lastSeen := now, packetsSent := c.packetsSent + 1 } }
    if (s.connections.getD i .empty).state = .established then (true, s')
    else checkRules s' now f true

/-- `firewall_check_packet`: the answer, and the tables afterwards. -/
def firewallCheckPacket (s : State) (now : UInt32) (p : Packet) : Bool × State :=
  if s.enabled = false then (true, s)
  else if p.length < 20 then (false, s)
  else if p.ihl < 20 ∨ p.length < p.ihl then (false, s)
  else if p.length < p.totalLength then (false, s)
  else if p.isFragment = true then (false, s)
  else if p.protocol = ipprotoUdp ∧ p.length < p.ihl + 8 then (false, s)
  else if p.isDhcp = true then (true, s)
  else if isBogonIp p.srcIp = true then (false, s)
  else if p.protocol = ipprotoTcp ∧ p.length < p.ihl + 20 then (false, s)
  else
    let (ok, s) := checkRateLimit s now p.srcIp
    if ok = false then (false, s) else checkFlow s now p.flow

/-! ## Changes of the rules -/

/-- The rule table is not full. -/
def State.hasRoom (s : State) : Bool := decide (s.rules.length < firewallMaxRules)

def firewallAddRule (s : State) (r : Rule) : State :=
  if s.hasRoom = false then s
  else { s with rules := s.rules ++ [{ r with enabled := true }] }

/-- A negative number is not the number of a rule, and changes nothing. -/
def firewallRemoveRule (s : State) (id : Int) : State :=
  if id < 0 then s else { s with rules := s.rules.eraseIdx id.toNat }

def firewallSetRuleEnabled (s : State) (id : Int) (enabled : Bool) : State :=
  if id < 0 then s
  else { s with rules := s.rules.modify id.toNat fun r => { r with enabled := enabled } }

def firewallClearRules (s : State) : State := { s with rules := [] }

def firewallClearConnections (s : State) : State :=
  { s with connections := s.connections.map fun _ => .empty }

def blockRule (ip : UInt32) : Rule :=
  { srcIp := ip
    srcIpMask := 0xFFFFFFFF
    action := .drop
    priority := 0 }

def firewallBlockIp (s : State) (ip : UInt32) : State := firewallAddRule s (blockRule ip)

/-- `ids_severity_t`. -/
inductive Severity
  | info
  | low
  | medium
  | high
  | critical
  deriving DecidableEq, Repr

def Severity.blocks : Severity → Bool
  | .high => true
  | .critical => true
  | _ => false

/-- `ids_generate_alert`, as far as the filter sees it. -/
def idsGenerateAlert (s : State) (severity : Severity) (src : UInt32) : State :=
  if severity.blocks = true ∧ src ≠ 0 then firewallBlockIp s src else s

/-! ## Histories -/

/-- What happens to the filter; every packet and every outgoing flow carries its tick. -/
inductive Event
  | packet (now : UInt32) (p : Packet)
  | outgoing (now : UInt32) (f : Flow)
  | addRule (r : Rule)
  | removeRule (id : Int)
  | setRuleEnabled (id : Int) (enabled : Bool)
  | clearRules
  | clearConnections
  | blockIp (ip : UInt32)
  | alert (severity : Severity) (src : UInt32)
  deriving DecidableEq, Repr

def step (s : State) : Event → State
  | .packet now p => (firewallCheckPacket s now p).2
  | .outgoing now f => firewallTrackOutgoing s now f
  | .addRule r => firewallAddRule s r
  | .removeRule id => firewallRemoveRule s id
  | .setRuleEnabled id enabled => firewallSetRuleEnabled s id enabled
  | .clearRules => firewallClearRules s
  | .clearConnections => firewallClearConnections s
  | .blockIp ip => firewallBlockIp s ip
  | .alert severity src => idsGenerateAlert s severity src

end TinyOS.Firewall
