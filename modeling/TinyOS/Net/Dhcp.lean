import TinyOS.Net.Packet

/-!
# The DHCP client

`dhcp.c`: the parser of the options, the checks of an OFFER and the state machine of `handle_dhcp`,
`dhcp_start` and `dhcp_tick`. Time is a number of ticks since boot; the code sees it modulo 2 ^ 32.

An OFFER is the only message whose configuration is stored, and it is checked before it is; an ACK puts
in force what is stored. So every configuration that is ever applied is a usable address in a proper
subnet, and all of it was in one OFFER (`Stored`).
-/

namespace TinyOS.Net.Dhcp

open Firewall (Packet)

def sizeofDhcpHeader : Nat := 240
def dhcpOpBootreply : UInt8 := 2
def dhcpMagicCookie : UInt32 := 0x63825363
def dhcpOffer : UInt8 := 2
def dhcpAck : UInt8 := 5
def dhcpNak : UInt8 := 6
def maxDhcpOptionIterations : Nat := 512
/-- 30 days. -/
def maxDhcpLeaseSeconds : UInt32 := 30 * 86400

/-! ## Options -/

/-- What `handle_dhcp` takes from the options. -/
structure Options where
  msgType : UInt8
  serverIp : Ip
  subnetMask : Ip
  maskPresent : Bool
  router : Ip
  dnsServer : Ip
  leaseTime : UInt32
  deriving DecidableEq, Repr

def noOptions : Options where
  msgType := 0
  serverIp := 0
  subnetMask := 0
  maskPresent := false
  router := 0
  dnsServer := 0
  leaseTime := 0

/-- The `switch` over the options, with the option's bytes. -/
def applyOption (o : Options) (option : UInt8) (bytes : Packet) : Options :=
  if option = 53 then if 1 ≤ bytes.length then { o with msgType := bytes.byte 0 } else o
  else if option = 54 then if bytes.length = 4 then { o with serverIp := bytes.word 0 } else o
  else if option = 1 then
    let o := { o with maskPresent := true }
    if bytes.length = 4 then { o with subnetMask := bytes.word 0 } else o
  else if option = 3 then if 4 ≤ bytes.length then { o with router := bytes.word 0 } else o
  else if option = 6 then if 4 ≤ bytes.length then { o with dnsServer := bytes.word 0 } else o
  else if option = 51 then if bytes.length = 4 then { o with leaseTime := bytes.word 0 } else o
  else o

/-- `parse_dhcp_options`, with the turns that are left. -/
def parseDhcpOptions : (iterations : Nat) → (options : List UInt8) → Options → Options
  | 0, _, o => o
  | _ + 1, [], o => o
  | iterations + 1, option :: rest, o =>
    if option = 255 then o
    else if option = 0 then parseDhcpOptions iterations rest o
    else
      match rest with
      | [] => o
      | len :: bytes =>
        if bytes.length < len.toNat then o
        else parseDhcpOptions iterations (bytes.drop len.toNat)
          (applyOption o option (bytes.take len.toNat))

/-! ## Messages -/

/-- The options of a message. -/
def optionsOf (p : Packet) : Options :=
  parseDhcpOptions maxDhcpOptionIterations (p.drop sizeofDhcpHeader) noOptions

def xidOf (p : Packet) : UInt32 := p.word 4

def yiaddr (p : Packet) : Ip := p.word 16

/-- The message is a reply with this transaction ID. -/
def isReply (xid : UInt32) (p : Packet) : Bool :=
  decide (sizeofDhcpHeader ≤ p.length) && decide (p.byte 0 = dhcpOpBootreply) &&
    decide (xidOf p = xid) && decide (p.word 236 = dhcpMagicCookie)

/-! ## The checks of an OFFER -/

def dhcpIpIsSpecial (ip : Ip) : Bool :=
  decide (firstByte ip = 0) || decide (firstByte ip = 127) || decide (224 ≤ firstByte ip)

def dhcpMaskIsValid (m : Ip) : Bool :=
  decide (~~~m &&& (~~~m + 1) = 0) && decide (m &&& 0xFF000000 = 0xFF000000) && decide (m &&& 3 = 0)

def dhcpIpIsNetOrBcast (ip mask : Ip) : Bool :=
  decide (ip &&& ~~~mask = 0) || decide (ip &&& ~~~mask = ~~~mask)

def dhcpSameSubnet (a b mask : Ip) : Bool := decide (a &&& mask = b &&& mask)

/-- The mask of the address's class. -/
def classfulMask (ip : Ip) : Ip :=
  if 192 ≤ firstByte ip then 0xFFFFFF00 else if 128 ≤ firstByte ip then 0xFFFF0000 else 0xFF000000

/-- The mask that is used: the one in the OFFER, or the default. -/
def offeredMask (p : Packet) : Ip :=
  if (optionsOf p).maskPresent then (optionsOf p).subnetMask else classfulMask (yiaddr p)

def dhcpOfferIsValid (p : Packet) : Bool :=
  let o := optionsOf p
  let mask := offeredMask p
  decide (o.serverIp ≠ 0) &&
  !dhcpIpIsSpecial (yiaddr p) &&
  (!o.maskPresent || dhcpMaskIsValid mask) &&
  !dhcpIpIsNetOrBcast (yiaddr p) mask &&
  (decide (o.router = 0) || dhcpSameSubnet o.router (yiaddr p) mask && decide (o.router ≠ yiaddr p) &&
    !dhcpIpIsNetOrBcast o.router mask) &&
  (decide (o.dnsServer = 0) || !dhcpIpIsSpecial o.dnsServer)

/-! ## The client -/

inductive DhcpState
  | init
  | selecting
  | requesting
  | bound
  | renewing
  | rebinding
  deriving DecidableEq, Repr

/-- `dhcp_client_t`. -/
structure Client where
  state : DhcpState
  xid : UInt32
  offeredIp : Ip
  serverIp : Ip
  subnetMask : Ip
  routerIp : Ip
  dnsServer : Ip
  leaseTime : UInt32
  leaseStart : UInt32
  renewalTime : UInt32
  configured : Bool
  deriving DecidableEq, Repr

def dhcpInit : Client where
  state := .init
  xid := 0
  offeredIp := 0
  serverIp := 0
  subnetMask := 0
  routerIp := 0
  dnsServer := 0
  leaseTime := 0
  leaseStart := 0
  renewalTime := 0
  configured := false

/-- `generate_xid`, from the random word. -/
def generateXid (random : UInt32) : UInt32 := if random = 0 then 1 else random

def dhcpStart (c : Client) (random : UInt32) : Client :=
  { c with xid := generateXid random, state := .selecting }

/-- What an ACK puts in force: what `set_network_config` and `set_dns_server` are called with, and for
how long. -/
structure Lease where
  ip : Ip
  mask : Ip
  router : Ip
  dns : Ip
  leaseTime : UInt32
  /-- The tick of the ACK. -/
  start : Nat
  /-- The ticks until the lease is renewed, `t1_jittered`. -/
  t1 : UInt32
  deriving DecidableEq, Repr

/-- A REQUEST is outstanding. -/
def DhcpState.awaitsReply (s : DhcpState) : Bool :=
  s == .requesting || s == .renewing || s == .rebinding

def handleOffer (c : Client) (p : Packet) : Client :=
  if c.state ≠ .selecting then c
  else if dhcpOfferIsValid p = false then c
  else
    { c with
      offeredIp := yiaddr p
      serverIp := (optionsOf p).serverIp
      subnetMask := offeredMask p
      routerIp := (optionsOf p).router
      dnsServer := (optionsOf p).dnsServer
      leaseTime := (optionsOf p).leaseTime
      state := .requesting }

/-- The lease time after an ACK, in seconds. -/
def clampLease (leaseTime : UInt32) : UInt32 :=
  let leaseTime := if leaseTime < 60 then 600 else leaseTime
  if maxDhcpLeaseSeconds < leaseTime then maxDhcpLeaseSeconds else leaseTime

/-- Half of the lease with up to a tenth of that more or less. -/
def jitteredT1 (leaseTime random : UInt32) : UInt32 :=
  let t1Base := leaseTime * 100 / 2
  let jitterWindow := t1Base / 10
  if jitterWindow = 0 then t1Base else t1Base - jitterWindow + random % (2 * jitterWindow)

def handleAck (c : Client) (now : Nat) (p : Packet) (random : UInt32) : Client × Option Lease :=
  let o := optionsOf p
  if c.state.awaitsReply = false then (c, none)
  else if o.serverIp = 0 ∨ o.serverIp ≠ c.serverIp then (c, none)
  else if yiaddr p ≠ c.offeredIp then (c, none)
  else
    let leaseTime := clampLease (if o.leaseTime ≠ 0 then o.leaseTime else c.leaseTime)
    let t1 := jitteredT1 leaseTime random
    ({ c with
        leaseTime := leaseTime
        state := .bound
        configured := true
        leaseStart := UInt32.ofNat now
        renewalTime := UInt32.ofNat now + t1 },
      some
        { ip := yiaddr p
          mask := c.subnetMask
          router := c.routerIp
          dns := c.dnsServer
          leaseTime := leaseTime
          start := now
          t1 := t1 })

def handleNak (c : Client) (p : Packet) (random : UInt32) : Client :=
  let o := optionsOf p
  if c.state.awaitsReply = true ∧ o.serverIp ≠ 0 ∧ o.serverIp = c.serverIp then
    dhcpStart { c with state := .init } random
  else c

/-- `handle_dhcp`, with the random words for a transaction ID and for the jitter. -/
def handleDhcp (c : Client) (now : Nat) (p : Packet) (xidRandom jitterRandom : UInt32) :
    Client × Option Lease :=
  if isReply c.xid p = false then (c, none)
  else if (optionsOf p).msgType = dhcpOffer then (handleOffer c p, none)
  else if (optionsOf p).msgType = dhcpAck then handleAck c now p jitterRandom
  else if (optionsOf p).msgType = dhcpNak then (handleNak c p xidRandom, none)
  else (c, none)

def dhcpTick (c : Client) (now : Nat) (random : UInt32) : Client :=
  if c.configured = false then c
  else
    let currentTicks := UInt32.ofNat now
    let leaseTicks := c.leaseTime * 100
    match c.state with
    | .bound =>
      if c.renewalTime ≤ currentTicks then { c with state := .renewing, xid := generateXid random }
      else c
    | .renewing =>
      if c.leaseStart + leaseTicks * 7 / 8 ≤ currentTicks then
        { c with state := .rebinding, xid := generateXid random }
      else c
    | .rebinding =>
      if c.leaseStart + leaseTicks ≤ currentTicks then
        dhcpStart { c with configured := false, state := .init } random
      else c
    | _ => c

/-! ## The host -/

inductive Event
  | start (random : UInt32)
  | tick (random : UInt32)
  | datagram (p : Packet) (xidRandom jitterRandom : UInt32)

/-- The client and what it sets in other modules. -/
structure Host where
  client : Client
  config : Config
  dnsServer : Ip
  now : Nat
  /-- The lease of the last ACK that was applied. No code reads it. -/
  lease : Option Lease
  deriving DecidableEq, Repr

/-- `set_network_config` and `set_dns_server`, which is called for an address other than 0.0.0.0. -/
def Host.apply (h : Host) (l : Lease) : Host :=
  { h with
    config := { h.config with myIp := l.ip, subnetMask := l.mask, gatewayIp := l.router }
    dnsServer := if l.dns = 0 then h.dnsServer else l.dns
    lease := some l }

/-- The host after an event, and the configuration that is applied. -/
def dhcpEvent (h : Host) : Event → Host × Option Lease
  | .start random => ({ h with client := dhcpStart h.client random }, none)
  | .tick random => ({ h with client := dhcpTick h.client h.now random }, none)
  | .datagram p xidRandom jitterRandom =>
    let handled := handleDhcp h.client h.now p xidRandom jitterRandom
    match handled.2 with
    | none => ({ h with client := handled.1 }, none)
    | some l => ({ h with client := handled.1 }.apply l, some l)

/-- An event and the ticks that pass before it. -/
structure Timed where
  elapsed : Nat
  event : Event

/-- The host when the event comes. -/
def Host.wait (h : Host) (elapsed : Nat) : Host := { h with now := h.now + elapsed }

def dhcpStep (h : Host) (e : Timed) : Host × Option Lease := dhcpEvent (h.wait e.elapsed) e.event

/-- The host after these events. -/
def dhcpRun (booted : Host) (events : List Timed) : Host :=
  events.foldl (fun h e => (dhcpStep h e).1) booted

/-- The client has been initialised and nothing has been applied. -/
structure Booted (h : Host) : Prop where
  client : h.client = dhcpInit
  lease : h.lease = none

theorem dhcpRun_concat (booted : Host) (events : List Timed) (e : Timed) :
    dhcpRun booted (events ++ [e]) = (dhcpStep (dhcpRun booted events) e).1 := by
  rw [dhcpRun, List.foldl_append]
  rfl

end TinyOS.Net.Dhcp
