import TinyOS.Net.Packet

/-!
# The ARP cache

The cache of `net.c`, its table of pending requests, and everything that reads or writes them: ARP
packets, the inbound IP datagrams whose source refreshes the cache, `send_arp_request` and
`arp_lookup`. The handlers behind `handle_ip` reach the two tables only through the last two and
through `set_network_config`, which therefore are events of their own.

`get_timer_ticks` is the number of ticks modulo 2^32. The times of requests are kept as numbers of
ticks, and the code's 32-bit value of one is that number modulo 2^32. The counters are left out.
-/

namespace TinyOS.Net

open Firewall (Packet)

def arpCacheSize : Nat := 16
def arpMaxPendingRequests : Nat := 16
def arpTimeoutTicks : UInt32 := 6000
def arpRequestIntervalTicks : UInt32 := 500
def arpPendingTimeoutTicks : UInt32 := 1000

instance : NeZero arpCacheSize := ⟨by decide⟩
instance : NeZero arpMaxPendingRequests := ⟨by decide⟩

structure ArpCacheEntry where
  ip : Ip := 0
  mac : Mac := List.replicate 6 0
  lastUsed : UInt32 := 0
  valid : Bool := false
  deriving DecidableEq, Repr

structure ArpPendingRequest where
  ip : Ip := 0
  /-- `last_request_time`, not wrapped. -/
  lastRequestTime : Nat := 0
  pending : Bool := false
  deriving DecidableEq, Repr

structure Arp where
  config : Config
  arpCache : Fin arpCacheSize → ArpCacheEntry
  arpPendingRequests : Fin arpMaxPendingRequests → ArpPendingRequest
  /-- Timer ticks since boot. -/
  ticks : Nat
  /-- The requests that went to the driver, with their time, newest first. -/
  sent : List (Ip × Nat)

namespace Arp

/-- `get_timer_ticks`. -/
def timerTicks (s : Arp) : UInt32 := UInt32.ofNat s.ticks

def age (s : Arp) (r : ArpPendingRequest) : UInt32 :=
  s.timerTicks - UInt32.ofNat r.lastRequestTime

def setEntry (s : Arp) (i : Fin arpCacheSize) (e : ArpCacheEntry) : Arp :=
  { s with arpCache := Function.update s.arpCache i e }

def setRequest (s : Arp) (i : Fin arpMaxPendingRequests) (r : ArpPendingRequest) : Arp :=
  { s with arpPendingRequests := Function.update s.arpPendingRequests i r }

end Arp

/-! ## Which mappings are looked at -/

def isInvalidArpSenderIp (c : Config) (ip : Ip) : Bool :=
  netIsBroadcastIp c ip || decide (ip = 0) || isMulticast ip || decide (firstByte ip = 127)

def isValidArpIp (c : Config) (ip : Ip) : Bool :=
  decide (ip = c.gatewayIp) || decide (c.myIp = 0) ||
    decide (ip &&& c.subnetMask = c.myIp &&& c.subnetMask)

def isValidArpSenderMac (c : Config) (mac : Mac) : Bool :=
  !mac.all (· == 0) && decide (mac.headD 0 &&& 1 = 0) && mac != c.myMac

structure ArpHeader where
  hardwareType : UInt16
  protocolType : UInt16
  hardwareAddrLen : UInt8
  protocolAddrLen : UInt8
  operation : UInt16
  senderMac : Mac
  senderIp : Ip
  deriving DecidableEq, Repr

def arpOpRequest : UInt16 := 1
def arpOpReply : UInt16 := 2

def Frame.arp (f : Frame) : ArpHeader where
  hardwareType := Packet.half f 14
  protocolType := Packet.half f 16
  hardwareAddrLen := Packet.byte f 18
  protocolAddrLen := Packet.byte f 19
  operation := Packet.half f 20
  senderMac := (f.drop 22).take 6
  senderIp := Packet.word f 28

/-- Where a mapping comes from. -/
inductive Origin
  | arpReply
  | arpRequest
  | datagram
  deriving DecidableEq, Repr

/-- A mapping that a frame offers to the cache. -/
structure Offer where
  origin : Origin
  ip : Ip
  mac : Mac
  deriving DecidableEq, Repr

/-- `handle_arp`, up to the call of `arp_cache_update_status`. -/
def handleArp (c : Config) (h : ArpHeader) : Option Offer :=
  if h.hardwareType ≠ 1 then none
  else if h.protocolType ≠ 0x0800 then none
  else if h.hardwareAddrLen ≠ 6 ∨ h.protocolAddrLen ≠ 4 then none
  else if h.operation ≠ arpOpRequest ∧ h.operation ≠ arpOpReply then none
  else if isInvalidArpSenderIp c h.senderIp = true then none
  else if isValidArpSenderMac c h.senderMac = false then none
  else if isValidArpIp c h.senderIp = false then none
  else if h.operation = arpOpRequest then
    if c.myIp = 0 then none else some ⟨.arpRequest, h.senderIp, h.senderMac⟩
  else some ⟨.arpReply, h.senderIp, h.senderMac⟩

/-- `handle_packet`, up to the calls of `arp_cache_update` and `arp_cache_update_status`. -/
def offeredMapping (c : Config) (admitted : Bool) (f : Frame) : Option Offer :=
  if f.length < sizeofEthHeader then none
  else if isForUs c f = false then none
  else if f.ethertype = ethTypeArp then
    if f.length < sizeofEthHeader + sizeofArpHeader then none else handleArp c f.arp
  else (handleIpFrame c admitted f).map fun _ => ⟨.datagram, f.body.srcIp, f.srcMac⟩

/-! ## Requests -/

/-- `arp_pending_request_matches`, from these slots on. Expired requests that come before a match are
dropped. -/
def matchPending (ip : Ip) : List (Fin arpMaxPendingRequests) → Arp → Bool × Arp
  | [], s => (false, s)
  | i :: rest, s =>
    let r := s.arpPendingRequests i
    if r.pending = false then matchPending ip rest s
    else if arpPendingTimeoutTicks < s.age r then
      matchPending ip rest (s.setRequest i { r with pending := false, ip := 0 })
    else if r.ip = ip then (true, s)
    else matchPending ip rest s

def arpPendingRequestMatches (s : Arp) (ip : Ip) : Bool × Arp :=
  matchPending ip (List.finRange arpMaxPendingRequests) s

def arpPendingRequestClear (s : Arp) (ip : Ip) : Arp :=
  { s with
    arpPendingRequests := fun i =>
      let r := s.arpPendingRequests i
      if r.pending = true ∧ r.ip = ip then { r with pending := false, ip := 0 } else r }

/-- The first slot with the least value: the loop that looks for the oldest entry. -/
def leastIndex {n : Nat} [NeZero n] (key : Fin n → UInt32) : Fin n :=
  (List.finRange n).foldl (fun least i => if key i < key least then i else least) 0

/-- Step 2 of `send_arp_request`. -/
def dropExpiredRequests (s : Arp) : Arp :=
  { s with
    arpPendingRequests := fun i =>
      let r := s.arpPendingRequests i
      if r.pending = true ∧ arpPendingTimeoutTicks < s.age r then { r with pending := false } else r }

/-- The request is written into a slot and sent. -/
def trackRequest (s : Arp) (ip : Ip) (i : Fin arpMaxPendingRequests) : Arp :=
  { s.setRequest i { ip := ip, lastRequestTime := s.ticks, pending := true } with
    sent := (ip, s.ticks) :: s.sent }

/-- The slot for a new request: the first that is free, or the oldest. -/
def pendingSlot (s : Arp) : Fin arpMaxPendingRequests :=
  match (List.finRange arpMaxPendingRequests).find? fun i => !(s.arpPendingRequests i).pending with
  | some i => i
  | none => leastIndex fun i => UInt32.ofNat (s.arpPendingRequests i).lastRequestTime

def sendArpRequest (s : Arp) (ip : Ip) : Arp :=
  match (List.finRange arpMaxPendingRequests).find? fun i =>
      (s.arpPendingRequests i).pending && (s.arpPendingRequests i).ip == ip with
  | some i =>
    if s.age (s.arpPendingRequests i) < arpRequestIntervalTicks then s else trackRequest s ip i
  | none =>
    let s := dropExpiredRequests s
    trackRequest s ip (pendingSlot s)

/-! ## The cache -/

def arpCacheFindIndex (s : Arp) (ip : Ip) : Option (Fin arpCacheSize) :=
  (List.finRange arpCacheSize).find? fun i => (s.arpCache i).valid && (s.arpCache i).ip == ip

/-- The slot for a new entry: the first that is not valid, or the least recently used. -/
def arpCacheSlot (s : Arp) : Fin arpCacheSize :=
  match (List.finRange arpCacheSize).find? fun i => !(s.arpCache i).valid with
  | some i => i
  | none => leastIndex fun i => (s.arpCache i).lastUsed

inductive ArpUpdateResult
  | ignored
  | refreshed
  | learned
  | unsolicited
  | changeRefused
  deriving DecidableEq, Repr

/-- `arp_cache_update_status`, when it is known whether a request is pending. -/
def arpCacheStore (s : Arp) (hasPendingRequest : Bool) (ip : Ip) (mac : Mac) :
    ArpUpdateResult × Arp :=
  match arpCacheFindIndex s ip with
  | some i =>
    let e := s.arpCache i
    if e.mac ≠ mac ∧ hasPendingRequest = false then (.changeRefused, s)
    else
      (.refreshed,
        arpPendingRequestClear (s.setEntry i { e with mac := mac, lastUsed := s.timerTicks }) ip)
  | none =>
    if hasPendingRequest = false then (.unsolicited, s)
    else
      let e : ArpCacheEntry := { ip := ip, mac := mac, lastUsed := s.timerTicks, valid := true }
      (.learned, arpPendingRequestClear (s.setEntry (arpCacheSlot s) e) ip)

def arpCacheUpdateStatus (s : Arp) (ip : Ip) (mac : Mac) : ArpUpdateResult × Arp :=
  if isInvalidArpSenderIp s.config ip = true ∨ isValidArpIp s.config ip = false ∨
      isValidArpSenderMac s.config mac = false then (.ignored, s)
  else if ip = s.config.myIp then (.ignored, s)
  else
    let r := arpPendingRequestMatches s ip
    arpCacheStore r.2 r.1 ip mac

def arpCacheEvictExpired (s : Arp) : Arp :=
  { s with
    arpCache := fun i =>
      let e := s.arpCache i
      if e.valid = true ∧ arpTimeoutTicks < s.timerTicks - e.lastUsed then
        { e with valid := false, mac := List.replicate 6 0 }
      else e }

/-- `arp_lookup`, as far as it changes the cache. -/
def arpLookup (s : Arp) (ip : Ip) : Arp :=
  let s := arpCacheEvictExpired s
  match arpCacheFindIndex s ip with
  | none => s
  | some i => s.setEntry i { s.arpCache i with lastUsed := s.timerTicks }

/-! ## Histories -/

inductive ArpEvent
  /-- A frame, and what firewall and IDS say of it. -/
  | frame (f : Frame) (admitted : Bool)
  | sendArpRequest (ip : Ip)
  | arpLookup (ip : Ip)
  | tick
  /-- `set_network_config`, and the loading of a new `my_mac`. -/
  | configure (c : Config)

def handlePacket (s : Arp) (admitted : Bool) (f : Frame) : Arp :=
  match offeredMapping s.config admitted f with
  | none => s
  | some o => (arpCacheUpdateStatus s o.ip o.mac).2

def arpStep (s : Arp) : ArpEvent → Arp
  | .frame f admitted => handlePacket s admitted f
  | .sendArpRequest ip => sendArpRequest s ip
  | .arpLookup ip => arpLookup s ip
  | .tick => { s with ticks := s.ticks + 1 }
  | .configure c => { s with config := c }

end TinyOS.Net
