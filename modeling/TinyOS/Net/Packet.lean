import TinyOS.Firewall.Filter
import Mathlib.Algebra.Ring.Nat

/-!
# Frames and datagrams

What `net.c` makes of a received frame before any protocol keeps state about it: the checks of the
Ethernet and IP headers and the one's-complement checksums.

IP addresses and masks are words in network order, so that comparing or masking their four bytes is
comparing or masking the words. The verdict of the firewall and of the IDS on a datagram is a parameter.
-/

namespace TinyOS.Net

open Firewall (Packet ipprotoTcp ipprotoUdp)

abbrev Ip := UInt32
/-- Six bytes. -/
abbrev Mac := List UInt8
abbrev Frame := List UInt8

def sizeofEthHeader : Nat := 14
def sizeofArpHeader : Nat := 28
def sizeofIpHeader : Nat := 20
def sizeofUdpHeader : Nat := 8
def sizeofTcpHeader : Nat := 20
def ethTypeIpv4 : UInt16 := 0x0800
def ethTypeArp : UInt16 := 0x0806
def ipprotoIcmp : UInt8 := 1
def broadcastMac : Mac := List.replicate 6 0xFF

/-- `my_ip`, `my_mac`, `subnet_mask` and `gateway_ip`. -/
structure Config where
  myIp : Ip
  myMac : Mac
  subnetMask : Ip
  gatewayIp : Ip
  deriving DecidableEq, Repr

/-! ## Addresses -/

/-- `ip[0]`. -/
def firstByte (ip : Ip) : UInt32 := ip >>> 24

def isMulticast (ip : Ip) : Bool := decide (224 ≤ firstByte ip) && decide (firstByte ip ≤ 239)

def netIsBroadcastIp (c : Config) (ip : Ip) : Bool :=
  if ip = 0xFFFFFFFF then true
  else if c.myIp = 0 then false
  else if c.subnetMask &&& 0xFFFFFFFE = 0xFFFFFFFE then false
  else decide (ip = c.myIp ||| ~~~c.subnetMask)

/-! ## Checksums -/

/-- The sum of the bytes as words in network order; an odd last byte is a high byte. -/
def wordSum : List UInt8 → Nat
  | [] => 0
  | [b] => b.toNat * 2 ^ 8
  | a :: b :: rest => a.toNat * 2 ^ 8 + b.toNat + wordSum rest

/-- The loop that folds carries back in. Two turns are enough for 32 bits. -/
def foldCarry : (turns : Nat) → Nat → Nat
  | 0, sum => sum
  | turns + 1, sum =>
    if sum / 2 ^ 16 = 0 then sum else foldCarry turns (sum % 2 ^ 16 + sum / 2 ^ 16)

theorem foldCarry_lt {sum : Nat} (h : sum < 2 ^ 32) : foldCarry 2 sum < 2 ^ 16 := by
  unfold foldCarry
  split
  · omega
  unfold foldCarry
  split
  · omega
  · unfold foldCarry
    omega

def calculateChecksum (bytes : List UInt8) : UInt16 :=
  ~~~UInt16.ofNat (foldCarry 2 (wordSum bytes % 2 ^ 32))

/-- The two words of an address. -/
def ipSum (ip : Ip) : Nat := ip.toNat / 2 ^ 16 + ip.toNat % 2 ^ 16

def calculateL4Checksum (srcIp destIp : Ip) (protocol : UInt8) (segment : List UInt8) : UInt16 :=
  let sum := ipSum srcIp + ipSum destIp + protocol.toNat + segment.length % 2 ^ 16 + wordSum segment
  ~~~UInt16.ofNat (foldCarry 2 (sum % 2 ^ 32))

/-- The bytes with a field of two bytes set to 0. -/
def clearHalf (bytes : List UInt8) (i : Nat) : List UInt8 := (bytes.set i 0).set (i + 1) 0

/-! ## Ethernet -/

namespace Frame

def destMac (f : Frame) : Mac := f.take 6

def srcMac (f : Frame) : Mac := (f.drop 6).take 6

def ethertype (f : Frame) : UInt16 := Packet.half f 12

/-- What follows the Ethernet header. -/
def body (f : Frame) : Packet := f.drop sizeofEthHeader

end Frame

/-- The frame is for this host or for all. -/
def isForUs (c : Config) (f : Frame) : Bool := f.destMac == c.myMac || f.destMac == broadcastMac

/-! ## IP -/

/-- The sources that `handle_ip` does not accept. -/
def isBogonSource (c : Config) (src : Ip) : Bool :=
  decide (firstByte src = 127) || decide (firstByte src = 0) || isMulticast src ||
    decide (src = 0xFFFFFFFF) || decide (src = c.myIp)

/-- `is_for_us`, `is_broadcast` and `is_subnet_broadcast`. -/
def isForOurIp (c : Config) (dest : Ip) : Bool :=
  decide (dest = c.myIp) || netIsBroadcastIp c dest ||
    (decide (c.myIp = 0) && decide (dest &&& 0xFF = 0xFF))

/-- The checks of `handle_ip` before the firewall is asked. -/
def checkIp (c : Config) (p : Packet) : Bool :=
  decide (sizeofIpHeader ≤ p.length) &&
  decide (sizeofIpHeader ≤ p.ihl) &&
  decide (p.ihl ≤ p.length) &&
  decide (calculateChecksum (clearHalf (p.take p.ihl) 10) = p.half 10) &&
  decide (p.ihl ≤ p.totalLength) &&
  decide (p.totalLength ≤ p.length) &&
  !isBogonSource c p.srcIp &&
  decide (p.flagsFragment &&& 0x1FFF = 0) &&
  decide (p.flagsFragment &&& 0x2000 = 0) &&
  !isMulticast p.dstIp &&
  isForOurIp c p.dstIp

inductive Protocol
  | icmp
  | udp
  | tcp
  deriving DecidableEq, Repr

/-- The protocol that a datagram is handed to, if it is not dropped. -/
def handleIp (c : Config) (admitted : Bool) (p : Packet) : Option Protocol :=
  if checkIp c p = false then none
  else if admitted = false then none
  else
    let payloadLen := p.totalLength - p.ihl
    if p.protocol = ipprotoIcmp then if payloadLen < 8 then none else some .icmp
    else if p.protocol = ipprotoUdp then if payloadLen < sizeofUdpHeader then none else some .udp
    else if p.protocol = ipprotoTcp then if payloadLen < sizeofTcpHeader then none else some .tcp
    else none

/-- The frame is an IP datagram that is handed to a protocol. -/
def handleIpFrame (c : Config) (admitted : Bool) (f : Frame) : Option Protocol :=
  if f.length < sizeofEthHeader then none
  else if isForUs c f = false then none
  else if f.ethertype ≠ ethTypeIpv4 then none
  else if f.length < sizeofEthHeader + sizeofIpHeader then none
  else handleIp c admitted f.body

end TinyOS.Net
