import TinyOS.Net.Packet

/-!
# UDP from host to host

`send_udp_packet` and `handle_udp`. A datagram that one host sends should reach the handler of the other
as it was sent. It does unless its length does not fit into the header, which nobody checks, or its
checksum is one of the two zeros: the sender then writes 0xFFFF, as it should, but the receiver compares
what it has computed, which is 0, with what it has received.
-/

namespace TinyOS.Net

open List

open Firewall (Packet ipprotoUdp)

/-! ## Sending -/

/-- `htons` into the packet. -/
def putHalf (n : UInt16) : List UInt8 := [(n >>> 8).toUInt8, n.toUInt8]

def putWord (n : UInt32) : List UInt8 := putHalf (n >>> 16).toUInt16 ++ putHalf n.toUInt16

def udpSegment (srcPort destPort checksum : UInt16) (data : List UInt8) : List UInt8 :=
  putHalf srcPort ++ putHalf destPort ++ putHalf (UInt16.ofNat (sizeofUdpHeader + data.length)) ++
    putHalf checksum ++ data

def ipHeader (srcIp destIp : Ip) (ipLen : Nat) (checksum : UInt16) : List UInt8 :=
  [0x45, 0] ++ putHalf (UInt16.ofNat ipLen) ++ putHalf 0x2000 ++ putHalf 0 ++ [64, ipprotoUdp] ++
    putHalf checksum ++ putWord srcIp ++ putWord destIp

/-- `send_udp_packet`: the frame that goes to the driver. -/
def sendUdpPacket (c : Config) (destIp : Ip) (destMac : Mac) (srcPort destPort : UInt16)
    (data : List UInt8) : Frame :=
  let udpLen := sizeofUdpHeader + data.length
  let ipLen := sizeofIpHeader + udpLen
  let checksum := calculateL4Checksum c.myIp destIp ipprotoUdp (udpSegment srcPort destPort 0 data)
  let checksum := if checksum = 0 then 0xFFFF else checksum
  let ipChecksum := calculateChecksum (ipHeader c.myIp destIp ipLen 0)
  destMac ++ c.myMac ++ putHalf ethTypeIpv4 ++ ipHeader c.myIp destIp ipLen ipChecksum ++
    udpSegment srcPort destPort checksum data

/-! ## Receiving -/

inductive UdpHandler
  | dns
  | dhcp
  deriving DecidableEq, Repr

def dnsPort : UInt16 := 53

/-- Which handler is called for these ports. -/
def udpHandler (srcPort destPort : UInt16) : Option UdpHandler :=
  if srcPort = dnsPort then some .dns
  else if srcPort = 67 ∧ destPort = 68 then some .dhcp
  else none

/-- What is handed on. -/
structure Datagram where
  handler : Option UdpHandler
  srcIp : Ip
  srcPort : UInt16
  destPort : UInt16
  payload : List UInt8
  deriving DecidableEq, Repr

def handleUdp (p : Packet) : Option Datagram :=
  let ipLen := p.totalLength
  if ipLen < p.ihl + sizeofUdpHeader then none
  else
    let segment : Packet := p.drop p.ihl
    let len := (segment.half 4).toNat
    if len < sizeofUdpHeader then none
    else if ipLen - p.ihl < len then none
    else if segment.half 6 ≠ 0 ∧ calculateL4Checksum p.srcIp p.dstIp ipprotoUdp
        (clearHalf (segment.take len) 6) ≠ segment.half 6 then none
    else
      some
        { handler := udpHandler (segment.half 0) (segment.half 2)
          srcIp := p.srcIp
          srcPort := segment.half 0
          destPort := segment.half 2
          payload := (segment.take len).drop sizeofUdpHeader }

/-- `handle_packet`, for UDP. -/
def receiveUdp (c : Config) (admitted : Bool) (f : Frame) : Option Datagram :=
  match handleIpFrame c admitted f with
  | some .udp => handleUdp f.body
  | _ => none

/-! ## Bytes and words -/

theorem toNat_half (a b : UInt8) :
    (a.toUInt16 <<< 8 ||| b.toUInt16).toNat = a.toNat * 2 ^ 8 + b.toNat := by
  have ha := a.toNat_lt
  have hb := b.toNat_lt
  have hshift : (a.toUInt16 <<< 8).toNat = a.toNat <<< 8 := by
    simp only [UInt16.toNat_shiftLeft, UInt8.toNat_toUInt16, UInt16.reduceToNat, Nat.reduceMod,
      Nat.shiftLeft_eq]
    omega
  rw [UInt16.toNat_or, hshift, UInt8.toNat_toUInt16, ← Nat.shiftLeft_add_eq_or_of_lt (by omega),
    Nat.shiftLeft_eq]

theorem half_putHalf (n : UInt16) (rest : List UInt8) : Packet.half (putHalf n ++ rest) 0 = n := by
  apply UInt16.toNat_inj.mp
  show (((n >>> 8).toUInt8.toUInt16 <<< 8) ||| n.toUInt8.toUInt16).toNat = n.toNat
  have hn := n.toNat_lt
  rw [toNat_half]
  simp only [UInt16.toNat_toUInt8, UInt16.toNat_shiftRight, UInt16.reduceToNat, Nat.reduceMod,
    Nat.shiftRight_eq_div_pow]
  omega

theorem word_putWord (n : UInt32) (rest : List UInt8) : Packet.word (putWord n ++ rest) 0 = n := by
  have hhigh : Packet.half (putWord n ++ rest) 0 = (n >>> 16).toUInt16 := by
    exact half_putHalf _ _
  have hlow : Packet.half (putWord n ++ rest) 2 = n.toUInt16 := half_putHalf n.toUInt16 rest
  apply UInt32.toNat_inj.mp
  rw [Packet.word, hhigh, hlow]
  have hn := n.toNat_lt
  have hshift : (((n >>> 16).toUInt16).toUInt32 <<< 16).toNat = (n.toNat / 2 ^ 16) <<< 16 := by
    simp only [UInt32.toNat_shiftLeft, UInt16.toNat_toUInt32, UInt32.toNat_toUInt16,
      UInt32.toNat_shiftRight, UInt32.reduceToNat, Nat.reduceMod, Nat.shiftLeft_eq,
      Nat.shiftRight_eq_div_pow]
    omega
  rw [UInt32.toNat_or, hshift, UInt16.toNat_toUInt32, UInt32.toNat_toUInt16,
    ← Nat.shiftLeft_add_eq_or_of_lt (by omega), Nat.shiftLeft_eq]
  omega

/-! ## The checksum -/

theorem wordSum_le (bytes : List UInt8) : wordSum bytes ≤ 65535 * ((bytes.length + 1) / 2) := by
  induction bytes using wordSum.induct with
  | case1 => simp [wordSum]
  | case2 b =>
    have := b.toNat_lt
    simp only [wordSum, length_singleton]
    omega
  | case3 a b rest ih =>
    have := a.toNat_lt
    have := b.toNat_lt
    simp only [wordSum, length_cons]
    omega

/-- Folding carries is reducing modulo 65535, with 65535 in the place of 0. -/
theorem foldCarry_eq {sum : Nat} (hpos : 0 < sum) (hlt : sum < 2 ^ 32) :
    foldCarry 2 sum = (sum - 1) % 65535 + 1 := by
  unfold foldCarry
  split
  · omega
  unfold foldCarry
  split
  · omega
  · unfold foldCarry
    omega

theorem not_ofNat_eq_zero {n : Nat} (h : n < 2 ^ 16) : ~~~UInt16.ofNat n = 0 ↔ n = 65535 := by
  have hnot : (~~~UInt16.ofNat n).toNat = 65535 - n := by
    rw [UInt16.toNat_not, UInt16.toNat_ofNat', Nat.mod_eq_of_lt h]
    rfl
  rw [← UInt16.toNat_inj, hnot]
  show 65535 - n = 0 ↔ n = 65535
  omega

/-- The sum of the pseudo-header and of the segment with its checksum left out. -/
def udpSum (srcIp destIp : Ip) (srcPort destPort : UInt16) (data : List UInt8) : Nat :=
  ipSum srcIp + ipSum destIp + 17 + (sizeofUdpHeader + data.length) +
    wordSum (udpSegment srcPort destPort 0 data)

theorem length_udpSegment (srcPort destPort checksum : UInt16) (data : List UInt8) :
    (udpSegment srcPort destPort checksum data).length = sizeofUdpHeader + data.length := by
  simp [udpSegment, putHalf, sizeofUdpHeader]
  omega

theorem half_udpSegment (srcPort destPort checksum : UInt16) (data : List UInt8) :
    let segment : Packet := udpSegment srcPort destPort checksum data
    segment.half 0 = srcPort ∧ segment.half 2 = destPort ∧
      segment.half 4 = UInt16.ofNat (sizeofUdpHeader + data.length) ∧ segment.half 6 = checksum :=
  ⟨half_putHalf _ [], half_putHalf _ [], half_putHalf _ [], half_putHalf _ []⟩

theorem l4Checksum_eq_zero {srcIp destIp : Ip} {srcPort destPort : UInt16} {data : List UInt8}
    (h : data.length ≤ 65507) :
    calculateL4Checksum srcIp destIp ipprotoUdp (udpSegment srcPort destPort 0 data) = 0 ↔
      udpSum srcIp destIp srcPort destPort data % 65535 = 0 := by
  have hsrc := srcIp.toNat_lt
  have hdest := destIp.toNat_lt
  have hwords := wordSum_le (udpSegment srcPort destPort 0 data)
  have hlength := length_udpSegment srcPort destPort 0 data
  have hsize : sizeofUdpHeader = 8 := rfl
  have hproto : ipprotoUdp.toNat = 17 := rfl
  unfold calculateL4Checksum udpSum
  simp only [hlength, hproto, ipSum]
  rw [Nat.mod_eq_of_lt (show sizeofUdpHeader + data.length < 2 ^ 16 by omega),
    Nat.mod_eq_of_lt (b := 2 ^ 32) (by omega), not_ofNat_eq_zero (foldCarry_lt (by omega)),
    foldCarry_eq (by omega) (by omega)]
  omega

/-! ## What is received -/

/-- The fields of the header that was sent, in the packet that is received. -/
structure HasHeader (p : Packet) (srcIp destIp : Ip) (ipLen : Nat) (segment : List UInt8) : Prop where
  ihl : p.ihl = sizeofIpHeader
  length : p.length = sizeofIpHeader + segment.length
  totalLength : p.totalLength = ipLen % 2 ^ 16
  fragment : p.flagsFragment = 0
  protocol : p.protocol = ipprotoUdp
  srcIp : p.srcIp = srcIp
  dstIp : p.dstIp = destIp
  segment : p.drop sizeofIpHeader = segment

theorem ipHeader_hasHeader (srcIp destIp : Ip) (ipLen : Nat) (ipChecksum : UInt16)
    (segment : List UInt8) :
    HasHeader (ipHeader srcIp destIp ipLen ipChecksum ++ segment) srcIp destIp ipLen segment where
  ihl := by
    show ((0x45 : UInt8) &&& 0x0F).toNat * 4 = 20
    decide
  length := by rw [length_append]; rfl
  totalLength := by
    have hfield : Packet.half (ipHeader srcIp destIp ipLen ipChecksum ++ segment) 2 =
        UInt16.ofNat ipLen := half_putHalf (UInt16.ofNat ipLen) []
    rw [Packet.totalLength, hfield, UInt16.toNat_ofNat']
  fragment := by
    show (((0x00 : UInt8).toUInt16 <<< 8) ||| (0x00 : UInt8).toUInt16) = 0
    decide
  protocol := rfl
  srcIp := word_putWord srcIp []
  dstIp := word_putWord destIp []
  segment := rfl

theorem ipHeader_checksum (srcIp destIp : Ip) (ipLen : Nat) (segment : List UInt8) :
    let ipChecksum := calculateChecksum (ipHeader srcIp destIp ipLen 0)
    let p : Packet := ipHeader srcIp destIp ipLen ipChecksum ++ segment
    calculateChecksum (clearHalf (p.take sizeofIpHeader) 10) = p.half 10 := by
  intro ipChecksum p
  have hclear : clearHalf (p.take sizeofIpHeader) 10 = ipHeader srcIp destIp ipLen 0 := rfl
  have hfield : p.half 10 = ipChecksum := half_putHalf ipChecksum []
  rw [hclear, hfield]

section loop

variable {c r : Config} {destIp : Ip} {srcPort destPort : UInt16} {data : List UInt8}

/-- The body of the frame that is sent. -/
def sentBody (c : Config) (destIp : Ip) (srcPort destPort : UInt16) (data : List UInt8) : Packet :=
  let checksum := calculateL4Checksum c.myIp destIp ipprotoUdp (udpSegment srcPort destPort 0 data)
  let ipLen := sizeofIpHeader + (sizeofUdpHeader + data.length)
  ipHeader c.myIp destIp ipLen (calculateChecksum (ipHeader c.myIp destIp ipLen 0)) ++
    udpSegment srcPort destPort (if checksum = 0 then 0xFFFF else checksum) data

theorem handleUdp_sentBody :
    handleUdp (sentBody c destIp srcPort destPort data) =
        some ⟨udpHandler srcPort destPort, c.myIp, srcPort, destPort, data⟩ ↔
      data.length ≤ 65507 ∧ udpSum c.myIp destIp srcPort destPort data % 65535 ≠ 0 := by
  generalize hk : calculateL4Checksum c.myIp destIp ipprotoUdp (udpSegment srcPort destPort 0 data) = k
  generalize hreceived : (if k = 0 then 0xFFFF else k) = received
  have hheader : HasHeader (sentBody c destIp srcPort destPort data) c.myIp destIp
      (sizeofIpHeader + (sizeofUdpHeader + data.length))
      (udpSegment srcPort destPort received data) := by
    rw [← hreceived, ← hk]
    exact ipHeader_hasHeader _ _ _ _ _
  obtain ⟨hsrc, hdest, hlen, hchecksum⟩ := half_udpSegment srcPort destPort received data
  have hudp : sizeofUdpHeader = 8 := rfl
  have hip : sizeofIpHeader = 20 := rfl
  simp only [handleUdp, hheader.ihl, hheader.totalLength, hheader.segment, hheader.srcIp,
    hheader.dstIp, hsrc, hdest, hlen, hchecksum, UInt16.toNat_ofNat']
  constructor
  · intro heq
    split at heq
    · cases heq
    split at heq
    · cases heq
    split at heq
    · cases heq
    split at heq
    · cases heq
    rename_i hgood
    have hpayload := congrArg Datagram.payload (Option.some.inj heq)
    have hlength := congrArg List.length hpayload
    simp only [length_drop, length_take, length_udpSegment] at hlength
    have hshort : data.length ≤ 65507 := by omega
    refine ⟨hshort, fun hzero => hgood ?_⟩
    -- The sender has written 0xFFFF for a checksum that the receiver computes as 0.
    rw [← l4Checksum_eq_zero hshort, hk] at hzero
    rw [hzero, if_pos rfl] at hreceived
    rw [Nat.mod_eq_of_lt (by omega), take_of_length_le (Nat.le_of_eq (length_udpSegment _ _ _ _)),
      show clearHalf (udpSegment srcPort destPort received data) 6 =
        udpSegment srcPort destPort 0 data from rfl, hk, hzero, ← hreceived]
    decide
  · rintro ⟨hshort, hsum⟩
    have hne : k ≠ 0 := by
      rw [← hk]
      exact fun hzero => hsum ((l4Checksum_eq_zero hshort).mp hzero)
    rw [if_neg hne] at hreceived
    have hwhole : (udpSegment srcPort destPort received data).take
        ((sizeofUdpHeader + data.length) % 2 ^ 16) = udpSegment srcPort destPort received data := by
      rw [Nat.mod_eq_of_lt (by omega)]
      exact take_of_length_le (Nat.le_of_eq (length_udpSegment _ _ _ _))
    rw [hwhole, show clearHalf (udpSegment srcPort destPort received data) 6 =
      udpSegment srcPort destPort 0 data from rfl, hk]
    rw [if_neg (by omega), if_neg (by omega), if_neg (by omega),
      if_neg fun hbad => hbad.2 hreceived]
    rfl

/-- The receiver has the address and accepts what comes from the sender. -/
structure Reaches (c r : Config) (destIp : Ip) : Prop where
  owns : r.myIp = destIp
  source : isBogonSource r c.myIp = false
  unicast : isMulticast destIp = false
  srcMac : c.myMac.length = 6
  destMac : r.myMac.length = 6

theorem handleIp_sentBody (h : Reaches c r destIp)
    (hroom : sizeofIpHeader + sizeofUdpHeader + data.length < 2 ^ 16) :
    handleIp r true (sentBody c destIp srcPort destPort data) = some .udp := by
  have hheader : HasHeader (sentBody c destIp srcPort destPort data) c.myIp destIp
      (sizeofIpHeader + (sizeofUdpHeader + data.length)) _ := ipHeader_hasHeader _ _ _ _ _
  have hchecksum : calculateChecksum
      (clearHalf ((sentBody c destIp srcPort destPort data).take sizeofIpHeader) 10) =
        (sentBody c destIp srcPort destPort data).half 10 := ipHeader_checksum _ _ _ _
  have hlength := hheader.length
  rw [length_udpSegment] at hlength
  have hcheck : checkIp r (sentBody c destIp srcPort destPort data) = true := by
    simp only [checkIp, hheader.ihl, hheader.totalLength, hheader.fragment, hheader.srcIp,
      hheader.dstIp, hchecksum, hlength, h.source, h.unicast, isForOurIp, h.owns, Bool.and_eq_true,
      Bool.or_eq_true, decide_eq_true_eq, Bool.not_false, and_true, true_or]
    refine ⟨⟨⟨⟨by omega, by omega⟩, by omega⟩, by decide⟩, by decide⟩
  simp only [handleIp, hcheck, hheader.protocol, hheader.totalLength, hheader.ihl]
  rw [if_neg (by decide), if_neg (by decide), if_neg (by decide), if_pos trivial, if_neg (by
    omega)]

theorem body_sendUdpPacket (h : Reaches c r destIp) :
    (sendUdpPacket c destIp r.myMac srcPort destPort data).body =
      sentBody c destIp srcPort destPort data := by
  have hmacs : (r.myMac ++ c.myMac ++ putHalf ethTypeIpv4).length = sizeofEthHeader := by
    rw [length_append, length_append, h.srcMac, h.destMac]
    rfl
  show List.drop sizeofEthHeader _ = _
  rw [sendUdpPacket, append_assoc (_ ++ _ ++ _), ← hmacs, drop_left]
  rfl

theorem handleIpFrame_sendUdpPacket (h : Reaches c r destIp) :
    handleIpFrame r true (sendUdpPacket c destIp r.myMac srcPort destPort data) =
      handleIp r true (sentBody c destIp srcPort destPort data) := by
  have hframe : sendUdpPacket c destIp r.myMac srcPort destPort data =
      (r.myMac ++ c.myMac) ++ (putHalf ethTypeIpv4 ++ sentBody c destIp srcPort destPort data) := by
    simp only [sendUdpPacket, sentBody, append_assoc]
  have hbody : (sendUdpPacket c destIp r.myMac srcPort destPort data).body = _ := body_sendUdpPacket h
  generalize sendUdpPacket c destIp r.myMac srcPort destPort data = frame at hframe hbody ⊢
  have hlength : frame.length = sizeofEthHeader + sizeofIpHeader + (sizeofUdpHeader + data.length) := by
    have hheader : HasHeader (sentBody c destIp srcPort destPort data) c.myIp destIp
        (sizeofIpHeader + (sizeofUdpHeader + data.length)) _ := ipHeader_hasHeader _ _ _ _ _
    rw [hframe, length_append, length_append, length_append, hheader.length,
      length_udpSegment, h.srcMac, h.destMac]
    show 6 + 6 + (2 + _) = 14 + _ + _
    omega
  have hforUs : isForUs r frame = true := by
    have hdest : Frame.destMac frame = r.myMac := by
      rw [Frame.destMac, hframe, append_assoc, ← h.destMac, take_left]
    simp [isForUs, hdest]
  have htype : Frame.ethertype frame = ethTypeIpv4 := by
    have hmacs : (r.myMac ++ c.myMac).length = 12 := by
      rw [length_append, h.srcMac, h.destMac]
    have hbyte : ∀ k (rest : List UInt8),
        Packet.byte (r.myMac ++ c.myMac ++ rest) (12 + k) = Packet.byte rest k := by
      intro k rest
      rw [Packet.byte, Packet.byte, getD_eq_getElem?_getD, getElem?_append_right (by omega),
        hmacs, Nat.add_sub_cancel_left, getD_eq_getElem?_getD]
    rw [Frame.ethertype, hframe, Packet.half, hbyte 0, hbyte 1]
    exact half_putHalf ethTypeIpv4 _
  unfold handleIpFrame
  rw [if_neg (by omega), if_neg (by rw [hforUs]; exact Bool.noConfusion), if_neg (by
    rw [htype]
    exact fun hne => hne rfl), if_neg (by omega), hbody]

/-- A datagram that is sent to a host which accepts it arrives as it was sent just if its length fits
into the header and its checksum is not zero. -/
theorem udp_datagram_arrives_iff (h : Reaches c r destIp) :
    receiveUdp r true (sendUdpPacket c destIp r.myMac srcPort destPort data) =
        some ⟨udpHandler srcPort destPort, c.myIp, srcPort, destPort, data⟩ ↔
      data.length ≤ 65507 ∧ udpSum c.myIp destIp srcPort destPort data % 65535 ≠ 0 := by
  have hudp : sizeofUdpHeader = 8 := rfl
  have hip : sizeofIpHeader = 20 := rfl
  rw [receiveUdp, handleIpFrame_sendUdpPacket h, body_sendUdpPacket h]
  constructor
  · intro heq
    split at heq
    · exact handleUdp_sentBody.mp heq
    · cases heq
  · intro hcond
    rw [handleIp_sentBody h (by omega)]
    exact handleUdp_sentBody.mpr hcond

end loop

/-- 10.7.0.1 -/
def receiver : Config where
  myIp := 0x0A070001
  myMac := [0x52, 0x54, 0, 0x12, 0x34, 0x56]
  subnetMask := 0xFFFFFF00
  gatewayIp := 0x0A0700FE

/-- 10.7.0.2 -/
def sender : Config := { receiver with myIp := 0x0A070002, myMac := [0x52, 0x54, 0, 0x12, 0x34, 0x57] }

theorem sender_reaches : Reaches sender receiver receiver.myIp where
  owns := rfl
  source := by decide
  unicast := by decide
  srcMac := rfl
  destMac := rfl

theorem udp_datagram_arrives_from_sender :
    receiveUdp receiver true (sendUdpPacket sender receiver.myIp receiver.myMac 53 4000 [1, 2]) =
      some ⟨some .dns, sender.myIp, 53, 4000, [1, 2]⟩ :=
  (udp_datagram_arrives_iff sender_reaches).mpr (by decide)

/-- The sum of this datagram is a multiple of 65535: it is sent with the checksum 0xFFFF, for which the
receiver computes 0, and dropped. -/
theorem zero_checksum_is_dropped :
    handleIpFrame receiver true (sendUdpPacket sender receiver.myIp receiver.myMac 53 4000 [0xDB, 0xF4]) =
      some .udp ∧
    receiveUdp receiver true (sendUdpPacket sender receiver.myIp receiver.myMac 53 4000 [0xDB, 0xF4]) =
      none := by
  decide

end TinyOS.Net
