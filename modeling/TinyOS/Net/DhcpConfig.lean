import TinyOS.Lib.LowMask
import TinyOS.Net.Dhcp
import Mathlib.Data.List.Induction

/-!
# What DHCP configures

An OFFER that is accepted is sound, and while the client has one all of its configuration is what that
OFFER said. From the two follows what is applied in any run.
-/

namespace TinyOS.Net.Dhcp

open Firewall (Packet)

/-! ## Sound configurations -/

/-- The address is neither that of the network nor the one for broadcasts. -/
def IsHost (hostBits : Nat) (ip : Ip) : Prop :=
  ip.toNat % 2 ^ hostBits ≠ 0 ∧ ip.toNat % 2 ^ hostBits ≠ 2 ^ hostBits - 1

def SameSubnet (hostBits : Nat) (a b : Ip) : Prop := a.toNat / 2 ^ hostBits = b.toNat / 2 ^ hostBits

/-- A usable address in a subnet from /8 to /30, and a router in it if there is one. -/
structure SoundConfig (ip mask router : Ip) : Prop where
  notSpecial : firstByte ip ≠ 0 ∧ firstByte ip ≠ 127 ∧ firstByte ip < 224
  subnet : ∃ hostBits, 2 ≤ hostBits ∧ hostBits ≤ 24 ∧ mask.toNat = 2 ^ 32 - 2 ^ hostBits ∧
    IsHost hostBits ip ∧
    (router = 0 ∨ router ≠ ip ∧ IsHost hostBits router ∧ SameSubnet hostBits router ip)

theorem toNat_not_mask (mask : Ip) : (~~~mask).toNat = 2 ^ 32 - 1 - mask.toNat :=
  UInt32.toNat_not mask

theorem dhcpMaskIsValid_spec {mask : Ip} (h : dhcpMaskIsValid mask = true) :
    ∃ hostBits, 2 ≤ hostBits ∧ hostBits ≤ 24 ∧ (~~~mask).toNat + 1 = 2 ^ hostBits := by
  simp only [dhcpMaskIsValid, Bool.and_eq_true, decide_eq_true_eq] at h
  obtain ⟨⟨hholes, hhigh⟩, hlow⟩ := h
  have hlt := mask.toNat_lt
  have hnot := toNat_not_mask mask
  have hbig : 2 ^ 32 - 2 ^ 24 ≤ mask.toNat := by
    have hle : (mask &&& 0xFF000000).toNat ≤ mask.toNat := by
      exact Nat.and_le_left
    rw [hhigh] at hle
    exact hle
  have hmod : mask.toNat % 4 = 0 := by
    have hand := LowMask.toNat_and (m := 3) (j := 2) rfl mask
    rw [hlow] at hand
    exact hand.symm
  have hpow : (~~~mask).toNat &&& ((~~~mask).toNat + 1) = 0 := by
    have hand := congrArg UInt32.toNat hholes
    rw [UInt32.toNat_and, UInt32.toNat_add, show UInt32.toNat 1 = 1 from rfl,
      Nat.mod_eq_of_lt (by omega)] at hand
    exact hand
  obtain ⟨hostBits, hbits⟩ := LowMask.exists_two_pow hpow
  refine ⟨hostBits, ?_, ?_, hbits⟩
  · -- The two low bits of the mask are clear.
    by_contra hfew
    have hcases : hostBits = 0 ∨ hostBits = 1 := by omega
    rcases hcases with rfl | rfl
    · omega
    · omega
  · refine (Nat.pow_le_pow_iff_right (show 1 < 2 by omega)).mp ?_
    omega

theorem isHost_of_check {ip mask : Ip} {hostBits : Nat} (hbits : (~~~mask).toNat + 1 = 2 ^ hostBits)
    (h : dhcpIpIsNetOrBcast ip mask = false) : IsHost hostBits ip := by
  simp only [dhcpIpIsNetOrBcast, Bool.or_eq_false_iff, decide_eq_false_iff_not,
    ← UInt32.toNat_inj, LowMask.toNat_and hbits] at h
  refine ⟨h.1, ?_⟩
  rw [← hbits, Nat.add_sub_cancel, hbits]
  exact h.2

theorem sameSubnet_of_check {a b mask : Ip} {hostBits : Nat}
    (hbits : (~~~mask).toNat + 1 = 2 ^ hostBits) (h : dhcpSameSubnet a b mask = true) :
    SameSubnet hostBits a b := by
  refine LowMask.div_eq_of_and_not_eq hbits ?_
  rw [UInt32.not_not]
  exact of_decide_eq_true h

theorem classfulMask_valid (ip : Ip) : dhcpMaskIsValid (classfulMask ip) = true := by
  unfold classfulMask
  split
  · decide
  split
  · decide
  · decide

variable {p : Packet}

/-- An OFFER that is accepted is sound, and it names its server. -/
theorem dhcpOfferIsValid_spec (h : dhcpOfferIsValid p = true) :
    (optionsOf p).serverIp ≠ 0 ∧ SoundConfig (yiaddr p) (offeredMask p) (optionsOf p).router := by
  simp only [dhcpOfferIsValid, Bool.and_eq_true, Bool.or_eq_true, Bool.not_eq_true',
    decide_eq_true_eq] at h
  obtain ⟨⟨⟨⟨⟨hserver, hspecial⟩, hmask⟩, hhost⟩, hrouter⟩, -⟩ := h
  have hvalid : dhcpMaskIsValid (offeredMask p) = true := by
    rcases hmask with habsent | hvalid
    · rw [offeredMask, habsent]
      exact classfulMask_valid _
    · exact hvalid
  obtain ⟨hostBits, hmin, hmax, hbits⟩ := dhcpMaskIsValid_spec hvalid
  refine ⟨hserver, ?_, hostBits, hmin, hmax, ?_, isHost_of_check hbits hhost, ?_⟩
  · simp only [dhcpIpIsSpecial, Bool.or_eq_false_iff, decide_eq_false_iff_not] at hspecial
    exact ⟨hspecial.1.1, hspecial.1.2, Std.not_le.mp hspecial.2⟩
  · have hlt := (offeredMask p).toNat_lt
    have hnot := toNat_not_mask (offeredMask p)
    omega
  · refine hrouter.imp id fun hok => ⟨hok.1.2, isHost_of_check hbits hok.2, ?_⟩
    exact sameSubnet_of_check hbits hok.1.1

/-! ## The stored OFFER -/

/-- What an OFFER says. -/
structure Offer where
  serverIp : Ip
  ip : Ip
  mask : Ip
  router : Ip
  dns : Ip

def offerOf (p : Packet) : Offer :=
  ⟨(optionsOf p).serverIp, yiaddr p, offeredMask p, (optionsOf p).router, (optionsOf p).dnsServer⟩

def Client.stored (c : Client) : Offer :=
  ⟨c.serverIp, c.offeredIp, c.subnetMask, c.routerIp, c.dnsServer⟩

/-- The client has accepted an OFFER. -/
def DhcpState.HasOffer (s : DhcpState) : Prop := s ≠ .init ∧ s ≠ .selecting

/-- The OFFER that the client would accept. -/
structure AcceptsOffer (c : Client) (p : Packet) : Prop where
  reply : isReply c.xid p = true
  type : (optionsOf p).msgType = dhcpOffer
  valid : dhcpOfferIsValid p = true

theorem DhcpState.HasOffer.of_awaitsReply {s : DhcpState} (h : s.awaitsReply = true) : s.HasOffer := by
  cases s with
  | init => cases h
  | selecting => cases h
  | _ => exact ⟨DhcpState.noConfusion, DhcpState.noConfusion⟩

theorem dhcpTick_stored {c : Client} {now : Nat} {random : UInt32}
    (h : (dhcpTick c now random).state.HasOffer) :
    c.state.HasOffer ∧ (dhcpTick c now random).stored = c.stored := by
  revert h
  fun_cases dhcpTick c now random <;> intro h
  case case2 | case4 | case6 =>
    refine ⟨?_, rfl⟩
    rw [‹c.state = _›]
    exact ⟨DhcpState.noConfusion, DhcpState.noConfusion⟩
  all_goals exact ⟨h, rfl⟩

/-- The message is an ACK for what the client has stored, and this is put in force. -/
structure Acknowledges (c : Client) (p : Packet) (l : Lease) : Prop where
  reply : isReply c.xid p = true
  type : (optionsOf p).msgType = dhcpAck
  awaited : c.state.awaitsReply = true
  server : (optionsOf p).serverIp = c.serverIp
  address : yiaddr p = c.offeredIp
  ip : l.ip = c.offeredIp
  mask : l.mask = c.subnetMask
  router : l.router = c.routerIp
  dns : l.dns = c.dnsServer

/-- What a message can do to the client, and the lease that is then applied. -/
inductive Handled (c : Client) (now : Nat) (p : Packet) (xidRandom : UInt32) :
    Client × Option Lease → Prop
  | ignored : Handled c now p xidRandom (c, none)
  | offer {c' : Client} : AcceptsOffer c p → c.state = .selecting → c'.state = .requesting →
      c'.stored = offerOf p → Handled c now p xidRandom (c', none)
  | nak : c.state.awaitsReply = true →
      Handled c now p xidRandom (dhcpStart { c with state := .init } xidRandom, none)
  | ack {c' : Client} {l : Lease} : Acknowledges c p l → l.start = now → c'.stored = c.stored →
      c'.configured = true → c'.renewalTime = UInt32.ofNat l.start + l.t1 →
        Handled c now p xidRandom (c', some l)

theorem handleDhcp_handled (c : Client) (now : Nat) (p : Packet) (xidRandom jitterRandom : UInt32) :
    Handled c now p xidRandom (handleDhcp c now p xidRandom jitterRandom) := by
  fun_cases handleDhcp c now p xidRandom jitterRandom with
  | case1 | case5 => exact .ignored
  | case2 hreply htype =>
    fun_cases handleOffer c p with
    | case1 | case2 => exact .ignored
    | case3 hstate hvalid =>
      exact .offer ⟨Bool.not_eq_false _ ▸ hreply, htype, Bool.not_eq_false _ ▸ hvalid⟩
        (Decidable.not_not.mp hstate) rfl rfl
  | case3 hreply hoffer htype =>
    fun_cases handleAck c now p jitterRandom with
    | case1 | case2 | case3 => exact .ignored
    | case4 o hawaits hserver haddress leaseTime t1 =>
      have hip := Decidable.not_not.mp haddress
      refine .ack ?_ rfl rfl rfl rfl
      exact
        { reply := Bool.not_eq_false _ ▸ hreply
          type := htype
          awaited := Bool.not_eq_false _ ▸ hawaits
          server := Decidable.not_not.mp fun hne => hserver (.inr hne)
          address := hip
          ip := hip
          mask := rfl
          router := rfl
          dns := rfl }
  | case4 =>
    fun_cases handleNak c p xidRandom with
    | case1 o hnak => exact .nak hnak.1
    | case2 => exact .ignored

/-- What is stored was there before, or a message is an OFFER that is accepted. -/
theorem handleDhcp_stored {c : Client} {now : Nat} {xidRandom jitterRandom : UInt32}
    (h : (handleDhcp c now p xidRandom jitterRandom).1.state.HasOffer) :
    (c.state.HasOffer ∧ (handleDhcp c now p xidRandom jitterRandom).1.stored = c.stored) ∨
      AcceptsOffer c p ∧ (handleDhcp c now p xidRandom jitterRandom).1.stored = offerOf p := by
  have hhandled := handleDhcp_handled c now p xidRandom jitterRandom
  generalize handleDhcp c now p xidRandom jitterRandom = r at h hhandled ⊢
  cases hhandled with
  | ignored => exact .inl ⟨h, rfl⟩
  | offer haccepts _ _ hstored => exact .inr ⟨haccepts, hstored⟩
  | nak => exact absurd rfl h.2
  | ack hack _ hstored => exact .inl ⟨.of_awaitsReply hack.awaited, hstored⟩

theorem client_dhcpEvent_datagram (h : Host) (p : Packet) (xidRandom jitterRandom : UInt32) :
    (dhcpEvent h (.datagram p xidRandom jitterRandom)).1.client =
      (handleDhcp h.client h.now p xidRandom jitterRandom).1 := by
  simp only [dhcpEvent]
  split
  · rfl
  · rfl

/-- The message came in this run, when the client accepted it. -/
def Received (booted : Host) (events : List Timed) (p : Packet) : Prop :=
  ∃ before elapsed xidRandom jitterRandom after,
    events = before ++ ⟨elapsed, .datagram p xidRandom jitterRandom⟩ :: after ∧
      AcceptsOffer (dhcpRun booted before).client p

theorem Received.concat {booted : Host} {events : List Timed}
    (h : Received booted events p) (e : Timed) : Received booted (events ++ [e]) p := by
  obtain ⟨before, elapsed, x, j, after, rfl, haccepts⟩ := h
  exact ⟨before, elapsed, x, j, after ++ [e], by simp, haccepts⟩

/-- While the client has an OFFER, it is one that came in the run. -/
theorem stored_of_run {booted : Host} (hbooted : Booted booted) {events : List Timed}
    (h : (dhcpRun booted events).client.state.HasOffer) :
    ∃ p, Received booted events p ∧ (dhcpRun booted events).client.stored = offerOf p := by
  induction events using List.reverseRecOn with
  | nil =>
    have hinit : (dhcpRun booted []).client = dhcpInit := hbooted.client
    rw [hinit] at h
    exact absurd rfl h.1
  | append_singleton events e ih =>
    have hkept : ∀ c : Client, (dhcpRun booted events).client.state.HasOffer ∧
        c.stored = (dhcpRun booted events).client.stored →
        ∃ p, Received booted (events ++ [e]) p ∧ c.stored = offerOf p := by
      intro c hsame
      obtain ⟨p, hreceived, hstored⟩ := ih hsame.1
      exact ⟨p, hreceived.concat e, hsame.2.trans hstored⟩
    rw [dhcpRun_concat] at h ⊢
    obtain ⟨elapsed, event⟩ := e
    cases event with
    | start random => exact absurd rfl h.2
    | tick random => exact hkept _ (dhcpTick_stored h)
    | datagram p xidRandom jitterRandom =>
      have hclient := client_dhcpEvent_datagram ((dhcpRun booted events).wait elapsed) p xidRandom
      rw [dhcpStep, hclient] at h ⊢
      rcases handleDhcp_stored h with hsame | ⟨haccepts, hstored⟩
      · exact hkept _ hsame
      · exact ⟨p, ⟨events, elapsed, xidRandom, jitterRandom, [], rfl, haccepts⟩, hstored⟩

/-! ## What is applied -/

theorem handleDhcp_lease {c : Client} {now : Nat} {xidRandom jitterRandom : UInt32}
    {l : Lease} (h : (handleDhcp c now p xidRandom jitterRandom).2 = some l) : Acknowledges c p l := by
  have hhandled := handleDhcp_handled c now p xidRandom jitterRandom
  generalize handleDhcp c now p xidRandom jitterRandom = r at h hhandled
  cases hhandled with
  | ignored | offer | nak => cases h
  | ack hack =>
    cases h
    exact hack

/-- The step that applies a configuration is the receipt of an ACK. -/
theorem dhcpStep_lease {h : Host} {e : Timed} {l : Lease} (happlied : (dhcpStep h e).2 = some l) :
    ∃ ack xidRandom jitterRandom, e.event = .datagram ack xidRandom jitterRandom ∧
      Acknowledges h.client ack l := by
  obtain ⟨elapsed, event⟩ := e
  cases event with
  | start random => cases happlied
  | tick random => cases happlied
  | datagram p xidRandom jitterRandom =>
    refine ⟨p, xidRandom, jitterRandom, rfl, ?_⟩
    simp only [dhcpStep, dhcpEvent] at happlied
    split at happlied
    · cases happlied
    rename_i l' hhandled
    rw [← Option.some.inj happlied]
    exact handleDhcp_lease hhandled

/-- An OFFER of the run and an ACK agree on this configuration. -/
structure Agreed (booted : Host) (events : List Timed) (offer ack : Packet) (l : Lease) : Prop where
  received : Received booted events offer
  server : (optionsOf offer).serverIp ≠ 0
  ip : l.ip = yiaddr offer
  mask : l.mask = offeredMask offer
  router : l.router = (optionsOf offer).router
  dns : l.dns = (optionsOf offer).dnsServer
  ackType : (optionsOf ack).msgType = dhcpAck
  ackServer : (optionsOf ack).serverIp = (optionsOf offer).serverIp
  ackAddress : yiaddr ack = yiaddr offer
  ackXid : xidOf ack = (dhcpRun booted events).client.xid

/-- Every configuration that is applied is sound and all of it is from one OFFER, whose server has
acknowledged it in the current transaction. -/
theorem applied_configuration_is_sound {booted : Host} (hbooted : Booted booted)
    {events : List Timed} {e : Timed} {l : Lease}
    (happlied : (dhcpStep (dhcpRun booted events) e).2 = some l) :
    SoundConfig l.ip l.mask l.router ∧ ∃ offer ack xidRandom jitterRandom,
      e.event = .datagram ack xidRandom jitterRandom ∧ Agreed booted events offer ack l := by
  obtain ⟨ack, xidRandom, jitterRandom, hevent, hack⟩ := dhcpStep_lease happlied
  obtain ⟨offer, hreceived, hstored⟩ :=
    stored_of_run hbooted (DhcpState.HasOffer.of_awaitsReply hack.awaited)
  have hvalid : dhcpOfferIsValid offer = true := by
    obtain ⟨_, _, _, _, _, _, haccepts⟩ := hreceived
    exact haccepts.valid
  have hsound := dhcpOfferIsValid_spec hvalid
  have hagreed : Agreed booted events offer ack l :=
    { received := hreceived
      server := hsound.1
      ip := hack.ip.trans (congrArg Offer.ip hstored)
      mask := hack.mask.trans (congrArg Offer.mask hstored)
      router := hack.router.trans (congrArg Offer.router hstored)
      dns := hack.dns.trans (congrArg Offer.dns hstored)
      ackType := hack.type
      ackServer := hack.server.trans (congrArg Offer.serverIp hstored)
      ackAddress := hack.address.trans (congrArg Offer.ip hstored)
      ackXid := by
        have hreply := hack.reply
        simp only [isReply, Bool.and_eq_true, decide_eq_true_eq] at hreply
        exact hreply.1.2 }
  rw [hagreed.ip, hagreed.mask, hagreed.router]
  exact ⟨hsound.2, offer, ack, xidRandom, jitterRandom, hevent, hagreed⟩

/-! ## A lease of one hour -/

/-- A message of the server 10.7.0.254 about the address 10.7.0.5, in transaction 9. -/
def sampleMessage (msgType : UInt8) : Packet :=
  [2, 1, 6, 0, 0, 0, 0, 9] ++ List.replicate 8 0 ++ [10, 7, 0, 5] ++ List.replicate 216 0 ++
    [0x63, 0x82, 0x53, 0x63] ++ [53, 1, msgType, 54, 4, 10, 7, 0, 254, 1, 4, 255, 255, 255, 0,
      3, 4, 10, 7, 0, 254, 51, 4, 0, 0, 0x0E, 0x10, 255]

def sampleHost : Host where
  client := dhcpInit
  config := ⟨0, [], 0, 0⟩
  dnsServer := 0x08080808
  now := 0
  lease := none

/-- Discovery and an OFFER. -/
def sampleEvents : List Timed :=
  [⟨100, .start 9⟩, ⟨10, .datagram (sampleMessage dhcpOffer) 0 0⟩]

def sampleLease : Lease where
  ip := 0x0A070005
  mask := 0xFFFFFF00
  router := 0x0A0700FE
  dns := 0
  leaseTime := 3600
  start := 120
  t1 := 162000

theorem sample_applied :
    (dhcpStep (dhcpRun sampleHost sampleEvents) ⟨10, .datagram (sampleMessage dhcpAck) 0 0⟩).2 =
      some sampleLease := by
  decide +kernel

theorem applied_configuration_is_sound_for_sample :
    SoundConfig 0x0A070005 0xFFFFFF00 0x0A0700FE ∧ ∃ offer ack xidRandom jitterRandom,
      Event.datagram (sampleMessage dhcpAck) 0 0 = .datagram ack xidRandom jitterRandom ∧
        Agreed sampleHost sampleEvents offer ack sampleLease :=
  applied_configuration_is_sound ⟨rfl, rfl⟩ sample_applied

end TinyOS.Net.Dhcp
