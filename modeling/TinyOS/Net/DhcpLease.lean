import TinyOS.Net.DhcpConfig

/-!
# How long a lease is used

After the end of a lease its address should not be used any more, and before the time for renewing it,
T1, the client should stay in BOUND. `dhcp_tick` does not see to the first: it looks for the end of the
lease only in REBINDING, which it reaches at the third call at the earliest, and nothing ever takes the
address from `my_ip`. As to the second, it compares the tick counter with `renewal_time` as numbers, so
that a client whose T1 lies behind a wrap of the counter leaves BOUND at once.
-/

namespace TinyOS.Net.Dhcp

open Firewall (Packet)

/-- The tick from which the lease is renewed. -/
def Lease.renewal (l : Lease) : Nat := l.start + l.t1.toNat

/-- The lease is over. -/
def Lease.PastEnd (l : Lease) (now : Nat) : Prop := l.start + l.leaseTime.toNat * 100 < now

/-- After the event, a lease that is over is not in use. -/
def ReleasesAtEnd (h : Host) (e : Event) : Prop :=
  ∀ l, (dhcpEvent h e).1.lease = some l → l.PastEnd h.now →
    (dhcpEvent h e).1.client.configured = false ∧ (dhcpEvent h e).1.config.myIp ≠ l.ip

/-- The event does not take the client out of BOUND before T1. -/
def StaysBound (h : Host) (e : Event) : Prop :=
  ∀ l, h.lease = some l → h.client.state = .bound → h.now < l.renewal →
    (dhcpEvent h e).1.client.state = .bound

/-- The lease is respected when this event comes. `dhcp_start` is for the user to call at any time. -/
def RespectsLease (h : Host) : Event → Prop
  | .start _ => True
  | .tick random => ReleasesAtEnd h (.tick random) ∧ StaysBound h (.tick random)
  | .datagram p xidRandom jitterRandom => StaysBound h (.datagram p xidRandom jitterRandom)

/-- A tick comes before the end of the lease, and one in BOUND before T1 comes after the last wrap of the
counter before T1. -/
def Timely (h : Host) : Event → Prop
  | .tick _ => ∀ l, h.lease = some l → ¬l.PastEnd h.now ∧
      (h.client.state = .bound → h.now < l.renewal → h.now / 2 ^ 32 = l.renewal / 2 ^ 32)
  | _ => True

/-! ## What the variables say about the lease -/

/-- The address of the lease is in use, and in BOUND the renewal is due at T1. -/
structure LeaseInv (h : Host) (l : Lease) : Prop where
  inUse : h.config.myIp = l.ip
  started : l.start ≤ h.now
  configured : h.client.state = .bound → h.client.configured = true
  renewal : h.client.state = .bound → h.client.renewalTime = UInt32.ofNat l.start + l.t1

theorem LeaseInv.wait {h : Host} {l : Lease} (hinv : LeaseInv h l) (elapsed : Nat) :
    LeaseInv (h.wait elapsed) l :=
  { hinv with started := Nat.le_add_right_of_le hinv.started }

/-- The step does not bring the client to BOUND and leaves what counts there. -/
theorem LeaseInv.of_client {h : Host} {l : Lease} (hinv : LeaseInv h l) {c : Client}
    (hc : c.state = .bound → c = h.client) : LeaseInv { h with client := c } l where
  inUse := hinv.inUse
  started := hinv.started
  configured := by
    intro hbound
    obtain rfl := hc hbound
    exact hinv.configured hbound
  renewal := by
    intro hbound
    obtain rfl := hc hbound
    exact hinv.renewal hbound

theorem dhcpTick_bound {c : Client} {now : Nat} {random : UInt32}
    (h : (dhcpTick c now random).state = .bound) : dhcpTick c now random = c := by
  revert h
  fun_cases dhcpTick c now random <;> intro h
  case case2 | case4 | case6 => cases h
  all_goals rfl

/-- A message that applies nothing does not bring the client to BOUND. -/
theorem handleDhcp_bound {c : Client} {now : Nat} {p : Packet} {xidRandom jitterRandom : UInt32}
    (hnone : (handleDhcp c now p xidRandom jitterRandom).2 = none)
    (h : (handleDhcp c now p xidRandom jitterRandom).1.state = .bound) :
    (handleDhcp c now p xidRandom jitterRandom).1 = c := by
  have hhandled := handleDhcp_handled c now p xidRandom jitterRandom
  generalize handleDhcp c now p xidRandom jitterRandom = r at h hnone hhandled ⊢
  cases hhandled with
  | ignored => rfl
  | offer _ _ hstate => cases hstate.symm.trans h
  | nak => cases h
  | ack => cases hnone

/-- A lease that is applied begins now, and the client is in BOUND with its T1. -/
theorem handleDhcp_applies {c : Client} {now : Nat} {p : Packet} {xidRandom jitterRandom : UInt32}
    {l : Lease} (h : (handleDhcp c now p xidRandom jitterRandom).2 = some l) :
    l.start = now ∧ (handleDhcp c now p xidRandom jitterRandom).1.configured = true ∧
      (handleDhcp c now p xidRandom jitterRandom).1.renewalTime = UInt32.ofNat l.start + l.t1 := by
  have hhandled := handleDhcp_handled c now p xidRandom jitterRandom
  generalize handleDhcp c now p xidRandom jitterRandom = r at h hhandled ⊢
  cases hhandled with
  | ignored | offer | nak => cases h
  | ack _ hstart _ hconfigured hrenewal =>
    cases h
    exact ⟨hstart, hconfigured, hrenewal⟩

theorem leaseInv_event {h : Host} {e : Event} (hinv : ∀ l, h.lease = some l → LeaseInv h l) :
    ∀ l, (dhcpEvent h e).1.lease = some l → LeaseInv (dhcpEvent h e).1 l := by
  intro l hlease
  cases e with
  | start random => exact (hinv l hlease).of_client fun hbound => DhcpState.noConfusion hbound
  | tick random => exact (hinv l hlease).of_client dhcpTick_bound
  | datagram p xidRandom jitterRandom =>
    simp only [dhcpEvent] at hlease ⊢
    split at hlease
    · rename_i hnone
      exact (hinv l hlease).of_client (handleDhcp_bound hnone)
    rename_i l' hsome
    have hl : l' = l := Option.some.inj hlease
    subst hl
    have happlied := handleDhcp_applies hsome
    exact
      { inUse := rfl
        started := Nat.le_of_eq happlied.1
        configured := fun _ => happlied.2.1
        renewal := fun _ => happlied.2.2 }

theorem leaseInv_run {booted : Host} (hbooted : Booted booted) (events : List Timed) :
    ∀ l, (dhcpRun booted events).lease = some l → LeaseInv (dhcpRun booted events) l := by
  induction events using List.reverseRecOn with
  | nil =>
    intro l hlease
    have hnone : (dhcpRun booted []).lease = none := hbooted.lease
    rw [hnone] at hlease
    cases hlease
  | append_singleton events e ih =>
    rw [dhcpRun_concat]
    exact leaseInv_event fun l hlease => (ih l hlease).wait e.elapsed

/-! ## When it is respected -/

/-- The counter has not reached the renewal time, as a number, just if there is no wrap before T1. -/
theorem not_due_iff {now start t1 : Nat} (hstart : start ≤ now) (ht1 : t1 < 2 ^ 32)
    (hearly : now < start + t1) :
    now % 2 ^ 32 < (start + t1) % 2 ^ 32 ↔ now / 2 ^ 32 = (start + t1) / 2 ^ 32 := by
  constructor
  · omega
  · omega

theorem renewalTime_le_iff (now start : Nat) (t1 : UInt32) :
    UInt32.ofNat start + t1 ≤ UInt32.ofNat now ↔
      (start + t1.toNat) % 2 ^ 32 ≤ now % 2 ^ 32 := by
  rw [UInt32.le_iff_toNat_le, UInt32.toNat_add, UInt32.toNat_ofNat', UInt32.toNat_ofNat',
    Nat.mod_add_mod]

/-- In BOUND before T1, a tick leaves the client there just if there is no wrap before T1. -/
theorem stays_bound_iff {h : Host} {l : Lease} (hinv : LeaseInv h l) {random : UInt32}
    (hbound : h.client.state = .bound) (hearly : h.now < l.renewal) :
    (dhcpTick h.client h.now random).state = .bound ↔ h.now / 2 ^ 32 = l.renewal / 2 ^ 32 := by
  have hdue := renewalTime_le_iff h.now l.start l.t1
  have hwrap := not_due_iff hinv.started l.t1.toNat_lt hearly
  unfold dhcpTick
  rw [hinv.configured hbound, if_neg Bool.noConfusion]
  simp only [hbound]
  rw [hinv.renewal hbound]
  constructor
  · intro hstate
    refine hwrap.mp (Nat.lt_of_not_le fun hle => ?_)
    rw [if_pos (hdue.mpr hle)] at hstate
    cases hstate
  · intro heq
    have hlt := hwrap.mpr heq
    rw [if_neg fun hle => absurd (hdue.mp hle) (Nat.not_le_of_lt hlt)]
    exact hbound

theorem handleDhcp_stays_bound {c : Client} (hbound : c.state = .bound) (now : Nat) (p : Packet)
    (xidRandom jitterRandom : UInt32) : (handleDhcp c now p xidRandom jitterRandom).1 = c := by
  have hhandled := handleDhcp_handled c now p xidRandom jitterRandom
  generalize handleDhcp c now p xidRandom jitterRandom = r at hhandled ⊢
  -- nothing is awaited in BOUND
  have hnot : ¬c.state.awaitsReply = true := by
    rw [hbound]
    decide
  cases hhandled with
  | ignored => rfl
  | offer _ hselecting => cases hbound.symm.trans hselecting
  | nak hawaits => exact absurd hawaits hnot
  | ack hack => exact absurd hack.awaited hnot

/-- At every event of every run, the lease is respected just if the event is timely. -/
theorem lease_is_respected_iff {booted : Host} (hbooted : Booted booted) (events : List Timed)
    (elapsed : Nat) (e : Event) :
    RespectsLease ((dhcpRun booted events).wait elapsed) e ↔
      Timely ((dhcpRun booted events).wait elapsed) e := by
  have hinv : ∀ l, ((dhcpRun booted events).wait elapsed).lease = some l →
      LeaseInv ((dhcpRun booted events).wait elapsed) l :=
    fun l hlease => (leaseInv_run hbooted events l hlease).wait elapsed
  cases e with
  | start random => exact Iff.rfl
  | datagram p xidRandom jitterRandom =>
    refine ⟨fun _ => trivial, fun _ l _ hbound _ => ?_⟩
    rw [client_dhcpEvent_datagram, handleDhcp_stays_bound hbound]
    exact hbound
  | tick random =>
    constructor
    · intro hrespects l hlease
      refine ⟨fun hpast => ?_, fun hbound hearly => ?_⟩
      · exact (hrespects.1 l hlease hpast).2 (hinv l hlease).inUse
      · exact (stays_bound_iff (hinv l hlease) hbound hearly).mp
          (hrespects.2 l hlease hbound hearly)
    · intro htimely
      refine ⟨fun l hlease hpast => ?_, fun l hlease hbound hearly => ?_⟩
      · exact absurd hpast (htimely l hlease).1
      · exact (stays_bound_iff (hinv l hlease) hbound hearly).mpr
          ((htimely l hlease).2 hbound hearly)

/-- The client has a lease of one hour. -/
def boundEvents : List Timed := sampleEvents ++ [⟨10, .datagram (sampleMessage dhcpAck) 0 0⟩]

def boundHost : Host where
  client :=
    { state := .bound
      xid := 9
      offeredIp := 0x0A070005
      serverIp := 0x0A0700FE
      subnetMask := 0xFFFFFF00
      routerIp := 0x0A0700FE
      dnsServer := 0
      leaseTime := 3600
      leaseStart := 120
      renewalTime := 162120
      configured := true }
  config := ⟨0x0A070005, [], 0xFFFFFF00, 0x0A0700FE⟩
  dnsServer := 0x08080808
  now := 120
  lease := some sampleLease

theorem dhcpRun_boundEvents : dhcpRun sampleHost boundEvents = boundHost := by
  decide +kernel

theorem lease_is_respected_for_ten_minutes :
    RespectsLease ((dhcpRun sampleHost boundEvents).wait 60000) (.tick 1) := by
  refine (lease_is_respected_iff ⟨rfl, rfl⟩ boundEvents 60000 (.tick 1)).mpr ?_
  rw [dhcpRun_boundEvents]
  intro l hlease
  have hl : sampleLease = l := Option.some.inj hlease
  subst hl
  have hrenewal : sampleLease.renewal = 162120 := by decide
  constructor
  · show ¬(120 + 3600 * 100 < 120 + 60000)
    omega
  · intro _ _
    rw [hrenewal]
    show (120 + 60000) / 2 ^ 32 = _
    omega

/-- Two hours after the ACK, `dhcp_tick` runs for the first time: the lease is over, but the client stays
configured and keeps the address. -/
theorem expired_lease_is_used :
    let h := (dhcpRun sampleHost boundEvents).wait 720000
    sampleLease.PastEnd h.now ∧
    (dhcpEvent h (.tick 1)).1.client.configured = true ∧
    (dhcpEvent h (.tick 1)).1.config.myIp = sampleLease.ip ∧
    ¬RespectsLease h (.tick 1) := by
  rw [dhcpRun_boundEvents]
  have hpast : sampleLease.PastEnd (boundHost.wait 720000).now := by
    show 120 + 3600 * 100 < 120 + 720000
    omega
  have hconfigured : (dhcpEvent (boundHost.wait 720000) (.tick 1)).1.client.configured = true := by
    decide
  refine ⟨hpast, hconfigured, rfl, fun hrespects => ?_⟩
  have hreleased := (hrespects.1 sampleLease rfl hpast).1
  cases hreleased

end TinyOS.Net.Dhcp
