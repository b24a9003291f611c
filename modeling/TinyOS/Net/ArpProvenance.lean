import TinyOS.Net.Arp

/-!
# Where the mappings in the ARP cache come from

A mapping should enter the cache only by an ARP reply to a request that this host has sent in the last ten
seconds. The cache does ask for a pending request, but not for a reply: while a request is pending, an
ARP request or any IP datagram with that source address is as good as a reply. And it asks for the age
of the request in 32 bits, so that a request which was sent 2^32 ticks ago is new again.

Runs in which neither happens, and in which no configuration turns a cached address into our own or
into a broadcast address, are as they should be.
-/

namespace TinyOS.Net

open TinyOS.Lib Function

variable {s s' : Arp} {ip : Ip} {mac : Mac} {i : Fin arpCacheSize} {e : ArpEvent} {f : Frame}
  {c : Config}

/-! ## What the cache may hold -/

/-- There is a valid entry with this mapping. -/
def Cached (s : Arp) (ip : Ip) (mac : Mac) : Prop :=
  ∃ i, (s.arpCache i).valid = true ∧ (s.arpCache i).ip = ip ∧ (s.arpCache i).mac = mac

def CachedOnce (s : Arp) : Prop :=
  ∀ i j, (s.arpCache i).valid = true → (s.arpCache j).valid = true →
    (s.arpCache i).ip = (s.arpCache j).ip → i = j

/-- Our own address, a broadcast address or a multicast address. -/
def Forbidden (c : Config) (ip : Ip) : Prop :=
  ip = c.myIp ∨ netIsBroadcastIp c ip = true ∨ isMulticast ip = true

def NoneForbidden (s : Arp) : Prop :=
  ∀ i, (s.arpCache i).valid = true → ¬ Forbidden s.config (s.arpCache i).ip

/-- An ARP reply to this host with this sender. -/
structure IsArpReply (c : Config) (f : Frame) (ip : Ip) (mac : Mac) : Prop where
  length : sizeofEthHeader + sizeofArpHeader ≤ f.length
  forUs : isForUs c f = true
  ethertype : f.ethertype = ethTypeArp
  header : f.arp = ⟨1, 0x0800, 6, 4, arpOpReply, mac, ip⟩

/-- The event is an ARP reply with this mapping, and a request for the address is pending that was sent
at most 1000 ticks ago. -/
def Solicited (s : Arp) (e : ArpEvent) (ip : Ip) (mac : Mac) : Prop :=
  ∃ f admitted, e = .frame f admitted ∧ IsArpReply s.config f ip mac ∧
    ∃ i, (s.arpPendingRequests i).pending = true ∧ (s.arpPendingRequests i).ip = ip ∧
      (ip, (s.arpPendingRequests i).lastRequestTime) ∈ s.sent ∧
      (s.arpPendingRequests i).lastRequestTime ≤ s.ticks ∧
      s.ticks ≤ (s.arpPendingRequests i).lastRequestTime + 1000

/-! ## Pending requests -/

/-- The slot has a request for the address that has not expired. -/
def Waits (s : Arp) (ip : Ip) (i : Fin arpMaxPendingRequests) : Prop :=
  (s.arpPendingRequests i).pending = true ∧ (s.arpPendingRequests i).ip = ip ∧
    ¬ arpPendingTimeoutTicks < s.age (s.arpPendingRequests i)

/-- What the code takes for a pending request for the address. -/
def Requested (s : Arp) (ip : Ip) : Prop := ∃ i, Waits s ip i

/-- Requests were dropped, and nothing else happened to anything but the cache. -/
structure Fewer (s s' : Arp) : Prop where
  config : s'.config = s.config
  ticks : s'.ticks = s.ticks
  sent : s'.sent = s.sent
  slot : ∀ i, (s'.arpPendingRequests i).pending = true →
    s'.arpPendingRequests i = s.arpPendingRequests i

theorem Fewer.refl (s : Arp) : Fewer s s := ⟨rfl, rfl, rfl, fun _ _ => rfl⟩

theorem Fewer.trans {s₁ s₂ s₃ : Arp} (h : Fewer s₁ s₂) (h' : Fewer s₂ s₃) : Fewer s₁ s₃ where
  config := h'.config.trans h.config
  ticks := h'.ticks.trans h.ticks
  sent := h'.sent.trans h.sent
  slot i hi := by
    have hsame := h'.slot i hi
    rw [hsame] at hi ⊢
    exact h.slot i hi

theorem fewer_setEntry (s : Arp) (i : Fin arpCacheSize) (e : ArpCacheEntry) :
    Fewer s (s.setEntry i e) :=
  ⟨rfl, rfl, rfl, fun _ _ => rfl⟩

theorem fewer_clear (s : Arp) (ip : Ip) : Fewer s (arpPendingRequestClear s ip) := by
  refine ⟨rfl, rfl, rfl, fun i hi => ?_⟩
  simp only [arpPendingRequestClear] at hi ⊢
  split at hi
  · cases hi
  · rename_i hkeep
    rw [if_neg hkeep]

theorem matchPending_spec (ip : Ip) (slots : List (Fin arpMaxPendingRequests)) (s : Arp) :
    ((matchPending ip slots s).1 = true ↔ ∃ i ∈ slots, Waits s ip i) ∧
      Fewer s (matchPending ip slots s).2 ∧ (matchPending ip slots s).2.arpCache = s.arpCache := by
  induction slots generalizing s with
  | nil => exact ⟨by simp [matchPending], Fewer.refl s, rfl⟩
  | cons i slots ih =>
    simp only [matchPending]
    split
    · rename_i hidle
      have hnot : ¬ Waits s ip i := fun h => by simp [h.1] at hidle
      obtain ⟨hiff, hrest⟩ := ih s
      exact ⟨by simp [hiff, hnot], hrest⟩
    · split
      · rename_i hexpired
        -- A slot that has expired counts for nothing, before it is cleared and after.
        generalize hs₁ : s.setRequest i { s.arpPendingRequests i with pending := false, ip := 0 } = s₁
        have hslot : s₁.arpPendingRequests = update s.arpPendingRequests i
            { s.arpPendingRequests i with pending := false, ip := 0 } := by
          rw [← hs₁]
          rfl
        have hfewer : Fewer s s₁ := by
          refine ⟨by rw [← hs₁]; rfl, by rw [← hs₁]; rfl, by rw [← hs₁]; rfl, fun j hj => ?_⟩
          rw [hslot] at hj ⊢
          by_cases hji : j = i
          · subst hji
            simp at hj
          · rw [update_of_ne hji]
        have hwaits : ∀ j, Waits s₁ ip j ↔ Waits s ip j := by
          intro j
          by_cases hji : j = i
          · subst hji
            constructor
            · intro h
              have := h.1
              rw [hslot] at this
              simp at this
            · intro h
              exact absurd hexpired h.2.2
          · simp only [Waits, hslot, update_of_ne hji, Arp.age, Arp.timerTicks, hfewer.ticks]
        obtain ⟨hiff, hmore, hcache⟩ := ih s₁
        refine ⟨?_, hfewer.trans hmore, by rw [hcache, ← hs₁]; rfl⟩
        have hnot : ¬ Waits s ip i := fun h => h.2.2 hexpired
        rw [hiff]
        simp [hwaits, hnot]
      · rename_i hpending hfresh
        split
        · rename_i heq
          refine ⟨?_, Fewer.refl s, rfl⟩
          simp only [true_iff]
          exact ⟨i, List.mem_cons_self, by simpa using hpending, heq, hfresh⟩
        · rename_i hne
          have hnot : ¬ Waits s ip i := fun h => hne h.2.1
          obtain ⟨hiff, hrest⟩ := ih s
          exact ⟨by simp [hiff, hnot], hrest⟩

/-! ## Updates -/

/-- What `arp_cache_update_status` can do to the cache. -/
inductive Updated (s : Arp) (ip : Ip) (mac : Mac) : (Fin arpCacheSize → ArpCacheEntry) → Prop
  | kept : Updated s ip mac s.arpCache
  | refreshed (i : Fin arpCacheSize) (hvalid : (s.arpCache i).valid = true)
      (hip : (s.arpCache i).ip = ip) (hmac : (s.arpCache i).mac = mac ∨ Requested s ip) :
      Updated s ip mac
        (update s.arpCache i { s.arpCache i with mac := mac, lastUsed := s.timerTicks })
  | learned (i : Fin arpCacheSize) (hrequested : Requested s ip)
      (hnew : ∀ j, (s.arpCache j).valid = true → (s.arpCache j).ip ≠ ip)
      (hallowed : ¬ Forbidden s.config ip) :
      Updated s ip mac (update s.arpCache i ⟨ip, mac, s.timerTicks, true⟩)

theorem store_updated {s₁ : Arp} {pending : Bool} (hfewer : Fewer s s₁)
    (hcache : s₁.arpCache = s.arpCache) (hrequested : pending = true → Requested s ip)
    (hallowed : ¬ Forbidden s.config ip) :
    Fewer s (arpCacheStore s₁ pending ip mac).2 ∧
      Updated s ip mac (arpCacheStore s₁ pending ip mac).2.arpCache := by
  have hnow : s₁.timerTicks = s.timerTicks := by rw [Arp.timerTicks, Arp.timerTicks, hfewer.ticks]
  simp only [arpCacheStore]
  split
  · rename_i i hfind
    have hhit := List.find?_some hfind
    rw [hcache, Bool.and_eq_true, beq_iff_eq] at hhit
    split
    · exact ⟨hfewer, hcache ▸ .kept⟩
    rename_i hchange
    refine ⟨(hfewer.trans (fewer_setEntry s₁ i _)).trans (fewer_clear _ ip), ?_⟩
    show Updated s ip mac (update s₁.arpCache i _)
    rw [hcache, hnow]
    apply Updated.refreshed i hhit.1 hhit.2
    by_cases hsame : (s.arpCache i).mac = mac
    · exact .inl hsame
    right
    apply hrequested
    by_contra hp
    exact hchange ⟨by rw [hcache]; exact hsame, by simpa using hp⟩
  · rename_i hfind
    split
    · exact ⟨hfewer, hcache ▸ .kept⟩
    rename_i hp
    refine ⟨(hfewer.trans (fewer_setEntry s₁ _ _)).trans (fewer_clear _ ip), ?_⟩
    show Updated s ip mac (update s₁.arpCache _ _)
    rw [hcache, hnow]
    apply Updated.learned _ (hrequested (by simpa using hp)) _ hallowed
    intro j hvalid hip
    have hmiss := List.find?_eq_none.mp hfind j (List.mem_finRange j)
    rw [hcache] at hmiss
    simp [hvalid, hip] at hmiss

theorem update_updated (s : Arp) (ip : Ip) (mac : Mac) :
    Fewer s (arpCacheUpdateStatus s ip mac).2 ∧
      Updated s ip mac (arpCacheUpdateStatus s ip mac).2.arpCache := by
  simp only [arpCacheUpdateStatus]
  split
  · exact ⟨Fewer.refl s, .kept⟩
  rename_i hlegal
  split
  · exact ⟨Fewer.refl s, .kept⟩
  rename_i hother
  obtain ⟨hiff, hfewer, hcache⟩ :=
    matchPending_spec ip (List.finRange arpMaxPendingRequests) s
  apply store_updated hfewer hcache
  · intro hp
    obtain ⟨i, -, hi⟩ := hiff.mp hp
    exact ⟨i, hi⟩
  · simp only [isInvalidArpSenderIp, Bool.or_eq_true, not_or] at hlegal
    rintro (hown | hbroadcast | hmulticast)
    · exact hother hown
    · exact hlegal.1.1.1.1 hbroadcast
    · exact hlegal.1.1.2 hmulticast

theorem fewer_dropExpired (s : Arp) : Fewer s (dropExpiredRequests s) := by
  refine ⟨rfl, rfl, rfl, fun i hi => ?_⟩
  simp only [dropExpiredRequests] at hi ⊢
  split at hi
  · cases hi
  · rename_i hkeep
    rw [if_neg hkeep]

theorem sendArpRequest_cases (s : Arp) (ip : Ip) :
    sendArpRequest s ip = s ∨ ∃ s₁ i, Fewer s s₁ ∧ s₁.arpCache = s.arpCache ∧
      sendArpRequest s ip = trackRequest s₁ ip i := by
  simp only [sendArpRequest]
  split
  · split
    · exact .inl rfl
    · exact .inr ⟨s, _, Fewer.refl s, rfl, rfl⟩
  · exact .inr ⟨dropExpiredRequests s, _, fewer_dropExpired s, rfl, rfl⟩

theorem arpLookup_rest (s : Arp) (ip : Ip) :
    ∃ cache, arpLookup s ip = { s with arpCache := cache } := by
  simp only [arpLookup]
  split
  · exact ⟨_, rfl⟩
  · exact ⟨_, rfl⟩

/-- What is still valid after a lookup has its mapping from before. -/
theorem arpLookup_entry (hi : ((arpLookup s ip).arpCache i).valid = true) :
    (s.arpCache i).valid = true ∧ ((arpLookup s ip).arpCache i).ip = (s.arpCache i).ip ∧
      ((arpLookup s ip).arpCache i).mac = (s.arpCache i).mac := by
  have hevict (hvalid : ((arpCacheEvictExpired s).arpCache i).valid = true) :
      (s.arpCache i).valid = true ∧
        ((arpCacheEvictExpired s).arpCache i).ip = (s.arpCache i).ip ∧
        ((arpCacheEvictExpired s).arpCache i).mac = (s.arpCache i).mac := by
    simp only [arpCacheEvictExpired] at hvalid ⊢
    split at hvalid
    · cases hvalid
    · rename_i hkeep
      rw [if_neg hkeep]
      exact ⟨hvalid, rfl, rfl⟩
  cases hfind : arpCacheFindIndex (arpCacheEvictExpired s) ip with
  | none =>
    have heq : arpLookup s ip = arpCacheEvictExpired s := by simp only [arpLookup, hfind]
    rw [heq] at hi ⊢
    exact hevict hi
  | some k =>
    have heq : (arpLookup s ip).arpCache = update (arpCacheEvictExpired s).arpCache k
        { (arpCacheEvictExpired s).arpCache k with lastUsed := s.timerTicks } := by
      simp only [arpLookup, hfind]
      rfl
    rw [heq] at hi ⊢
    by_cases hik : i = k
    · subst hik
      rw [update_self] at hi ⊢
      exact hevict hi
    · rw [update_of_ne hik] at hi ⊢
      exact hevict hi

/-! ## The invariant -/

/-- Every pending request was sent. -/
def Recorded (s : Arp) : Prop :=
  ∀ i, (s.arpPendingRequests i).pending = true →
    ((s.arpPendingRequests i).ip, (s.arpPendingRequests i).lastRequestTime) ∈ s.sent ∧
      (s.arpPendingRequests i).lastRequestTime ≤ s.ticks

structure ArpInv (s : Arp) : Prop where
  once : CachedOnce s
  allowed : NoneForbidden s
  recorded : Recorded s

theorem Recorded.fewer (h : Recorded s) (hfewer : Fewer s s') : Recorded s' := by
  intro i hi
  have hsame := hfewer.slot i hi
  rw [hsame] at hi ⊢
  rw [hfewer.sent, hfewer.ticks]
  exact h i hi

/-- Every valid entry has the address of a valid entry before. -/
theorem keeps_entries (hinv : ArpInv s) (hconfig : s'.config = s.config)
    (hentries : ∀ i, (s'.arpCache i).valid = true →
      (s.arpCache i).valid = true ∧ (s'.arpCache i).ip = (s.arpCache i).ip) :
    CachedOnce s' ∧ NoneForbidden s' := by
  constructor
  · intro i j hi hj hsame
    obtain ⟨hvi, hipi⟩ := hentries i hi
    obtain ⟨hvj, hipj⟩ := hentries j hj
    rw [hipi, hipj] at hsame
    exact hinv.once i j hvi hvj hsame
  · intro i hi
    obtain ⟨hvi, hipi⟩ := hentries i hi
    rw [hconfig, hipi]
    exact hinv.allowed i hvi

theorem ArpInv.updated (h : ArpInv s) (hfewer : Fewer s s')
    (hupdated : Updated s ip mac s'.arpCache) : ArpInv s' := by
  have hrecorded := h.recorded.fewer hfewer
  generalize hc : s'.arpCache = cache at hupdated
  cases hupdated with
  | kept =>
    obtain ⟨honce, hallowed⟩ := keeps_entries h hfewer.config
      (fun i hi => ⟨by rw [hc] at hi; exact hi, by rw [hc]⟩)
    exact ⟨honce, hallowed, hrecorded⟩
  | refreshed k hvalid hip hmac =>
    obtain ⟨honce, hallowed⟩ := keeps_entries h hfewer.config (by
      intro i hi
      rw [hc] at hi ⊢
      by_cases hik : i = k
      · subst hik
        rw [update_self] at hi ⊢
        exact ⟨hvalid, rfl⟩
      · rw [update_of_ne hik] at hi ⊢
        exact ⟨hi, rfl⟩)
    exact ⟨honce, hallowed, hrecorded⟩
  | learned k hrequested hnew hnot =>
    have hentry : ∀ i, (s'.arpCache i).valid = true →
        (i = k ∧ (s'.arpCache i).ip = ip) ∨
          (i ≠ k ∧ (s.arpCache i).valid = true ∧ s'.arpCache i = s.arpCache i) := by
      intro i hi
      rw [hc] at hi ⊢
      by_cases hik : i = k
      · subst hik
        exact .inl ⟨rfl, by rw [update_self]⟩
      · rw [update_of_ne hik] at hi ⊢
        exact .inr ⟨hik, hi, rfl⟩
    refine ⟨?_, ?_, hrecorded⟩
    · intro i j hi hj hsame
      rcases hentry i hi with ⟨hik, hipi⟩ | ⟨-, hvi, hei⟩
      · rcases hentry j hj with ⟨hjk, -⟩ | ⟨-, hvj, hej⟩
        · rw [hik, hjk]
        · rw [hipi, hej] at hsame
          exact absurd hsame.symm (hnew j hvj)
      · rcases hentry j hj with ⟨-, hipj⟩ | ⟨-, hvj, hej⟩
        · rw [hipj, hei] at hsame
          exact absurd hsame (hnew i hvi)
        · rw [hei, hej] at hsame
          exact h.once i j hvi hvj hsame
    · intro i hi
      rw [hfewer.config]
      rcases hentry i hi with ⟨-, hipi⟩ | ⟨-, hvi, hei⟩
      · rw [hipi]
        exact hnot
      · rw [hei]
        exact h.allowed i hvi

/-- What an update adds to the cache is the mapping it was called with, and only while the address is
requested. -/
theorem Updated.cached {ip' : Ip} {mac' : Mac} (h : Updated s ip mac s'.arpCache)
    (hcached : Cached s' ip' mac') (hnew : ¬ Cached s ip' mac') :
    ip' = ip ∧ mac' = mac ∧ Requested s ip := by
  obtain ⟨i, hvalid, hip, hmac⟩ := hcached
  generalize s'.arpCache = cache at h hvalid hip hmac
  cases h with
  | kept => exact absurd ⟨i, hvalid, hip, hmac⟩ hnew
  | refreshed k hvalid' hip' hmac' =>
    by_cases hik : i = k
    · subst hik
      rw [update_self] at hip hmac
      refine ⟨hip.symm.trans hip', hmac.symm, ?_⟩
      rcases hmac' with hsame | hrequested
      · exact absurd ⟨i, hvalid', hip, hsame.trans hmac⟩ hnew
      · exact hrequested
    · rw [update_of_ne hik] at hvalid hip hmac
      exact absurd ⟨i, hvalid, hip, hmac⟩ hnew
  | learned k hrequested _ _ =>
    by_cases hik : i = k
    · subst hik
      rw [update_self] at hip hmac
      exact ⟨hip.symm, hmac.symm, hrequested⟩
    · rw [update_of_ne hik] at hvalid hip hmac
      exact absurd ⟨i, hvalid, hip, hmac⟩ hnew

/-! ## Steps and runs -/

/-- The condition on an event. A frame that offers a mapping for a requested address brings nothing new,
or is an ARP reply to a request of the last 2^32 ticks; and a new configuration forbids no address that
is cached. -/
def Guarded (s : Arp) : ArpEvent → Prop
  | .frame f admitted => ∀ o, offeredMapping s.config admitted f = some o → Requested s o.ip →
      Cached s o.ip o.mac ∨ (o.origin = .arpReply ∧ ∀ i, (s.arpPendingRequests i).pending = true →
        (s.arpPendingRequests i).ip = o.ip →
          s.ticks < (s.arpPendingRequests i).lastRequestTime + 2 ^ 32)
  | .configure c => ∀ i, (s.arpCache i).valid = true → ¬ Forbidden c (s.arpCache i).ip
  | _ => True

def GuardedStep (s : Arp) (e : ArpEvent) (s' : Arp) : Prop := Guarded s e ∧ arpStep s e = s'

theorem ArpInv.step (h : ArpInv s) (hstep : GuardedStep s e s') : ArpInv s' := by
  obtain ⟨hguard, rfl⟩ := hstep
  cases e with
  | frame f admitted =>
    simp only [arpStep, handlePacket]
    split
    · exact h
    · obtain ⟨hfewer, hupdated⟩ := update_updated s _ _
      exact h.updated hfewer hupdated
  | sendArpRequest ip =>
    show ArpInv (sendArpRequest s ip)
    rcases sendArpRequest_cases s ip with heq | ⟨s₁, k, hfewer, hcache, heq⟩
    · rw [heq]
      exact h
    · rw [heq]
      have hrecorded := h.recorded.fewer hfewer
      obtain ⟨honce, hallowed⟩ : CachedOnce s₁ ∧ NoneForbidden s₁ :=
        keeps_entries h hfewer.config (fun i hi => ⟨by rw [hcache] at hi; exact hi, by rw [hcache]⟩)
      refine ⟨honce, hallowed, ?_⟩
      intro i hi
      by_cases hik : i = k
      · subst hik
        simp [trackRequest, Arp.setRequest]
      simp only [trackRequest, Arp.setRequest, update_of_ne hik] at hi ⊢
      obtain ⟨hsent, htime⟩ := hrecorded i hi
      exact ⟨List.mem_cons_of_mem _ hsent, htime⟩
  | arpLookup ip =>
    show ArpInv (arpLookup s ip)
    have hentries : ∀ i, ((arpLookup s ip).arpCache i).valid = true →
        (s.arpCache i).valid = true ∧ ((arpLookup s ip).arpCache i).ip = (s.arpCache i).ip :=
      fun i hi => ⟨(arpLookup_entry hi).1, (arpLookup_entry hi).2.1⟩
    obtain ⟨cache, heq⟩ := arpLookup_rest s ip
    have hconfig : (arpLookup s ip).config = s.config := by rw [heq]
    obtain ⟨honce, hallowed⟩ := keeps_entries h hconfig hentries
    refine ⟨honce, hallowed, ?_⟩
    rw [heq]
    exact h.recorded
  | tick =>
    refine ⟨h.once, h.allowed, fun i hi => ?_⟩
    obtain ⟨hsent, htime⟩ := h.recorded i hi
    exact ⟨hsent, Nat.le_succ_of_le htime⟩
  | configure c => exact ⟨h.once, hguard, h.recorded⟩

/-- The age in 32 bits is the age, for a request of the last 2^32 ticks. -/
theorem Waits.recent {i : Fin arpMaxPendingRequests} (h : Waits s ip i)
    (htime : (s.arpPendingRequests i).lastRequestTime ≤ s.ticks)
    (hwrap : s.ticks < (s.arpPendingRequests i).lastRequestTime + 2 ^ 32) :
    s.ticks ≤ (s.arpPendingRequests i).lastRequestTime + 1000 := by
  have hfresh := h.2.2
  simp only [UInt32.not_lt, UInt32.le_iff_toNat_le, Arp.age, Arp.timerTicks, UInt32.toNat_sub,
    UInt32.toNat_ofNat', arpPendingTimeoutTicks, UInt32.reduceToNat] at hfresh
  omega

theorem handleArp_reply {h : ArpHeader} {o : Offer} (heq : handleArp c h = some o)
    (hreply : o.origin = .arpReply) :
    h = ⟨1, 0x0800, 6, 4, arpOpReply, o.mac, o.ip⟩ := by
  revert heq
  fun_cases handleArp c h <;> intro heq
  case case10 hhw hproto hlens hop _ _ _ hrequest =>
    cases heq
    obtain ⟨hw, proto, hlen, plen, op, smac, sip⟩ := h
    simp only [ne_eq, not_not, not_or, not_and] at hhw hproto hlens hop hrequest ⊢
    rw [hhw, hproto, hlens.1, hlens.2, hop hrequest]
  case case9 =>
    cases heq
    cases hreply
  all_goals cases heq

theorem offer_isArpReply {admitted : Bool} {o : Offer} (heq : offeredMapping c admitted f = some o)
    (hreply : o.origin = .arpReply) : IsArpReply c f o.ip o.mac := by
  revert heq
  fun_cases offeredMapping c admitted f <;> intro heq
  case case4 _ hforUs harp hlength =>
    exact ⟨by omega, by simpa using hforUs, harp, handleArp_reply heq hreply⟩
  case case5 =>
    obtain ⟨_, -, rfl⟩ := Option.map_eq_some_iff.mp heq
    cases hreply
  all_goals cases heq

/-- A step that brings a mapping is a reply to a request of this host. -/
theorem solicited_of_step (h : ArpInv s) (hstep : GuardedStep s e s') (hcached : Cached s' ip mac)
    (hnew : ¬ Cached s ip mac) : Solicited s e ip mac := by
  obtain ⟨hguard, rfl⟩ := hstep
  cases e with
  | frame f admitted =>
    simp only [arpStep, handlePacket] at hcached
    split at hcached
    · exact absurd hcached hnew
    rename_i o hoffer
    obtain ⟨rfl, rfl, hrequested⟩ := (update_updated s o.ip o.mac).2.cached hcached hnew
    rcases hguard o hoffer hrequested with hold | ⟨hreply, hwrap⟩
    · exact absurd hold hnew
    · obtain ⟨i, hi⟩ := hrequested
      obtain ⟨hsent, htime⟩ := h.recorded i hi.1
      refine ⟨f, admitted, rfl, offer_isArpReply hoffer hreply, i, hi.1, hi.2.1, ?_, htime,
        hi.recent htime (hwrap i hi.1 hi.2.1)⟩
      rw [← hi.2.1]
      exact hsent
  | sendArpRequest ip' =>
    rcases sendArpRequest_cases s ip' with heq | ⟨s₁, k, hfewer, hcache, heq⟩
    · rw [show arpStep s (.sendArpRequest ip') = s from heq] at hcached
      exact absurd hcached hnew
    · rw [show arpStep s (.sendArpRequest ip') = _ from heq] at hcached
      obtain ⟨i, hi⟩ := hcached
      have hi : (s₁.arpCache i).valid = true ∧ (s₁.arpCache i).ip = ip ∧
          (s₁.arpCache i).mac = mac := hi
      rw [hcache] at hi
      exact absurd ⟨i, hi⟩ hnew
  | arpLookup ip' =>
    obtain ⟨i, hvalid, hip, hmac⟩ := hcached
    obtain ⟨hold, hsame, hsame'⟩ := arpLookup_entry hvalid
    exact absurd ⟨i, hold, hsame.symm.trans hip, hsame'.symm.trans hmac⟩ hnew
  | tick => exact absurd hcached hnew
  | configure c => exact absurd hcached hnew

/-- Nothing is cached and nothing is pending. -/
def arpBooted (c : Config) : Arp where
  config := c
  arpCache _ := {}
  arpPendingRequests _ := {}
  ticks := 0
  sent := []

theorem arpBooted_inv (c : Config) : ArpInv (arpBooted c) where
  once i j hi := by cases hi
  allowed i hi := by cases hi
  recorded i hi := by cases hi

/-- In a run whose events meet the condition, every mapping that enters the cache is a solicited one, no
address is cached twice, and no forbidden address is cached. -/
theorem arp_cache_changes_are_solicited {events : List ArpEvent}
    (hrun : Run GuardedStep (arpBooted c) events s) (hstep : GuardedStep s e s') :
    (∀ ip mac, Cached s' ip mac → ¬ Cached s ip mac → Solicited s e ip mac) ∧
      CachedOnce s' ∧ NoneForbidden s' := by
  have hinv : ArpInv s := hrun.invariant (fun _ _ _ h hstep => h.step hstep) (arpBooted_inv c)
  have hinv' := hinv.step hstep
  exact ⟨fun _ _ hcached hnew => solicited_of_step hinv hstep hcached hnew, hinv'.once, hinv'.allowed⟩

/-! ## A request that is as good as a reply -/

def sampleConfig : Config where
  myIp := 0x0A070001
  myMac := [0x52, 0x54, 0, 0x12, 0x34, 0x56]
  subnetMask := 0xFFFFFF00
  gatewayIp := 0x0A0700FE

/-- The gateway, 10.7.0.254. -/
def gateway : Ip := 0x0A0700FE

def otherMac : Mac := [2, 0, 0, 0, 0, 9]

/-- A broadcast ARP packet that says that the gateway has this other MAC. -/
def forgedArp (operation : UInt8) : Frame :=
  broadcastMac ++ otherMac ++ [8, 6] ++ [0, 1, 8, 0, 6, 4, 0, operation] ++ otherMac ++
    [10, 7, 0, 254] ++ List.replicate 6 0 ++ [10, 7, 0, 1]

/-- The state after this host has asked for the gateway. -/
def asked : Arp := arpStep (arpBooted sampleConfig) (.sendArpRequest gateway)

/-- The same packet as a reply is what the host has asked for. -/
theorem reply_is_solicited :
    Run GuardedStep (arpBooted sampleConfig) [.sendArpRequest gateway] asked ∧
    GuardedStep asked (.frame (forgedArp 2) true) (arpStep asked (.frame (forgedArp 2) true)) ∧
    ∀ ip mac, Cached (arpStep asked (.frame (forgedArp 2) true)) ip mac → ¬ Cached asked ip mac →
      Solicited asked (.frame (forgedArp 2) true) ip mac := by
  have hrun : Run GuardedStep (arpBooted sampleConfig) [.sendArpRequest gateway] asked :=
    .single ⟨trivial, rfl⟩
  have hstep : GuardedStep asked (.frame (forgedArp 2) true)
      (arpStep asked (.frame (forgedArp 2) true)) := by
    refine ⟨?_, rfl⟩
    intro o hoffer _
    have heq : offeredMapping asked.config true (forgedArp 2) =
        some ⟨.arpReply, gateway, otherMac⟩ := by decide
    cases heq.symm.trans hoffer
    refine .inr ⟨rfl, fun i _ _ => ?_⟩
    have hticks : asked.ticks = 0 := rfl
    omega
  exact ⟨hrun, hstep, (arp_cache_changes_are_solicited hrun hstep).1⟩

/-- An ARP request, which answers nothing, enters the mapping just as well. -/
theorem arp_request_enters_a_mapping :
    Cached (arpStep asked (.frame (forgedArp 1) true)) gateway otherMac ∧
    ¬ Cached asked gateway otherMac ∧
    ¬ Solicited asked (.frame (forgedArp 1) true) gateway otherMac := by
  refine ⟨⟨0, by decide, by decide, by decide⟩, ?_, ?_⟩
  · rintro ⟨i, hi, -⟩
    cases hi
  · rintro ⟨f, admitted, heq, hreply, -⟩
    cases heq
    have hheader := hreply.header
    revert hheader
    decide

end TinyOS.Net
