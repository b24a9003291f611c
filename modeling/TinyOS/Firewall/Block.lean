import TinyOS.Firewall.Provenance

/-!
# Blocked addresses

`firewall_block_ip` adds a rule that drops what comes from an address, ahead of every rule that
accepts. As long as the rule stands, packets from the address are dropped, provided that the rule
found room in the table and is not disabled, and unless the packet is DHCP by its ports or belongs
to an established connection: these two are let in before the rules are asked.

The connection in which an intrusion was seen is usually an established one.
-/

namespace TinyOS.Firewall

open TinyOS.Lib

variable {s s' : State} {now : UInt32} {p : Packet} {f : Flow} {a : UInt32}

/-! ## What a rule that blocks decides -/

/-- The rule as it stands in the table. -/
def standingBlock (a : UInt32) : Rule := { blockRule a with enabled := true }

theorem standingBlock_applies (hsrc : f.srcIp = a) : (standingBlock a).applies f = true := by
  simp [Rule.applies, standingBlock, blockRule, ipMatches, portMatches, hsrc]

/-- A rule that denies is selected for every flow from the address. -/
theorem matchRule_blocked {rules : List Rule} (hmem : standingBlock a ∈ rules)
    (hsrc : f.srcIp = a) : ∃ r, matchRule rules f = some r ∧ r.action.isDeny = true := by
  have happ := standingBlock_applies hsrc
  rcases hmatch : matchRule rules f with _ | r
  · have hfar : 1000 ≤ 0 := matchRule_eq_none.mp hmatch _ hmem happ
    cases hfar
  · -- nothing is ahead of priority 0
    have hr := Decides.of_matchRule hmatch
    have hzero := UInt32.le_antisymm (hr.priority _ hmem happ) UInt32.zero_le
    exact ⟨r, rfl, hr.deny _ hmem happ hzero.symm rfl⟩

theorem isDeny_not_accepts {action : Action} (h : action.isDeny = true) : ¬ action.Accepts := by
  rintro (rfl | rfl)
  · cases h
  · cases h

/-- The packet is dropped, unless the headers or the connection table let it in. -/
theorem blocked_packet_is_dropped (hen : s.enabled = true) (hmem : standingBlock a ∈ s.rules)
    (hsrc : p.srcIp = a) (hdhcp : p.isDhcp = false) (hest : ¬ Established s p.flow) :
    (firewallCheckPacket s now p).1 = false := by
  have hchecked := firewallCheckPacket_checked now p hen
  generalize firewallCheckPacket s now p = r at *
  cases hchecked with
  | dropped _ _ _ => rfl
  | dhcp _ _ h =>
    rw [hdhcp] at h
    cases h
  | flow _ _ _ hconn hrules _ =>
    by_contra hacc
    rw [Bool.not_eq_false] at hacc
    rcases checkFlow_accepts hacc with hest' | ⟨_, r, hr, _, haccepts⟩
    · exact hest ((established_congr hconn).mp hest')
    · rw [hrules] at hr
      obtain ⟨r', hr', hdeny⟩ := matchRule_blocked (f := p.flow) hmem hsrc
      rw [hr] at hr'
      cases hr'
      exact isDeny_not_accepts hdeny haccepts

/-! ## Where the rules stand -/

/-- The filter, and the places of the rules that calls of `firewall_block_ip` for one address have
added and nothing has removed since. -/
structure Watched where
  fw : State
  blocks : List Nat

/-- Where a rule is after rule `id` was removed. -/
def afterRemoval (id place : Nat) : Option Nat :=
  if place = id then none else if id < place then some (place - 1) else some place

def nextBlocks (a : UInt32) (w : Watched) : Event → List Nat
  | .blockIp ip => if ip = a then w.fw.rules.length :: w.blocks else w.blocks
  | .alert severity src =>
    if severity.blocks = true ∧ src ≠ 0 ∧ src = a then w.fw.rules.length :: w.blocks else w.blocks
  | .removeRule id => if id < 0 then w.blocks else w.blocks.filterMap (afterRemoval id.toNat)
  | .clearRules => []
  | _ => w.blocks

def Watched.step (a : UInt32) (w : Watched) (e : Event) : Watched where
  fw := Firewall.step w.fw e
  blocks := nextBlocks a w e

/-- The condition on a step: a block of the address finds room for its rule, and the rule is not
disabled. -/
def Firm (a : UInt32) (w : Watched) : Event → Prop
  | .blockIp ip => ip = a → w.fw.hasRoom = true
  | .alert severity src =>
    severity.blocks = true ∧ src ≠ 0 ∧ src = a → w.fw.hasRoom = true
  | .setRuleEnabled id enabled => 0 ≤ id → enabled = false → id.toNat ∉ w.blocks
  | _ => True

def FirmStep (a : UInt32) (w : Watched) (e : Event) (w' : Watched) : Prop :=
  Firm a w e ∧ w.step a e = w'

/-- Every block that stands is where it is said to be. -/
structure BlockInv (a : UInt32) (w : Watched) : Prop where
  enabled : w.fw.enabled = true
  placed : ∀ place ∈ w.blocks, w.fw.rules[place]? = some (standingBlock a)

theorem firewallAddRule_rules (hroom : s.hasRoom = true) (r : Rule) :
    (firewallAddRule s r).rules = s.rules ++ [{ r with enabled := true }] := by
  unfold firewallAddRule
  rw [hroom]
  rfl

theorem firewallAddRule_getElem? {place : Nat} {b r : Rule} (h : s.rules[place]? = some b) :
    (firewallAddRule s r).rules[place]? = some b := by
  by_cases hroom : s.hasRoom = true
  · rw [firewallAddRule_rules hroom]
    rw [List.getElem?_append_left (List.getElem?_eq_some_iff.mp h).1, h]
  unfold firewallAddRule
  rw [Bool.not_eq_true] at hroom
  rw [if_pos hroom, h]

/-- The block that was just added, and those that stood before. -/
theorem firewallBlockIp_placed {w : Watched} (h : BlockInv a w) (hroom : w.fw.hasRoom = true) :
    ∀ place ∈ w.fw.rules.length :: w.blocks,
      (firewallBlockIp w.fw a).rules[place]? = some (standingBlock a) := by
  intro place hplace
  rcases List.mem_cons.mp hplace with rfl | hplace
  · rw [firewallBlockIp, firewallAddRule_rules hroom]
    simp [standingBlock]
  · exact firewallAddRule_getElem? (h.placed place hplace)

theorem eraseIdx_placed {rules : List Rule} {id place place' : Nat} {b : Rule}
    (h : rules[place]? = some b) (hafter : afterRemoval id place = some place') :
    (rules.eraseIdx id)[place']? = some b := by
  unfold afterRemoval at hafter
  rw [List.getElem?_eraseIdx]
  split at hafter
  · cases hafter
  split at hafter
  · cases hafter
    rw [if_neg (by omega), Nat.sub_add_cancel (by omega), h]
  · cases hafter
    rw [if_pos (by omega), h]

theorem BlockInv.placed_step {w : Watched} {e : Event} (h : BlockInv a w) (hfirm : Firm a w e) :
    ∀ place ∈ nextBlocks a w e, (step w.fw e).rules[place]? = some (standingBlock a) := by
  intro place hplace
  cases e with
  | packet now p =>
    rw [show (step w.fw (.packet now p)).rules = w.fw.rules from
      (firewallCheckPacket_frame h.enabled).1]
    exact h.placed place hplace
  | outgoing now f =>
    rw [show (step w.fw (.outgoing now f)).rules = w.fw.rules from
      firewallTrackOutgoing_frame.1]
    exact h.placed place hplace
  | addRule r =>
    exact firewallAddRule_getElem? (h.placed place hplace)
  | removeRule id =>
    by_cases hid : id < 0
    · rw [show nextBlocks a w (.removeRule id) = w.blocks from if_pos hid] at hplace
      rw [show Firewall.step w.fw (.removeRule id) = w.fw by
        simp only [Firewall.step, firewallRemoveRule, if_pos hid]]
      exact h.placed place hplace
    · rw [show nextBlocks a w (.removeRule id) = w.blocks.filterMap (afterRemoval id.toNat) from
        if_neg hid] at hplace
      obtain ⟨before, hbefore, hafter⟩ := List.mem_filterMap.mp hplace
      simp only [Firewall.step, firewallRemoveRule, if_neg hid]
      exact eraseIdx_placed (h.placed before hbefore) hafter
  | setRuleEnabled id enabled =>
    have hold := h.placed place hplace
    simp only [step, firewallSetRuleEnabled]
    split
    · exact hold
    rename_i hid
    rw [List.getElem?_modify, hold]
    by_cases heq : id.toNat = place
    · -- the rule stays enabled, because it may not be disabled
      simp only [if_pos heq]
      cases enabled with
      | true => rfl
      | false =>
        subst heq
        exact absurd hplace (hfirm (by omega) rfl)
    · simp only [if_neg heq]
      rfl
  | clearRules =>
    cases hplace
  | clearConnections =>
    exact h.placed place hplace
  | blockIp ip =>
    by_cases hip : ip = a
    · subst hip
      rw [show nextBlocks ip w (.blockIp ip) = w.fw.rules.length :: w.blocks from if_pos rfl]
        at hplace
      exact firewallBlockIp_placed h (hfirm rfl) place hplace
    · rw [show nextBlocks a w (.blockIp ip) = w.blocks from if_neg hip] at hplace
      exact firewallAddRule_getElem? (h.placed place hplace)
  | alert severity src =>
    by_cases hblocks : severity.blocks = true ∧ src ≠ 0 ∧ src = a
    · rw [show nextBlocks a w (.alert severity src) = w.fw.rules.length :: w.blocks from
        if_pos hblocks] at hplace
      obtain ⟨hsev, hne, rfl⟩ := hblocks
      simp only [Firewall.step, idsGenerateAlert, if_pos (And.intro hsev hne)]
      exact firewallBlockIp_placed h (hfirm ⟨hsev, hne, rfl⟩) place hplace
    · rw [show nextBlocks a w (.alert severity src) = w.blocks from if_neg hblocks] at hplace
      simp only [Firewall.step, idsGenerateAlert]
      split
      · exact firewallAddRule_getElem? (h.placed place hplace)
      · exact h.placed place hplace

theorem BlockInv.step {w w' : Watched} {e : Event} (h : BlockInv a w) (hstep : FirmStep a w e w') :
    BlockInv a w' := by
  obtain ⟨hfirm, rfl⟩ := hstep
  exact ⟨step_enabled h.enabled e, h.placed_step hfirm⟩

/-! ## Runs -/

/-- After a block of the address, and until the rules are cleared or that rule is removed, a packet
from the address is dropped, whatever its protocol and ports, unless it is DHCP by its ports or its
flow is established. -/
theorem blocked_address_stays_blocked (a : UInt32) {s : State} (hen : s.enabled = true)
    {events : List Event} {w : Watched} (hrun : Run (FirmStep a) ⟨s, []⟩ events w)
    (hblock : w.blocks ≠ []) (now : UInt32) (p : Packet) (hsrc : p.srcIp = a)
    (hdhcp : p.isDhcp = false) (hest : ¬ Established w.fw p.flow) :
    (firewallCheckPacket w.fw now p).1 = false := by
  have hinv : BlockInv a w := by
    apply hrun.invariant (fun _ _ _ h hstep => h.step hstep)
    exact ⟨hen, fun place hplace => by cases hplace⟩
  obtain ⟨place, hplace⟩ := List.exists_mem_of_ne_nil _ hblock
  have hmem : standingBlock a ∈ w.fw.rules := List.mem_of_getElem? (hinv.placed place hplace)
  exact blocked_packet_is_dropped hinv.enabled hmem hsrc hdhcp hest

/-- A rule accepts everything. A block of the address is stronger, if the system has sent nothing
there. -/
theorem answer_from_blocked_address_is_dropped :
    let lenient := firewallAddRule (firewallInit 0 0) {}
    (firewallCheckPacket lenient 0 answer).1 = true ∧
      (firewallCheckPacket (firewallBlockIp lenient 0x0A000002) 0 answer).1 = false := by
  intro lenient
  have hrun : Run (FirmStep 0x0A000002) ⟨firewallInit 0 0, []⟩ [.addRule {}, .blockIp 0x0A000002]
      ⟨firewallBlockIp lenient 0x0A000002, [1]⟩ :=
    .cons ⟨trivial, rfl⟩ (.single ⟨fun _ => rfl, rfl⟩)
  have hnone : findConnection (firewallBlockIp lenient 0x0A000002).connections answer.flow = none := by
    decide +kernel
  refine ⟨by decide +kernel, blocked_address_stays_blocked 0x0A000002 rfl hrun (by decide) 0 answer
    (by decide) (by decide) ?_⟩
  rintro ⟨i, hi, _⟩
  rw [hnone] at hi
  cases hi

/-- The system has sent a query to the address; the answer is let in although the address has been
blocked since. -/
theorem answer_passes_the_block :
    let w := [Event.outgoing 0 query, .blockIp 0x0A000002].foldl (Watched.step 0x0A000002)
      ⟨firewallInit 0 0, []⟩
    w.blocks = [0] ∧ answer.srcIp = 0x0A000002 ∧ (firewallCheckPacket w.fw 0 answer).1 = true := by
  decide +kernel

end TinyOS.Firewall
