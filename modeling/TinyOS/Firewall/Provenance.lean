import TinyOS.Firewall.Select
import Mathlib.Data.List.Induction

/-!
# Default deny

What is let in was let in for a reason: the packet is DHCP by its ports, an enabled rule that
accepts is the one selected for it, or its flow was recorded before, when the system sent a packet
of the flow or when such a rule let one in. Entries of the connection table are overwritten when
the table is full, and looked up in both directions; neither creates a flow that was not recorded.
-/

namespace TinyOS.Firewall

open List

variable {s s' : State} {now : UInt32} {p : Packet} {f : Flow}

/-! ## Well-formed packets -/

/-- The IP header, and the TCP or UDP header behind it, lie within the packet. -/
structure HeadersFit (p : Packet) : Prop where
  ip : 20 ≤ p.length
  ihl : 20 ≤ p.ihl ∧ p.ihl ≤ p.length
  tcp : p.protocol = ipprotoTcp → p.ihl + 20 ≤ p.length
  udp : p.protocol = ipprotoUdp → p.ihl + 8 ≤ p.length

/-! ## Why a packet is let in -/

def Action.Accepts (a : Action) : Prop := a = .accept ∨ a = .log

/-- An enabled rule that accepts is the one selected for the flow. -/
def RuleAccepts (rules : List Rule) (f : Flow) : Prop :=
  ∃ r, matchRule rules f = some r ∧ r.enabled = true ∧ r.action.Accepts

/-- The flow, in one direction or the other, has an established entry. -/
def Established (s : State) (f : Flow) : Prop :=
  ∃ i, findConnection s.connections f = some i ∧
    (s.connections.getD i .empty).state = .established

theorem checkSourceRate_frame (src : UInt32) :
    (checkSourceRate s now src).2.connections = s.connections ∧
      (checkSourceRate s now src).2.rules = s.rules ∧
      (checkSourceRate s now src).2.enabled = s.enabled := by
  unfold checkSourceRate
  split
  · dsimp only
    split
    · exact ⟨rfl, rfl, rfl⟩
    split
    · exact ⟨rfl, rfl, rfl⟩
    · exact ⟨rfl, rfl, rfl⟩
  · split
    · exact ⟨rfl, rfl, rfl⟩
    · exact ⟨rfl, rfl, rfl⟩

theorem checkRateLimit_frame (s : State) (now src : UInt32) :
    (checkRateLimit s now src).2.connections = s.connections ∧
      (checkRateLimit s now src).2.rules = s.rules ∧
      (checkRateLimit s now src).2.enabled = s.enabled := by
  unfold checkRateLimit
  split
  · exact checkSourceRate_frame src
  split
  · exact ⟨rfl, rfl, rfl⟩
  · exact checkSourceRate_frame src

/-- How `firewall_check_packet` can end: before the connection table is asked, or there. -/
inductive Checked (s : State) (now : UInt32) (p : Packet) : Bool × State → Prop
  | dropped {s' : State} (hconn : s'.connections = s.connections) (hrules : s'.rules = s.rules)
      (hen : s'.enabled = s.enabled) : Checked s now p (false, s')
  | dhcp (hfit : HeadersFit p) (hfrag : p.isFragment = false) (h : p.isDhcp = true) :
      Checked s now p (true, s)
  | flow {s₁ : State} (hfit : HeadersFit p) (hfrag : p.isFragment = false)
      (hdhcp : p.isDhcp = false) (hconn : s₁.connections = s.connections)
      (hrules : s₁.rules = s.rules) (hen : s₁.enabled = s.enabled) :
      Checked s now p (checkFlow s₁ now p.flow)

theorem isDhcp_udp (h : p.isDhcp = true) : p.protocol = ipprotoUdp := by
  exact eq_of_beq (Bool.and_eq_true_iff.mp h).1

theorem firewallCheckPacket_checked (now : UInt32) (p : Packet) (hen : s.enabled = true) :
    Checked s now p (firewallCheckPacket s now p) := by
  have htransport {n : Nat} {protocol : UInt8}
      (h : ¬(p.protocol = protocol ∧ p.length < p.ihl + n)) (hp : p.protocol = protocol) :
      p.ihl + n ≤ p.length := Nat.le_of_not_lt fun hshort => h ⟨hp, hshort⟩
  fun_cases firewallCheckPacket s now p
  case case1 hoff =>
    rw [hen] at hoff
    cases hoff
  case case7 hlen hihl _ hfrag hudp hdhcp =>
    refine .dhcp ⟨by omega, by omega, ?_, htransport hudp⟩ (Bool.not_eq_true _ ▸ hfrag) hdhcp
    intro htcp
    rw [isDhcp_udp hdhcp] at htcp
    cases htcp
  case case10 s' hrate =>
    have hframe := checkRateLimit_frame s now p.srcIp
    rw [hrate] at hframe
    exact .dropped hframe.1 hframe.2.1 hframe.2.2
  case case11 hlen hihl _ hfrag hudp hdhcp _ htcp ok s' hrate _ =>
    have hframe := checkRateLimit_frame s now p.srcIp
    rw [hrate] at hframe
    exact .flow ⟨by omega, by omega, htransport htcp, htransport hudp⟩ (Bool.not_eq_true _ ▸ hfrag)
      (Bool.not_eq_true _ ▸ hdhcp) hframe.1 hframe.2.1 hframe.2.2
  all_goals exact .dropped rfl rfl rfl

/-- A rule let the packet in: it is no DHCP, and no entry of the connection table speaks for it. -/
structure ThroughRule (s : State) (now : UInt32) (p : Packet) : Prop where
  accepted : (firewallCheckPacket s now p).1 = true
  dhcp : p.isDhcp = false
  notEstablished : ¬ Established s p.flow
  rule : RuleAccepts s.rules p.flow

theorem checkRules_accepts {known : Bool} (h : (checkRules s now f known).1 = true) :
    RuleAccepts s.rules f := by
  unfold checkRules at h
  split at h
  · cases h
  rename_i r hr
  split at h
  · rename_i haction
    have happ := (Decides.of_matchRule hr).applies
    simp only [Rule.applies, Bool.and_eq_true] at happ
    exact ⟨r, hr, happ.1.1.1.1.1, haction⟩
  · cases h

theorem checkFlow_accepts (h : (checkFlow s now f).1 = true) :
    Established s f ∨ ¬ Established s f ∧ RuleAccepts s.rules f := by
  by_cases hest : Established s f
  · exact .inl hest
  refine .inr ⟨hest, ?_⟩
  unfold checkFlow at h
  split at h
  · exact checkRules_accepts h
  rename_i i hi
  split at h
  · rename_i hstate
    exact absurd ⟨i, hi, hstate⟩ hest
  · have hrule := checkRules_accepts h
    exact hrule

theorem established_congr (hconn : s'.connections = s.connections) :
    Established s' f ↔ Established s f := by
  unfold Established
  rw [hconn]

/-! ## Entries of the connection table -/

/-- Every active entry of the second table carries a flow of the first one, or a new flow with
this property. -/
def Grows (conns conns' : List Connection) (new : Flow → Prop) : Prop :=
  ∀ c ∈ conns', c.active = true →
    (∃ c' ∈ conns, c'.active = true ∧ c'.flow = c.flow) ∨ new c.flow

variable {conns conns' : List Connection} {new : Flow → Prop}

theorem Grows.refl (conns : List Connection) (new : Flow → Prop) : Grows conns conns new :=
  fun c hc hactive => .inl ⟨c, hc, hactive, rfl⟩

/-- An entry changes neither its flow nor whether it is in use. -/
theorem Grows.modify (h : Grows conns conns' new) (i : Nat) {g : Connection → Connection}
    (hflow : ∀ c, (g c).flow = c.flow) (hactive : ∀ c, (g c).active = c.active) :
    Grows conns (conns'.modify i g) new := by
  intro c hc hc'
  obtain ⟨j, hj⟩ := mem_iff_getElem?.mp hc
  rw [getElem?_modify] at hj
  obtain ⟨c₀, hc₀, rfl⟩ := Option.map_eq_some_iff.mp hj
  have hmem : c₀ ∈ conns' := mem_of_getElem? hc₀
  by_cases hij : i = j
  · rw [if_pos hij] at hc' ⊢
    rw [hactive] at hc'
    rw [hflow]
    exact h c₀ hmem hc'
  · rw [if_neg hij] at hc' ⊢
    exact h c₀ hmem hc'

/-- A new entry takes a place, and with it the place of whatever was there. -/
theorem Grows.create (hnew : new f) : Grows conns (createConnection conns now f).1 new := by
  intro c hc hactive
  rcases mem_or_eq_of_mem_set hc with hold | rfl
  · exact .inl ⟨c, hold, hactive, rfl⟩
  · exact .inr hnew

theorem Grows.establish (h : Grows conns conns' new) (i : Nat) :
    Grows conns (establish conns' i) new :=
  h.modify i (fun _ => rfl) (fun _ => rfl)

/-- What an event records as a flow that may come in. -/
def Records (s : State) : Event → Flow → Prop
  | .outgoing _ g, f => g = f ∧ f.tracked = true
  | .packet now p, f => p.flow = f ∧ ThroughRule s now p
  | _, _ => False

theorem firewallTrackOutgoing_grows (g : Flow) :
    Grows s.connections (firewallTrackOutgoing s now g).connections
      (Records s (.outgoing now g)) := by
  unfold firewallTrackOutgoing
  split
  · exact Grows.refl _ _
  rename_i htracked
  have hnew : Records s (.outgoing now g) g := ⟨rfl, Bool.not_eq_false _ ▸ htracked⟩
  refine Grows.modify (Grows.establish ?_ _) _ ?_ ?_
  · split
    · exact Grows.refl _ _
    · exact Grows.create hnew
  · exact fun _ => rfl
  · exact fun _ => rfl

theorem checkRules_grows {known : Bool} (hnew : (checkRules s now f known).1 = true → new f)
    (hbase : Grows conns s.connections new)
    (hcreate : new f → Grows conns (createConnection s.connections now f).1 new) :
    Grows conns (checkRules s now f known).2.connections new := by
  revert hnew
  unfold checkRules
  split
  · exact fun _ => hbase
  split
  · split
    · exact fun hnew => (hcreate (hnew rfl)).establish _
    · exact fun _ => hbase
  · exact fun _ => hbase

theorem checkFlow_grows (hnew : ¬ Established s f → (checkFlow s now f).1 = true → new f) :
    Grows s.connections (checkFlow s now f).2.connections new := by
  revert hnew
  unfold checkFlow
  split
  · rename_i hnone
    intro hnew
    have hest : ¬ Established s f := by
      rintro ⟨i, hi, _⟩
      rw [hnone] at hi
      cases hi
    exact checkRules_grows (hnew hest) (Grows.refl _ _) Grows.create
  · rename_i i hi
    dsimp only
    have hbase : Grows s.connections (s.connections.modify i fun c =>
        { c with lastSeen := now, packetsSent := c.packetsSent + 1 }) new :=
      (Grows.refl _ _).modify i (fun _ => rfl) (fun _ => rfl)
    split
    · exact fun _ => hbase
    intro _
    -- the entry is known, so the rules do not make another one
    unfold checkRules
    split
    · exact hbase
    split
    · split
      · rename_i hknown
        cases hknown.1
      · exact hbase
    · exact hbase

theorem firewallCheckPacket_grows (hen : s.enabled = true) :
    Grows s.connections (firewallCheckPacket s now p).2.connections
      (Records s (.packet now p)) := by
  have hchecked := firewallCheckPacket_checked now p hen
  generalize hr : firewallCheckPacket s now p = r at hchecked ⊢
  cases hchecked with
  | dropped hconn _ _ =>
    rw [hconn]
    exact Grows.refl _ _
  | dhcp _ _ _ => exact Grows.refl _ _
  | flow _ _ hdhcp hconn hrules _ =>
    rw [← hconn]
    apply checkFlow_grows
    intro hest hacc
    rcases checkFlow_accepts hacc with hest' | ⟨_, hrule⟩
    · exact absurd hest' hest
    · rw [established_congr hconn] at hest
      rw [hrules] at hrule
      exact ⟨rfl, by rw [hr]; exact hacc, hdhcp, hest, hrule⟩

/-! ## Events that only change the rules -/

theorem firewallAddRule_frame (s : State) (r : Rule) :
    (firewallAddRule s r).connections = s.connections ∧
      (firewallAddRule s r).enabled = s.enabled := by
  unfold firewallAddRule
  split
  · exact ⟨rfl, rfl⟩
  · exact ⟨rfl, rfl⟩

theorem firewallRemoveRule_frame (s : State) (id : Int) :
    (firewallRemoveRule s id).connections = s.connections ∧
      (firewallRemoveRule s id).enabled = s.enabled := by
  unfold firewallRemoveRule
  split
  · exact ⟨rfl, rfl⟩
  · exact ⟨rfl, rfl⟩

theorem firewallSetRuleEnabled_frame (s : State) (id : Int) (enabled : Bool) :
    (firewallSetRuleEnabled s id enabled).connections = s.connections ∧
      (firewallSetRuleEnabled s id enabled).enabled = s.enabled := by
  unfold firewallSetRuleEnabled
  split
  · exact ⟨rfl, rfl⟩
  · exact ⟨rfl, rfl⟩

theorem idsGenerateAlert_frame (s : State) (severity : Severity) (src : UInt32) :
    (idsGenerateAlert s severity src).connections = s.connections ∧
      (idsGenerateAlert s severity src).enabled = s.enabled := by
  unfold idsGenerateAlert
  split
  · exact firewallAddRule_frame s (blockRule src)
  · exact ⟨rfl, rfl⟩

theorem Grows.of_eq (h : conns' = conns) : Grows conns conns' new :=
  h ▸ Grows.refl conns' new

/-- An event brings no flow into the table but the one it records. -/
theorem step_grows (hen : s.enabled = true) (e : Event) :
    Grows s.connections (step s e).connections (Records s e) := by
  cases e with
  | packet now p => exact firewallCheckPacket_grows hen
  | outgoing now g => exact firewallTrackOutgoing_grows g
  | addRule r => exact Grows.of_eq (firewallAddRule_frame s r).1
  | removeRule id => exact Grows.of_eq (firewallRemoveRule_frame s id).1
  | setRuleEnabled id enabled => exact Grows.of_eq (firewallSetRuleEnabled_frame s id enabled).1
  | clearRules => exact Grows.refl _ _
  | clearConnections =>
    intro c hc hactive
    obtain ⟨_, _, rfl⟩ := mem_map.mp hc
    cases hactive
  | blockIp ip => exact Grows.of_eq (firewallAddRule_frame s (blockRule ip)).1
  | alert severity src => exact Grows.of_eq (idsGenerateAlert_frame s severity src).1

/-! ## What a packet leaves alone -/

theorem checkRules_frame {known : Bool} : (checkRules s now f known).2.rules = s.rules ∧
    (checkRules s now f known).2.enabled = s.enabled := by
  unfold checkRules
  split
  · exact ⟨rfl, rfl⟩
  split
  · split
    · exact ⟨rfl, rfl⟩
    · exact ⟨rfl, rfl⟩
  · exact ⟨rfl, rfl⟩

theorem checkFlow_frame : (checkFlow s now f).2.rules = s.rules ∧
    (checkFlow s now f).2.enabled = s.enabled := by
  unfold checkFlow
  split
  · exact checkRules_frame
  dsimp only
  split
  · exact ⟨rfl, rfl⟩
  · exact checkRules_frame

theorem firewallCheckPacket_frame (hen : s.enabled = true) :
    (firewallCheckPacket s now p).2.rules = s.rules ∧
      (firewallCheckPacket s now p).2.enabled = s.enabled := by
  have hchecked := firewallCheckPacket_checked now p hen
  generalize firewallCheckPacket s now p = r at *
  cases hchecked with
  | dropped _ hrules hen' => exact ⟨hrules, hen'⟩
  | dhcp _ _ _ => exact ⟨rfl, rfl⟩
  | flow _ _ _ _ hrules hen' => exact ⟨checkFlow_frame.1.trans hrules, checkFlow_frame.2.trans hen'⟩

theorem firewallTrackOutgoing_frame : (firewallTrackOutgoing s now f).rules = s.rules ∧
    (firewallTrackOutgoing s now f).enabled = s.enabled := by
  unfold firewallTrackOutgoing
  split
  · exact ⟨rfl, rfl⟩
  · exact ⟨rfl, rfl⟩

theorem step_enabled (hen : s.enabled = true) (e : Event) : (step s e).enabled = true := by
  cases e with
  | packet now p => exact (firewallCheckPacket_frame hen).2.trans hen
  | outgoing now g => exact firewallTrackOutgoing_frame.2.trans hen
  | addRule r => exact (firewallAddRule_frame s r).2.trans hen
  | removeRule id => exact (firewallRemoveRule_frame s id).2.trans hen
  | setRuleEnabled id enabled => exact (firewallSetRuleEnabled_frame s id enabled).2.trans hen
  | clearRules => exact hen
  | clearConnections => exact hen
  | blockIp ip => exact (firewallAddRule_frame s (blockRule ip)).2.trans hen
  | alert severity src => exact (idsGenerateAlert_frame s severity src).2.trans hen

/-! ## Histories -/

theorem foldl_enabled (hen : s.enabled = true) (events : List Event) :
    (events.foldl step s).enabled = true :=
  foldlRecOn (motive := (·.enabled = true)) events step hen fun _ h e _ => step_enabled h e

/-- One of the events, at its time, recorded the flow. -/
def RecordedIn (s : State) (events : List Event) (f : Flow) : Prop :=
  ∃ before e after, events = before ++ e :: after ∧ Records (before.foldl step s) e f

theorem RecordedIn.snoc {events : List Event} (h : RecordedIn s events f) (e : Event) :
    RecordedIn s (events ++ [e]) f := by
  obtain ⟨before, e', after, rfl, hrec⟩ := h
  exact ⟨before, e', after ++ [e], by simp, hrec⟩

/-- Every flow in the table was recorded by an event of the history. -/
theorem connections_recorded (packetCount windowStart : UInt32) (events : List Event) :
    ∀ c ∈ (events.foldl step (firewallInit packetCount windowStart)).connections,
      c.active = true → RecordedIn (firewallInit packetCount windowStart) events c.flow := by
  -- the last event leaves flows that were in the table before it, or records its own
  induction events using List.reverseRecOn with
  | nil =>
    intro c hc hactive
    obtain ⟨_, rfl⟩ := mem_replicate.mp hc
    cases hactive
  | append_singleton events e ih =>
    intro c hc hactive
    rw [foldl_append] at hc
    have hen := foldl_enabled (s := firewallInit packetCount windowStart) rfl events
    rcases step_grows hen e c hc hactive with ⟨c', hc', hactive', hflow⟩ | hrec
    · rw [← hflow]
      exact (ih c' hc' hactive').snoc e
    · exact ⟨events, e, [], rfl, hrec⟩

theorem established_flow (h : Established s f) :
    ∃ c ∈ s.connections, c.active = true ∧ (c.flow = f ∨ c.flow = f.reverse) := by
  obtain ⟨i, hi, _⟩ := h
  obtain ⟨hlt, hcarries, _⟩ := findIdx?_eq_some_iff_getElem.mp hi
  simp only [Connection.carries, Bool.and_eq_true, Bool.or_eq_true, beq_iff_eq] at hcarries
  exact ⟨_, getElem_mem hlt, hcarries.1, hcarries.2⟩

/-- A packet that is let in, after any history since `firewall_init`, has headers that lie within
it and is no fragment. It is DHCP by its ports, or a rule that accepts is selected for it, or its
flow, in one direction or the other, was recorded by an earlier event. -/
theorem accepted_packet_has_a_reason (packetCount windowStart : UInt32) (events : List Event)
    (now : UInt32) (p : Packet)
    (haccepted : (firewallCheckPacket
      (events.foldl step (firewallInit packetCount windowStart)) now p).1 = true) :
    (HeadersFit p ∧ p.isFragment = false) ∧
      (p.isDhcp = true ∨
        RuleAccepts (events.foldl step (firewallInit packetCount windowStart)).rules p.flow ∨
        ∃ f, (f = p.flow ∨ f = p.flow.reverse) ∧
          RecordedIn (firewallInit packetCount windowStart) events f) := by
  have hrecorded := connections_recorded packetCount windowStart events
  have hen := foldl_enabled (s := firewallInit packetCount windowStart) rfl events
  generalize events.foldl step (firewallInit packetCount windowStart) = s at *
  have hchecked := firewallCheckPacket_checked now p hen
  generalize firewallCheckPacket s now p = r at *
  cases hchecked with
  | dropped _ _ _ => cases haccepted
  | dhcp hfit hfrag hdhcp => exact ⟨⟨hfit, hfrag⟩, .inl hdhcp⟩
  | flow hfit hfrag _ hconn hrules _ =>
    refine ⟨⟨hfit, hfrag⟩, .inr ?_⟩
    rcases checkFlow_accepts haccepted with hest | ⟨_, hrule⟩
    · rw [established_congr hconn] at hest
      obtain ⟨c, hc, hactive, hflow⟩ := established_flow hest
      exact .inr ⟨c.flow, hflow, hrecorded c hc hactive⟩
    · rw [hrules] at hrule
      exact .inl hrule

/-- From 10.0.0.1 port 1000 to 10.0.0.2 port 80, by TCP. -/
def query : Flow := ⟨0x0A000001, 0x0A000002, 1000, 80, ipprotoTcp⟩

/-- The answer: a bare IP header and TCP header. -/
def answer : Packet :=
  [0x45, 0, 0, 40, 0, 0, 0, 0, 64, 6, 0, 0, 10, 0, 0, 2, 10, 0, 0, 1, 0, 80, 3, 232] ++
    List.replicate 16 0

theorem answer_is_let_in :
    (firewallCheckPacket ([Event.outgoing 0 query].foldl step (firewallInit 0 0)) 0 answer).1 =
      true ∧
    ((HeadersFit answer ∧ answer.isFragment = false) ∧
      (answer.isDhcp = true ∨
        RuleAccepts ([Event.outgoing 0 query].foldl step (firewallInit 0 0)).rules answer.flow ∨
        ∃ f, (f = answer.flow ∨ f = answer.flow.reverse) ∧
          RecordedIn (firewallInit 0 0) [.outgoing 0 query] f)) := by
  have haccepted : (firewallCheckPacket
      ([Event.outgoing 0 query].foldl step (firewallInit 0 0)) 0 answer).1 = true := by
    decide +kernel
  exact ⟨haccepted, accepted_packet_has_a_reason 0 0 [.outgoing 0 query] 0 answer haccepted⟩

end TinyOS.Firewall
