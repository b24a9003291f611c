import TinyOS.Firewall.Filter

/-!
# The rule that decides

`match_rule` goes through the priorities, and through the rules that deny before the others of
the same priority. It finds the earliest of the foremost rules that match, but it goes no further
than priority 999: a rule behind that is stored, and never found.
-/

namespace TinyOS.Firewall

open List

variable {rules : List Rule} {f : Flow} {r : Rule} {prio : Nat} {deny : Bool}

/-- The rule is enabled and matches. -/
def Rule.applies (r : Rule) (f : Flow) : Bool :=
  r.enabled && (r.protocol == 0 || r.protocol == f.protocol) &&
    ipMatches f.srcIp r.srcIp r.srcIpMask && ipMatches f.dstIp r.dstIp r.dstIpMask &&
    portMatches f.srcPort r.srcPort && portMatches f.dstPort r.dstPort

/-- The rule that ought to decide. The table keeps the rules in the order they were added. -/
structure Decides (rules : List Rule) (f : Flow) (r : Rule) : Prop where
  applies : r.applies f = true
  priority : ∀ x ∈ rules, x.applies f = true → r.priority ≤ x.priority
  deny : ∀ x ∈ rules, x.applies f = true → x.priority = r.priority →
    x.action.isDeny = true → r.action.isDeny = true
  earliest : ∃ before after, rules = before ++ r :: after ∧ ∀ x ∈ before,
    x.applies f = true → x.priority = r.priority → x.action.isDeny ≠ r.action.isDeny

/-- What `match_rule` ought to return. -/
def Selects (rules : List Rule) (f : Flow) : Option Rule → Prop
  | none => ∀ r ∈ rules, r.applies f = false
  | some r => Decides rules f r

theorem Rule.selects_iff : r.selects prio deny f = true ↔
    r.applies f = true ∧ r.priority.toNat = prio ∧ r.action.isDeny = deny := by
  simp only [selects, applies, Bool.and_eq_true, beq_iff_eq]
  tauto

/-- Both rounds of a priority find nothing if no rule of it applies. -/
theorem rounds_eq_none :
    ([true, false].findSome? fun deny => rules.find? fun r => r.selects prio deny f) = none ↔
      ∀ r ∈ rules, r.applies f = true → r.priority.toNat ≠ prio := by
  simp only [findSome?_eq_none_iff, find?_eq_none, Rule.selects_iff]
  constructor
  · intro h r hr happ heq
    exact h r.action.isDeny (by simp) r hr ⟨happ, heq, rfl⟩
  · rintro h deny - r hr ⟨happ, heq, -⟩
    exact h r hr happ heq

theorem matchRule_eq_none :
    matchRule rules f = none ↔ ∀ r ∈ rules, r.applies f = true → 1000 ≤ r.priority.toNat := by
  rw [matchRule, findSome?_eq_none_iff]
  simp only [rounds_eq_none, mem_range]
  constructor
  · intro h r hr happ
    exact Nat.le_of_not_lt fun hlt => h _ hlt r hr happ rfl
  · rintro h prio hprio r hr happ rfl
    exact absurd (h r hr happ) (Nat.not_le_of_lt hprio)

/-- The first rule found in a round decides if no rule belongs to an earlier round. -/
theorem Decides.of_find (hfind : rules.find? (fun r => r.selects prio deny f) = some r)
    (hprio : ∀ x ∈ rules, x.applies f = true → prio ≤ x.priority.toNat)
    (hdeny : ∀ x ∈ rules, x.applies f = true → x.priority.toNat = prio →
      x.action.isDeny = true → deny = true) : Decides rules f r := by
  obtain ⟨hsel, before, after, hsplit, hbefore⟩ := find?_eq_some_iff_append.mp hfind
  obtain ⟨happ, rfl, rfl⟩ := Rule.selects_iff.mp hsel
  refine ⟨happ, hprio, fun x hx hxapp heq => hdeny x hx hxapp (by rw [heq]), before, after, hsplit, ?_⟩
  intro x hx hxapp heq hclass
  have hnot := hbefore x hx
  rw [Rule.selects_iff.mpr ⟨hxapp, by rw [heq], hclass⟩] at hnot
  cases hnot

theorem Decides.of_matchRule (h : matchRule rules f = some r) : Decides rules f r := by
  obtain ⟨l₁, prio, l₂, hrange, hround, hbefore⟩ := findSome?_eq_some_iff.mp h
  rw [range_eq_range'] at hrange
  obtain ⟨k, -, rfl, hrest⟩ := range'_eq_append_iff.mp hrange
  obtain ⟨hprio, -⟩ := range'_eq_cons_iff.mp hrest.symm
  obtain rfl : k = prio := by omega
  have hfirst : ∀ x ∈ rules, x.applies f = true → k ≤ x.priority.toNat := by
    intro x hx happ
    by_contra hlt
    have hnone := hbefore x.priority.toNat (mem_range'_1.mpr ⟨Nat.zero_le _, by omega⟩)
    exact rounds_eq_none.mp hnone x hx happ rfl
  simp only [findSome?_cons, findSome?_nil] at hround
  rcases hdeny : rules.find? (fun r => r.selects k true f) with _ | d
  · simp only [hdeny] at hround
    split at hround
    · next hfind =>
      cases hround
      refine .of_find hfind hfirst fun x hx happ heq hclass => ?_
      exact absurd (Rule.selects_iff.mpr ⟨happ, heq, hclass⟩) (find?_eq_none.mp hdeny x hx)
    · cases hround
  · simp only [hdeny] at hround
    cases hround
    exact .of_find hdeny hfirst fun _ _ _ _ _ => rfl

/-- The right rule is returned, or none if none applies, unless all that apply are behind
priority 999. -/
theorem match_rule_selects_iff (rules : List Rule) (f : Flow) :
    Selects rules f (matchRule rules f) ↔
      ((∃ r ∈ rules, r.applies f = true) →
        ∃ r ∈ rules, r.applies f = true ∧ r.priority.toNat < 1000) := by
  rcases hmatch : matchRule rules f with _ | r
  · have hnone := matchRule_eq_none.mp hmatch
    constructor
    · rintro h ⟨r, hr, happ⟩
      rw [h r hr] at happ
      cases happ
    · intro h r hr
      by_contra happ
      obtain ⟨x, hx, hxapp, hlt⟩ := h ⟨r, hr, by simpa using happ⟩
      exact absurd (hnone x hx hxapp) (Nat.not_le_of_lt hlt)
  · refine iff_of_true (Decides.of_matchRule hmatch) fun _ => ?_
    by_contra hnot
    have hnone := matchRule_eq_none.mpr fun x hx happ =>
      Nat.le_of_not_lt fun hlt => hnot ⟨x, hx, happ, hlt⟩
    rw [hnone] at hmatch
    cases hmatch

/-- The only rule of the table, of priority 1000, denies every packet. -/
theorem rule_of_priority_1000_is_not_found :
    ∃ s, s = firewallAddRule (firewallInit 0 0) { action := .drop, priority := 1000 } ∧
      matchRule s.rules ⟨1, 2, 3, 4, 6⟩ = none ∧ ¬ Selects s.rules ⟨1, 2, 3, 4, 6⟩ none := by
  refine ⟨_, rfl, matchRule_eq_none.mpr (by decide), fun h => ?_⟩
  exact absurd (h _ (.head _)) (by decide)

end TinyOS.Firewall
