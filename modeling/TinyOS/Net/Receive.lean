import TinyOS.Lib.Run
import Mathlib.Data.List.Perm.Basic

/-!
# Received frames

The network driver (`e1000.c`) hands received frames on through two rings. The interrupt handler puts
a frame into `rx_softirq_ring`; `knetd` takes it out and either parses it or, if the daemon in ring 3
has claimed its protocol, puts it into `netd_ring`, from which `SYS_NETRX` takes it. The test whether
the protocol is claimed and the entry into the second ring are two steps.

A frame carries the number of its arrival, and an entry of `netd_ring` the number of unclaims before
it was routed; both are noted for the proof, and read by no step.

* `Inv`: where each accepted frame is.
* `frames_are_consumed_once`: along every run in which nothing is unclaimed over a frame on its way
  to the daemon, and the daemon's buffer is large enough.
* `frame_outlives_its_claim`: what happens otherwise.
-/

namespace TinyOS.Net.Receive

open Lib List

def rxBufSize : Nat := 2048
def rxSoftirqSlots : Nat := 64
def netdRingSlots : Nat := 32

structure Frame where
  /-- The number of its arrival. -/
  number : Nat
  data : List UInt8
  deriving DecidableEq

/-- `netd_claims_frame`: an IPv4 packet with ICMP or UDP. An Ethernet header has 14 bytes, an IP header
20. -/
def netdClaimsFrame (f : Frame) : Bool :=
  decide (14 + 20 ≤ f.data.length) && decide (f.data.getD 12 0 = 0x08 ∧ f.data.getD 13 0 = 0x00) &&
    decide (f.data.getD 23 0 = 1 ∨ f.data.getD 23 0 = 17)

/-- A frame for the daemon, and which claim it was routed for. -/
structure Routed where
  frame : Frame
  claim : Nat
  deriving DecidableEq

/-- What `knetd` is doing. -/
inductive Knetd where
  | idle
  /-- It has copied a frame out of the ring. -/
  | took (f : Frame)
  /-- It has found that the frame is claimed. -/
  | routes (r : Routed)
  deriving DecidableEq

/-- A frame that the daemon got, and during which claim. -/
structure Delivery where
  routed : Routed
  claim : Nat
  deriving DecidableEq

structure State where
  /-- From `rx_softirq_tail` to `rx_softirq_head`. -/
  rxRing : List Frame
  /-- From `netd_ring_tail` to `netd_ring_head`. -/
  netdRing : List Routed
  netdClaimed : Bool
  netdDropBacklog : Nat
  knetd : Knetd
  /-- How often the protocols have been unclaimed. -/
  unclaims : Nat
  /-- The frames accepted into the first ring, in their order. -/
  accepted : List Frame
  /-- Those that `handle_packet` was called with. -/
  parsed : List Frame
  delivered : List Delivery
  /-- Those that were counted in `netd_drop_backlog`. -/
  dropped : List Frame
  deriving DecidableEq

inductive Event where
  /-- The interrupt handler has a frame with this content. -/
  | receive (data : List UInt8)
  /-- `e1000_rx_softirq_run` takes a frame out of the ring, -/
  | take
  /-- tests whether it is claimed, and parses it if not, -/
  | test
  /-- or calls `netd_ring_enqueue`. -/
  | enqueue
  /-- `SYS_NETRX`: `e1000_rx_dequeue` with room for so many bytes, and whether `copy_to_user` then
  succeeds. -/
  | dequeue (outLen : Nat) (copied : Bool)
  /-- `net_netd_set_claimed`. -/
  | setClaimed (claimed : Bool)
  deriving DecidableEq

/-- A ring with `n` slots keeps one of them free. -/
def full (n length : Nat) : Bool := decide (n ≤ length + 1)

namespace State

/-- `none` if `knetd` is not where the step is taken. -/
def next (s : State) : Event → Option State
  | .receive data =>
    if full rxSoftirqSlots s.rxRing.length then some s
    else if rxBufSize < data.length then some s
    else
      let f : Frame := ⟨s.accepted.length, data⟩
      some { s with rxRing := s.rxRing ++ [f], accepted := s.accepted ++ [f] }
  | .take =>
    match s.knetd, s.rxRing with
    | .idle, f :: rest => some { s with knetd := .took f, rxRing := rest }
    | _, _ => none
  | .test =>
    match s.knetd with
    | .took f =>
      if s.netdClaimed && netdClaimsFrame f then
        some { s with knetd := .routes ⟨f, s.unclaims⟩ }
      else some { s with knetd := .idle, parsed := s.parsed ++ [f] }
    | _ => none
  | .enqueue =>
    match s.knetd with
    | .routes r =>
      if rxBufSize < r.frame.data.length ∨ full netdRingSlots s.netdRing.length = true then
        some { s with
          knetd := .idle
          netdDropBacklog := s.netdDropBacklog + 1
          dropped := s.dropped ++ [r.frame] }
      else some { s with knetd := .idle, netdRing := s.netdRing ++ [r] }
    | _ => none
  | .dequeue outLen copied =>
    match s.netdRing with
    | [] => some s
    | r :: rest =>
      -- The frame is consumed whether or not the caller gets it.
      if outLen < r.frame.data.length ∨ copied = false then some { s with netdRing := rest }
      else some { s with netdRing := rest, delivered := s.delivered ++ [⟨r, s.unclaims⟩] }
  | .setClaimed claimed =>
    if claimed then some { s with netdClaimed := true }
    else some { s with netdClaimed := false, netdRing := [], unclaims := s.unclaims + 1 }

/-- The driver after its initialisation. -/
def init : State := ⟨[], [], false, 0, .idle, 0, [], [], [], []⟩

/-- The frame that `knetd` has in its hands. -/
def held (s : State) : List Frame :=
  match s.knetd with
  | .idle => []
  | .took f => [f]
  | .routes r => [r.frame]

/-- The frames that the daemon got. -/
def deliveredFrames (s : State) : List Frame := s.delivered.map fun d => d.routed.frame

/-- The frames that wait for the daemon. -/
def waiting (s : State) : List Frame := s.netdRing.map Routed.frame

end State

/-- Nothing is on its way to the daemon when it is unclaimed, and the daemon's buffer can be written and
has room for the next frame. -/
def Careful (s : State) : Event → Prop
  | .setClaimed false => s.netdRing = [] ∧ ∀ r, s.knetd ≠ .routes r
  | .dequeue outLen copied =>
    copied = true ∧ ∀ r ∈ s.netdRing.head?, r.frame.data.length ≤ outLen
  | _ => True

def Step (s : State) (e : Event) (s' : State) : Prop := Careful s e ∧ s.next e = some s'

/-- Each accepted frame has one fate, and frames keep their order. -/
structure ConsumedOnce (s : State) : Prop where
  /-- No frame was accepted twice. -/
  distinct : s.accepted.Nodup
  /-- A frame was parsed, delivered or dropped, or it is still on its way. -/
  fates : (s.parsed ++ s.deliveredFrames ++ s.dropped ++ (s.waiting ++ s.held ++ s.rxRing)).Perm s.accepted
  parsedInOrder : s.parsed.Sublist s.accepted
  deliveredInOrder : s.deliveredFrames.Sublist s.accepted
  counted : s.netdDropBacklog = s.dropped.length
  /-- The daemon gets what was routed for its own claim. -/
  ownClaim : ∀ d ∈ s.delivered, d.routed.claim = d.claim

/-- With the frames that `knetd` is done with. -/
structure Inv (s : State) (done : List Frame) : Prop where
  accepted : s.accepted = done ++ s.held ++ s.rxRing
  numbers : ∀ f ∈ s.accepted, f.number < s.accepted.length
  distinct : s.accepted.Nodup
  fates : (s.parsed ++ s.deliveredFrames ++ s.dropped ++ s.waiting).Perm done
  parsed : s.parsed.Sublist done
  delivered : (s.deliveredFrames ++ s.waiting).Sublist done
  counted : s.netdDropBacklog = s.dropped.length
  ownClaim : ∀ d ∈ s.delivered, d.routed.claim = d.claim
  ring : ∀ r ∈ s.netdRing, r.claim = s.unclaims
  routes : ∀ r, s.knetd = .routes r → r.claim = s.unclaims

variable {s s' : State} {done : List Frame}

namespace Inv

variable (h : Inv s done)

include h

theorem receive {data : List UInt8} (hnext : s.next (.receive data) = some s') : Inv s' done := by
  unfold State.next at hnext
  dsimp only at hnext
  split at hnext
  · cases hnext
    exact h
  split at hnext
  · cases hnext
    exact h
  cases hnext
  refine { h with accepted := ?_, numbers := ?_, distinct := ?_ }
  · show s.accepted ++ _ = done ++ s.held ++ (s.rxRing ++ _)
    rw [h.accepted]
    simp only [append_assoc]
  · intro f hf
    rw [length_append, length_singleton]
    rcases mem_append.mp hf with hold | hnew
    · exact Nat.lt_succ_of_lt (h.numbers f hold)
    · rw [mem_singleton.mp hnew]
      exact Nat.lt_succ_self _
  · -- The number of the new frame is larger than those of the others.
    refine nodup_append.mpr ⟨h.distinct, pairwise_singleton _ _, ?_⟩
    intro f hf g hg heq
    have hnumber := h.numbers f hf
    rw [heq, mem_singleton.mp hg] at hnumber
    exact Nat.lt_irrefl _ hnumber

theorem take (hnext : s.next .take = some s') : Inv s' done := by
  unfold State.next at hnext
  dsimp only at hnext
  split at hnext
  · rename_i f rest hidle hring
    cases hnext
    refine { h with accepted := ?_, routes := nofun }
    show s.accepted = done ++ [f] ++ rest
    rw [h.accepted, hring, State.held, hidle, append_nil, append_assoc, singleton_append]
  · cases hnext

/-- `knetd` is done with the frame it has: it was parsed, dropped or handed on. -/
theorem finish {f : Frame} (hheld : s.held = [f]) (haccepted : s'.accepted = s.accepted)
    (hidle : s'.knetd = .idle) (hrx : s'.rxRing = s.rxRing)
    (hfates : (s'.parsed ++ s'.deliveredFrames ++ s'.dropped ++ s'.waiting).Perm
      (s.parsed ++ s.deliveredFrames ++ s.dropped ++ s.waiting ++ [f]))
    (hparsed : s'.parsed.Sublist (s.parsed ++ [f]))
    (hdelivered : (s'.deliveredFrames ++ s'.waiting).Sublist (s.deliveredFrames ++ s.waiting ++ [f]))
    (hcounted : s'.netdDropBacklog = s'.dropped.length) (hown : s'.delivered = s.delivered)
    (hring : ∀ r ∈ s'.netdRing, r.claim = s'.unclaims) : Inv s' (done ++ [f]) := by
  constructor
  · rw [haccepted, h.accepted, hheld, hrx, State.held, hidle, append_nil]
  · rw [haccepted]
    exact h.numbers
  · rw [haccepted]
    exact h.distinct
  · exact hfates.trans (h.fates.append_right _)
  · exact hparsed.trans (h.parsed.append (List.Sublist.refl _))
  · exact hdelivered.trans (h.delivered.append (List.Sublist.refl _))
  · exact hcounted
  · rw [hown]
    exact h.ownClaim
  · exact hring
  · intro r hr
    rw [hidle] at hr
    cases hr

theorem test (hnext : s.next .test = some s') : ∃ done', Inv s' done' := by
  unfold State.next at hnext
  dsimp only at hnext
  split at hnext
  swap
  · cases hnext
  rename_i f htook
  have hheld : s.held = [f] := by rw [State.held, htook]
  split at hnext
  · cases hnext
    refine ⟨done, { h with accepted := ?_, routes := ?_ }⟩
    · show s.accepted = done ++ [f] ++ s.rxRing
      rw [h.accepted, hheld]
    · intro r hr
      cases hr
      rfl
  · cases hnext
    refine ⟨done ++ [f], h.finish hheld rfl rfl rfl ?_ (List.Sublist.refl _)
      (sublist_append_left _ _) h.counted rfl h.ring⟩
    show (s.parsed ++ [f] ++ s.deliveredFrames ++ s.dropped ++ s.waiting).Perm _
    simp only [append_assoc]
    refine List.Perm.append_left _ ?_
    have hlast : s.deliveredFrames ++ (s.dropped ++ (s.waiting ++ [f])) =
        s.deliveredFrames ++ (s.dropped ++ s.waiting) ++ [f] := by
      simp only [append_assoc]
    rw [hlast]
    exact perm_append_comm

theorem enqueue (hnext : s.next .enqueue = some s') : ∃ done', Inv s' done' := by
  unfold State.next at hnext
  dsimp only at hnext
  split at hnext
  swap
  · cases hnext
  rename_i r hroutes
  have hheld : s.held = [r.frame] := by rw [State.held, hroutes]
  refine ⟨done ++ [r.frame], ?_⟩
  split at hnext
  · cases hnext
    refine h.finish hheld rfl rfl rfl ?_ (sublist_append_left _ _)
      (sublist_append_left _ _) ?_ rfl h.ring
    · simp only [append_assoc]
      exact (((perm_append_comm.append_left _).append_left _).append_left _)
    · rw [h.counted, length_append, length_singleton]
  · cases hnext
    have hwaiting : List.map Routed.frame (s.netdRing ++ [r]) = s.waiting ++ [r.frame] :=
      map_append
    refine h.finish hheld rfl rfl rfl ?_ (sublist_append_left _ _) ?_ h.counted rfl ?_
    · show (s.parsed ++ s.deliveredFrames ++ s.dropped ++ List.map Routed.frame (s.netdRing ++ [r])).Perm _
      rw [hwaiting, ← append_assoc]
    · show (s.deliveredFrames ++ List.map Routed.frame (s.netdRing ++ [r])).Sublist _
      rw [hwaiting, ← append_assoc]
    · -- Nothing was unclaimed since the test, so the frame is for the present claim.
      refine forall_mem_append.mpr ⟨h.ring, forall_mem_singleton.mpr ?_⟩
      exact h.routes r hroutes

theorem dequeue {outLen : Nat} {copied : Bool} (hcareful : Careful s (.dequeue outLen copied))
    (hnext : s.next (.dequeue outLen copied) = some s') : Inv s' done := by
  obtain ⟨rfl, hroom⟩ := hcareful
  unfold State.next at hnext
  dsimp only at hnext
  split at hnext
  · cases hnext
    exact h
  rename_i r rest hring
  have hfits : ¬(outLen < r.frame.data.length ∨ true = false) := by
    rintro (hlong | hfalse)
    · refine absurd (hroom r ?_) (Nat.not_le.mpr hlong)
      rw [hring]
      rfl
    · cases hfalse
  rw [if_neg hfits] at hnext
  cases hnext
  -- The head of the ring becomes the last delivery, so together they stay as they are.
  have hmoved : List.map (fun d : Delivery => d.routed.frame) (s.delivered ++ [⟨r, s.unclaims⟩]) ++
      List.map Routed.frame rest = s.deliveredFrames ++ s.waiting := by
    rw [State.waiting, hring, map_append, append_assoc]
    rfl
  refine { h with fates := ?_, delivered := ?_, ownClaim := ?_, ring := ?_ }
  · refine List.Perm.trans ?_ h.fates
    show (s.parsed ++ List.map (fun d : Delivery => d.routed.frame)
      (s.delivered ++ [⟨r, s.unclaims⟩]) ++ s.dropped ++ List.map Routed.frame rest).Perm _
    rw [append_assoc, append_assoc, append_assoc, append_assoc]
    refine List.Perm.append_left _ ?_
    refine (perm_append_comm.append_left _).trans ?_
    rw [← append_assoc, hmoved, append_assoc]
    exact perm_append_comm.append_left _
  · show (List.map (fun d : Delivery => d.routed.frame) (s.delivered ++ [⟨r, s.unclaims⟩]) ++
      List.map Routed.frame rest).Sublist done
    rw [hmoved]
    exact h.delivered
  · refine forall_mem_append.mpr ⟨h.ownClaim, forall_mem_singleton.mpr ?_⟩
    exact h.ring r (by rw [hring]; exact mem_cons_self)
  · intro x hx
    exact h.ring x (by rw [hring]; exact mem_cons_of_mem _ hx)

theorem setClaimed {claimed : Bool} (hcareful : Careful s (.setClaimed claimed))
    (hnext : s.next (.setClaimed claimed) = some s') : Inv s' done := by
  cases claimed with
  | true =>
    cases hnext
    exact { h with }
  | false =>
    obtain ⟨hempty, hnone⟩ := hcareful
    cases hnext
    have hwaiting : s.waiting = [] := by
      rw [State.waiting, hempty]
      rfl
    refine { h with fates := ?_, delivered := ?_, ring := nofun, routes := ?_ }
    · have hfates := h.fates
      rwa [hwaiting] at hfates
    · have hdelivered := h.delivered
      rwa [hwaiting] at hdelivered
    · intro r hr
      exact absurd hr (hnone r)

end Inv

theorem step_inv {e : Event} (h : Inv s done) (hstep : Step s e s') : ∃ done', Inv s' done' := by
  obtain ⟨hcareful, hnext⟩ := hstep
  cases e with
  | receive data => exact ⟨done, h.receive hnext⟩
  | take => exact ⟨done, h.take hnext⟩
  | test => exact h.test hnext
  | enqueue => exact h.enqueue hnext
  | dequeue outLen copied => exact ⟨done, h.dequeue hcareful hnext⟩
  | setClaimed claimed => exact ⟨done, h.setClaimed hcareful hnext⟩

theorem init_inv : Inv .init [] :=
  ⟨rfl, nofun, nodup_nil, .nil, List.Sublist.slnil, List.Sublist.slnil, rfl, nofun, nofun, nofun⟩

/-- Every accepted frame is parsed, delivered or counted as dropped, once and in order, and none is
delivered under a later claim. -/
theorem frames_are_consumed_once {events : List Event} (hrun : Run Step .init events s) :
    ConsumedOnce s := by
  obtain ⟨done, h⟩ : ∃ done, Inv s done := by
    refine @Run.invariant _ _ Step _ _ _ (fun s => ∃ done, Inv s done) ?_ hrun ⟨[], init_inv⟩
    intro s e s' hinv hstep
    obtain ⟨done, hinv⟩ := hinv
    exact step_inv hinv hstep
  have hdone : done.Sublist s.accepted := by
    rw [h.accepted, append_assoc]
    exact sublist_append_left _ _
  refine ⟨h.distinct, ?_, h.parsed.trans hdone, ?_, h.counted, h.ownClaim⟩
  · have hfates := h.fates.append_right (s.held ++ s.rxRing)
    rw [h.accepted]
    simpa only [append_assoc] using hfates
  · exact ((sublist_append_left _ _).trans h.delivered).trans hdone

instance (s : State) : DecidablePred (Careful s)
  | .setClaimed false => decidable_of_iff (s.netdRing = [] ∧ (s.knetd matches .routes _) = false) <| by
      refine and_congr_right fun _ => ?_
      cases s.knetd <;> simp
  | .dequeue outLen copied =>
    inferInstanceAs (Decidable (copied = true ∧ ∀ r ∈ s.netdRing.head?, _))
  | .receive _ | .take | .test | .enqueue | .setClaimed true => instDecidableTrue

/-- An IPv4 packet with UDP in it. -/
def udpFrame : List UInt8 := ((List.replicate 34 0).set 12 0x08).set 23 17

/-- One frame is parsed, the next one delivered, and the claim given up. -/
def claimAndRelease : List Event :=
  [.receive udpFrame, .take, .test, .setClaimed true, .receive udpFrame, .take, .test, .enqueue,
    .dequeue 2048 true, .setClaimed false]

theorem frames_are_consumed_after_claim :
    ∃ s, Run Step .init claimAndRelease s ∧ ConsumedOnce s ∧ s.parsed.length = 1 ∧
      s.delivered.length = 1 := by
  have heval : (claimAndRelease.foldlM (fun s e => if Careful s e then s.next e else none)
      State.init).any (fun s => s.parsed.length = 1 ∧ s.delivered.length = 1) = true := by
    decide +kernel
  obtain ⟨s, hs, hlengths⟩ := Option.any_eq_true _ _ |>.mp heval
  have hrun : Run Step .init claimAndRelease s := .of_foldlM_some_guarded hs
  exact ⟨s, hrun, frames_are_consumed_once hrun, of_decide_eq_true hlengths⟩

/-- `knetd` finds a frame claimed, the claim is given up, and the frame then enters the ring: the next
claimant gets it. And a frame that waits when the claim is given up is nowhere. -/
theorem frame_outlives_its_claim :
    (∃ s, Run (fun (s : State) e s' => s.next e = some s') .init [.setClaimed true, .receive udpFrame,
        .take, .test, .setClaimed false, .enqueue, .setClaimed true, .dequeue 2048 true] s ∧
      ∃ d ∈ s.delivered, d.routed.claim ≠ d.claim) ∧
    ∃ s, Run (fun (s : State) e s' => s.next e = some s') .init [.setClaimed true, .receive udpFrame,
        .take, .test, .enqueue, .setClaimed false] s ∧
      s.accepted.length = 1 ∧ s.parsed = [] ∧ s.delivered = [] ∧ s.netdDropBacklog = 0 ∧
      s.waiting ++ s.held ++ s.rxRing = [] :=
  ⟨⟨_, Run.of_foldlM_some rfl, by decide +kernel⟩, _, Run.of_foldlM_some rfl, by decide +kernel⟩

end TinyOS.Net.Receive
