import TinyOS.Ramfs.Effect

/-!
# The descriptor table

What each operation does to `file_descriptors` and to the handle pool, whatever the tree is like: an
open claims one free slot in its last section or none, a close and a reference touch the slot they
name, and the rest moves positions at most.
-/

namespace TinyOS.Ramfs

variable {cur : Caller} {path : Option Str} {alloc : Bool} {s : State}

/-! ## Opening -/

theorem allocNode_tables {name : Str} {type : NodeType} {uid gid : Nat} {s' : State}
    {id : Option NodeId} (h : allocNode alloc name type uid gid s = (id, s')) :
    s'.fds = s.fds ∧ s'.handles = s.handles := by
  unfold allocNode at h
  split at h
  · cases h
    exact ⟨rfl, rfl⟩
  split at h
  · cases h
    exact ⟨rfl, rfl⟩
  · cases h
    exact ⟨rfl, rfl⟩

/-- A node may be created; no descriptor is touched. -/
theorem openCreate_tables {r : Except Int NodeId} {s' : State}
    (h : openCreate cur path alloc s = (r, s')) : s'.fds = s.fds ∧ s'.handles = s.handles := by
  unfold openCreate at h
  repeat' split at h
  all_goals
    cases h
    first
    | exact ⟨rfl, rfl⟩
    | rename_i halloc
      have hnode := allocNode_tables halloc
      exact hnode

theorem openCreate_error {e : Int} {s' : State} (h : openCreate cur path alloc s = (.error e, s')) :
    e < 0 := by
  unfold openCreate at h
  repeat' split at h
  all_goals
    cases h
    try decide

/-- An open takes one free slot, or fails and leaves the table alone. -/
def OpensSlot (cur : Caller) (flags : Nat) (s : State) (r : Int × State) : Prop :=
  r.1 < 0 ∧ r.2.fds = s.fds ∨
    ∃ i node, i < maxFds ∧ (s.fds i).inUse = false ∧ r.1 = (i : Int) ∧
      r.2.fds = Function.update s.fds i (openedFd cur node flags)

theorem OpensSlot.failed {flags : Nat} {r : Int × State} (h : OpensSlot cur flags s r) (hneg : r.1 < 0) :
    r.2.fds = s.fds := by
  rcases h with ⟨_, heq⟩ | ⟨i, node, _, _, hi, _⟩
  · exact heq
  · rw [hi] at hneg
    exact absurd hneg (by simp)

theorem openNode_opensSlot (node : NodeId) (flags : Nat) :
    OpensSlot cur flags s (openNode cur node flags s) := by
  unfold openNode
  split
  · rename_i hne
    refine .inl ⟨?_, rfl⟩
    unfold openCheck at hne ⊢
    split_ifs at hne ⊢ <;> simp_all
  · rcases openClaim_cases cur node flags s with ⟨hneg, heq⟩ | ⟨i, hlt, hfree, heq⟩
    · exact .inl ⟨hneg, by rw [heq]⟩
    · rw [heq]
      exact .inr ⟨i, node, hlt, hfree, rfl, rfl⟩

theorem ramfsOpen_opensSlot (cur : Caller) (path : Option Str) (flags : Nat) (alloc : Bool) (s : State) :
    OpensSlot cur flags s (ramfsOpen cur path flags alloc s) := by
  unfold ramfsOpen
  split
  · exact .inl ⟨by simp, rfl⟩
  split
  · rename_i hneg
    exact .inl ⟨hneg, rfl⟩
  split
  · exact openNode_opensSlot _ flags
  split
  · split
    · rename_i hcreate
      exact .inl ⟨openCreate_error hcreate, (openCreate_tables hcreate).1⟩
    rename_i node s₁ hcreate
    rw [OpensSlot, ← (openCreate_tables hcreate).1]
    exact openNode_opensSlot node flags
  · exact .inl ⟨by simp, rfl⟩

theorem openNode_handles (node : NodeId) (flags : Nat) :
    (openNode cur node flags s).2.handles = s.handles := by
  unfold openNode openClaim
  simp only
  repeat' split
  all_goals rfl

theorem ramfsOpen_handles (cur : Caller) (path : Option Str) (flags : Nat) (alloc : Bool) (s : State) :
    (ramfsOpen cur path flags alloc s).2.handles = s.handles := by
  unfold ramfsOpen
  split
  · rfl
  split
  · rfl
  split
  · exact openNode_handles _ flags
  split
  · split
    · rename_i hcreate
      exact (openCreate_tables hcreate).2
    · rename_i node s₁ hcreate
      exact (openNode_handles node flags).trans (openCreate_tables hcreate).2
  · rfl

/-! ## Closing and referring -/

theorem ramfsClose_handles (fd : Int) (s : State) : (ramfsClose fd s).handles = s.handles := by
  unfold ramfsClose
  split
  · rfl
  · split <;> rfl

theorem ramfsFdRef_handles (fd : Int) (s : State) : (ramfsFdRef fd s).2.handles = s.handles := by
  unfold ramfsFdRef
  split
  · rfl
  · split <;> rfl

theorem ramfsTruncate_handles (fd : Int) (s : State) : (ramfsTruncate fd s).2.handles = s.handles := by
  unfold ramfsTruncate
  repeat' split
  all_goals rfl

end TinyOS.Ramfs
