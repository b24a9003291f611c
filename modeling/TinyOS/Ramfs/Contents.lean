import TinyOS.Lib.ByteFile
import TinyOS.Ramfs.TreeInvariant

/-!
# RAMFS: file contents as a byte array

A file's pages stand for a list of bytes (`contents`), and the descriptors for
cursors into it (`View`). `Conforms` states what each of read, write, seek and
truncate should do to that view; `contents_refine` says, for every state a run
from `ramfs_init` reaches, that a call conforms except in two cases
(`ContentsDefect`):

* a read of zero bytes before the end of the file returns -5;
* a write that stores no byte (nothing to write, or no page to be had) at a
  cursor left beyond the end by another descriptor's truncate still moves the
  size up to the cursor.

The invariant behind it, `DataOk`, is a high-water mark: every cursor and the
size stay below it, every page below it is backed, and every byte past the size
is zero.
-/

namespace TinyOS.Ramfs

open TinyOS.Lib Relation Function List State

/-- The byte a file holds at `x`. -/
def byteAt (n : Node) (x : Nat) : UInt8 := (pageByte n x).getD 0

/-- The contents of a file. -/
def contents (n : Node) : List UInt8 := tabulate n.size (byteAt n)

/-! ## The store loop -/

theorem pageByte_storeByte {n : Node} {off : Nat} {page : Page} {b : UInt8} (x : Nat)
    (hoff : off / pageSize < maxPages) :
    pageByte (storeByte n off page b) x =
      if x = off then some b
      else if x / pageSize = off / pageSize then some (page (x % pageSize)) else pageByte n x := by
  by_cases hx : x = off
  · subst hx
    simp [pageByte, storeByte, hoff]
  rw [if_neg hx]
  by_cases hpage : x / pageSize = off / pageSize
  · have hmod : x % pageSize ≠ off % pageSize := by
      intro hmod
      apply hx
      rw [← Nat.div_add_mod x pageSize, ← Nat.div_add_mod off pageSize, hpage, hmod]
    simp [pageByte, storeByte, hpage, hmod, hoff]
  · simp [pageByte, storeByte, hpage]

/-- What the store loop has done after storing `count` of the bytes of `src`. -/
structure Stored (src : List UInt8) (off : Nat) (n n' : Node) (count : Nat) : Prop where
  le : count ≤ src.length
  bytes : ∀ i < count, pageByte n' (off + i) = src[i]?
  /-- Elsewhere nothing changed, or a fresh page reads as zero. -/
  other : ∀ x, ¬ (off ≤ x ∧ x < off + count) →
    pageByte n' x = pageByte n x ∨ (pageByte n x = none ∧ pageByte n' x = some 0)
  backed : ∀ k, (n.dataPages k).isSome → (n'.dataPages k).isSome
  size : n'.size = n.size

theorem Stored.nil {src : List UInt8} {off : Nat} {n : Node} : Stored src off n n 0 :=
  ⟨Nat.zero_le _, by simp, fun _ _ => .inl rfl, fun _ h => h, rfl⟩

/-- Storing one more byte in front. `page` is the page found or the fresh one. -/
theorem Stored.cons {b : UInt8} {src : List UInt8} {off count : Nat} {n n' : Node} {page : Page}
    (hoff : off / pageSize < maxPages)
    (hpage : n.dataPages (off / pageSize) = some page ∨
      (n.dataPages (off / pageSize) = none ∧ page = zeroPage))
    (h : Stored src (off + 1) (storeByte n off page b) n' count) :
    Stored (b :: src) off n n' (count + 1) where
  le := by simpa using h.le
  bytes i hi := by
    cases i with
    | zero =>
      rcases h.other off (by omega) with heq | ⟨hnone, -⟩
      · simp [heq, pageByte_storeByte off hoff]
      · simp [pageByte_storeByte off hoff] at hnone
    | succ i =>
      have := h.bytes i (by omega)
      rw [show off + (i + 1) = off + 1 + i by omega, this]
      simp
  other x hx := by
    -- the byte stored first, then the rest of its page, then the other pages
    have hstep : pageByte (storeByte n off page b) x = pageByte n x ∨
        (pageByte n x = none ∧ pageByte (storeByte n off page b) x = some 0) := by
      rw [pageByte_storeByte x hoff, if_neg (by omega)]
      by_cases hsame : x / pageSize = off / pageSize
      · rw [if_pos hsame, pageByte, if_neg (by omega), hsame]
        rcases hpage with hsome | ⟨hnone, rfl⟩
        · exact .inl (by rw [hsome]; rfl)
        · exact .inr ⟨by rw [hnone]; rfl, rfl⟩
      · rw [if_neg hsame]
        exact .inl rfl
    rcases h.other x (by omega) with heq | ⟨hnone, hzero⟩
    · rw [heq]
      exact hstep
    · rcases hstep with hsame | ⟨hnone', hzero'⟩
      · exact .inr ⟨by rw [← hsame, hnone], hzero⟩
      · rw [hnone] at hzero'
        exact absurd hzero' (by simp)
  backed k hk := by
    refine h.backed k ?_
    by_cases hko : k = off / pageSize
    · simp [storeByte, hko]
    · simpa [storeByte, hko] using hk
  size := h.size

theorem div_lt_maxPages {off : Nat} (h : off < maxData) : off / pageSize < maxPages :=
  Nat.div_lt_of_lt_mul (by rw [Nat.mul_comm]; exact h)

theorem writeLoop_stored (allocs : Nat → Bool) {src : List UInt8} {off : Nat} (k : Nat) (n : Node)
    (hfit : off + src.length ≤ maxData) :
    Stored src off n (writeLoop allocs src off k n).1 (writeLoop allocs src off k n).2 := by
  induction src generalizing off k n with
  | nil => exact Stored.nil
  | cons b src ih =>
    simp only [length_cons] at hfit
    have hoff := div_lt_maxPages (show off < maxData by omega)
    rw [writeLoop, if_neg (by omega)]
    split
    · rename_i page hpage
      exact Stored.cons hoff (.inl hpage) (ih _ _ (by omega))
    rename_i hnone
    split
    · exact Stored.cons hoff (.inr ⟨hnone, rfl⟩) (ih _ _ (by omega))
    · exact Stored.nil

/-- The first byte fails to be stored. -/
def NoFirstByte (allocs : Nat → Bool) (src : List UInt8) (off : Nat) (n : Node) : Prop :=
  src = [] ∨ (n.dataPages (off / pageSize) = none ∧ allocs 0 = false)

theorem writeLoop_count_eq_zero (allocs : Nat → Bool) {src : List UInt8} {off : Nat} (n : Node)
    (hfit : off + src.length ≤ maxData) :
    (writeLoop allocs src off 0 n).2 = 0 ↔ NoFirstByte allocs src off n := by
  cases src with
  | nil => simp [writeLoop, NoFirstByte]
  | cons b src =>
    simp only [length_cons] at hfit
    have hoff := div_lt_maxPages (show off < maxData by omega)
    rw [writeLoop, if_neg (by omega)]
    cases hpage : n.dataPages (off / pageSize) with
    | some page => simp [NoFirstByte, hpage]
    | none => cases halloc : allocs 0 <;> simp [NoFirstByte, hpage, halloc]

/-! ## The invariant -/

/-- Every descriptor in use is on a file that is still there. -/
def FdsLive (s : State) : Prop :=
  ∀ i, InUse s i → ∃ n ∈ s.live, (s.fds i).node = some n ∧ (s.node n).type = .file

/-- The high-water mark `h` of a file. -/
structure DataOk (s : State) (n : NodeId) (h : Nat) : Prop where
  le : h ≤ maxData
  size : (s.node n).size ≤ h
  pos : ∀ i, InUse s i → (s.fds i).node = some n → (s.fds i).pos ≤ h
  backed : ∀ k, k * pageSize < h → ((s.node n).dataPages k).isSome
  zero : ∀ x, (s.node n).size ≤ x → pageByte (s.node n) x = none ∨ pageByte (s.node n) x = some 0

/-- The invariant of every run from `ramfs_init`. -/
structure DataInv (s : State) : Prop where
  wf : Wf s
  fds : FdsLive s
  data : ∀ n ∈ s.live, ∃ h, DataOk s n h

theorem not_busy_fd {s : State} {node : NodeId} (h : ramfsNodeIsBusy s node = false) {i : Nat}
    (hi : InUse s i) : (s.fds i).node ≠ some node := by
  intro hnode
  simp only [ramfsNodeIsBusy, Bool.or_eq_false_iff] at h
  have hany : ((List.range maxFds).any fun i => (s.fds i).inUse && (s.fds i).node == some node) = true :=
    any_eq_true.mpr ⟨i, mem_range.mpr hi.1, by simp [hi.2, hnode]⟩
  rw [h.1] at hany
  exact absurd hany (by simp)

theorem InUse.of_setFd {s : State} {i j : Nat} {d : Fd} (h : InUse (s.setFd i d) j) (hij : j ≠ i) :
    InUse s j :=
  ⟨h.1, by simpa [setFd_fds, hij] using h.2⟩

section Invariant

variable {s s' : State} {cur : Caller} {use : Scope}

theorem FdsLive.frame (hf : FdsLive s) (hfds : s'.fds = s.fds)
    (hnode : ∀ i n, InUse s i → (s.fds i).node = some n → n ∈ s.live →
      n ∈ s'.live ∧ (s'.node n).type = (s.node n).type) : FdsLive s' := by
  intro i hi
  have hi : InUse s i := ⟨hi.1, by rw [← hfds]; exact hi.2⟩
  obtain ⟨n, hn, hnd, hty⟩ := hf i hi
  obtain ⟨hn', hty'⟩ := hnode i n hi hnd hn
  exact ⟨n, hn', by rw [hfds, hnd], hty'.trans hty⟩

/-- Rewriting a slot: on the same file, or one known to be there. -/
theorem FdsLive.setFd (hf : FdsLive s) {i : Nat} {d : Fd}
    (hd : InUse (s.setFd i d) i → ∃ n ∈ s.live, d.node = some n ∧ (s.node n).type = .file) :
    FdsLive (s.setFd i d) := by
  intro j hj
  by_cases hji : j = i
  · subst hji
    simpa [setFd_fds] using hd hj
  · simpa [setFd_fds, hji] using hf j (InUse.of_setFd hj hji)

theorem FdsLive.modify (hf : FdsLive s) (p : NodeId) (f : Node → Node)
    (hty : (f (s.node p)).type = (s.node p).type) : FdsLive (s.modify p f) :=
  hf.frame rfl fun _ _ _ _ hn => ⟨hn, modify_field _ _ _ _ Node.type hty⟩

/-- Descriptors never outlive their file. -/
theorem FdsLive.effect (hw : Wf s) (hf : FdsLive s) (h : Effect cur use s s') : FdsLive s' := by
  cases h with
  | create type spot room =>
    obtain ⟨r, kids, ht⟩ := hw.tree_of_live spot.live
    refine hf.frame rfl fun i n _ _ hn => ⟨Finset.mem_insert_of_mem hn, ?_⟩
    rw [insertNode_node_old (ht.fresh n hn).ne]
  | @remove _ parent node entry named empty idle gone =>
    obtain ⟨_, hr⟩ := hw.remove_cases entry gone
    refine hf.frame hr.fds fun i n hi hnd hn => ?_
    have hne : n ≠ node := by
      rintro rfl
      exact not_busy_fd idle hi hnd
    rw [hr.live, Finset.mem_erase, hr.fields n hne]
    exact ⟨⟨hne, hn⟩, rfl⟩
  | rename | chmod => exact hf.modify _ _ rfl
  | claim live above file granted lt free => exact hf.setFd fun _ => ⟨_, live, rfl, file⟩
  | @write i node src allocs slot named flag node_eq pos fits =>
    have hm := hf.modify node (fun n => (writeNode allocs src (s.fds i).pos n).1)
      (by rw [writeNode_frame])
    exact hm.setFd fun _ => hm _ slot
  | @truncate i node slot named flag node_eq =>
    have hm := hf.modify node (fun n => { n with
      size := 0, dataPages := fun k => (n.dataPages k).map fun _ => zeroPage }) rfl
    exact hm.setFd fun _ => hm _ slot
  | cursor slot | refs _ slot => exact hf.setFd fun _ => hf _ slot
  | release slot => exact hf.setFd fun hi => by simpa [setFd_fds, Fd.free] using hi.2
  | claimDir | releaseDir => exact hf.frame rfl fun i n _ _ hn => ⟨hn, rfl⟩

variable {n : NodeId} {h : Nat}

theorem DataOk.frame (hd : DataOk s n h)
    (hsize : (s'.node n).size = (s.node n).size)
    (hpages : (s'.node n).dataPages = (s.node n).dataPages)
    (hpos : ∀ i, InUse s' i → (s'.fds i).node = some n → (s'.fds i).pos ≤ h) : DataOk s' n h where
  le := hd.le
  size := by rw [hsize]; exact hd.size
  pos := hpos
  backed := by rw [hpages]; exact hd.backed
  zero x hx := by
    rw [hsize] at hx
    simpa [pageByte, hpages] using hd.zero x hx

theorem DataOk.modify (hd : DataOk s n h) (p : NodeId) (f : Node → Node)
    (hf : p = n → (f (s.node p)).size = (s.node p).size ∧
      (f (s.node p)).dataPages = (s.node p).dataPages) : DataOk (s.modify p f) n h := by
  by_cases hpn : n = p
  · subst hpn
    exact hd.frame (by simpa using (hf rfl).1) (by simpa using (hf rfl).2) hd.pos
  · exact hd.frame (by rw [modify_node_ne _ _ _ _ hpn])
      (by rw [modify_node_ne _ _ _ _ hpn]) hd.pos

theorem DataOk.setFd (hd : DataOk s n h) {i : Nat} {d : Fd}
    (hpos : d.inUse = true → d.node = some n → d.pos ≤ h) : DataOk (s.setFd i d) n h := by
  refine hd.frame rfl rfl fun j hj hnode => ?_
  by_cases hji : j = i
  · subst hji
    have huse := hj.2
    rw [setFd_fds, if_pos rfl] at hnode huse ⊢
    exact hpos huse hnode
  · rw [setFd_fds, if_neg hji] at hnode ⊢
    exact hd.pos j (InUse.of_setFd hj hji) hnode

/-- A write moves the mark up to the end of what it stored. -/
theorem DataOk.write {n : NodeId} {h i : Nat} {src : List UInt8} (allocs : Nat → Bool)
    (hd : DataOk s n h) (slot : InUse s i) (hnode : (s.fds i).node = some n)
    (fits : src.length ≤ maxData - (s.fds i).pos) (hpos : (s.fds i).pos < maxData) :
    DataOk ((s.modify n fun n => (writeNode allocs src (s.fds i).pos n).1).setFd i
      { s.fds i with pos := (s.fds i).pos + (writeNode allocs src (s.fds i).pos (s.node n)).2 }) n
      (max h ((s.fds i).pos + (writeNode allocs src (s.fds i).pos (s.node n)).2)) := by
  have hst := writeLoop_stored allocs 0 (s.node n) (show (s.fds i).pos + src.length ≤ maxData by omega)
  have hle := hst.le
  have hcur := hd.pos i slot hnode
  have hnew : ((s.modify n fun n => (writeNode allocs src (s.fds i).pos n).1).setFd i
      { s.fds i with pos := (s.fds i).pos +
        (writeNode allocs src (s.fds i).pos (s.node n)).2 }).node n =
      (writeNode allocs src (s.fds i).pos (s.node n)).1 := by simp
  refine ⟨?_, ?_, ?_, ?_, ?_⟩
  · have := hd.le
    simp only [writeNode]
    omega
  · rw [hnew]
    simp only [writeNode, hst.size]
    have := hd.size
    omega
  · intro j hj hj'
    by_cases hji : j = i
    · subst hji
      simp [setFd_fds]
    · rw [setFd_fds, if_neg hji, modify_fds] at hj' ⊢
      exact (hd.pos j (InUse.of_setFd hj hji) hj').trans (le_max_left _ _)
  · -- a page below the new mark was below the old one, or starts in the window
    intro k hk
    rw [hnew]
    simp only [writeNode] at hk ⊢
    rcases lt_max_iff.mp hk with hk | hk
    · exact hst.backed k (hd.backed k hk)
    · by_cases hkh : k * pageSize < h
      · exact hst.backed k (hd.backed k hkh)
      have hbyte := hst.bytes (k * pageSize - (s.fds i).pos) (by omega)
      rw [Nat.add_sub_cancel' (by omega), getElem?_eq_getElem (by omega), pageByte,
        Nat.mul_div_cancel _ (by decide)] at hbyte
      split at hbyte
      · exact absurd hbyte (by simp)
      cases hpage : (writeLoop allocs src (s.fds i).pos 0 (s.node n)).1.dataPages k with
      | none => simp [hpage] at hbyte
      | some page => rfl
  · intro x hx
    rw [hnew] at hx ⊢
    simp only [writeNode, hst.size] at hx
    have hsame : pageByte (writeNode allocs src (s.fds i).pos (s.node n)).1 x =
        pageByte (writeLoop allocs src (s.fds i).pos 0 (s.node n)).1 x := rfl
    rw [hsame]
    rcases hst.other x (by omega) with heq | ⟨-, hzero⟩
    · rw [heq]
      exact hd.zero x (by omega)
    · exact .inr hzero

theorem DataOk.truncate {i : Nat} (hd : DataOk s n h) :
    DataOk ((s.modify n fun n => { n with
      size := 0, dataPages := fun k => (n.dataPages k).map fun _ => zeroPage }).setFd i
        { s.fds i with pos := 0 }) n h := by
  refine DataOk.setFd ?_ fun _ _ => Nat.zero_le _
  refine ⟨hd.le, by simp, hd.pos, fun k hk => ?_, fun x _ => ?_⟩
  · simpa using hd.backed k hk
  · simp only [modify_node_self, pageByte]
    split
    · exact .inl rfl
    cases (s.node n).dataPages (x / pageSize) with
    | none => exact .inl rfl
    | some page => exact .inr rfl

theorem DataInv.effect (hi : DataInv s) (h : Effect cur use s s') : DataInv s' := by
  refine ⟨hi.wf.effect h, hi.fds.effect hi.wf h, fun n hn => ?_⟩
  cases h with
  | create type spot room =>
    obtain ⟨r, kids, ht⟩ := hi.wf.tree_of_live spot.live
    rcases Finset.mem_insert.mp hn with rfl | hn
    · -- a fresh node has no bytes and no descriptors
      have hnew := ht.fresh _ spot.live
      refine ⟨0, Nat.zero_le _, ?_, fun i hi' hnode => ?_, fun k hk => ?_, fun x _ => ?_⟩
      · rw [insertNode_node_new hnew.ne]
        exact le_refl 0
      · obtain ⟨m, hm, hnd, -⟩ := hi.fds i hi'
        obtain rfl : m = s.nextId := Option.some.inj (hnd.symm.trans hnode)
        exact absurd (ht.fresh _ hm) (lt_irrefl _)
      · exact absurd hk (Nat.not_lt_zero _)
      · rw [insertNode_node_new hnew.ne]
        simp [pageByte, newNode]
    · obtain ⟨h, hd⟩ := hi.data n hn
      refine ⟨h, hd.frame ?_ ?_ hd.pos⟩
      · rw [insertNode_node_old (ht.fresh n hn).ne]
      · rw [insertNode_node_old (ht.fresh n hn).ne]
  | remove entry named empty idle gone =>
    obtain ⟨_, hr⟩ := hi.wf.remove_cases entry gone
    rw [hr.live, Finset.mem_erase] at hn
    obtain ⟨h, hd⟩ := hi.data n hn.2
    refine ⟨h, hd.frame ?_ ?_ fun i hi' hnode => ?_⟩
    · rw [hr.fields n hn.1]
    · rw [hr.fields n hn.1]
    · rw [hr.fds] at hnode ⊢
      exact hd.pos i ⟨hi'.1, by rw [← hr.fds]; exact hi'.2⟩ hnode
  | rename | chmod =>
    obtain ⟨h, hd⟩ := hi.data n hn
    exact ⟨h, hd.modify _ _ fun _ => ⟨rfl, rfl⟩⟩
  | claim =>
    obtain ⟨h, hd⟩ := hi.data n hn
    exact ⟨h, hd.setFd fun _ _ => Nat.zero_le _⟩
  | @write i node src allocs slot named flag node_eq pos fits =>
    obtain ⟨h, hd⟩ := hi.data n hn
    by_cases hnn : node = n
    · subst hnn
      exact ⟨_, hd.write allocs slot node_eq fits pos⟩
    · refine ⟨h, (hd.modify _ _ fun hc => absurd hc hnn).setFd fun _ hnode => ?_⟩
      exact absurd (Option.some.inj (node_eq.symm.trans hnode)) hnn
  | @truncate i node slot named flag node_eq =>
    obtain ⟨h, hd⟩ := hi.data n hn
    by_cases hnn : node = n
    · subst hnn
      exact ⟨h, hd.truncate⟩
    · refine ⟨h, (hd.modify _ _ fun hc => absurd hc hnn).setFd fun _ hnode => ?_⟩
      exact absurd (Option.some.inj (node_eq.symm.trans hnode)) hnn
  | @cursor i node pos slot named node_eq bound =>
    obtain ⟨h, hd⟩ := hi.data n hn
    refine ⟨h, hd.setFd fun _ hnode => ?_⟩
    obtain rfl : node = n := Option.some.inj (node_eq.symm.trans hnode)
    exact bound.trans hd.size
  | @refs i refs slot named =>
    obtain ⟨h, hd⟩ := hi.data n hn
    exact ⟨h, hd.setFd fun _ hnode => hd.pos i slot hnode⟩
  | release =>
    obtain ⟨h, hd⟩ := hi.data n hn
    exact ⟨h, hd.setFd fun huse => by simp [Fd.free] at huse⟩
  | claimDir | releaseDir =>
    obtain ⟨h, hd⟩ := hi.data n hn
    exact ⟨h, hd.frame rfl rfl hd.pos⟩

theorem DataInv.effects (hi : DataInv s) (h : Effects cur use s s') : DataInv s' := by
  induction h with
  | refl => exact hi
  | tail _ hlast ih => exact ih.effect hlast

end Invariant

theorem ramfsInit_dataInv (alloc : Bool) : DataInv (ramfsInit alloc) := by
  have hfree : ∀ i, ¬ InUse (ramfsInit alloc) i := by
    intro i hi
    have := hi.2
    cases alloc <;> simp [ramfsInit, allocNode, State.boot, maxFiles, Fd.free] at this
  refine ⟨ramfsInit_wf alloc, fun i hi => absurd hi (hfree i), fun n hn => ?_⟩
  cases alloc with
  | false => simp [ramfsInit, allocNode, State.boot, maxFiles] at hn
  | true =>
    obtain rfl : n = 0 := by
      simpa [ramfsInit, allocNode, State.boot, maxFiles] using hn
    exact ⟨0, Nat.zero_le _, le_refl 0, fun i hi => absurd hi (hfree i),
      fun k hk => absurd hk (Nat.not_lt_zero _), fun x _ => .inl (by
        simp [ramfsInit, allocNode, State.boot, maxFiles, newNode, pageByte])⟩

theorem runCalls_dataInv {s : State} (hi : DataInv s) (calls : List Call) :
    DataInv (runCalls s calls) :=
  foldlRecOn calls _ hi fun _ hi c _ => hi.effects (exec_effects hi.wf c)

/-! ## The abstract file -/

/-- What the four data operations are about: a byte array per file and a cursor
per descriptor. -/
@[ext] structure View where
  file : NodeId → List UInt8
  pos : Nat → Nat

def view (s : State) : View := ⟨fun n => contents (s.node n), fun i => (s.fds i).pos⟩

def View.store (v : View) (n : NodeId) (b : List UInt8) : View :=
  { v with file := update v.file n b }

def View.seek (v : View) (i p : Nat) : View := { v with pos := update v.pos i p }

/-- The slot and file a data operation works on: the descriptor is in use and
was opened with `flag`, if one is asked for. -/
def target (s : State) (fd : Int) (flag : Nat) : Option (Nat × NodeId) :=
  match fdSlot s fd with
  | none => none
  | some i => if flag ≠ 0 ∧ (s.fds i).flags &&& flag = 0 then none else (s.fds i).node.map (i, ·)

/-- The call does to the view what it should: without a usable descriptor it
fails and changes nothing; otherwise it moves this descriptor's cursor and
changes this file, and nothing else. -/
def Conforms (s : State) (c : Call) : Prop :=
  let r := (c.exec s).1
  let v := view s
  let v' := view (c.exec s).2
  match c.op with
  | .read fd count =>
    match target s fd flagRead with
    | none => r.ret < 0 ∧ r.bytes = [] ∧ v' = v
    | some (i, n) =>
      let k := min count ((v.file n).length - v.pos i)
      r.ret = k ∧ r.bytes = readAt (v.file n) (v.pos i) k ∧ v' = v.seek i (v.pos i + k)
  | .write fd buf _ =>
    match target s fd flagWrite with
    | none => r.ret < 0 ∧ v' = v
    | some (i, n) =>
      (maxData ≤ v.pos i ∧ r.ret < 0 ∧ v' = v) ∨
      ∃ k ≤ buf.length, r.ret = k ∧
        v' = (v.store n (writeAt (v.file n) (v.pos i) (buf.take k))).seek i (v.pos i + k)
  | .seek fd offset =>
    match target s fd 0 with
    | none => r.ret < 0 ∧ v' = v
    | some (i, n) =>
      r.ret = (min offset (v.file n).length : Nat) ∧ v' = v.seek i (min offset (v.file n).length)
  | .truncate fd =>
    match target s fd flagWrite with
    | none => r.ret < 0 ∧ v' = v
    | some (i, n) => r.ret = 0 ∧ v' = (v.store n []).seek i 0
  | _ => True

/-- The two ways a call does not do what it should. -/
def ContentsDefect (s : State) (c : Call) : Prop :=
  match c.op with
  | .read fd count =>
    ∃ i n, target s fd flagRead = some (i, n) ∧ count = 0 ∧ (s.fds i).pos < (s.node n).size
  | .write fd buf allocs =>
    ∃ i n, target s fd flagWrite = some (i, n) ∧ (s.node n).size < (s.fds i).pos ∧
      (s.fds i).pos < maxData ∧ NoFirstByte allocs buf (s.fds i).pos (s.node n)
  | _ => False

section Refinement

variable {s : State}

variable {fd : Int}

theorem target_some {flag i : Nat} {n : NodeId} (h : target s fd flag = some (i, n)) :
    fdSlot s fd = some i ∧ ¬ (flag ≠ 0 ∧ (s.fds i).flags &&& flag = 0) ∧ (s.fds i).node = some n := by
  unfold target at h
  cases hslot : fdSlot s fd with
  | none => simp [hslot] at h
  | some j =>
    simp only [hslot] at h
    split_ifs at h with hflag
    cases hnode : (s.fds j).node with
    | none => simp [hnode] at h
    | some m =>
      simp only [hnode, Option.map_some, Option.some.injEq, Prod.mk.injEq] at h
      obtain ⟨rfl, rfl⟩ := h
      exact ⟨rfl, hflag, hnode⟩

theorem view_modify (p : NodeId) (f : Node → Node) :
    view (s.modify p f) = (view s).store p (contents (f (s.node p))) := by
  ext q : 2
  · by_cases hq : q = p
    · subst hq
      simp [view, View.store]
    · simp [view, View.store, hq, modify_node_ne _ _ _ _ hq]
  · rfl

theorem view_setFd (i : Nat) (d : Fd) : view (s.setFd i d) = (view s).seek i d.pos := by
  ext q
  · rfl
  · simp only [view, View.seek, setFd_fds, update_apply]
    split <;> rfl

theorem View.seek_self (v : View) (i : Nat) : v.seek i (v.pos i) = v := by
  simp [View.seek]

theorem View.store_self (v : View) (n : NodeId) : v.store n (v.file n) = v := by
  simp [View.store]

theorem DataOk.pageByte_eq {x : Nat} (hd : DataOk s n h) (hx : x < h) :
    pageByte (s.node n) x = some (byteAt (s.node n) x) := by
  have hbacked := hd.backed (x / pageSize) (lt_of_le_of_lt (Nat.div_mul_le_self x pageSize) hx)
  have hpages := div_lt_maxPages (lt_of_lt_of_le hx hd.le)
  have hsome : (pageByte (s.node n) x).isSome := by
    rw [pageByte, if_neg (by omega), Option.isSome_map]
    exact hbacked
  obtain ⟨b, hb⟩ := Option.isSome_iff_exists.mp hsome
  rw [byteAt, hb]
  rfl

/-- The copy loop copies everything it is asked for below the mark. -/
theorem DataOk.readLoop_eq {off k : Nat} (hd : DataOk s n h) (hk : off + k ≤ h) :
    readLoop (s.node n) off k = tabulate k fun i => byteAt (s.node n) (off + i) := by
  induction k generalizing off with
  | zero => rfl
  | succ k ih =>
    rw [readLoop, hd.pageByte_eq (by omega), ih (by omega), tabulate, tabulate,
      List.range_succ_eq_map, List.map_cons, List.map_map]
    simp only [Nat.add_zero, List.cons.injEq, true_and]
    refine List.map_congr_left fun i _ => ?_
    congr 1
    omega

theorem ramfsRead_none (count : Nat) (h : target s fd flagRead = none) :
    ∃ e < 0, ramfsRead fd count s = (e, [], s) := by
  simp only [target] at h
  unfold ramfsRead
  cases hslot : fdSlot s fd with
  | none => exact ⟨-1, by decide, rfl⟩
  | some i =>
    simp only [hslot] at h
    by_cases hflag : (s.fds i).flags &&& flagRead = 0
    · exact ⟨-2, by decide, by simp [hflag]⟩
    · have hnode : (s.fds i).node = none := by simpa [hflag] using h
      exact ⟨-3, by decide, by simp [hflag, hnode]⟩

theorem ramfsRead_some (hi : DataInv s) {i : Nat} {n : NodeId} (count : Nat)
    (h : target s fd flagRead = some (i, n)) :
    ramfsRead fd count s =
      if (s.node n).size ≤ (s.fds i).pos then (0, [], s)
      else if count = 0 then (-5, [], s)
      else
        (((min count ((s.node n).size - (s.fds i).pos) : Nat) : Int),
          readAt (contents (s.node n)) (s.fds i).pos (min count ((s.node n).size - (s.fds i).pos)),
          s.setFd i { s.fds i with
            pos := (s.fds i).pos + min count ((s.node n).size - (s.fds i).pos) }) := by
  obtain ⟨hslot, hflag, hnode⟩ := target_some h
  have hflag : ¬ (s.fds i).flags &&& flagRead = 0 := fun h => hflag ⟨by decide, h⟩
  obtain ⟨m, hm, hnd, -⟩ := hi.fds i (fdSlot_some hslot).1
  obtain rfl : m = n := Option.some.inj (hnd.symm.trans hnode)
  obtain ⟨h, hd⟩ := hi.data m hm
  by_cases hend : (s.node m).size ≤ (s.fds i).pos
  · simp [ramfsRead, hslot, hflag, hnode, hend]
  by_cases hzero : count = 0
  · subst hzero
    simp [ramfsRead, hslot, hflag, hnode, hend, readLoop]
  simp only [ramfsRead, hslot, hflag, hnode, hend, hzero, if_false]
  obtain ⟨c, hc⟩ : ∃ c, min count ((s.node m).size - (s.fds i).pos) = c := ⟨_, rfl⟩
  have hread : readAt (contents (s.node m)) (s.fds i).pos c = _ := tabulate_readAt (by omega)
  -- below the mark every byte is backed, so the loop runs to its end
  have hcopy : readLoop (s.node m) (s.fds i).pos c = _ := hd.readLoop_eq (by have := hd.size; omega)
  simp only [hc, hread, hcopy, length_tabulate]
  rw [if_neg (by omega)]

theorem read_conforms {c : Call} {count : Nat} (hi : DataInv s)
    (hop : c.op = .read fd count) : Conforms s c ↔ ¬ ContentsDefect s c := by
  have hexec : c.exec s = (⟨(ramfsRead fd count s).1, (ramfsRead fd count s).2.1⟩,
      (ramfsRead fd count s).2.2) := by rw [Call.exec, hop]
  simp only [Conforms, ContentsDefect, hop, hexec]
  cases htarget : target s fd flagRead with
  | none =>
    obtain ⟨e, he, hread⟩ := ramfsRead_none count htarget
    simp [hread, he]
  | some t =>
    obtain ⟨i, n⟩ := t
    have hlen : ((view s).file n).length = (s.node n).size := by simp [view, contents]
    have hpos : (view s).pos i = (s.fds i).pos := rfl
    have hdefect : (∃ i' n', some (i, n) = some (i', n') ∧ count = 0 ∧
        (s.fds i').pos < (s.node n').size) ↔ count = 0 ∧ (s.fds i).pos < (s.node n).size := by
      constructor
      · rintro ⟨_, _, h, hrest⟩
        cases h
        exact hrest
      · intro h
        exact ⟨i, n, rfl, h⟩
    simp only [hdefect, hlen, hpos, ramfsRead_some hi count htarget]
    by_cases hend : (s.node n).size ≤ (s.fds i).pos
    · -- at or past the end: nothing to copy
      have hk : min count ((s.node n).size - (s.fds i).pos) = 0 := by omega
      have hseek : (view s).seek i ((s.fds i).pos + 0) = view s := View.seek_self _ _
      rw [if_pos hend, hk, hseek]
      exact iff_of_true ⟨rfl, by simp [readAt], rfl⟩ (by omega)
    · rw [if_neg hend]
      by_cases hzero : count = 0
      · -- asked for nothing before the end: -5
        subst hzero
        refine iff_of_false (fun h => ?_) (fun h => h ⟨rfl, by omega⟩)
        exact absurd h.1 (by simp)
      · rw [if_neg hzero, view_setFd]
        exact iff_of_true ⟨rfl, rfl, rfl⟩ (by omega)

theorem ramfsWrite_none (buf : List UInt8) (allocs : Nat → Bool)
    (h : target s fd flagWrite = none) : ∃ e < 0, ramfsWrite fd buf allocs s = (e, s) := by
  simp only [target] at h
  unfold ramfsWrite
  cases hslot : fdSlot s fd with
  | none => exact ⟨-1, by decide, rfl⟩
  | some i =>
    simp only [hslot] at h
    by_cases hflag : (s.fds i).flags &&& flagWrite = 0
    · exact ⟨-2, by decide, by simp [hflag]⟩
    · have hnode : (s.fds i).node = none := by simpa [hflag] using h
      exact ⟨-3, by decide, by simp [hflag, hnode]⟩

theorem ramfsWrite_some {i : Nat} {n : NodeId} (buf : List UInt8) (allocs : Nat → Bool)
    (h : target s fd flagWrite = some (i, n)) :
    ramfsWrite fd buf allocs s =
      if maxData ≤ (s.fds i).pos then (if buf.length > 0 then writeEfbig else 0, s)
      else
        let r := writeNode allocs (buf.take (maxData - (s.fds i).pos)) (s.fds i).pos (s.node n)
        (r.2, (s.modify n fun _ => r.1).setFd i { s.fds i with pos := (s.fds i).pos + r.2 }) := by
  obtain ⟨hslot, hflag, hnode⟩ := target_some h
  have hflag : ¬ (s.fds i).flags &&& flagWrite = 0 := fun h => hflag ⟨by decide, h⟩
  simp only [ramfsWrite, hslot, hflag, hnode, if_false]

/-- The byte array after a write: the bytes stored replace what was there, and a
gap reads as zero. -/
theorem DataOk.contents_write {n : NodeId} {h pos : Nat} {src : List UInt8} (allocs : Nat → Bool)
    (hd : DataOk s n h) (hfit : pos + src.length ≤ maxData)
    (hk : (writeNode allocs src pos (s.node n)).2 ≠ 0 ∨ pos ≤ (s.node n).size) :
    contents (writeNode allocs src pos (s.node n)).1 =
      writeAt (contents (s.node n)) pos (src.take (writeNode allocs src pos (s.node n)).2) := by
  have hst := writeLoop_stored allocs 0 (s.node n) hfit
  have hle := hst.le
  have hother : ∀ x, ¬ (pos ≤ x ∧ x < pos + (writeLoop allocs src pos 0 (s.node n)).2) →
      byteAt (writeLoop allocs src pos 0 (s.node n)).1 x = byteAt (s.node n) x := by
    intro x hx
    rcases hst.other x hx with heq | ⟨hnone, hzero⟩
    · rw [byteAt, byteAt, heq]
    · rw [byteAt, byteAt, hnone, hzero]
      rfl
  simp only [writeNode] at hk ⊢
  generalize hr : writeLoop allocs src pos 0 (s.node n) = r at *
  have hcontents : contents { r.1 with size := max r.1.size (pos + r.2) } =
      tabulate (max (s.node n).size (pos + r.2)) (byteAt r.1) := by
    rw [contents, ← hst.size]
    rfl
  rw [hcontents]
  by_cases hzero : r.2 = 0
  · -- nothing stored: the size stays, since the cursor is not beyond it
    rw [hzero, take_zero, writeAt_nil, Nat.add_zero, max_eq_left (by omega), contents]
    exact tabulate_congr fun x _ => hother x (by omega)
  · have hlen : (src.take r.2).length = r.2 := by simpa using hle
    have hne : src.take r.2 ≠ [] := by
      intro hnil
      rw [hnil] at hlen
      exact hzero hlen.symm
    rw [contents, show pos + r.2 = pos + (src.take r.2).length by rw [hlen]]
    refine tabulate_writeAt hne ?_ ?_ ?_
    · intro x hx
      rw [hlen] at hx
      rw [byteAt, hst.bytes x hx, getD_eq_getElem?_getD, getElem?_take, if_pos hx]
    · intro x _ hx
      rw [hlen] at hx
      exact hother x hx
    · intro x hx hxp
      rw [hother x (by omega), byteAt]
      rcases hd.zero x hx with hnone | hz
      · rw [hnone]
        rfl
      · rw [hz]
        rfl

theorem write_conforms {c : Call} {buf : List UInt8} {allocs : Nat → Bool}
    (hi : DataInv s) (hop : c.op = .write fd buf allocs) :
    Conforms s c ↔ ¬ ContentsDefect s c := by
  have hexec : c.exec s = (⟨(ramfsWrite fd buf allocs s).1, []⟩, (ramfsWrite fd buf allocs s).2) := by
    rw [Call.exec, hop]
  simp only [Conforms, ContentsDefect, hop, hexec]
  cases htarget : target s fd flagWrite with
  | none =>
    obtain ⟨e, he, hwrite⟩ := ramfsWrite_none buf allocs htarget
    simp [hwrite, he]
  | some t =>
    obtain ⟨i, n⟩ := t
    obtain ⟨hslot, -, hnode⟩ := target_some htarget
    obtain ⟨m, hm, hnd, -⟩ := hi.fds i (fdSlot_some hslot).1
    obtain rfl : m = n := Option.some.inj (hnd.symm.trans hnode)
    obtain ⟨h, hd⟩ := hi.data m hm
    have hdefect : (∃ i' n', some (i, m) = some (i', n') ∧ (s.node n').size < (s.fds i').pos ∧
        (s.fds i').pos < maxData ∧ NoFirstByte allocs buf (s.fds i').pos (s.node n')) ↔
        (s.node m).size < (s.fds i).pos ∧ (s.fds i).pos < maxData ∧
          NoFirstByte allocs buf (s.fds i).pos (s.node m) := by
      constructor
      · rintro ⟨_, _, h, hrest⟩
        cases h
        exact hrest
      · intro h
        exact ⟨i, m, rfl, h⟩
    have hpos : (view s).pos i = (s.fds i).pos := rfl
    have hfile : (view s).file m = contents (s.node m) := rfl
    simp only [hdefect, hpos, hfile, ramfsWrite_some buf allocs htarget]
    by_cases hfull : maxData ≤ (s.fds i).pos
    · -- at the limit: an error, or nothing to write
      rw [if_pos hfull]
      refine iff_of_true ?_ (by omega)
      by_cases hbuf : buf.length > 0
      · refine .inl ⟨hfull, ?_, rfl⟩
        simp [hbuf, writeEfbig]
      refine .inr ⟨0, Nat.zero_le _, by rw [if_neg hbuf]; rfl, ?_⟩
      have hstore : (view s).store m (contents (s.node m)) = view s := View.store_self _ _
      have hseek : (view s).seek i (s.fds i).pos = view s := View.seek_self _ _
      rw [take_zero, writeAt_nil, Nat.add_zero, hstore, hseek]
    · rw [if_neg hfull]
      have hfit : (s.fds i).pos + (buf.take (maxData - (s.fds i).pos)).length ≤ maxData := by
        rw [length_take]
        omega
      have hst := writeLoop_stored allocs 0 (s.node m) hfit
      have hle := hst.le
      have hcount : (writeNode allocs (buf.take (maxData - (s.fds i).pos)) (s.fds i).pos
          (s.node m)).2 = 0 ↔ NoFirstByte allocs buf (s.fds i).pos (s.node m) := by
        rw [writeNode, writeLoop_count_eq_zero allocs (s.node m) hfit, NoFirstByte, NoFirstByte,
          take_eq_nil_iff]
        have : maxData - (s.fds i).pos ≠ 0 := by omega
        simp [this]
      simp only [view_setFd, view_modify]
      by_cases hbad : (s.node m).size < (s.fds i).pos ∧
          NoFirstByte allocs buf (s.fds i).pos (s.node m)
      · -- no byte stored, but the size moves up to the cursor
        refine iff_of_false ?_ (fun hno => hno ⟨hbad.1, by omega, hbad.2⟩)
        have hzero := hcount.mpr hbad.2
        rintro (⟨hlim, -⟩ | ⟨k, -, hret, hv⟩)
        · exact hfull hlim
        · rw [hzero] at hret hv
          have hk : k = 0 := by simpa using hret.symm
          subst hk
          have hlen := congrArg (fun v : View => (v.file m).length) hv
          simp only [View.store, View.seek, update_self, take_zero, writeAt_nil,
            contents, length_tabulate] at hlen
          simp only [writeNode, hst.size] at hlen
          omega
      · refine iff_of_true (.inr ⟨_, ?_, rfl, ?_⟩) (fun hno => hbad ⟨hno.1, hno.2.2⟩)
        · simp only [writeNode]
          rw [length_take] at hle
          omega
        · rw [hd.contents_write allocs hfit (by
            rw [Ne, hcount]
            by_cases hno : NoFirstByte allocs buf (s.fds i).pos (s.node m)
            · exact .inr (by by_contra hlt; exact hbad ⟨by omega, hno⟩)
            · exact .inl hno), take_take, min_eq_left]
          simp only [writeNode]
          omega

theorem seek_conforms {c : Call} {offset : Nat} (hop : c.op = .seek fd offset) : Conforms s c := by
  have hexec : c.exec s = (⟨(ramfsSeek fd offset s).1, []⟩, (ramfsSeek fd offset s).2) := by
    rw [Call.exec, hop]
  simp only [Conforms, hop, hexec]
  cases htarget : target s fd 0 with
  | none =>
    simp only [target] at htarget
    cases hslot : fdSlot s fd with
    | none => simp [ramfsSeek, hslot]
    | some i =>
      have hnode : (s.fds i).node = none := by simpa [hslot] using htarget
      simp [ramfsSeek, hslot, hnode]
  | some t =>
    obtain ⟨i, n⟩ := t
    obtain ⟨hslot, -, hnode⟩ := target_some htarget
    have hlen : ((view s).file n).length = (s.node n).size := by simp [view, contents]
    simp only [ramfsSeek, hslot, hnode, hlen, view_setFd, and_self]

theorem truncate_conforms {c : Call} (hi : DataInv s) (hop : c.op = .truncate fd) :
    Conforms s c := by
  have hexec : c.exec s = (⟨(ramfsTruncate fd s).1, []⟩, (ramfsTruncate fd s).2) := by
    rw [Call.exec, hop]
  simp only [Conforms, hop, hexec]
  cases htarget : target s fd flagWrite with
  | none =>
    simp only [target] at htarget
    cases hslot : fdSlot s fd with
    | none => simp [ramfsTruncate, hslot]
    | some i =>
      simp only [hslot] at htarget
      by_cases hflag : (s.fds i).flags &&& flagWrite = 0
      · simp [ramfsTruncate, hslot, hflag]
      · have hnode : (s.fds i).node = none := by simpa [hflag] using htarget
        simp [ramfsTruncate, hslot, hflag, hnode]
  | some t =>
    obtain ⟨i, n⟩ := t
    obtain ⟨hslot, hflag, hnode⟩ := target_some htarget
    have hflag : ¬ (s.fds i).flags &&& flagWrite = 0 := fun h => hflag ⟨by decide, h⟩
    obtain ⟨m, -, hnd, hfile⟩ := hi.fds i (fdSlot_some hslot).1
    obtain rfl : m = n := Option.some.inj (hnd.symm.trans hnode)
    have htype : ¬ ((s.node m).type ≠ .file) := not_not.mpr hfile
    simp only [ramfsTruncate, hslot, hflag, hnode, htype, if_false, view_setFd, view_modify, true_and]
    rfl

end Refinement

/-- In every state a run from `ramfs_init` reaches, no file is longer than 64 KiB,
and a call on a file's data behaves as on an array of bytes with cursors exactly
when it is not one of the two defects. -/
theorem contents_refine (alloc : Bool) (calls : List Call) (c : Call) :
    (∀ n ∈ (runCalls (ramfsInit alloc) calls).live,
      (contents ((runCalls (ramfsInit alloc) calls).node n)).length ≤ 65536) ∧
    (Conforms (runCalls (ramfsInit alloc) calls) c ↔
      ¬ ContentsDefect (runCalls (ramfsInit alloc) calls) c) := by
  have hi := runCalls_dataInv (ramfsInit_dataInv alloc) calls
  refine ⟨fun n hn => ?_, ?_⟩
  · obtain ⟨h, hd⟩ := hi.data n hn
    have hle : (contents ((runCalls (ramfsInit alloc) calls).node n)).length ≤ maxData := by
      rw [contents, length_tabulate]
      exact hd.size.trans hd.le
    exact hle
  · cases hop : c.op with
    | read fd count => exact read_conforms hi hop
    | write fd buf allocs => exact write_conforms hi hop
    | seek fd offset => exact iff_of_true (seek_conforms hop) (by simp [ContentsDefect, hop])
    | truncate fd => exact iff_of_true (truncate_conforms hi hop) (by simp [ContentsDefect, hop])
    | _ => simp [Conforms, ContentsDefect, hop]

/-- Two read-write descriptors on `/f`; one byte is written through the first. -/
def twoCursors : List Call :=
  [⟨none, .open (some [slash, 102]) (flagRead ||| flagWrite) true⟩,
    ⟨none, .open (some [slash, 102]) (flagRead ||| flagWrite) true⟩,
    ⟨none, .write 0 [7] fun _ => true⟩]

/-- Reading zero bytes before the end returns -5; and after a truncate through
the second descriptor, writing zero bytes through the first makes the empty file
one byte long. -/
theorem contents_not_refined :
    let s := runCalls (ramfsInit true) twoCursors
    let t := runCalls s [⟨none, .truncate 1⟩]
    ((⟨none, .read 1 0⟩ : Call).exec s).1.ret = -5 ∧ ¬ Conforms s ⟨none, .read 1 0⟩ ∧
    contents (t.node 1) = [] ∧ ((⟨none, .write 0 [] fun _ => true⟩ : Call).exec t).1.ret = 0 ∧
    contents (((⟨none, .write 0 [] fun _ => true⟩ : Call).exec t).2.node 1) = [0] ∧
    ¬ Conforms t ⟨none, .write 0 [] fun _ => true⟩ := by
  intro s t
  have hs : DataInv s := runCalls_dataInv (ramfsInit_dataInv true) _
  have ht : DataInv t := runCalls_dataInv hs _
  refine ⟨by decide +kernel, ?_, by decide +kernel, by decide +kernel, by decide +kernel, ?_⟩
  · rw [read_conforms hs rfl, not_not]
    exact ⟨1, 1, by decide +kernel, rfl, by decide +kernel⟩
  · rw [write_conforms ht rfl, not_not]
    exact ⟨0, 1, by decide +kernel, by decide +kernel, by decide +kernel, .inl rfl⟩

/-- After any calls every descriptor in use is on a file of the tree, every page below a file's end
is there, and what a file has past its end is zero. -/
theorem files_have_no_holes (alloc : Bool) (calls : List Call) :
    let s := runCalls (ramfsInit alloc) calls
    FdsLive s ∧ ∀ n ∈ s.live,
      (∀ k, k * pageSize < (s.node n).size → ((s.node n).dataPages k).isSome) ∧
      ∀ x, (s.node n).size ≤ x → pageByte (s.node n) x = none ∨ pageByte (s.node n) x = some 0 := by
  intro s
  have hi := runCalls_dataInv (ramfsInit_dataInv alloc) calls
  refine ⟨hi.fds, fun n hn => ?_⟩
  obtain ⟨h, hd⟩ := hi.data n hn
  exact ⟨fun k hk => hd.backed k (hk.trans_le hd.size), hd.zero⟩

end TinyOS.Ramfs
