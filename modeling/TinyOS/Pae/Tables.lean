import TinyOS.Lib.Run
import Mathlib.Algebra.Ring.Nat
import Mathlib.Data.List.FinRange

/-!
# Page tables of the kernel and of user address spaces

`pae.c` keeps one set of page directories for the kernel and four directories for every user address
space. A user's directories begin as copies of the kernel's, so they name the kernel's page tables;
`pae_map_page_into` gives an address space a table of its own when it first writes into one. Page
tables come from a pool of 128 tables in the kernel's image and, when the pool is used up, from the
physical memory manager.

Every directory entry that the code writes is 0 or the address of a table with
`PRESENT | READWRITE | USER`, so an entry is modelled as the table it names, if any, and the flags of
a page are those of its table entry. Physical memory is modelled by what a frame is used for and what
it then holds; frames of the pool and frames of the memory manager are different frames.
-/

namespace TinyOS.Pae

open Function

def paePdptEntries : Nat := 4
def paePdEntries : Nat := 512
def paePtEntries : Nat := 512
def paeInitialTables : Nat := 128
def paeMaxUserPdpts : Nat := 64

instance : NeZero paePdptEntries := ⟨by decide⟩
instance : NeZero paePdEntries := ⟨by decide⟩
instance : NeZero paePtEntries := ⟨by decide⟩
instance : NeZero paeInitialTables := ⟨by decide⟩
instance instNeZeroFlagBits : NeZero 256 := ⟨by decide⟩

/-! ## Entries -/

/-- The bits of an entry that are not the frame. -/
structure Flags where
  present : Bool := false
  readwrite : Bool := false
  user : Bool := false
  /-- Bit 9, which the processor ignores. -/
  sealed : Bool := false
  nx : Bool := false
  /-- The bits that no modelled function tests: caching, accessed, dirty, global and the rest. -/
  other : Fin 256 := 0
  deriving DecidableEq, Repr

structure Pte where
  frame : Nat
  flags : Flags
  deriving DecidableEq, Repr

def Pte.zero : Pte := ⟨0, {}⟩

/-- A page, by its indices into the three levels. -/
structure Page where
  pdpt : Fin paePdptEntries
  pd : Fin paePdEntries
  pt : Fin paePtEntries
  deriving DecidableEq, Repr

/-- The page with this number. -/
def Page.ofNumber (n : Nat) : Page where
  pdpt := Fin.ofNat _ (n / 2 ^ 18)
  pd := Fin.ofNat _ (n / 2 ^ 9)
  pt := Fin.ofNat _ n

inductive Frame
  /-- `initial_page_tables[i]`. -/
  | pool (i : Fin paeInitialTables)
  /-- A frame of the memory manager, by its number. -/
  | phys (n : Nat)
  deriving DecidableEq, Repr

/-- What a frame holds. -/
inductive Content
  | unknown
  | pdpt (entries : Fin paePdptEntries → Nat)
  | pd (entries : Fin paePdEntries → Option Frame)
  | pt (entries : Fin paePtEntries → Pte)

/-! ## State -/

structure State where
  mem : Frame → Content
  /-- `page_directories`, the kernel's. -/
  kernelPd : Fin paePdptEntries → Fin paePdEntries → Option Frame
  /-- `initial_tables_used`. -/
  used : Fin paeInitialTables → Bool
  /-- The frames that were taken from the memory manager and not returned. -/
  taken : Nat → Bool
  /-- The frames that the memory manager has are those below this number. -/
  frames : Nat
  /-- What `pmm_alloc` is going to answer. -/
  answers : List (Option Nat)
  userPdpts : Fin paeMaxUserPdpts → Option Nat
  /-- The frames that were returned to the pool or to the memory manager, newest first. -/
  returned : List Frame

/-- The address space a call names. -/
inductive Space
  | kernel
  | user (p : Nat)
  deriving DecidableEq, Repr

namespace State

def pt (s : State) (f : Frame) : Fin paePtEntries → Pte :=
  match s.mem f with
  | .pt entries => entries
  | _ => fun _ => .zero

def pdFrame (s : State) (p : Nat) (i : Fin paePdptEntries) : Nat :=
  match s.mem (.phys p) with
  | .pdpt entries => entries i
  | _ => 0

def pd (s : State) (m : Nat) : Fin paePdEntries → Option Frame :=
  match s.mem (.phys m) with
  | .pd entries => entries
  | _ => fun _ => none

/-- `pae_get_pde_in`. -/
def pde (s : State) : Space → Fin paePdptEntries → Fin paePdEntries → Option Frame
  | .kernel, i, j => s.kernelPd i j
  | .user p, i, j => s.pd (s.pdFrame p i) j

/-- `pae_get_pte_in`: the entry, if there is a table for it. -/
def pte (s : State) (space : Space) (v : Page) : Option Pte :=
  (s.pde space v.pdpt v.pd).map fun t => s.pt t v.pt

/-- What the processor finds for the page: a frame and flags, if the page is there. -/
def walk (s : State) (space : Space) (v : Page) : Option Pte :=
  (s.pte space v).filter fun e => e.flags.present

def setTable (s : State) (f : Frame) (c : Content) : State :=
  { s with mem := update s.mem f c }

def setPte (s : State) (t : Frame) (k : Fin paePtEntries) (e : Pte) : State :=
  s.setTable t (.pt (update (s.pt t) k e))

def setPde (s : State) (space : Space) (i : Fin paePdptEntries) (j : Fin paePdEntries)
    (t : Frame) : State :=
  match space with
  | .kernel =>
    { s with
      kernelPd := update s.kernelPd i (update (s.kernelPd i) j (some t)) }
  | .user p =>
    s.setTable (.phys (s.pdFrame p i)) (.pd (update (s.pd (s.pdFrame p i)) j (some t)))

end State

/-! ## Allocation -/

/-- The memory manager hands out a frame that is not in use, or fails. -/
def pmmAlloc (s : State) : Option Nat × State :=
  match s.answers with
  | some n :: rest =>
    if 0 < n ∧ n < s.frames ∧ s.taken n = false then
      (some n, { s with answers := rest, taken := update s.taken n true })
    else (none, { s with answers := rest })
  | none :: rest => (none, { s with answers := rest })
  | [] => (none, s)

def pmmFree (s : State) (n : Nat) : State :=
  { s with
    taken := update s.taken n false
    returned := .phys n :: s.returned }

/-- The first table of the pool that is not in use. -/
def freeTable (s : State) : Option (Fin paeInitialTables) :=
  (List.finRange paeInitialTables).find? fun i => !s.used i

/-- `alloc_initial_pt`. A frame of the memory manager is first mapped for the kernel (`mapFrame`),
unless this already happens in such a call twice over. -/
def allocInitialPt (mapFrame : Option (State → Nat → State)) (s : State) : Option Frame × State :=
  match freeTable s with
  | some i =>
    (some (.pool i),
      { s with used := update s.used i true }.setTable (.pool i) (.pt fun _ => .zero))
  | none =>
    match pmmAlloc s with
    | (none, s) => (none, s)
    | (some n, s) =>
      match mapFrame with
      | none => (none, pmmFree s n)
      | some map => (some (.phys n), (map s n).setTable (.phys n) (.pt fun _ => .zero))

/-! ## Mapping -/

/-- The table still is the kernel's. -/
def sharedWithKernel (s : State) (space : Space) (v : Page) (t : Frame) : Bool :=
  decide (space ≠ .kernel) && decide (s.kernelPd v.pdpt v.pd = some t)

/-- A sealed entry is not written. -/
def writePte (s : State) (t : Frame) (v : Page) (e : Pte) : State :=
  if (s.pt t v.pt).flags.sealed = true then s else s.setPte t v.pt e

/-- The body of `pae_map_page_into`. -/
def mapPageWith (mapFrame : Option (State → Nat → State)) (s : State) (space : Space) (v : Page)
    (e : Pte) : State :=
  match s.pde space v.pdpt v.pd with
  | some t =>
    if sharedWithKernel s space v t = true then
      match allocInitialPt mapFrame s with
      | (none, s) => s
      | (some priv, s) =>
        let s := s.setTable priv (.pt (s.pt t))
        writePte (s.setPde space v.pdpt v.pd priv) priv v e
    else writePte s t v e
  | none =>
    match allocInitialPt mapFrame s with
    | (none, s) => s
    | (some t, s) => writePte (s.setPde space v.pdpt v.pd t) t v e

/-- A frame mapped at its own address: `PRESENT | READWRITE | NX`. -/
def identityPte (n : Nat) : Pte :=
  ⟨n, { present := true, readwrite := true, nx := true }⟩

/-- `pae_map_page_into`, when it may be entered this often again from within itself. -/
def mapPageAt : Nat → State → Space → Page → Pte → State
  | 0, s, space, v, e => mapPageWith none s space v e
  | depth + 1, s, space, v, e =>
    mapPageWith (some fun s n => mapPageAt depth s .kernel (.ofNumber n) (identityPte n)) s space v e

def paeMapPageInto (s : State) (space : Space) (v : Page) (e : Pte) : State :=
  mapPageAt 2 s space v e

/-! ## Unmapping and sealing -/

def paeUnmapPageIn (s : State) (space : Space) (v : Page) : State :=
  match s.pde space v.pdpt v.pd with
  | none => s
  | some t => writePte s t v .zero

/-- The pages of a range, or nothing if the arguments are refused. -/
def sealRange (start size : UInt32) : Option (List Page) :=
  if start.toNat % 4096 ≠ 0 ∨ size = 0 ∨ 2 ^ 32 ≤ start.toNat + size.toNat then none
  else
    let last := start.toNat + size.toNat
    if last % 4096 ≠ 0 ∧ 0xFFFFFFFF - 4095 < last then none
    else some ((List.range ((last + 4095) / 4096 - start.toNat / 4096)).map fun k =>
      Page.ofNumber (start.toNat / 4096 + k))

/-- The page is mapped for the user. -/
def sealable (s : State) (space : Space) (v : Page) : Bool :=
  (s.pte space v).any fun e => e.flags.present && e.flags.user

def sealedPte (e : Pte) : Pte :=
  { e with flags := { e.flags with sealed := true, readwrite := false } }

/-- The second pass over the range: one page. -/
def sealPage (s : State) (space : Space) (v : Page) : State :=
  match s.pde space v.pdpt v.pd with
  | none => s
  | some t => s.setPte t v.pt (sealedPte (s.pt t v.pt))

/-- `pae_seal_memory_in`: the number of pages that were not sealed before, or -1. -/
def paeSealMemoryIn (s : State) (space : Space) (start size : UInt32) : Int × State :=
  match sealRange start size with
  | none => (-1, s)
  | some pages =>
    if pages.all (sealable s space) = false then (-1, s)
    else pages.foldl (fun (r : Int × State) v =>
      let isNew := (r.2.pte space v).any fun e => !e.flags.sealed
      (if isNew then r.1 + 1 else r.1, sealPage r.2 space v)) (0, s)

/-! ## The identity map in private tables -/

/-- One registered address space. -/
def syncOne (s : State) (phys : UInt32) (kernelTable : Frame) (kernelPte : Pte) (p : Nat) : State :=
  let v := Page.ofNumber (phys.toNat / 4096)
  match s.pde (.user p) v.pdpt v.pd with
  | none => s
  | some t =>
    if t = kernelTable then s
    else if (s.pt t v.pt).flags.user = true ∨
        (s.pt t v.pt).frame % 2 ^ 20 * 4096 ≠ phys.toNat then s
    else s.setPte t v.pt kernelPte

def paeSyncIdentityPte (s : State) (phys : UInt32) : State :=
  let v := Page.ofNumber (phys.toNat / 4096)
  match s.kernelPd v.pdpt v.pd with
  | none => s
  | some kernelTable =>
    let kernelPte := s.pt kernelTable v.pt
    (List.finRange paeMaxUserPdpts).foldl (fun s r =>
      match s.userPdpts r with
      | none => s
      | some p => syncOne s phys kernelTable kernelPte p) s

/-! ## Address spaces -/

def paeFreeUserPt (s : State) : Frame → State
  | .pool i =>
    { s with
      used := update s.used i false
      returned := .pool i :: s.returned }
  | .phys n => pmmFree s n

/-- Free the tables that a directory names and the kernel's directory does not. -/
def freeTables (s : State) (p : Nat) (i : Fin paePdptEntries) : State :=
  (List.finRange paePdEntries).foldl (fun s j =>
    match s.pde (.user p) i j with
    | none => s
    | some t => if s.kernelPd i j = some t then s else paeFreeUserPt s t) s

def unregister (s : State) (p : Nat) : State :=
  { s with userPdpts := fun r => if s.userPdpts r = some p then none else s.userPdpts r }

def paeFreeUserPdpt (s : State) (p : Nat) : State :=
  let s := (List.finRange paePdptEntries).foldl
    (fun s i => pmmFree (freeTables s p i) (s.pdFrame p i)) (unregister s p)
  pmmFree s p

/-- The directories are allocated one by one; a failure frees those that were. -/
def allocPds : Nat → State → List Nat → Option (List Nat) × State
  | 0, s, pds => (some pds, s)
  | n + 1, s, pds =>
    match pmmAlloc s with
    | (none, s) => (none, pds.foldl pmmFree s)
    | (some m, s) => allocPds n s (pds ++ [m])

/-- The new directories are copies of the kernel's. -/
def fillPds (s : State) (p : Nat) : State :=
  (List.finRange paePdptEntries).foldl
    (fun s i => s.setTable (.phys (s.pdFrame p i)) (.pd (s.kernelPd i))) s

def paeCreateUserPdpt (s : State) : Option Nat × State :=
  match pmmAlloc s with
  | (none, s) => (none, s)
  | (some p, s) =>
    match allocPds paePdptEntries s [] with
    | (none, s) => (none, pmmFree s p)
    | (some pds, s) =>
      let s := s.setTable (.phys p) (.pdpt fun i => pds.getD i 0)
      let s := fillPds s p
      match (List.finRange paeMaxUserPdpts).find? fun r => (s.userPdpts r).isNone with
      | none => (none, paeFreeUserPdpt s p)
      | some r => (some p, { s with userPdpts := update s.userPdpts r (some p) })

/-! ## Histories -/

/-- The address space exists. -/
def State.live (s : State) (p : Nat) : Bool :=
  (List.finRange paeMaxUserPdpts).any fun r => s.userPdpts r == some p

def State.exists? (s : State) : Space → Bool
  | .kernel => true
  | .user p => s.live p

/-- A call, and what the memory manager answers while it runs. -/
inductive Event
  | create (answers : List (Option Nat))
  | free (p : Nat)
  | map (space : Space) (v : Page) (e : Pte) (answers : List (Option Nat))
  | unmap (space : Space) (v : Page)
  | sealMemory (space : Space) (start size : UInt32)
  | sync (phys : UInt32)

/-- Calls name the kernel or an address space that exists. -/
def step (s : State) : Event → Option State
  | .create answers => some (paeCreateUserPdpt { s with answers := answers }).2
  | .free p => if s.live p = true then some (paeFreeUserPdpt s p) else none
  | .map space v e answers =>
    if s.exists? space = true then
      some (paeMapPageInto { s with answers := answers } space v e)
    else none
  | .unmap space v => if s.exists? space = true then some (paeUnmapPageIn s space v) else none
  | .sealMemory space start size =>
    if s.exists? space = true then some (paeSealMemoryIn s space start size).2 else none
  | .sync phys => some (paeSyncIdentityPte s phys)

end TinyOS.Pae
