import TinyOS.Elf.File
import TinyOS.Elf.Create

/-!
# Loading a program

`elf_load_process_argv_impl`: the checks, the new task, and the loop that gives every segment its frames
and its bytes. Where the loop gives up it returns the frames it has taken and terminates the task. A
segment is copied through a mapping that is writable and not executable; segments that are not
writable are mapped again when they are complete.
-/

namespace TinyOS.Elf

open Pae (Pte Flags)

def elfMaxImagePages : Nat := 256
def userStackLarge : Nat := 128

def Phdr.pageFlags (ph : Phdr) : Flags :=
  { present := true, readwrite := ph.writable, user := true, nx := !ph.executable }

/-- The flags while the segment is copied. -/
def loadFlags (flags : Flags) : Flags := { flags with readwrite := true, nx := true }

/-- The numbers of the pages of a segment. -/
def Phdr.pages (ph : Phdr) : List Nat :=
  List.range' (ph.startPage / pageSize) ((ph.endPage - ph.startPage) / pageSize)

/-- The loop does not go on: a page fault, or a failure that is cleaned up after. -/
inductive Stop
  | fault
  | abort (m : Machine) (frames : List Nat)

/-- The machine and `allocated_frames`. -/
abbrev Loading := Machine × List Nat

/-- A frame for one page. -/
def loadPage (p : Nat) (flags : Flags) (r : Loading) (page : Nat) : Except Stop Loading :=
  match Pae.pmmAlloc r.1.pae with
  | (none, s) => .error (.abort (r.1.setPae s) r.2)
  | (some n, s) =>
    if elfMaxImagePages ≤ r.2.length then .error (.abort (r.1.setPae s) (r.2 ++ [n]))
    else .ok (mapPage (r.1.setPae s) p page ⟨n, loadFlags flags⟩, r.2 ++ [n])

/-- What comes before the segment on its first page, the bytes of the file, the rest of the segment,
and what comes after it on its last page. -/
def copySegment (f : File) (ph : Phdr) (p : Nat) (m : Machine) : Option Machine := do
  let m ← write p ph.startPage (ph.vaddr - ph.startPage) (fun _ => 0) m
  let m ← write p ph.vaddr ph.filesz (fun k => f.byte (ph.offset + k)) m
  let m ← write p (ph.vaddr + ph.filesz) (ph.memsz - ph.filesz) (fun _ => 0) m
  write p (ph.vaddr + ph.memsz) (ph.endPage - (ph.vaddr + ph.memsz)) (fun _ => 0) m

/-- The pages get the frames that they have, with other flags. -/
def remap (p : Nat) (flags : Flags) (pages frames : List Nat) (m : Machine) : Machine :=
  (pages.zip frames).foldl (fun m (page, n) => mapPage m p page ⟨n, flags⟩) m

def loadSegment (f : File) (p : Nat) (r : Loading) (ph : Phdr) : Except Stop Loading :=
  if ph.writable = true ∧ ph.executable = true then .error (.abort r.1 r.2)
  else if 0xFFFFFFFF - ph.vaddr < ph.memsz then .error (.abort r.1 r.2)
  else
    match ph.pages.foldlM (loadPage p ph.pageFlags) r with
    | .error stop => .error stop
    | .ok (m, frames) =>
      match copySegment f ph p m with
      | none => .error .fault
      | some m =>
        if ph.writable = true then .ok (m, frames)
        else .ok (remap p ph.pageFlags ph.pages (frames.drop r.2.length) m, frames)

/-- `elf_abort_load`, after the frames of the image were returned. -/
def elfAbortLoad (m : Machine) (frames : List Nat) (current : Option Slot) (pid : UInt32) : Machine :=
  taskTerminate (m.setPae (frames.foldl Pae.pmmFree m.pae)) current pid

/-- From the creation of the task on. -/
def loadImage (f : File) (x : Request) (m : Machine) (pid : UInt32) :
    Option (Except Int UInt32 × Machine) :=
  match taskGetAny m pid with
  | none => some (.error (-1), taskTerminate m x.current pid)
  | some slot =>
    if (m.tasks slot).state = .terminated then some (.error (-1), m)
    else
      match f.loads.foldlM (loadSegment f (m.tasks slot).pageDirectory) (m, []) with
      | .error .fault => none
      | .error (.abort m frames) => some (.error (-1), elfAbortLoad m frames x.current pid)
      | .ok (m, frames) =>
        some (.ok pid, m.modifyTask slot fun t => { t with imagePagesPhys := frames })

/-- What follows the check of the signature, when so many bytes may be parsed. -/
def loadSigned (f : File) (parseSize : Nat) (x : Request) (m : Machine) :
    Option (Except Int UInt32 × Machine) :=
  if checkHeaders f parseSize = false then some (.error (-1), m)
  else
    match taskCreateUserArgv x userStackLarge m with
    | none => none
    | some (.error e, m) => some (.error e, m)
    | some (.ok pid, m) => loadImage f x m pid

/-- `elf_load_process_argv`, with signatures enforced. A page fault in it is `none`. -/
def elfLoadProcessArgv (c : Crypto) (f : File) (x : Request) (m : Machine) :
    Option (Except Int UInt32 × Machine) :=
  if f.size < sizeofEhdr then some (.error (-1), m)
  else if elfMaxFileSize < f.size then some (.error (-1), m)
  else if elfValidate f = false then some (.error (-1), m)
  else
    match elfVerifySignature c f with
    | none => some (.error (-1), m)
    | some signedSize => loadSigned f signedSize x m

end TinyOS.Elf
