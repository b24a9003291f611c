import Mathlib.Algebra.Ring.Nat
import Mathlib.Data.List.Basic

/-!
# Signed executables

The file that `elf.c` is given, the checks of its header, of its signature trailer and of its program
headers. A file is memory from its first byte on, and a size; what follows the file in memory can be
read as well, so reading past the end is something that the checks have to rule out.

SHA-256 and ECDSA are parameters, and so is the key that secure boot trusts.
-/

namespace TinyOS.Elf

structure File where
  byte : Nat → UInt8
  size : Nat

namespace File

variable (f : File)

def u16 (i : Nat) : Nat := (f.byte i).toNat + 2 ^ 8 * (f.byte (i + 1)).toNat

def u32 (i : Nat) : Nat := f.u16 i + 2 ^ 16 * f.u16 (i + 2)

def bytes (i len : Nat) : List UInt8 := (List.range len).map fun k => f.byte (i + k)

end File

/-! ## Headers -/

/-- The fields of `elf32_ehdr_t` that the loader reads. -/
structure Ehdr where
  ident : List UInt8
  type : Nat
  machine : Nat
  entry : Nat
  phoff : Nat
  phentsize : Nat
  phnum : Nat
  deriving DecidableEq, Repr

def File.ehdr (f : File) : Ehdr where
  ident := f.bytes 0 7
  type := f.u16 16
  machine := f.u16 18
  entry := f.u32 24
  phoff := f.u32 28
  phentsize := f.u16 42
  phnum := f.u16 44

/-- The fields of `elf32_phdr_t` that the loader reads. -/
structure Phdr where
  type : Nat
  offset : Nat
  vaddr : Nat
  filesz : Nat
  memsz : Nat
  flags : Nat
  deriving DecidableEq, Repr

def sizeofEhdr : Nat := 52
def sizeofPhdr : Nat := 32

def File.phdr (f : File) (i : Nat) : Phdr where
  type := f.u32 i
  offset := f.u32 (i + 4)
  vaddr := f.u32 (i + 8)
  filesz := f.u32 (i + 16)
  memsz := f.u32 (i + 20)
  flags := f.u32 (i + 24)

/-- The program headers, in the order of the table. -/
def File.phdrs (f : File) : List Phdr :=
  (List.range f.ehdr.phnum).map fun k => f.phdr (f.ehdr.phoff + k * sizeofPhdr)

def Phdr.isLoad (ph : Phdr) : Bool := ph.type == 1

/-- `PF_X`. -/
def Phdr.executable (ph : Phdr) : Bool := ph.flags.testBit 0

/-- `PF_W`. -/
def Phdr.writable (ph : Phdr) : Bool := ph.flags.testBit 1

/-- The segments. -/
def File.loads (f : File) : List Phdr := f.phdrs.filter Phdr.isLoad

def elfValidate (f : File) : Bool :=
  f.ehdr.ident == [0x7F, 0x45, 0x4C, 0x46, 1, 1, 1] &&
  f.ehdr.machine == 3 && f.ehdr.type == 2 && f.ehdr.entry != 0

/-! ## The signature -/

def elfSigSize : Nat := 184

/-- `"TINYOS_SIG_V1\0\0\0"`. -/
def elfSigMagic : List UInt8 :=
  [0x54, 0x49, 0x4E, 0x59, 0x4F, 0x53, 0x5F, 0x53, 0x49, 0x47, 0x5F, 0x56, 0x31, 0, 0, 0]

/-- What signatures are checked with. -/
structure Crypto where
  sha256 : List UInt8 → List UInt8
  /-- `ecdsa_verify`: signature, hash and public key. -/
  ecdsaVerify : List UInt8 → List UInt8 → List UInt8 → Bool
  /-- `secure_boot_config_t`: the trusted key, once it is configured. -/
  publicKey : Option (List UInt8)

/-- `elf_verify_signature`: the number of bytes that are signed. -/
def elfVerifySignature (c : Crypto) (f : File) : Option Nat :=
  if f.size < elfSigSize then none
  else
    let sig := f.size - elfSigSize
    let signedSize := f.u32 (sig + 20)
    if f.bytes sig 16 ≠ elfSigMagic then none
    else if signedSize + elfSigSize ≠ f.size then none
    else
      let hash := c.sha256 (f.bytes 0 signedSize)
      if hash ≠ f.bytes (sig + 152) 32 then none
      else if c.publicKey ≠ some (f.bytes (sig + 24) 64) then none
      else if c.ecdsaVerify (f.bytes (sig + 88) 64) hash (f.bytes (sig + 24) 64) then
        some signedSize
      else none

/-! ## The checks of the program headers -/

def elfMaxFileSize : Nat := 1024 * 1024
def elfMaxProgramHeaders : Nat := 128
def elfMaxPhoff : Nat := 1024 * 1024
def elfUserSpaceEnd : Nat := 0xC0000000
def elfMaxProcessMemory : Nat := 16 * 1024 * 1024
def userMinAddr : Nat := 0x1000
def pmmMaxBytes : Nat := 256 * 1024 * 1024
def pageSize : Nat := 4096

def pageDown (a : Nat) : Nat := a / pageSize * pageSize
def pageUp (a : Nat) : Nat := (a + (pageSize - 1)) / pageSize * pageSize

/-- The table of program headers lies within the part that may be parsed. -/
def checkTable (e : Ehdr) (parseSize : Nat) : Bool :=
  let tableSize := e.phnum * e.phentsize
  decide (0 < e.phnum ∧ e.phnum ≤ elfMaxProgramHeaders) &&
  decide (e.phentsize = sizeofPhdr) &&
  decide (0 < e.phoff ∧ e.phoff ≤ elfMaxPhoff) &&
  decide (tableSize ≤ elfMaxPhoff ∧ e.phoff ≤ elfMaxPhoff - tableSize) &&
  decide (e.phoff ≤ parseSize ∧ tableSize ≤ parseSize - e.phoff)

/-- The checks of one segment, in the order of the source. -/
def checkSegment (parseSize : Nat) (ph : Phdr) : Bool :=
  decide (ph.vaddr < elfUserSpaceEnd) &&
  decide (ph.memsz ≤ elfUserSpaceEnd - ph.vaddr) &&
  decide (ph.filesz ≤ ph.memsz) &&
  decide (userMinAddr ≤ ph.vaddr) &&
  !decide (ph.vaddr < userMinAddr + ph.memsz ∧ userMinAddr < ph.vaddr + ph.memsz ∧
    ph.vaddr + ph.memsz < userMinAddr) &&
  decide (pmmMaxBytes ≤ ph.vaddr) &&
  decide (ph.offset ≤ parseSize ∧ ph.filesz ≤ parseSize - ph.offset)

def Phdr.startPage (ph : Phdr) : Nat := pageDown ph.vaddr
def Phdr.endPage (ph : Phdr) : Nat := pageUp (ph.vaddr + ph.memsz)

/-- Two segments have a page in common. -/
def sharePage (a b : Phdr) : Bool :=
  decide (a.startPage < b.endPage) && decide (b.startPage < a.endPage)

/-- No two segments have. -/
def checkOverlap : List Phdr → Bool
  | [] => true
  | ph :: rest => rest.all (fun other => !sharePage ph other) && checkOverlap rest

/-- `max_vaddr - min_vaddr`, in 32 bits. -/
def totalMem (loads : List Phdr) : Nat :=
  let minVaddr := loads.foldl (fun a ph => if ph.vaddr < a then ph.vaddr else a) 0xFFFFFFFF
  let maxVaddr := loads.foldl
    (fun a ph => if a < ph.vaddr + ph.memsz then ph.vaddr + ph.memsz else a) 0
  (maxVaddr + 2 ^ 32 - minVaddr) % 2 ^ 32

/-- Everything that is checked between the signature and the creation of the task. -/
def checkHeaders (f : File) (parseSize : Nat) : Bool :=
  checkTable f.ehdr parseSize &&
  f.loads.all (checkSegment parseSize) &&
  checkOverlap f.loads &&
  decide (totalMem f.loads ≤ elfMaxProcessMemory)

end TinyOS.Elf
