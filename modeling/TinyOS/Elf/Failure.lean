import TinyOS.Elf.Progress

/-!
# Failed loads

When does a load that fails leave nothing behind, whatever the file is, whatever the state of memory and
whatever fails? If it does not come as far as the new task, because the file or the request is refused or
there are not enough frames for the stacks; and otherwise just if RAMFS makes no private directory for
the new task and its pid is not that of a terminated task in a lower slot.
-/

namespace TinyOS.Elf

open Pae List

variable {m m' : Machine} {loose : List Frame} {x : Request}

/-! ## A file that is signed and fails to load -/

/-- A header, one program header with these flags, four bytes, and a signature of the 88 bytes. -/
def sampleBytes (flags : UInt8) : List UInt8 :=
  [0x7F, 0x45, 0x4C, 0x46, 1, 1, 1, 0, 0, 0, 0, 0, 0, 0, 0, 0,
    2, 0, 3, 0, 1, 0, 0, 0, 0, 0, 0, 0x10, 52, 0, 0, 0, 0, 0, 0, 0, 0, 0, 0, 0,
    52, 0, 32, 0, 1, 0, 0, 0, 0, 0, 0, 0,
    1, 0, 0, 0, 84, 0, 0, 0, 0, 0, 0, 0x10, 0, 0, 0, 0, 4, 0, 0, 0, 8, 0, 0, 0,
    flags, 0, 0, 0, 0, 0x10, 0, 0, 1, 2, 3, 4] ++ elfSigMagic ++ [0, 0, 0, 0, 88, 0, 0, 0]

def sampleFile (flags : UInt8) : File := ⟨fun i => (sampleBytes flags).getD i 0, 272⟩

/-- Every signature is good. -/
def sampleCrypto : Crypto where
  sha256 _ := List.replicate 32 0
  ecdsaVerify _ _ _ := true
  publicKey := some (List.replicate 64 0)

/-- A segment that is writable and executable is found when the task is there. -/
theorem load_writable_executable {pid : UInt32} {m₁ : Machine}
    (hcreate : taskCreateUserArgv x userStackLarge m = some (.ok pid, m₁)) :
    ∃ m', elfLoadProcessArgv sampleCrypto (sampleFile 7) x m = some (.error (-1), m') ∧
      loadImage (sampleFile 7) x m₁ pid = some (.error (-1), m') := by
  have hload : elfLoadProcessArgv sampleCrypto (sampleFile 7) x m =
      loadSigned (sampleFile 7) 88 x m := by
    have hverify : elfVerifySignature sampleCrypto (sampleFile 7) = some 88 := by decide +kernel
    unfold elfLoadProcessArgv
    rw [if_neg (by decide), if_neg (by decide), if_neg (by decide +kernel), hverify]
  have hsigned : loadSigned (sampleFile 7) 88 x m = loadImage (sampleFile 7) x m₁ pid := by
    unfold loadSigned
    rw [if_neg (by decide +kernel), hcreate]
  rw [hload, hsigned]
  have hloads : (sampleFile 7).loads = [(sampleFile 7).phdr 52] := by decide +kernel
  unfold loadImage
  split
  · exact ⟨_, rfl, rfl⟩
  split
  · exact ⟨_, rfl, rfl⟩
  rw [hloads, foldlM_cons]
  have hwx : ∀ p r, loadSegment (sampleFile 7) p r ((sampleFile 7).phdr 52) =
      .error (.abort r.1 r.2) := by
    intro p r
    unfold loadSegment
    rw [if_pos (by decide +kernel)]
  simp only [hwx]
  exact ⟨_, rfl, rfl⟩

/-! ## Memory after boot -/

/-- 512 frames, all of them free, and the kernel's one table. -/
def bootedPae : Pae.State :=
  { sixteenFrames with
    frames := 512
    answers := some 1 :: some 2 :: (List.range' 10 140).map some }

theorem bootedPae_booted : Booted bootedPae where
  userPdpts := sixteenFrames_booted.userPdpts
  isPt := sixteenFrames_booted.isPt
  once := sixteenFrames_booted.once
  inUse := sixteenFrames_booted.inUse
  mapped k hk := by
    have hk : k < 512 := hk
    refine ⟨.pool 0, ?_⟩
    have hpdpt : (Page.ofNumber k).pdpt = 0 := by
      apply Fin.ext
      show k / 2 ^ 18 % 4 = 0
      omega
    have hpd : (Page.ofNumber k).pd = 0 := by
      apply Fin.ext
      show k / 2 ^ 9 % 512 = 0
      omega
    rw [hpdpt, hpd]
    rfl

/-! ## When a failed load leaves nothing behind -/

/-- Tasks that run or are ready do not have free slots. -/
structure SlotsHeld (m : Machine) (x : Request) : Prop where
  ready : ∀ i ∈ m.ready, m.freeSlots i = false
  current : ∀ c, x.current = some c → m.freeSlots c = false

/-- The file is refused for its size, its header, its signature or its program headers. -/
def FileRefused (c : Crypto) (f : File) : Prop :=
  f.size < sizeofEhdr ∨ elfMaxFileSize < f.size ∨ elfValidate f = false ∨
    ∀ size, elfVerifySignature c f = some size → checkHeaders f size = false

/-- How far a load that fails comes: to the file, to the creation of the task, or to the image. -/
theorem load_cases {c : Crypto} {f : File} {e : Int}
    (heq : elfLoadProcessArgv c f x m = some (.error e, m')) :
    FileRefused c f ∧ m' = m ∨ ¬ FileRefused c f ∧
      (taskCreateUserArgv x userStackLarge m = some (.error e, m') ∨
        ∃ pid m₁, taskCreateUserArgv x userStackLarge m = some (.ok pid, m₁) ∧
          loadImage f x m₁ pid = some (.error e, m')) := by
  unfold FileRefused
  revert heq
  fun_cases elfLoadProcessArgv c f x m <;> intro heq
  case case5 hsmall hlarge hvalid size hverify =>
    unfold loadSigned at heq
    split at heq
    · rename_i hheaders
      cases heq
      exact .inl ⟨.inr (.inr (.inr fun size' h => by cases hverify.symm.trans h; exact hheaders)), rfl⟩
    rename_i hheaders
    refine .inr ⟨?_, ?_⟩
    · simp only [not_or]
      exact ⟨hsmall, hlarge, hvalid, fun h => hheaders (h size hverify)⟩
    split at heq
    · cases heq
    · rename_i hcreate
      cases heq
      exact .inl hcreate
    · rename_i pid m₁ hcreate
      exact .inr ⟨pid, m₁, hcreate, heq⟩
  case case1 hsmall =>
    cases heq
    exact .inl ⟨.inl hsmall, rfl⟩
  case case2 hlarge =>
    cases heq
    exact .inl ⟨.inr (.inl hlarge), rfl⟩
  case case3 hvalid =>
    cases heq
    exact .inl ⟨.inr (.inr (.inl hvalid)), rfl⟩
  case case4 hverify =>
    cases heq
    exact .inl ⟨.inr (.inr (.inr fun size h => by cases hverify.symm.trans h)), rfl⟩

/-- The task is torn down again if the loader finds it, but for the private directory. -/
theorem image_clean_iff {f : File} {e : Int} {pid : UInt32} {m₁ : Machine} (hsound : Sound m x loose)
    (hcreate : taskCreateUserArgv x userStackLarge m = some (.ok pid, m₁))
    (himage : loadImage f x m₁ pid = some (.error e, m')) :
    Clean m m' ↔ m₁.nodes = m.nodes ∧
      ∀ slot, taskFindFreeSlot m = some slot → ¬ StalePid m x slot := by
  rcases taskCreateUserArgv_cases hsound.inv hcreate with
    ⟨⟨_, hr⟩, -⟩ | ⟨slot, hfind, hr, hpid, hcreated⟩
  · cases hr
  cases hr
  have hslot : (∀ slot, taskFindFreeSlot m = some slot → ¬ StalePid m x slot) ↔
      ¬ StalePid m x slot := by
    simp [hfind]
  rw [hslot]
  rcases loadImage_fails hsound hfind hcreated (hcreated.pid ▸ hpid) himage with
    ⟨hstale, rfl⟩ | ⟨hfresh, nodes, hmade, hunwound⟩
  · exact iff_of_false hcreated.not_clean fun h => h.2 hstale
  · rw [hunwound.clean_iff hsound.inv, hmade, append_left_eq_self]
    exact ⟨fun h => ⟨h, hfresh⟩, fun h => h.1⟩

/-- A load that fails leaves nothing behind, just if its file or its request is refused, or the frames
for the stacks are not there, or there is neither a private directory nor a stale pid. -/
theorem failed_load_leaves_nothing_iff {c : Crypto} {f : File} {e : Int} (hinv : Inv m.pae loose)
    (hslots : SlotsHeld m x) (hstack : AslrStack x)
    (hload : elfLoadProcessArgv c f x m = some (.error e, m')) :
    Clean m m' ↔ FileRefused c f ∨ ¬ Admitted m x ∨ afterStacks x m = none ∨
      (∀ p s, afterStacks x m = some (p, s) → ¬ MakesDirectory x m s) ∧
        ∀ slot, taskFindFreeSlot m = some slot → ¬ StalePid m x slot := by
  have hsound : Sound m x loose := ⟨hinv, hslots.ready, hslots.current⟩
  have hrefused : Unwound m loose [] m := ⟨rfl, (Taking.refl hinv none).giving, rfl, rfl⟩
  rcases load_cases hload with ⟨hfile, rfl⟩ | ⟨hfile, hcreate | ⟨pid, m₁, hcreate, himage⟩⟩
  · exact iff_of_true ((hrefused.clean_iff hinv).mpr rfl) (.inl hfile)
  · -- No task was made: what the creation had taken is given back.
    refine iff_of_true ?_ (.inr ?_)
    · rcases taskCreateUserArgv_cases hinv hcreate with
        ⟨-, rfl | ⟨slot, hfind, hundone⟩⟩ | ⟨slot, -, hr, -⟩
      · exact (hrefused.clean_iff hinv).mpr rfl
      · exact ((hundone.unwound hfind).clean_iff hinv).mpr rfl
      · cases hr
    · by_cases hadmitted : Admitted m x
      · rcases taskCreateUserArgv_result hadmitted hstack hcreate with ⟨-, hnone⟩ | ⟨⟨_, hr⟩, -⟩
        · exact .inr (.inl hnone)
        · cases hr
      · exact .inl hadmitted
  · have hadmitted := admitted_of_create hcreate
    obtain ⟨p, s, hs, hnodes⟩ : ∃ p s, afterStacks x m = some (p, s) ∧
        (m₁.nodes = m.nodes ↔ ¬ MakesDirectory x m s) := by
      rcases taskCreateUserArgv_result hadmitted hstack hcreate with ⟨⟨_, hr⟩, -⟩ | ⟨-, hs⟩
      · cases hr
      · exact hs
    rw [image_clean_iff hsound hcreate himage, hnodes]
    simp [hfile, hadmitted, hs]

/-- No task is there yet, and RAMFS is as given. -/
def bootedMachine (ramfs : Ramfs.State) : Machine where
  pae := bootedPae
  bytes _ _ := 7
  tasks _ := {}
  freeSlots _ := true
  slotGenerations _ := 0
  ready := []
  ramfs := ramfs
  nodes := []

def sampleRequest : Request where
  argc := 0
  argv := none
  current := none
  rateAllows := true
  draws _ := 0
  stackBase := 0xBFFFFFF0
  caller := none
  randomBits := 0x0123456789

section booted

variable (ramfs : Ramfs.State)

theorem bootedMachine_slotsHeld : SlotsHeld (bootedMachine ramfs) sampleRequest where
  ready i hi := by cases hi
  current c hc := by cases hc

theorem sampleRequest_aslrStack : AslrStack sampleRequest := by
  unfold AslrStack
  decide

theorem bootedMachine_fresh (slot : Slot) (hfind : taskFindFreeSlot (bootedMachine ramfs) = some slot) :
    ¬ StalePid (bootedMachine ramfs) sampleRequest slot := by
  rintro ⟨i, hi, -⟩
  cases (find_slot.mp hfind).2 i hi

/-- After boot there are frames enough: every page of the stack can be written to, and one frame is
left. -/
def stacksReady (x : Request) (m : Machine) : Bool :=
  (afterStacks x m).any fun r =>
    (List.range userStackLarge).all (fun i =>
      (r.2.walk (.user r.1) (.ofNumber (stackTop x - (i + 1)))).any fun e => e.flags.readwrite) &&
    (pmmAlloc r.2).1.isSome

theorem bootedMachine_stacks : ∃ p s, afterStacks sampleRequest (bootedMachine ramfs) = some (p, s) ∧
    (∀ i < userStackLarge, ∃ e,
      s.walk (.user p) (.ofNumber (stackTop sampleRequest - (i + 1))) = some e ∧
        e.flags.readwrite = true) ∧ (pmmAlloc s).1.isSome = true := by
  have hready : stacksReady sampleRequest (bootedMachine (Ramfs.ramfsInit true)) = true := by
    decide +kernel
  rw [stacksReady, Option.any_eq_true] at hready
  obtain ⟨⟨p, s⟩, hs, hready⟩ := hready
  rw [Bool.and_eq_true, List.all_eq_true] at hready
  have hsame : afterStacks sampleRequest (bootedMachine ramfs) =
      afterStacks sampleRequest (bootedMachine (Ramfs.ramfsInit true)) := afterStacks_congr rfl
  refine ⟨p, s, hsame.trans hs, fun i hi => ?_, hready.2⟩
  exact (Option.any_eq_true _ _).mp (hready.1 i (List.mem_range.mpr hi))

/-- The first task after boot. The file is signed, and has a segment that is writable and executable. -/
theorem bootedMachine_load : ∃ pid m₁ m',
    taskCreateUserArgv sampleRequest userStackLarge (bootedMachine ramfs) = some (.ok pid, m₁) ∧
      (tmpAccepts sampleRequest ramfs = true → m₁.nodes ≠ []) ∧
      loadImage (sampleFile 7) sampleRequest m₁ pid = some (.error (-1), m') ∧
      elfLoadProcessArgv sampleCrypto (sampleFile 7) sampleRequest (bootedMachine ramfs) =
        some (.error (-1), m') := by
  have hadmitted : Admitted (bootedMachine ramfs) sampleRequest := ⟨rfl, rfl, rfl, rfl⟩
  obtain ⟨p, s, hs, hwalk, hleft⟩ := bootedMachine_stacks ramfs
  obtain ⟨pid, m₁, hcreate⟩ := taskCreateUserArgv_some hadmitted sampleRequest_aslrStack hs hwalk
  have hnodes : tmpAccepts sampleRequest ramfs = true → m₁.nodes ≠ [] := by
    rcases taskCreateUserArgv_result hadmitted sampleRequest_aslrStack hcreate with
      ⟨⟨_, hr⟩, -⟩ | ⟨-, p', s', hs', hiff⟩
    · cases hr
    cases hs.symm.trans hs'
    exact fun haccepts hnone => hiff.mp hnone ⟨haccepts, hleft⟩
  obtain ⟨m', hload, himage⟩ := load_writable_executable hcreate
  exact ⟨pid, m₁, m', hcreate, hnodes, himage, hload⟩

end booted

/-- Without `/tmp` the private directory is not made, and nothing is left. -/
theorem failed_load_without_tmp :
    ∃ m', elfLoadProcessArgv sampleCrypto (sampleFile 7) sampleRequest
      (bootedMachine (Ramfs.ramfsInit true)) = some (.error (-1), m') ∧
        Clean (bootedMachine (Ramfs.ramfsInit true)) m' := by
  obtain ⟨_, _, m', -, -, -, hload⟩ := bootedMachine_load (Ramfs.ramfsInit true)
  have hrefuses : tmpAccepts sampleRequest (Ramfs.ramfsInit true) = false := by decide +kernel
  refine ⟨m', hload, (failed_load_leaves_nothing_iff bootedPae_booted.inv
    (bootedMachine_slotsHeld _) sampleRequest_aslrStack hload).mpr
      (.inr (.inr (.inr ⟨fun _ _ _ hmakes => ?_, bootedMachine_fresh _⟩)))⟩
  cases hrefuses.symm.trans hmakes.1

/-- RAMFS after `mkdir /tmp`. -/
def withTmp : Ramfs.State :=
  (Ramfs.ramfsMkdir none (some [0x2F, 0x74, 0x6D, 0x70]) true (Ramfs.ramfsInit true)).2

/-- With `/tmp` the task is given a private directory, and the frame of its node stays taken. -/
theorem failed_load_keeps_the_directory :
    ∃ m', elfLoadProcessArgv sampleCrypto (sampleFile 7) sampleRequest (bootedMachine withTmp) =
      some (.error (-1), m') ∧ ¬ Clean (bootedMachine withTmp) m' := by
  obtain ⟨_, _, m', hcreate, hnodes, himage, hload⟩ := bootedMachine_load withTmp
  have haccepts : tmpAccepts sampleRequest withTmp = true := by decide +kernel
  have hsound : Sound (bootedMachine withTmp) sampleRequest [] :=
    ⟨bootedPae_booted.inv, (bootedMachine_slotsHeld _).ready, (bootedMachine_slotsHeld _).current⟩
  exact ⟨m', hload, fun hclean =>
    hnodes haccepts ((image_clean_iff hsound hcreate himage).mp hclean).1⟩

end TinyOS.Elf
