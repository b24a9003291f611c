import TinyOS.Ramfs.Naming
import TinyOS.Vfs.ProtectedPath

/-!
# Redirections of the kernel shell

`parse_and_execute` opens the target of `>` and `>>` through RAMFS, which walks it from the root, after
it has asked `vfs_protected_modify_allowed` about `canonicalize_path` of it, which joins a relative path
to the current directory. The two agree on absolute paths, and on relative ones while the current
directory is the root; elsewhere the file that is opened is not the one that was checked.
-/

namespace TinyOS.Shell

open Lib List Ramfs
open Ramfs (Str slash dot cut Plain Caller AtPath Wf splitPath ramfsOpen)

/-! ## `canonicalize_path` -/

def maxPath : Nat := 256
def maxDepth : Nat := 32

def isAbsolute (path : Str) : Bool := path.head? == some slash

/-- The current directory with a slash at its end. -/
def withSeparator (base : Str) : Str := if base.getLast? = some slash then base else base ++ [slash]

/-- The current directory and the path, as long as they are. -/
def joined (currentDir path : Str) : Str :=
  withSeparator (if currentDir = [slash] then [] else currentDir) ++ path

/-- `working_path`: what of them fits into the buffer. -/
def workingPath (currentDir path : Str) : Str :=
  if isAbsolute path then path
  else
    let base := withSeparator (if currentDir = [slash] then [] else currentDir.take (maxPath - 2))
    base ++ path.take (maxPath - 1 - base.length)

/-- `out_pos`, with each component followed by a slash. -/
def outPos (stack : List Str) : Nat := 1 + (stack.map (·.length + 1)).sum

/-- What one component does to the output. -/
def pushComponent (size : Nat) (stack : List Str) (comp : Str) : Option (List Str) :=
  if comp = [dot] then some stack
  else if comp = [dot, dot] then some stack.dropLast
  else if maxDepth ≤ stack.length then none
  else if size - 1 < outPos stack + comp.length + 1 then none
  else some (stack ++ [comp])

def foldComponents (size : Nat) : List Str → List Str → Option (List Str)
  | [], stack => some stack
  | comp :: rest, stack =>
    match pushComponent size stack comp with
    | none => none
    | some stack => foldComponents size rest stack

/-- The components of the canonical path. -/
def canonicalComponents (currentDir path : Str) (size : Nat) : Option (List Str) :=
  foldComponents size (tokens slash (workingPath currentDir path)) []

def render (stack : List Str) : Str := if stack = [] then [slash] else join slash stack

def canonicalizePath (currentDir path : Str) (size : Nat) : Option Str :=
  (canonicalComponents currentDir path size).map render

/-! ## Redirecting -/

/-- The characters that a canonical path may have. -/
def isPathChar (c : UInt8) : Bool :=
  (97 ≤ c && c ≤ 122) || (65 ≤ c && c ≤ 90) || (48 ≤ c && c ≤ 57) || c == 45 || c == 95 ||
    c == dot || c == slash

def validateRedirFilename (currentDir filename : Str) : Bool :=
  if filename = [] then false
  else if 255 < filename.length then false
  else
    match canonicalizePath currentDir filename maxPath with
    | none => false
    | some canonical => canonical.all isPathChar

/-- `vfs_protected_modify_allowed`, without its counters. -/
def vfsProtectedModifyAllowed (task : Option Vfs.Task) (canonical : Str) : Bool :=
  !Vfs.vfsPathIsProtected canonical || Vfs.hasSysAdmin task

inductive RedirType
  | output
  | append
  deriving DecidableEq, Repr

def redirFlags : Nat := Ramfs.flagWrite ||| Ramfs.flagNofollow ||| Ramfs.flagInherit

def touchFlags : Nat := Ramfs.flagWrite ||| Ramfs.flagNofollow

/-- The open, and once more after creating the file; `allocs` are the outcomes of the allocations. -/
def openTarget (cur : Caller) (filename : Str) (allocs : Nat → Bool) (s : Ramfs.State) :
    Int × Ramfs.State :=
  let first := ramfsOpen cur (some filename) redirFlags (allocs 0) s
  if first.1 < 0 then
    let touch := ramfsOpen cur (some filename) touchFlags (allocs 1) first.2
    if 0 ≤ touch.1 then
      ramfsOpen cur (some filename) redirFlags (allocs 2) (Ramfs.ramfsClose touch.1 touch.2)
    else (first.1, touch.2)
  else first

def ramfsFdSize (fd : Int) (s : Ramfs.State) : Int :=
  match Ramfs.fdSlot s fd with
  | none => -1
  | some i =>
    match (s.fds i).node with
    | none => -3
    | some node => (s.node node).size

/-- What is done with the file that was opened. -/
def prepareTarget (type : RedirType) (fd : Int) (s : Ramfs.State) : Ramfs.State :=
  match type with
  | .output => (Ramfs.ramfsTruncate fd s).2
  | .append =>
    let stop := ramfsFdSize fd s
    if 0 < stop then (Ramfs.ramfsSeek fd stop.toNat s).2 else s

def openAndPrepare (cur : Caller) (type : RedirType) (filename : Str) (allocs : Nat → Bool)
    (s : Ramfs.State) : Int × Ramfs.State :=
  let opened := openTarget cur filename allocs s
  if opened.1 < 0 then opened else (opened.1, prepareTarget type opened.1 opened.2)

/-- The descriptor of an earlier redirection is closed. -/
def closeEarlier (redirFd : Int) (s : Ramfs.State) : Ramfs.State :=
  if 0 ≤ redirFd then Ramfs.ramfsClose redirFd s else s

/-- The shell: its current directory and the task it runs as. -/
structure Env where
  currentDir : Str
  task : Option Vfs.Task
  cur : Caller

/-- One redirection of `parse_and_execute`, with the descriptor of the one before it. A negative result
means that the command is not run. -/
def redirect (env : Env) (type : RedirType) (filename : Str) (redirFd : Int) (allocs : Nat → Bool)
    (s : Ramfs.State) : Int × Ramfs.State :=
  if validateRedirFilename env.currentDir filename = false then (-1, s)
  else
    match canonicalizePath env.currentDir filename maxPath with
    | none => (-1, closeEarlier redirFd s)
    | some canonical =>
      if vfsProtectedModifyAllowed env.task canonical = false then (-1, closeEarlier redirFd s)
      else openAndPrepare env.cur type filename allocs (closeEarlier redirFd s)

/-! ## What the current directory can be -/

/-- `cd` keeps a path that RAMFS has found. -/
structure IsCurrentDir (currentDir : Str) : Prop where
  absolute : isAbsolute currentDir = true
  plain : ∀ t ∈ tokens slash currentDir, Plain t

/-! ## The canonical path -/

variable {stack stack' : List Str}

theorem plain_iff {t : Str} : Plain t ↔ Vfs.Component t := by
  simp only [Plain, isDots, Bool.or_eq_false_iff, decide_eq_false_iff_not]
  rfl

theorem pushComponent_eq {size : Nat} {comp : Str}
    (h : pushComponent size stack comp = some stack') : stack' = Vfs.descend stack comp := by
  change _ = if comp = [dot] then stack else if comp = [dot, dot] then stack.dropLast else _
  unfold pushComponent at h
  split_ifs at h ⊢ <;> exact (Option.some.inj h).symm

variable {comps : List Str}

/-- What is accepted is what is left of the components. -/
theorem foldComponents_eq {size : Nat} (h : foldComponents size comps stack = some stack') :
    stack' = comps.foldl Vfs.descend stack := by
  induction comps generalizing stack with
  | nil => exact (Option.some.inj h).symm
  | cons comp comps ih =>
    simp only [foldComponents] at h
    split at h
    · cases h
    rename_i next hpush
    rw [ih h, pushComponent_eq hpush]
    rfl

theorem foldComponents_of_plain {size : Nat} (hcomps : ∀ t ∈ comps, Plain t)
    (h : foldComponents size comps stack = some stack') : stack' = stack ++ comps := by
  rw [foldComponents_eq h, Vfs.foldl_descend_of_component fun t ht => plain_iff.mp (hcomps t ht)]

variable {currentDir path : Str}

theorem canonicalComponents_plain {size : Nat}
    (h : canonicalComponents currentDir path size = some stack) : ∀ t ∈ stack, Plain t := by
  rw [foldComponents_eq h]
  exact fun t ht => plain_iff.mpr (Vfs.live_component _ t ht)

theorem tokens_render (h : ∀ t ∈ stack, Plain t) : tokens slash (render stack) = stack :=
  Vfs.tokens_rooted fun t ht => plain_iff.mp (h t ht)

theorem splitPath_render (h : ∀ t ∈ stack, Plain t) (hlen : stack.length ≤ 16) :
    splitPath (render stack) 16 = some (stack.map cut) := by
  unfold render
  split
  · rename_i hnil
    subst hnil
    decide
  · exact splitPath_join h hlen

/-- Two paths that RAMFS accepts name the same place if their components, cut, are the same. -/
theorem splitPath_render_iff (h : ∀ t ∈ stack, Plain t) (hsplit : splitPath path 16 = some comps) :
    splitPath (render stack) 16 = some comps ↔ stack.map cut = (tokens slash path).map cut := by
  rw [← (splitPath_spec hsplit).1]
  constructor
  · intro hrender
    have heq := (splitPath_spec hrender).1
    rw [tokens_render h] at heq
    exact heq.symm
  · intro heq
    have hlength : stack.length = comps.length := by rw [← heq, length_map]
    rw [splitPath_render h (hlength ▸ (splitPath_spec hsplit).2.2), heq]

/-! ## When the path that is checked is the path that is opened -/

/-- The components of the checked path and of the target, as RAMFS cuts them. -/
def SameComponents (currentDir path : Str) : Prop :=
  ∃ stack, canonicalComponents currentDir path maxPath = some stack ∧
    stack.map cut = (tokens slash path).map cut

/-- The target is absolute or the current directory is the root. Where the two together are longer than
the buffer, what is left of them must by chance have the target's components. -/
def Faithful (currentDir path : Str) : Prop :=
  isAbsolute path = true ∨
    if (joined currentDir path).length ≤ maxPath - 1 then tokens slash currentDir = []
    else SameComponents currentDir path

theorem tokens_withSeparator (base path : Str) :
    tokens slash (withSeparator base ++ path) = tokens slash base ++ tokens slash path := by
  unfold withSeparator
  split
  · rename_i hlast
    obtain ⟨front, rfl⟩ := getLast?_eq_some_iff.mp hlast
    rw [tokens, append_assoc, singleton_append, tokensFrom_append_sep, tokens,
      tokensFrom_append_sep, tokensFrom, if_pos rfl, append_nil]
    rfl
  · rw [tokens, append_assoc, singleton_append, tokensFrom_append_sep]
    rfl

theorem tokens_joined (currentDir path : Str) :
    tokens slash (joined currentDir path) = tokens slash currentDir ++ tokens slash path := by
  rw [joined, tokens_withSeparator]
  split
  · rename_i hroot
    subst hroot
    rfl
  · rfl

theorem tokens_workingPath (hrelative : isAbsolute path = false)
    (hfits : (joined currentDir path).length ≤ maxPath - 1) :
    tokens slash (workingPath currentDir path) = tokens slash currentDir ++ tokens slash path := by
  unfold joined at hfits
  rw [length_append, maxPath] at hfits
  unfold workingPath
  rw [if_neg (by rw [hrelative]; exact Bool.noConfusion)]
  simp only [tokens_withSeparator, maxPath]
  split
  · rename_i hroot
    rw [if_pos hroot] at hfits
    rw [hroot, take_of_length_le (by omega)]
    rfl
  rename_i hdir
  rw [if_neg hdir] at hfits
  by_cases hlen : currentDir.length ≤ 254
  · rw [take_of_length_le hlen, take_of_length_le (by omega)]
  -- only a slash at the end of the directory is dropped
  unfold withSeparator at hfits
  split at hfits
  · rename_i hlast
    obtain ⟨front, rfl⟩ := getLast?_eq_some_iff.mp hlast
    simp only [length_append, length_singleton] at hfits hlen
    have hnil : path = [] := length_eq_zero_iff.mp (by omega)
    have hfront : (front ++ [slash]).take 254 = front := take_left' (by omega)
    rw [hnil, take_nil, hfront]
    simp [tokens, tokensFrom, tokensFrom_append_sep]
  · simp only [length_append, length_singleton] at hfits
    omega

/-- For a target that RAMFS accepts, being faithful is having the same components. -/
theorem faithful_iff (hdir : IsCurrentDir currentDir)
    (hstack : canonicalComponents currentDir path maxPath = some stack)
    (hsplit : splitPath path 16 = some comps) :
    Faithful currentDir path ↔ stack.map cut = (tokens slash path).map cut := by
  have hplain := splitPath_plain hsplit
  have hsame : SameComponents currentDir path ↔ stack.map cut = (tokens slash path).map cut := by
    constructor
    · rintro ⟨stack', hstack', heq⟩
      rw [Option.some.inj (hstack.symm.trans hstack')]
      exact heq
    · intro heq
      exact ⟨stack, hstack, heq⟩
  unfold Faithful
  cases habs : isAbsolute path with
  | true =>
    refine ⟨fun _ => ?_, fun _ => .inl rfl⟩
    rw [canonicalComponents, workingPath, if_pos habs] at hstack
    rw [foldComponents_of_plain hplain hstack, nil_append]
  | false =>
    split
    · rename_i hfits
      rw [canonicalComponents, tokens_workingPath habs hfits] at hstack
      have hall := forall_mem_append.mpr ⟨hdir.plain, hplain⟩
      rw [foldComponents_of_plain hall hstack, nil_append]
      constructor
      · rintro (hfalse | hroot)
        · cases hfalse
        · rw [hroot, nil_append]
      · intro heq
        have hlength := congrArg List.length heq
        simp only [map_append, length_append, length_map] at hlength
        exact .inr (length_eq_zero_iff.mp (by omega))
    · rw [← hsame]
      constructor
      · rintro (hfalse | h)
        · cases hfalse
        · exact h
      · exact .inr

/-! ## The node that is opened -/

section Open

variable {cur : Caller} {s s' : Ramfs.State} {fd : Int} {comps : List Str} {node : Ramfs.NodeId}

theorem wf_ramfsOpen (hw : Wf s) (cur : Caller) (path : Option Str) (flags : Nat) (alloc : Bool) :
    Wf (ramfsOpen cur path flags alloc s).2 :=
  hw.exec ⟨cur, .open path flags alloc⟩

theorem wf_ramfsClose (hw : Wf s) (fd : Int) : Wf (Ramfs.ramfsClose fd s) :=
  hw.exec ⟨none, .close fd⟩

theorem openTarget_atPath (hw : Wf s) {filename : Str} {allocs : Nat → Bool}
    (h : openTarget cur filename allocs s = (fd, s')) (hfd : 0 ≤ fd) :
    Wf s' ∧ ∃ comps node, splitPath filename 16 = some comps ∧ Ramfs.OpenedAt s' fd comps node := by
  have hfirst := wf_ramfsOpen hw cur (some filename) redirFlags (allocs 0)
  simp only [openTarget] at h
  split at h
  · split at h
    · have htouch := wf_ramfsClose (wf_ramfsOpen hfirst cur (some filename) touchFlags (allocs 1))
        (ramfsOpen cur (some filename) touchFlags (allocs 1)
          (ramfsOpen cur (some filename) redirFlags (allocs 0) s).2).1
      have hwf := wf_ramfsOpen htouch cur (some filename) redirFlags (allocs 2)
      rw [h] at hwf
      exact ⟨hwf, ramfsOpen_atPath htouch h hfd⟩
    · cases h
      omega
  · rw [h] at hfirst
    exact ⟨hfirst, ramfsOpen_atPath hw h hfd⟩

theorem prepareTarget_atPath (type : RedirType) (h : Ramfs.OpenedAt s fd comps node) :
    ((prepareTarget type fd s).fds fd.toNat).node = some node ∧
      AtPath (prepareTarget type fd s) comps node := by
  cases type with
  | output =>
    simp only [prepareTarget, ramfsTruncate, h.slot, h.held]
    split
    · exact ⟨h.held, h.atPath⟩
    split
    · exact ⟨h.held, h.atPath⟩
    refine ⟨by simp [Ramfs.State.setFd_fds], AtPath.setFd ?_ _ _⟩
    refine h.atPath.frame rfl fun q => ?_
    rw [Ramfs.State.modify_node]
    split
    · rename_i hq
      subst hq
      exact ⟨rfl, rfl, rfl, rfl, rfl, rfl⟩
    · exact Ramfs.SameLinks.rfl
  | append =>
    simp only [prepareTarget]
    split
    · simp only [ramfsSeek, h.slot, h.held]
      exact ⟨by simp [Ramfs.State.setFd_fds], h.atPath.setFd _ _⟩
    · exact ⟨h.held, h.atPath⟩

theorem wf_prepareTarget (hw : Wf s) (type : RedirType) (fd : Int) : Wf (prepareTarget type fd s) := by
  cases type with
  | output => exact hw.exec ⟨none, .truncate fd⟩
  | append =>
    simp only [prepareTarget]
    split
    · exact hw.exec ⟨none, .seek fd _⟩
    · exact hw

theorem openAndPrepare_atPath (hw : Wf s) {type : RedirType} {filename : Str} {allocs : Nat → Bool}
    (h : openAndPrepare cur type filename allocs s = (fd, s')) (hfd : 0 ≤ fd) :
    Wf s' ∧ ∃ comps node, splitPath filename 16 = some comps ∧
      (s'.fds fd.toNat).node = some node ∧ AtPath s' comps node := by
  simp only [openAndPrepare] at h
  split at h
  · rename_i hneg
    rw [h] at hneg
    omega
  obtain ⟨rfl, rfl⟩ := Prod.mk.inj h
  obtain ⟨hwf, comps, node, hsplit, hat⟩ := openTarget_atPath hw rfl hfd
  exact ⟨wf_prepareTarget hwf type _, comps, node, hsplit, prepareTarget_atPath type hat⟩

theorem wf_closeEarlier (hw : Wf s) (redirFd : Int) : Wf (closeEarlier redirFd s) := by
  unfold closeEarlier
  split
  · exact wf_ramfsClose hw redirFd
  · exact hw

/-- What a redirection that is performed has checked and opened. -/
structure Performed (env : Env) (filename : Str) (fd : Int) (s : Ramfs.State) (canonical : Str)
    (comps : List Str) (node : Ramfs.NodeId) : Prop where
  wf : Wf s
  nonempty : filename ≠ []
  checked : canonicalizePath env.currentDir filename maxPath = some canonical
  allowed : vfsProtectedModifyAllowed env.task canonical = true
  split : splitPath filename 16 = some comps
  held : (s.fds fd.toNat).node = some node
  atPath : AtPath s comps node

theorem redirect_performed {env : Env} {type : RedirType} {filename : Str} {redirFd : Int}
    {allocs : Nat → Bool} (hw : Wf s) (h : redirect env type filename redirFd allocs s = (fd, s'))
    (hfd : 0 ≤ fd) : ∃ canonical comps node, Performed env filename fd s' canonical comps node := by
  simp only [redirect] at h
  split at h
  · cases h
    cases hfd
  rename_i hvalid
  split at h
  · cases h
    cases hfd
  rename_i canonical hcanonical
  split at h
  · cases h
    cases hfd
  rename_i hallowed
  obtain ⟨hwf, comps, node, hsplit, hheld, hat⟩ :=
    openAndPrepare_atPath (wf_closeEarlier hw redirFd) h hfd
  have hgate : vfsProtectedModifyAllowed env.task canonical = true := by
    simpa only [Bool.not_eq_false] using hallowed
  refine ⟨canonical, comps, node, hwf, ?_, hcanonical, hgate, hsplit, hheld, hat⟩
  rintro rfl
  exact hvalid rfl

end Open

/-! ## The gate -/

/-- The node is a protected directory or below one. -/
def IsProtected (s : Ramfs.State) (node : Ramfs.NodeId) : Prop :=
  ∃ first rest, AtPath s (first :: rest) node ∧ first ∈ Vfs.protectedNames

/-- The gate has checked the file that was opened: the checked path names it, and it is not protected
unless the task may modify such files. -/
structure GateHolds (env : Env) (canonical : Str) (s : Ramfs.State) (node : Ramfs.NodeId) : Prop where
  named : ∃ names, splitPath canonical 16 = some names ∧ AtPath s names node
  unprotected : Vfs.hasSysAdmin env.task = false → ¬IsProtected s node

theorem eq_of_cut_protected {name : Str} (h : cut name ∈ Vfs.protectedNames) :
    name.map Vfs.downcase ∈ Vfs.protectedNames := by
  have hshort : ∀ w ∈ Vfs.protectedNames, w.length < 31 ∧ w.map Vfs.downcase = w := by decide
  have hlength := (hshort _ h).1
  rw [cut, length_take, maxName] at hlength
  have heq : cut name = name := take_of_length_le (by rw [maxName]; omega)
  rw [← heq, (hshort _ h).2]
  exact h

theorem not_protected_of_allowed (hplain : ∀ t ∈ stack, Plain t)
    (h : Vfs.vfsPathIsProtected (render stack) = false) :
    ∀ first rest, stack.map cut = first :: rest → first ∉ Vfs.protectedNames := by
  intro first rest heq hmem
  cases stack with
  | nil => cases heq
  | cons name names =>
    obtain rfl : cut name = first := (List.cons.inj heq).1
    have hprotected : Vfs.vfsPathIsProtected (join slash (name :: names)) = true :=
      (Vfs.vfsPathIsProtected_join (hplain name mem_cons_self).1.2).mpr (eq_of_cut_protected hmem)
    exact absurd hprotected (Bool.eq_false_iff.mp h)

/-- A redirection that is performed opens the file that was checked just if the target is faithful. -/
theorem redirection_opens_checked_file_iff {env : Env} (hdir : IsCurrentDir env.currentDir)
    {type : RedirType} {filename : Str} {redirFd : Int} {allocs : Nat → Bool} {s s' : Ramfs.State}
    {fd : Int} (hw : Wf s) (h : redirect env type filename redirFd allocs s = (fd, s'))
    (hfd : 0 ≤ fd) :
    ∃ canonical node, canonicalizePath env.currentDir filename maxPath = some canonical ∧
      (s'.fds fd.toNat).node = some node ∧
      (GateHolds env canonical s' node ↔ Faithful env.currentDir filename) := by
  obtain ⟨canonical, comps, node, hp⟩ := redirect_performed hw h hfd
  refine ⟨canonical, node, hp.checked, hp.held, ?_⟩
  obtain ⟨stack, hstack, rfl⟩ := Option.map_eq_some_iff.mp hp.checked
  have hplain := canonicalComponents_plain hstack
  obtain ⟨r, kids, ht⟩ := hp.wf.tree_of_atPath hp.atPath
  rw [faithful_iff hdir hstack hp.split, ← splitPath_render_iff hplain hp.split]
  constructor
  · intro hgate
    obtain ⟨names, hnames, hat⟩ := hgate.named
    rw [hp.atPath.unique ht hat]
    exact hnames
  · intro hsame
    refine ⟨⟨comps, hsame, hp.atPath⟩, fun hadmin hprotected => ?_⟩
    obtain ⟨first, rest, hat, hmem⟩ := hprotected
    have hallowed := hp.allowed
    rw [vfsProtectedModifyAllowed, hadmin, Bool.or_false, Bool.not_eq_true'] at hallowed
    have hcomps : stack.map cut = first :: rest := by
      rw [(splitPath_render_iff hplain hp.split).mp hsame, ← (splitPath_spec hp.split).1]
      exact hp.atPath.unique ht hat
    exact not_protected_of_allowed hplain hallowed first rest hcomps hmem

/-! ## A shell in /home -/

def home : Str := [104, 111, 109, 101]
def etc : Str := [101, 116, 99]

/-- The directories /etc and /home, open to all. -/
def sampleCalls : List Ramfs.Call :=
  [⟨none, .chmod (some [slash]) 0o777⟩,
    ⟨none, .mkdir (some (slash :: etc)) true⟩, ⟨none, .chmod (some (slash :: etc)) 0o777⟩,
    ⟨none, .mkdir (some (slash :: home)) true⟩, ⟨none, .chmod (some (slash :: home)) 0o777⟩]

def sampleDisk : Ramfs.State := Ramfs.runCalls (Ramfs.ramfsInit true) sampleCalls

theorem sampleDisk_wf : Wf sampleDisk :=
  runCalls_wf (ramfsInit_wf true) sampleCalls

/-- A user without capabilities, in /home. -/
def sampleEnv : Env where
  currentDir := slash :: home
  task := some ⟨1000, 0⟩
  cur := some ⟨5, 1, 1000, 1000, 1000, []⟩

theorem sampleEnv_currentDir : IsCurrentDir sampleEnv.currentDir where
  absolute := by decide
  plain := by
    unfold Plain IsToken
    decide

/-- The path /home/x. -/
def absoluteTarget : Str := slash :: home ++ [slash, 120]

/-- The path etc/x. -/
def relativeTarget : Str := etc ++ [slash, 120]

theorem redirection_opens_checked_file_sample :
    let r := redirect sampleEnv .output absoluteTarget (-1) (fun _ => true) sampleDisk
    ∃ canonical node, canonicalizePath sampleEnv.currentDir absoluteTarget maxPath = some canonical ∧
      (r.2.fds r.1.toNat).node = some node ∧
      (GateHolds sampleEnv canonical r.2 node ↔ Faithful sampleEnv.currentDir absoluteTarget) := by
  intro r
  have hr : redirect sampleEnv .output absoluteTarget (-1) (fun _ => true) sampleDisk = (r.1, r.2) :=
    (Prod.eta r).symm
  exact redirection_opens_checked_file_iff sampleEnv_currentDir sampleDisk_wf hr (by decide +kernel)

/-- In /home the redirection to etc/x is checked as /home/etc/x and opens /etc/x. -/
theorem relative_target_passes_the_gate :
    let r := redirect sampleEnv .output relativeTarget (-1) (fun _ => true) sampleDisk
    r.1 = 0 ∧ ∃ canonical node,
      canonicalizePath sampleEnv.currentDir relativeTarget maxPath = some canonical ∧
      (r.2.fds 0).node = some node ∧ Vfs.hasSysAdmin sampleEnv.task = false ∧ IsProtected r.2 node ∧
      ¬GateHolds sampleEnv canonical r.2 node := by
  intro r
  have hfd : r.1 = 0 := by decide +kernel
  have hr : redirect sampleEnv .output relativeTarget (-1) (fun _ => true) sampleDisk = (r.1, r.2) :=
    (Prod.eta r).symm
  obtain ⟨canonical, comps, node, hp⟩ := redirect_performed sampleDisk_wf hr (Int.le_of_eq hfd.symm)
  have hcomps : comps = [etc, [120]] := by
    have hsplit : splitPath relativeTarget 16 = some [etc, [120]] := by decide
    exact Option.some.inj (hp.split.symm.trans hsplit)
  have hprotected : IsProtected r.2 node :=
    ⟨etc, [[120]], hcomps ▸ hp.atPath, by decide⟩
  have hheld := hp.held
  have hadmin : Vfs.hasSysAdmin sampleEnv.task = false := rfl
  refine ⟨hfd, canonical, node, hp.checked, hheld, hadmin, hprotected, fun hgate => ?_⟩
  exact hgate.unprotected hadmin hprotected

end TinyOS.Shell
