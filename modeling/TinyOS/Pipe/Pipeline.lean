import TinyOS.Pipe.Wakeups

/-!
# Pipelines of the ring-3 shell

`run_pipeline` creates a pipe, spawns a producer whose standard output it is and a consumer
whose standard input it is, waits for the producer, closes the write end, waits for the
consumer and destroys the pipe. Nothing closes the read end when the consumer exits, so a
producer with more left than fits in the pipe waits for a reader that is gone, and the shell
waits for the producer. It does not come to that if the consumer reads often enough.
-/

namespace TinyOS.Pipe

open Lib List PipeBuffer Sys

/-- The command: what the producer writes, call by call, the sizes the consumer reads with, and
which of the system calls whose result the shell looks at succeed. -/
structure Command where
  writes : List Data
  reads : List { size : Nat // 0 < size }
  creates : Bool
  producerSpawns : Bool
  binds : Bool
  consumerSpawns : Bool

/-- The bytes the producer writes. -/
def Command.bytes (cmd : Command) : Nat := (cmd.writes.map fun d => d.val.length).sum

/-- There will be a consumer, if there is a producer. -/
def Command.hasConsumer (cmd : Command) : Bool := cmd.binds && cmd.consumerSpawns

/-- A process, with the calls it still has to make. `bound` says whether the stream it uses
was the pipe when it was spawned. -/
inductive Stage (α : Type)
  | absent
  | running (bound : Bool) (todo : List α)
  | exited

/-- Where the shell is in `run_pipeline`. `waitProducer` and `restore` remember whether there is
a consumer, `unbindStdout` whether there is a producer. -/
inductive ShellPc
  | create
  | spawnProducer
  | unbindStdout (producer : Bool)
  | restoreAbort
  | bindStdin
  | spawnConsumer
  | restore (consumer : Bool)
  | closeWriteAbort
  | waitProducer (consumer : Bool)
  | closeWrite
  | waitConsumer
  | destroy
  | done
deriving DecidableEq, Repr

structure Pipeline where
  sys : Sys
  shell : ShellPc
  /-- The streams of the shell itself: whether each is the pipe. -/
  stdinPipe : Bool
  stdoutPipe : Bool
  producer : Stage Data
  consumer : Stage { size : Nat // 0 < size }

namespace Pipeline

/-- The tasks of the two stages. -/
def producerTask : TaskId := 1

@[inherit_doc producerTask]
def consumerTask : TaskId := 2

def start : Pipeline where
  sys := .init
  shell := .create
  stdinPipe := false
  stdoutPipe := false
  producer := .absent
  consumer := .absent

/-- One system call of the shell. `waitpid` returns once the child has exited. -/
def shellStep (cmd : Command) (g : Pipeline) : Option Pipeline :=
  match g.shell with
  | .create =>
    if cmd.creates then some { g with stdoutPipe := true, shell := .spawnProducer }
    else some { g with shell := .done }
  | .spawnProducer =>
    if cmd.producerSpawns then
      some { g with
        producer := .running g.stdoutPipe cmd.writes
        shell := .unbindStdout true }
    else some { g with shell := .unbindStdout false }
  | .unbindStdout producer =>
    some { g with stdoutPipe := false, shell := if producer then .bindStdin else .restoreAbort }
  | .restoreAbort => some { g with stdinPipe := false, stdoutPipe := false, shell := .destroy }
  | .bindStdin =>
    if cmd.binds then some { g with stdinPipe := true, shell := .spawnConsumer }
    else some { g with shell := .restore false }
  | .spawnConsumer =>
    if cmd.consumerSpawns then
      some { g with
        consumer := .running g.stdinPipe cmd.reads
        shell := .restore true }
    else some { g with shell := .restore false }
  | .restore consumer =>
    some { g with
      stdinPipe := false
      stdoutPipe := false
      shell := if consumer then .waitProducer true else .closeWriteAbort }
  | .closeWriteAbort =>
    some { g with sys := g.sys.pipeCloseWrite, shell := .waitProducer false }
  | .waitProducer consumer =>
    match g.producer with
    | .exited => some { g with shell := if consumer then .closeWrite else .destroy }
    | _ => none
  | .closeWrite => some { g with sys := g.sys.pipeCloseWrite, shell := .waitConsumer }
  | .waitConsumer =>
    match g.consumer with
    | .exited => some { g with shell := .destroy }
    | _ => none
  | .destroy =>
    some { g with sys := g.sys.pipeCloseWrite.pipeCloseRead, shell := .done }
  | .done => none

/-- The producer goes on with the call it is in, begins the next one, or exits. -/
def producerStep (g : Pipeline) : Option Pipeline :=
  match g.producer with
  | .running bound todo =>
    if (g.sys.calls producerTask).isSome then
      (g.sys.run producerTask).map fun sys => { g with sys := sys }
    else
      match todo with
      | [] => some { g with producer := .exited }
      | data :: rest =>
        if bound then
          some { g with
            sys := g.sys.pipeWrite producerTask data
            producer := .running bound rest }
        else some { g with producer := .running bound rest }
  | _ => none

def consumerStep (g : Pipeline) : Option Pipeline :=
  match g.consumer with
  | .running bound todo =>
    if (g.sys.calls consumerTask).isSome then
      (g.sys.run consumerTask).map fun sys => { g with sys := sys }
    else
      match todo with
      | [] => some { g with consumer := .exited }
      | size :: rest =>
        if bound then
          some { g with
            sys := g.sys.pipeRead consumerTask size
            consumer := .running bound rest }
        else some { g with consumer := .running bound rest }
  | _ => none

end Pipeline

/-- Who moves next. -/
inductive Actor
  | shell
  | producer
  | consumer
deriving DecidableEq, Repr

namespace Pipeline

def step (cmd : Command) (g : Pipeline) : Actor → Option Pipeline
  | .shell => g.shellStep cmd
  | .producer => g.producerStep
  | .consumer => g.consumerStep

abbrev Steps (cmd : Command) (g : Pipeline) (a : Actor) (g' : Pipeline) : Prop :=
  g.step cmd a = some g'

/-- The process has something left to do. -/
def Unfinished (g : Pipeline) : Actor → Prop
  | .shell => g.shell ≠ .done
  | .producer => ∃ bound todo, g.producer = .running bound todo
  | .consumer => ∃ bound todo, g.consumer = .running bound todo

/-- Somebody has something left to do, and nobody can do anything. -/
def Deadlocked (cmd : Command) (g : Pipeline) : Prop :=
  (∃ a, g.Unfinished a) ∧ ∀ a, g.step cmd a = none

end Pipeline

/-- What the consumer does not read fits in the pipe, even if each of its reads returns a single
byte. -/
def Command.ReadsEnough (cmd : Command) : Prop :=
  cmd.bytes ≤ pipeBufferSize + if cmd.hasConsumer then cmd.reads.length else 0

/-! ## What one call does -/

/-- The bytes a write in progress has not stored yet. -/
def unwritten : Option Call → Nat
  | some (.write _ data total) => data.val.length - total
  | _ => 0

/-- Whether a read is in progress. -/
def pending : Option Call → Nat
  | some (.read _ _) => 1
  | _ => 0

@[simp] theorem unwritten_none : unwritten none = 0 := rfl

@[simp] theorem pending_none : pending none = 0 := rfl

namespace Sys

variable {s : Sys} {t : TaskId} {id : CallId} {data : Data} {total size : Nat}

/-- What a turn of a call leaves alone. -/
structure Minds (s : Sys) (t : TaskId) (s' : Sys) : Prop where
  others : ∀ u, u ≠ t → s'.calls u = s.calls u
  writeClosed : s'.pipe.writeClosed = s.pipe.writeClosed
  readClosed : s'.pipe.readClosed = s.pipe.readClosed

/-- While the read end is open, a turn of a write loses no byte. -/
theorem writeTurn_effect (hcall : s.calls t = some (.write id data total))
    (hle : total ≤ data.val.length) (hallocated : s.pipe.allocated = true)
    (hopen : s.pipe.readClosed = false) :
    Minds s t (s.writeTurn t id data total) ∧
      (s.writeTurn t id data total).removedBytes = s.removedBytes ∧
      ((s.writeTurn t id data total).calls t = none ∨
        ∃ total', (s.writeTurn t id data total).calls t = some (.write id data total')) ∧
      (s.writeTurn t id data total).storedBytes.length +
        unwritten ((s.writeTurn t id data total).calls t) =
        s.storedBytes.length + unwritten (s.calls t) := by
  unfold writeTurn
  split
  · unfold writePass
    rw [if_neg (by simp [hallocated, hopen])]
    split
    · -- the pipe is full, and the call stays where it is
      exact ⟨⟨fun _ _ => rfl, rfl, rfl⟩, rfl, Or.inr ⟨total, hcall⟩, rfl⟩
    have hflags := store_flags s.pipe
    refine ⟨⟨fun u hu => setCall_ne _ hu _, (hflags _).writeClosed, (hflags _).readClosed⟩, rfl,
      Or.inr ⟨_, setCall_self _ t _⟩, ?_⟩
    dsimp only
    generalize hn : (if data.val.length - total < pipeBufferSize - s.pipe.dataSize then
      data.val.length - total else pipeBufferSize - s.pipe.dataSize) = n
    have hfew : n ≤ data.val.length - total := by
      rw [← hn]
      split <;> omega
    have hstored : (s.putChunk id ((data.val.drop total).take n)).storedBytes.length =
        s.storedBytes.length + n := by
      simp only [storedBytes, putChunk, flatMap_append, length_append,
        flatMap_cons, flatMap_nil, append_nil, length_take, length_drop]
      omega
    show (s.putChunk id ((data.val.drop total).take n)).storedBytes.length +
      unwritten ((Sys.setCall _ t _).calls t) = _
    rw [hstored, setCall_self, hcall, unwritten, unwritten]
    omega
  · have hall : total = data.val.length := by omega
    refine ⟨⟨fun u hu => setCall_ne _ hu _, rfl, rfl⟩, rfl, Or.inl (setCall_self _ t _), ?_⟩
    show s.storedBytes.length + unwritten ((s.setCall t none).calls t) = _
    rw [setCall_self, hcall, unwritten, hall, unwritten_none]
    omega

/-- While the write end is open, a read that is over has removed a byte. -/
theorem readPass_effect (hcall : s.calls t = some (.read id size)) (hsize : 0 < size)
    (hvalid : s.pipe.Valid) (hallocated : s.pipe.allocated = true) :
    Minds s t (s.readPass t id size) ∧
      (s.readPass t id size).storedBytes = s.storedBytes ∧
      ((s.readPass t id size).calls t = none ∨
        (s.readPass t id size).calls t = some (.read id size)) ∧
      (s.pipe.writeClosed = false →
        s.removedBytes.length + pending (s.calls t) ≤
          (s.readPass t id size).removedBytes.length +
            pending ((s.readPass t id size).calls t)) := by
  unfold readPass
  split
  · next heof =>
    refine ⟨⟨fun u hu => setCall_ne _ hu _, rfl, rfl⟩, rfl, Or.inl (setCall_self _ t _), ?_⟩
    intro hopen
    simp [hallocated, hopen] at heof
  split
  · have hflags := load_flags hvalid
      (n := if size < s.pipe.dataSize then size else s.pipe.dataSize)
    refine ⟨⟨fun u hu => setCall_ne _ hu _, hflags.writeClosed, hflags.readClosed⟩, rfl,
      Or.inl (setCall_self _ t _), fun _ => ?_⟩
    dsimp only
    generalize hn : (if size < s.pipe.dataSize then size else s.pipe.dataSize) = n
    have hpos : 0 < n ∧ n ≤ s.pipe.dataSize := by
      rw [← hn]
      split <;> omega
    have hremoved : (s.takeChunk id n).removedBytes.length = s.removedBytes.length + n := by
      simp only [removedBytes, takeChunk, flatMap_append, length_append,
        flatMap_cons, flatMap_nil, append_nil, load_fst hvalid hpos.2,
        length_take, length_contents]
      omega
    show _ ≤ (s.takeChunk id n).removedBytes.length +
      pending ((((s.takeChunk id n).wake .writers).setCall t none).calls t)
    rw [hremoved, setCall_self, hcall, pending, pending_none]
    omega
  · exact ⟨⟨fun _ _ => rfl, rfl, rfl⟩, rfl, Or.inr hcall, fun _ => le_rfl⟩

end Sys

/-! ## What holds along every run -/

def Stage.todo {α : Type} : Stage α → List α
  | .running _ todo => todo
  | _ => []

def Stage.isRunning {α : Type} : Stage α → Bool
  | .running _ _ => true
  | _ => false

namespace Pipeline

/-- Neither end of the pipe is closed. -/
def Open (g : Pipeline) : Prop := g.sys.pipe.writeClosed = false ∧ g.sys.pipe.readClosed = false

/-- What holds at each point of `run_pipeline`. -/
def Phase (cmd : Command) (g : Pipeline) : Prop :=
  match g.shell with
  | .create => g.producer = .absent ∧ g.consumer = .absent ∧ g.Open
  | .spawnProducer =>
    g.producer = .absent ∧ g.consumer = .absent ∧ g.Open ∧ g.stdoutPipe = true
  | .unbindStdout true => g.producer ≠ .absent ∧ g.consumer = .absent ∧ g.Open
  | .unbindStdout false => g.producer = .absent ∧ g.consumer = .absent ∧ g.Open
  | .restoreAbort => g.producer = .absent ∧ g.consumer = .absent ∧ g.Open
  | .bindStdin => g.producer ≠ .absent ∧ g.consumer = .absent ∧ g.Open
  | .spawnConsumer =>
    g.producer ≠ .absent ∧ g.consumer = .absent ∧ g.Open ∧ g.stdinPipe = true
  | .restore true => g.producer ≠ .absent ∧ g.consumer ≠ .absent ∧ g.Open
  | .restore false =>
    g.producer ≠ .absent ∧ g.consumer = .absent ∧ g.Open ∧ cmd.hasConsumer = false
  | .closeWriteAbort =>
    g.producer ≠ .absent ∧ g.consumer = .absent ∧ g.Open ∧ cmd.hasConsumer = false
  | .waitProducer true => g.producer ≠ .absent ∧ g.consumer ≠ .absent ∧ g.Open
  | .waitProducer false =>
    g.producer ≠ .absent ∧ g.consumer = .absent ∧ g.sys.pipe.readClosed = false ∧ cmd.hasConsumer = false
  | .closeWrite => g.producer = .exited ∧ g.consumer ≠ .absent ∧ g.Open
  | .waitConsumer =>
    g.producer = .exited ∧ g.consumer ≠ .absent ∧ g.sys.pipe.writeClosed = true ∧
      g.sys.pipe.readClosed = false
  | .destroy => g.producer.isRunning = false ∧ g.consumer.isRunning = false ∧
      g.sys.pipe.readClosed = false
  | .done => g.producer.isRunning = false ∧ g.consumer.isRunning = false

/-- One task writes and one task reads. -/
structure Duo (s : Sys) : Prop where
  lossless : Lossless s
  served : Served s
  writer : ∀ t id data total, s.calls t = some (.write id data total) → t = producerTask
  reader : ∀ t id size, s.calls t = some (.read id size) → t = consumerTask ∧ 0 < size

structure Inv (cmd : Command) (g : Pipeline) : Prop where
  duo : Duo g.sys
  phase : Phase cmd g
  producerBound : ∀ bound todo, g.producer = .running bound todo → bound = true
  consumerBound : ∀ bound todo, g.consumer = .running bound todo → bound = true
  producerIdle : g.producer.isRunning = false → g.sys.calls producerTask = none
  consumerIdle : g.consumer.isRunning = false → g.sys.calls consumerTask = none
  unstarted : g.producer = .absent → g.sys.storedBytes = []
  written : g.producer.isRunning = true →
    g.sys.storedBytes.length + unwritten (g.sys.calls producerTask) +
      (g.producer.todo.map fun d => d.val.length).sum = cmd.bytes
  taken : g.consumer ≠ .absent → g.sys.pipe.writeClosed = false →
    cmd.reads.length ≤ g.sys.removedBytes.length + pending (g.sys.calls consumerTask) +
      g.consumer.todo.length

namespace Duo

variable {s s' : Sys} {t : TaskId}

theorem full_of_asleep (h : Duo s) {id : CallId} {data : Data} {total : Nat}
    (hcall : s.calls producerTask = some (.write id data total))
    (hsleep : s.waits.asleep producerTask = true) :
    s.pipe.dataSize = pipeBufferSize ∧ total < data.val.length := by
  obtain ⟨q, hin⟩ := (h.served.consistent.asleep_iff _).mp hsleep
  have hwaiting := h.served.members q _ hin
  cases q with
  | readers =>
    obtain ⟨id', size, hc⟩ := hwaiting
    rw [hcall] at hc
    cases hc
  | writers =>
    obtain ⟨id', data', total', hc, hlt⟩ := hwaiting
    rw [hcall] at hc
    cases hc
    have hle := h.lossless.valid.size_le
    by_contra hne
    -- then another writer would be coming, but there is no other
    have hready : s.pipe.Ready .writers := show s.pipe.dataSize < pipeBufferSize by omega
    obtain ⟨u, ⟨_, _, _, hu, -⟩, hawake, -⟩ :=
      (h.served.served .writers (ne_nil_of_mem hin)).2 hready
    rw [h.writer u _ _ _ hu, hsleep] at hawake
    cases hawake

/-- A reader that sleeps does so on an empty pipe whose write end is open. -/
theorem empty_of_asleep (h : Duo s) {id : CallId} {size : Nat}
    (hcall : s.calls consumerTask = some (.read id size))
    (hsleep : s.waits.asleep consumerTask = true) :
    s.pipe.dataSize = 0 ∧ s.pipe.writeClosed = false := by
  obtain ⟨q, hin⟩ := (h.served.consistent.asleep_iff _).mp hsleep
  have hwaiting := h.served.members q _ hin
  cases q with
  | writers =>
    obtain ⟨id', data, total, hc, -⟩ := hwaiting
    rw [hcall] at hc
    cases hc
  | readers =>
    obtain ⟨hopen, hcoming⟩ := h.served.served .readers (ne_nil_of_mem hin)
    refine ⟨?_, hopen⟩
    by_contra hne
    have hready : s.pipe.Ready .readers := Nat.pos_of_ne_zero hne
    obtain ⟨u, ⟨_, _, hu⟩, hawake, -⟩ := hcoming hready
    rw [(h.reader u _ _ hu).1, hsleep] at hawake
    cases hawake

/-- With one task on each side nobody else of a side is asleep when one of it runs. -/
theorem thorough (h : Duo s) (hawake : s.waits.asleep t = false) : Thorough s (.run t) := by
  have hnil : ∀ q, Waiting s t q → s.waits.queue q = [] := by
    intro q hw
    apply eq_nil_iff_forall_not_mem.mpr
    intro u hu
    have hut : u = t := by
      have huw := h.served.members q u hu
      cases q with
      | readers =>
        obtain ⟨_, _, hc⟩ := hw
        obtain ⟨_, _, hcu⟩ := huw
        exact (h.reader _ _ _ hcu).1.trans (h.reader _ _ _ hc).1.symm
      | writers =>
        obtain ⟨_, _, _, hc, -⟩ := hw
        obtain ⟨_, _, _, hcu, -⟩ := huw
        exact (h.writer _ _ _ _ hcu).trans (h.writer _ _ _ _ hc).symm
    exact h.served.notMem_of_awake hawake (hut ▸ hu)
  simp only [Thorough]
  split
  · next id size hc => exact fun _ => hnil .readers ⟨id, size, hc⟩
  · next id data total hc => exact fun hlt _ => hnil .writers ⟨id, data, total, hc, hlt⟩
  · trivial

end Duo

namespace Duo

variable {s s' : Sys} {e : Event}

theorem init : Duo Sys.init where
  lossless := Lossless.init
  served := Served.init
  writer t id data total h := by cases h
  reader t id size h := by cases h

theorem step (h : Duo s) (hguard : Thorough s e) (hstep : s.Steps e s')
    (hcalls : ∀ u c, s'.calls u = some c → s.calls u = some c ∨
      (u = producerTask ∧ ∃ id data total, c = .write id data total) ∨
      (u = consumerTask ∧ ∃ id size, c = .read id size ∧ 0 < size)) : Duo s' where
  lossless := (Keeps.step h.lossless hstep).1
  served := h.served.step h.lossless.valid hguard hstep
  writer t id data total hc := by
    rcases hcalls t _ hc with hold | ⟨ht, -⟩ | ⟨-, _, _, hread, -⟩
    · exact h.writer t id data total hold
    · exact ht
    · cases hread
  reader t id size hc := by
    rcases hcalls t _ hc with hold | ⟨-, _, _, _, hwrite⟩ | ⟨ht, _, _, hread, hpos⟩
    · exact h.reader t id size hold
    · cases hwrite
    · cases hread
      exact ⟨ht, hpos⟩

theorem calls_of_minds {t : TaskId} (hminds : Sys.Minds s t s') {P : TaskId → Call → Prop}
    (hown : ∀ c, s'.calls t = some c → P t c) (u : TaskId) (c : Call) (hc : s'.calls u = some c) :
    s.calls u = some c ∨ P u c := by
  by_cases hu : u = t
  · subst hu
    exact Or.inr (hown c hc)
  · rw [hminds.others u hu] at hc
    exact Or.inl hc

end Duo

/-! ### The steps of the stages -/

section steps

variable {cmd : Command} {g g' : Pipeline}

theorem Inv.start (cmd : Command) : Inv cmd start where
  duo := Duo.init
  phase := ⟨rfl, rfl, rfl, rfl⟩
  producerBound bound todo h := by cases h
  consumerBound bound todo h := by cases h
  producerIdle _ := rfl
  consumerIdle _ := rfl
  unstarted _ := rfl
  written h := by cases h
  taken h := absurd rfl h

theorem Phase.readOpen (h : Phase cmd g) (hrunning : g.producer.isRunning = true) :
    g.sys.pipe.readClosed = false := by
  simp only [Phase] at h
  split at h <;> simp_all [Open]

/-- A step of a stage that was running and does not vanish changes no fact about the shell. -/
theorem Phase.producer (h : Phase cmd g) (hrunning : g.producer.isRunning = true)
    {sys : Sys} (hminds : Sys.Minds g.sys producerTask sys) {st : Stage Data} (hst : st ≠ .absent) :
    Phase cmd { g with sys := sys, producer := st } := by
  have habsent : g.producer ≠ .absent := by
    intro heq
    rw [heq] at hrunning
    cases hrunning
  have hexited : g.producer ≠ .exited := by
    intro heq
    rw [heq] at hrunning
    cases hrunning
  simp only [Phase, Open, hminds.writeClosed, hminds.readClosed] at h ⊢
  split at h <;> simp_all

theorem Phase.consumer (h : Phase cmd g) (hrunning : g.consumer.isRunning = true)
    {sys : Sys} (hminds : Sys.Minds g.sys consumerTask sys)
    {st : Stage { size : Nat // 0 < size }} (hst : st ≠ .absent) :
    Phase cmd { g with sys := sys, consumer := st } := by
  have habsent : g.consumer ≠ .absent := by
    intro heq
    rw [heq] at hrunning
    cases hrunning
  simp only [Phase, Open, hminds.writeClosed, hminds.readClosed] at h ⊢
  split at h <;> simp_all

variable (h : Inv cmd g)

include h

theorem Inv.of_producer (hrunning : g.producer.isRunning = true) {e : Event} {sys : Sys}
    {bound : Bool} {todo : List Data} (hbound : bound = true) (hguard : Thorough g.sys e)
    (hstep : g.sys.Steps e sys) (hminds : Sys.Minds g.sys producerTask sys)
    (hown : sys.calls producerTask = none ∨
      ∃ id data total, sys.calls producerTask = some (.write id data total))
    (hremoved : sys.removedBytes = g.sys.removedBytes)
    (hwritten : sys.storedBytes.length + unwritten (sys.calls producerTask) +
      (todo.map fun d => d.val.length).sum = cmd.bytes) :
    Inv cmd { g with sys := sys, producer := .running bound todo } := by
  have hconsumer : sys.calls consumerTask = g.sys.calls consumerTask :=
    hminds.others consumerTask (by decide)
  constructor
  · refine h.duo.step hguard hstep (Duo.calls_of_minds hminds fun c hc => ?_)
    rcases hown with hnone | ⟨id, data, total, hwrite⟩
    · rw [hnone] at hc
      cases hc
    · rw [hwrite] at hc
      cases hc
      exact Or.inl ⟨rfl, id, data, total, rfl⟩
  · exact h.phase.producer hrunning hminds (by simp)
  · intro b td heq
    cases heq
    exact hbound
  · exact h.consumerBound
  · intro hnot
    cases hnot
  · exact fun hnot => hconsumer.trans (h.consumerIdle hnot)
  · exact fun hnot => by cases hnot
  · exact fun _ => hwritten
  · intro hpresent hopen
    rw [hremoved, hconsumer]
    exact h.taken hpresent (hminds.writeClosed ▸ hopen)

theorem Inv.after_producer (hstep : g.producerStep = some g') : Inv cmd g' := by
  have hrunning {bound : Bool} {todo : List Data} (hstage : g.producer = .running bound todo) :
      g.producer.isRunning = true := by rw [hstage]; rfl
  revert hstep
  fun_cases producerStep g <;> intro hstep
  case case1 bound todo hstage hbusy =>
    -- a turn of the write in progress
    rw [hstage] at hstep
    obtain ⟨sys, hrun, rfl⟩ := Option.map_eq_some_iff.mp hstep
    have hwritten := h.written (hrunning hstage)
    rw [hstage, Stage.todo] at hwritten
    obtain ⟨⟨id, data, total⟩ | ⟨id, size⟩, hcall⟩ := Option.isSome_iff_exists.mp hbusy
    · have hawake : g.sys.waits.asleep producerTask = false := by
        by_contra hne
        simp [run, hne] at hrun
      have hsys : g.sys.writeTurn producerTask id data total = sys := by
        simpa [run, hawake, hcall] using hrun
      have hle := (h.duo.lossless.calls _ _ hcall).2.1
      obtain ⟨hminds, hremoved, hown, hcount⟩ := writeTurn_effect hcall hle
        h.duo.lossless.allocated (h.phase.readOpen (hrunning hstage))
      rw [hsys] at hminds hremoved hown hcount
      refine h.of_producer (hrunning hstage) (h.producerBound bound todo hstage)
        (h.duo.thorough hawake) hrun hminds ?_ hremoved ?_
      · rcases hown with hnone | ⟨total', hwrite⟩
        · exact Or.inl hnone
        · exact Or.inr ⟨id, data, total', hwrite⟩
      · omega
    · exact absurd (h.duo.reader _ _ _ hcall).1 (by decide)
  case case2 bound hidle hstage =>
    -- nothing is left to write: the producer exits
    cases hstep
    exact { h with
      phase := h.phase.producer (hrunning hstage) ⟨fun _ _ => rfl, rfl, rfl⟩ (by simp)
      producerBound := fun b td heq => by cases heq
      producerIdle := fun _ => by simpa using hidle
      unstarted := fun hnot => by cases hnot
      written := fun hnot => by cases hnot }
  case case3 hidle data rest hstage =>
    -- the next write begins
    cases hstep
    have hcall : g.sys.calls producerTask = none := by simpa using hidle
    have hwritten := h.written (hrunning hstage)
    have hbegins : g.sys.pipeWrite producerTask data =
        ({ g.sys with nextId := g.sys.nextId + 1 } : Sys).setCall producerTask
          (some (.write g.sys.nextId data 0)) := by
      simp [pipeWrite, h.phase.readOpen (hrunning hstage), h.duo.lossless.capture,
        h.duo.lossless.allocated]
    refine h.of_producer (hrunning hstage) (e := .write producerTask data) rfl trivial ?_ ?_ ?_ ?_ ?_
    · show g.sys.step _ = _
      simp only [Sys.step, hcall, Option.isNone_none, if_true]
    · rw [hbegins]
      exact ⟨fun u hu => Sys.setCall_ne _ hu _, rfl, rfl⟩
    · rw [hbegins]
      exact Or.inr ⟨_, _, _, setCall_self _ _ _⟩
    · rw [hbegins]
      rfl
    · rw [hbegins, setCall_self, unwritten, Nat.sub_zero]
      rw [hstage, hcall, unwritten_none, Stage.todo, map_cons, sum_cons] at hwritten
      show g.sys.storedBytes.length + _ + _ = _
      omega
  case case4 hstage => exact absurd (h.producerBound _ _ hstage) ‹_›
  case case5 => cases hstep

theorem Inv.of_consumer (hrunning : g.consumer.isRunning = true) {e : Event} {sys : Sys}
    {bound : Bool} {todo : List { size : Nat // 0 < size }} (hbound : bound = true)
    (hguard : Thorough g.sys e) (hstep : g.sys.Steps e sys)
    (hminds : Sys.Minds g.sys consumerTask sys)
    (hown : sys.calls consumerTask = none ∨
      ∃ id size, sys.calls consumerTask = some (.read id size) ∧ 0 < size)
    (hstored : sys.storedBytes = g.sys.storedBytes)
    (htaken : g.sys.pipe.writeClosed = false →
      cmd.reads.length ≤ sys.removedBytes.length + pending (sys.calls consumerTask) + todo.length) :
    Inv cmd { g with sys := sys, consumer := .running bound todo } := by
  have hproducer : sys.calls producerTask = g.sys.calls producerTask :=
    hminds.others producerTask (by decide)
  constructor
  · refine h.duo.step hguard hstep (Duo.calls_of_minds hminds fun c hc => ?_)
    rcases hown with hnone | ⟨id, size, hread, hpos⟩
    · rw [hnone] at hc
      cases hc
    · rw [hread] at hc
      cases hc
      exact Or.inr ⟨rfl, id, size, rfl, hpos⟩
  · exact h.phase.consumer hrunning hminds (by simp)
  · exact h.producerBound
  · intro b td heq
    cases heq
    exact hbound
  · exact fun hnot => hproducer.trans (h.producerIdle hnot)
  · intro hnot
    cases hnot
  · exact fun habsent => hstored.trans (h.unstarted habsent)
  · intro hrun
    rw [hstored, hproducer]
    exact h.written hrun
  · exact fun _ hopen => htaken (hminds.writeClosed ▸ hopen)

theorem Inv.after_consumer (hstep : g.consumerStep = some g') : Inv cmd g' := by
  have hrunning {bound : Bool} {todo : List { size : Nat // 0 < size }}
      (hstage : g.consumer = .running bound todo) :
      g.consumer.isRunning = true ∧ g.consumer ≠ .absent := by
    rw [hstage]
    exact ⟨rfl, nofun⟩
  revert hstep
  fun_cases consumerStep g <;> intro hstep
  case case1 bound todo hstage hbusy =>
    -- a turn of the read in progress
    rw [hstage] at hstep
    obtain ⟨sys, hrun, rfl⟩ := Option.map_eq_some_iff.mp hstep
    have htaken := h.taken (hrunning hstage).2
    rw [hstage, Stage.todo] at htaken
    obtain ⟨⟨id, data, total⟩ | ⟨id, size⟩, hcall⟩ := Option.isSome_iff_exists.mp hbusy
    · exact absurd (h.duo.writer _ _ _ _ hcall) (by decide)
    · have hawake : g.sys.waits.asleep consumerTask = false := by
        by_contra hne
        simp [run, hne] at hrun
      have hsys : g.sys.readPass consumerTask id size = sys := by
        simpa [run, hawake, hcall] using hrun
      have hpos := (h.duo.reader _ _ _ hcall).2
      obtain ⟨hminds, hstored, hown, hcount⟩ :=
        readPass_effect hcall hpos h.duo.lossless.valid h.duo.lossless.allocated
      rw [hsys] at hminds hstored hown hcount
      refine h.of_consumer (hrunning hstage).1 (h.consumerBound bound todo hstage)
        (h.duo.thorough hawake) hrun hminds ?_ hstored ?_
      · rcases hown with hnone | hread
        · exact Or.inl hnone
        · exact Or.inr ⟨id, size, hread, hpos⟩
      · intro hopen
        have hleft := htaken hopen
        have hmore := hcount hopen
        omega
  case case2 bound hidle hstage =>
    -- no read is left: the consumer exits
    cases hstep
    have htaken := h.taken (hrunning hstage).2
    rw [hstage] at htaken
    exact { h with
      phase := h.phase.consumer (hrunning hstage).1 ⟨fun _ _ => rfl, rfl, rfl⟩ (by simp)
      consumerBound := fun b td heq => by cases heq
      consumerIdle := fun _ => by simpa using hidle
      taken := fun _ => htaken }
  case case3 hidle size rest hstage =>
    -- the next read begins
    cases hstep
    have hcall : g.sys.calls consumerTask = none := by simpa using hidle
    have hbegins : g.sys.pipeRead consumerTask size =
        ({ g.sys with nextId := g.sys.nextId + 1 } : Sys).setCall consumerTask
          (some (.read g.sys.nextId size)) := by
      simp [pipeRead, h.duo.lossless.allocated]
    refine h.of_consumer (hrunning hstage).1 (e := .read consumerTask size) rfl trivial ?_ ?_ ?_ ?_ ?_
    · show g.sys.step _ = _
      simp only [Sys.step, hcall, Option.isNone_none, if_true]
    · rw [hbegins]
      exact ⟨fun u hu => Sys.setCall_ne _ hu _, rfl, rfl⟩
    · rw [hbegins]
      exact Or.inr ⟨_, _, setCall_self _ _ _, size.property⟩
    · rw [hbegins]
      rfl
    · intro hopen
      have hleft := h.taken (hrunning hstage).2 hopen
      rw [hbegins, setCall_self, pending]
      rw [hstage, hcall, pending_none, Stage.todo, length_cons] at hleft
      show _ ≤ g.sys.removedBytes.length + 1 + rest.length
      omega
  case case4 hstage => exact absurd (h.consumerBound _ _ hstage) ‹_›
  case case5 => cases hstep

/-! ### The steps of the shell -/

/-- The shell does something that touches neither the pipe nor a stage. -/
theorem Inv.of_shell {pc : ShellPc} {stdin stdout : Bool}
    (hphase : Phase cmd { g with shell := pc, stdinPipe := stdin, stdoutPipe := stdout }) :
    Inv cmd { g with shell := pc, stdinPipe := stdin, stdoutPipe := stdout } :=
  { h with phase := hphase }

theorem Inv.closeWrite {pc : ShellPc}
    (hphase : Phase cmd { g with sys := g.sys.pipeCloseWrite, shell := pc }) :
    Inv cmd { g with sys := g.sys.pipeCloseWrite, shell := pc } := by
  refine { h with
    duo := h.duo.step (e := .closeWrite) trivial rfl fun u c hc => Or.inl hc
    phase := hphase
    taken := fun _ hopen => ?_ }
  cases hopen

theorem Inv.after_shell (hstep : g.shellStep cmd = some g') : Inv cmd g' := by
  have hphase := h.phase
  rcases hpc : g.shell with _ | _ | (_ | _) | _ | _ | _ | (_ | _) | _ | (_ | _) | _ | _ | _ | _ <;>
    simp only [shellStep, Phase, hpc] at hstep hphase
  case create =>
    obtain ⟨hp, hc, hopen⟩ := hphase
    split at hstep
    · cases hstep
      exact h.of_shell ⟨hp, hc, hopen, rfl⟩
    cases hstep
    exact h.of_shell ⟨by rw [hp]; rfl, by rw [hc]; rfl⟩
  case spawnProducer =>
    obtain ⟨hp, hc, hopen, hstdout⟩ := hphase
    split at hstep
    · -- the producer inherits the pipe as its standard output
      cases hstep
      refine { h with
        phase := ⟨by simp, hc, hopen⟩
        producerBound := fun bound todo heq => by cases heq; exact hstdout
        producerIdle := fun hnot => by cases hnot
        unstarted := fun hnot => by cases hnot
        written := fun _ => ?_ }
      rw [h.unstarted hp, h.producerIdle (by rw [hp]; rfl)]
      exact Nat.zero_add _
    · cases hstep
      exact h.of_shell ⟨hp, hc, hopen⟩
  case restoreAbort =>
    obtain ⟨hp, hc, hopen⟩ := hphase
    cases hstep
    exact h.of_shell ⟨by rw [hp]; rfl, by rw [hc]; rfl, hopen.2⟩
  case bindStdin =>
    obtain ⟨hp, hc, hopen⟩ := hphase
    split at hstep
    · cases hstep
      exact h.of_shell ⟨hp, hc, hopen, rfl⟩
    next hbinds =>
    cases hstep
    refine h.of_shell ⟨hp, hc, hopen, ?_⟩
    simp [Command.hasConsumer, hbinds]
  case spawnConsumer =>
    obtain ⟨hp, hc, hopen, hstdin⟩ := hphase
    split at hstep
    · -- the consumer inherits the pipe as its standard input
      cases hstep
      refine { h with
        phase := ⟨hp, by simp, hopen⟩
        consumerBound := fun bound todo heq => by cases heq; exact hstdin
        consumerIdle := fun hnot => by cases hnot
        taken := fun _ _ => ?_ }
      exact Nat.le_add_left _ _
    · next hspawns =>
      cases hstep
      refine h.of_shell ⟨hp, hc, hopen, ?_⟩
      simp [Command.hasConsumer, hspawns]
  case closeWriteAbort =>
    obtain ⟨hp, hc, hopen, hnone⟩ := hphase
    cases hstep
    exact h.closeWrite ⟨hp, hc, hopen.2, hnone⟩
  case waitProducer.true =>
    split at hstep
    · next hexited =>
      cases hstep
      exact h.of_shell ⟨hexited, hphase.2⟩
    · cases hstep
  case waitProducer.false =>
    obtain ⟨-, hc, hopen, -⟩ := hphase
    split at hstep
    · next hexited =>
      cases hstep
      exact h.of_shell ⟨by rw [hexited]; rfl, by rw [hc]; rfl, hopen⟩
    · cases hstep
  case closeWrite =>
    obtain ⟨hp, hc, hopen⟩ := hphase
    cases hstep
    exact h.closeWrite ⟨hp, hc, rfl, hopen.2⟩
  case waitConsumer =>
    obtain ⟨hp, -, -, hopen⟩ := hphase
    split at hstep
    · next hexited =>
      cases hstep
      exact h.of_shell ⟨by rw [hp]; rfl, by rw [hexited]; rfl, hopen⟩
    · cases hstep
  case destroy =>
    obtain ⟨hp, hc, -⟩ := hphase
    cases hstep
    have hclosed : Duo g.sys.pipeCloseWrite :=
      h.duo.step (e := .closeWrite) trivial rfl fun u c hcall => Or.inl hcall
    refine { h with
      duo := hclosed.step (e := .closeRead) trivial rfl fun u c hcall => Or.inl hcall
      phase := ⟨hp, hc⟩
      taken := fun _ hopen => ?_ }
    cases hopen
  case done => cases hstep
  -- the shell only takes back what it did to its own streams
  all_goals
    cases hstep
    exact h.of_shell hphase

end steps

/-! ### Nobody is stuck -/

section stuck

variable {cmd : Command} {g : Pipeline}

theorem producer_asleep (h : Inv cmd g) (hrunning : g.producer.isRunning = true)
    (hstuck : g.producerStep = none) :
    ∃ id data total, g.sys.calls producerTask = some (.write id data total) ∧
      g.sys.waits.asleep producerTask = true := by
  revert hstuck
  fun_cases producerStep g <;> intro hstuck
  case case1 hbusy =>
    have hrun := Option.map_eq_none_iff.mp hstuck
    obtain ⟨⟨id, data, total⟩ | ⟨id, size⟩, hcall⟩ := Option.isSome_iff_exists.mp hbusy
    · refine ⟨id, data, total, hcall, ?_⟩
      by_contra hne
      simp [run, hcall, hne] at hrun
    · exact absurd (h.duo.reader _ _ _ hcall).1 (by decide)
  case case5 hnot =>
    cases hstage : g.producer with
    | running bound todo => exact (hnot _ _ hstage).elim
    | absent | exited =>
      rw [hstage] at hrunning
      cases hrunning
  all_goals cases hstuck

theorem consumer_asleep (h : Inv cmd g) (hrunning : g.consumer.isRunning = true)
    (hstuck : g.consumerStep = none) :
    ∃ id size, g.sys.calls consumerTask = some (.read id size) ∧
      g.sys.waits.asleep consumerTask = true := by
  revert hstuck
  fun_cases consumerStep g <;> intro hstuck
  case case1 hbusy =>
    have hrun := Option.map_eq_none_iff.mp hstuck
    obtain ⟨⟨id, data, total⟩ | ⟨id, size⟩, hcall⟩ := Option.isSome_iff_exists.mp hbusy
    · exact absurd (h.duo.writer _ _ _ _ hcall) (by decide)
    · refine ⟨id, size, hcall, ?_⟩
      by_contra hne
      simp [run, hcall, hne] at hrun
  case case5 hnot =>
    cases hstage : g.consumer with
    | running bound todo => exact (hnot _ _ hstage).elim
    | absent | exited =>
      rw [hstage] at hrunning
      cases hrunning
  all_goals cases hstuck

/-- The producer is stuck only with more left than fits behind what was removed. -/
theorem bytes_of_stuck_producer (h : Inv cmd g) (hrunning : g.producer.isRunning = true)
    (hstuck : g.producerStep = none) :
    g.sys.pipe.dataSize = pipeBufferSize ∧
      pipeBufferSize + g.sys.removedBytes.length < cmd.bytes := by
  obtain ⟨id, data, total, hcall, hsleep⟩ := producer_asleep h hrunning hstuck
  obtain ⟨hfull, hlt⟩ := h.duo.full_of_asleep hcall hsleep
  have hwritten := h.written hrunning
  have hhistory := congrArg List.length h.duo.lossless.history
  rw [length_append, length_contents] at hhistory
  rw [hcall, unwritten] at hwritten
  exact ⟨hfull, by omega⟩

theorem isRunning_of {α : Type} {st : Stage α} (habsent : st ≠ .absent) (hexited : st ≠ .exited) :
    st.isRunning = true := by
  cases st with
  | absent => exact absurd rfl habsent
  | running bound todo => rfl
  | exited => exact absurd rfl hexited

theorem Inv.not_deadlocked (h : Inv cmd g) (henough : cmd.ReadsEnough) : ¬ g.Deadlocked cmd := by
  rintro ⟨⟨a, ha⟩, hstuck⟩
  have hshell := hstuck .shell
  have hproducer := hstuck .producer
  have hconsumer := hstuck .consumer
  have hphase := h.phase
  simp only [step] at hshell hproducer hconsumer
  rcases hpc : g.shell with _ | _ | b | _ | _ | _ | b | _ | b | _ | _ | _ | _
  case waitProducer =>
    -- the producer has not exited, so it is asleep on a full pipe
    have hexited : g.producer ≠ .exited := by
      intro heq
      simp [shellStep, hpc, heq] at hshell
    cases b with
    | true =>
      simp only [Phase, hpc] at hphase
      obtain ⟨hp, hc, hopen⟩ := hphase
      obtain ⟨hfull, hmore⟩ := bytes_of_stuck_producer h (isRunning_of hp hexited) hproducer
      by_cases hrunning : g.consumer.isRunning = true
      · -- a consumer that cannot move is asleep on an empty pipe
        obtain ⟨id, size, hcall, hsleep⟩ := consumer_asleep h hrunning hconsumer
        have hempty := (h.duo.empty_of_asleep hcall hsleep).1
        rw [hfull] at hempty
        cases hempty
      · -- the consumer has exited, and each of its reads has removed a byte
        have htaken := h.taken hc hopen.1
        rw [h.consumerIdle (by simpa using hrunning)] at htaken
        have htodo : g.consumer.todo = [] := by
          rcases hst : g.consumer with _ | ⟨bound, todo⟩ | _
          · rfl
          · simp [hst, Stage.isRunning] at hrunning
          · rfl
        rw [htodo, pending_none, length_nil] at htaken
        simp only [Command.ReadsEnough] at henough
        split at henough <;> omega
    | false =>
      simp only [Phase, hpc] at hphase
      obtain ⟨hp, -, -, hnone⟩ := hphase
      obtain ⟨-, hmore⟩ := bytes_of_stuck_producer h (isRunning_of hp hexited) hproducer
      simp only [Command.ReadsEnough, hnone] at henough
      simp at henough
      omega
  case waitConsumer =>
    simp only [Phase, hpc] at hphase
    obtain ⟨-, hc, hclosed, -⟩ := hphase
    have hexited : g.consumer ≠ .exited := by
      intro heq
      simp [shellStep, hpc, heq] at hshell
    obtain ⟨id, size, hcall, hsleep⟩ := consumer_asleep h (isRunning_of hc hexited) hconsumer
    rw [(h.duo.empty_of_asleep hcall hsleep).2] at hclosed
    cases hclosed
  case done =>
    simp only [Phase, hpc] at hphase
    cases a with
    | shell => exact ha hpc
    | producer | consumer =>
      obtain ⟨bound, todo, hst⟩ := ha
      simp [hst, Stage.isRunning] at hphase
  all_goals
    -- everywhere else the shell can go on
    simp only [shellStep, hpc] at hshell
    first
    | cases hshell
    | (split at hshell <;> cases hshell)

theorem Inv.step {a : Actor} {g' : Pipeline} (h : Inv cmd g) (hstep : g.step cmd a = some g') :
    Inv cmd g' := by
  cases a with
  | shell => exact h.after_shell hstep
  | producer => exact h.after_producer hstep
  | consumer => exact h.after_consumer hstep

end stuck

/-! ## A write that is longer than the pipe -/

section early

variable (data : Data)

/-- The producer has filled the pipe. -/
def filled : Sys :=
  (((Sys.init.pipeWrite producerTask data).putChunk 0 (data.val.take pipeBufferSize)).setCall
    producerTask (some (.write 0 data pipeBufferSize))).wake .readers

variable {data} (hlong : pipeBufferSize < data.val.length)

include hlong

theorem filled_dataSize : (filled data).pipe.dataSize = pipeBufferSize := by
  show 0 + (data.val.take pipeBufferSize).length = pipeBufferSize
  rw [length_take]
  omega

theorem run_fills :
    (Sys.init.pipeWrite producerTask data).run producerTask = some (filled data) := by
  have hpos : 0 < data.val.length := Nat.lt_of_le_of_lt (Nat.zero_le _) hlong
  have hsize : ¬ data.val.length - 0 < pipeBufferSize - 0 := by omega
  show some (writeTurn _ producerTask 0 data 0) = _
  unfold writeTurn
  rw [if_pos hpos]
  show some (wake (setCall (putChunk _ 0 (List.take
    (if data.val.length - 0 < pipeBufferSize - 0 then _ else _) _)) _
    (some (.write 0 data (0 + if data.val.length - 0 < pipeBufferSize - 0 then _ else _)))) _) = _
  rw [if_neg hsize]
  rfl

theorem run_sleeps :
    (filled data).run producerTask = some ((filled data).sleepOn .writers producerTask) := by
  have hfull : (filled data).pipe.dataSize ≥ pipeBufferSize := (filled_dataSize hlong).ge
  have hflags : PipeBuffer.SameFlags init.pipe (filled data).pipe :=
    store_flags _ _
  have hallocated : (filled data).pipe.allocated = true := hflags.allocated
  have hopen : (filled data).pipe.readClosed = false := hflags.readClosed
  show some (writeTurn (filled data) producerTask 0 data pipeBufferSize) = _
  unfold writeTurn writePass
  rw [if_pos hlong, if_neg (by simp [hallocated, hopen]), if_pos hfull]

end early

/-- The shell waits for the producer, which makes its last call. -/
def lastCall (consumer : Stage { size : Nat // 0 < size }) (sys : Sys) : Pipeline where
  sys := sys
  shell := .waitProducer true
  stdinPipe := false
  stdoutPipe := false
  producer := .running true []
  consumer := consumer

theorem lastCall_step {cmd : Command} {consumer : Stage { size : Nat // 0 < size }} {sys sys' : Sys}
    {c : Call} (hcall : sys.calls producerTask = some c)
    (hrun : sys.run producerTask = some sys') :
    (lastCall consumer sys).step cmd .producer = some (lastCall consumer sys') := by
  have hin : ((lastCall consumer sys).sys.calls producerTask).isSome = true := by
    show (sys.calls producerTask).isSome = true
    rw [hcall]
    rfl
  show (if ((lastCall consumer sys).sys.calls producerTask).isSome then _ else _) = _
  rw [if_pos hin]
  show Option.map (fun sys₁ => { lastCall consumer sys with sys := sys₁ }) (sys.run producerTask) = _
  rw [hrun]
  rfl

/-- The producer stores what fits and goes to sleep. -/
theorem run_to_sleep (cmd : Command) (consumer : Stage { size : Nat // 0 < size }) {data : Data}
    (hlong : pipeBufferSize < data.val.length) :
    Run (Steps cmd) (lastCall consumer (init.pipeWrite producerTask data)) [.producer, .producer]
      (lastCall consumer ((filled data).sleepOn .writers producerTask)) :=
  .cons (lastCall_step (c := .write 0 data 0) rfl (run_fills hlong))
    (.cons (lastCall_step (c := .write 0 data pipeBufferSize) rfl (run_sleeps hlong)) (.nil _))

/-! ## Deadlocks -/

/-- If what the consumer may leave unread fits in the pipe, no schedule of a two-stage pipeline
reaches a deadlock. -/
theorem pipeline_with_enough_reads_is_not_deadlocked {cmd : Command} (henough : cmd.ReadsEnough)
    {actors : List Actor} {g : Pipeline}
    (hrun : Run (Steps cmd) start actors g) :
    ¬ g.Deadlocked cmd := by
  have hinv : Inv cmd g := hrun.invariant (fun _ _ _ h hstep => h.step hstep) (Inv.start cmd)
  exact hinv.not_deadlocked henough

/-- A producer that writes once. -/
def writesOnce (data : Data) (reads : List { size : Nat // 0 < size }) : Command :=
  ⟨[data], reads, true, true, true, true⟩

theorem writesOnce_readsEnough {data : Data} {reads : List { size : Nat // 0 < size }}
    (h : data.val.length ≤ pipeBufferSize + reads.length) : (writesOnce data reads).ReadsEnough :=
  h

/-- One byte more than the pipe holds. -/
def longData : Data := ⟨List.replicate 4097 0, by rw [List.length_replicate]; decide⟩

theorem longData_length : longData.val.length = pipeBufferSize + 1 := length_replicate

/-- The producer sleeps on the full pipe, but the consumer is going to read once. -/
theorem full_pipe_with_a_reader_is_not_deadlocked :
    ∃ g, Run (Steps (writesOnce longData [⟨1, by decide⟩]))
        start (replicate 6 .shell ++ [.producer] ++ [.producer, .producer]) g ∧
      g.sys.waits.asleep producerTask = true ∧
      ¬ g.Deadlocked (writesOnce longData [⟨1, by decide⟩]) := by
  have hstarted : Run (Steps (writesOnce longData [⟨1, by decide⟩]))
      start (replicate 6 .shell ++ [.producer])
      (lastCall (.running true [⟨1, by decide⟩]) (init.pipeWrite producerTask longData)) :=
    .of_foldlM_some rfl
  have hrun := hstarted.append (run_to_sleep _ _ longData_length.ge)
  exact ⟨_, hrun, rfl,
    pipeline_with_enough_reads_is_not_deadlocked (writesOnce_readsEnough longData_length.le) hrun⟩

/-- A write of more than the pipe holds that nobody reads: the producer sleeps on the full pipe, the
consumer has exited, and the shell waits for the producer. -/
theorem unread_write_deadlocks {data : Data} (hlong : pipeBufferSize < data.val.length) :
    ∃ g, Run (Steps (writesOnce data [])) start
        (replicate 6 .shell ++ [.consumer, .producer] ++ [.producer, .producer]) g ∧
      g.shell = .waitProducer true ∧ g.consumer = .exited ∧
      g.Deadlocked (writesOnce data []) := by
  have hstarted : Run (Steps (writesOnce data [])) start
      (replicate 6 .shell ++ [.consumer, .producer])
      (lastCall .exited (init.pipeWrite producerTask data)) :=
    .of_foldlM_some rfl
  refine ⟨_, hstarted.append (run_to_sleep _ _ hlong), rfl, rfl, ⟨.shell, ?_⟩, ?_⟩
  · intro h
    cases h
  · intro a
    cases a <;> rfl

/-- A producer of one byte more than the pipe holds, and a consumer that exits without reading. -/
theorem early_exit_deadlocks_the_pipeline :
    ∃ g, Run (Steps (writesOnce longData [])) start
        (replicate 6 .shell ++ [.consumer, .producer] ++ [.producer, .producer]) g ∧
      g.shell = .waitProducer true ∧ g.consumer = .exited ∧
      g.Deadlocked (writesOnce longData []) :=
  unread_write_deadlocks longData_length.ge

end Pipeline

end TinyOS.Pipe
