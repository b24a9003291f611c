import TinyOS.Lib.Run
import TinyOS.Lib.WaitQueue
import TinyOS.Pipe.Buffer

/-!
# Pipes: tasks that read and write

Any number of tasks call `pipe_read` and `pipe_write` on one pipe. A call is cut at its
critical sections: `Sys.writePass` and `Sys.readPass` are what happens between an enter and
an exit, and between two passes anything may happen. A history beside the state says
which call stored which bytes, which call took which, and what each call returned.
-/

namespace TinyOS.Pipe

open Lib

/-- `MAX_TASKS`, the size of a wait queue. -/
def maxTasks : Nat := 32

def epipe : Int := 32

/-- `(int)n` of a `size_t`. -/
def toInt (n : Nat) : Int := if n < 2 ^ 31 then n else (n : Int) - 2 ^ 32

abbrev TaskId := Nat

/-- Calls are numbered in the order in which they begin. -/
abbrev CallId := Nat

/-- The two wait queues of a pipe. -/
inductive Side
  | readers
  | writers
deriving DecidableEq, Repr

/-- The data of a write; its size is a `size_t`. -/
abbrev Data := { data : List UInt8 // data.length < 2 ^ 32 }

/-- Where a task is inside a call: a write has stored `total` bytes so far. -/
inductive Call
  | write (id : CallId) (data : Data) (total : Nat)
  | read (id : CallId) (size : Nat)

def Call.id : Call → CallId
  | .write id _ _ => id
  | .read id _ => id

/-- What a call returned; a read returned the number of `bytes`. -/
inductive Return
  | write (id : CallId) (data : Data) (k : Int)
  | read (id : CallId) (size : Nat) (bytes : List UInt8)

structure Sys where
  pipe : PipeBuffer
  waits : WaitQueues Side TaskId
  /-- The call a task is in. -/
  calls : TaskId → Option Call
  nextId : CallId
  /-- What was stored, in order. -/
  chunks : List (CallId × List UInt8)
  /-- What was removed, in order. -/
  takes : List (CallId × List UInt8)
  returned : List Return

namespace Sys

/-- A fresh pipe with its wait queues. -/
def init : Sys where
  pipe := .pipeInit true
  waits := .empty
  calls := fun _ => none
  nextId := 0
  chunks := []
  takes := []
  returned := []

def setCall (s : Sys) (t : TaskId) (c : Option Call) : Sys :=
  { s with calls := Function.update s.calls t c }

theorem setCall_self (s : Sys) (t : TaskId) (c : Option Call) : (s.setCall t c).calls t = c := by
  simp [setCall]

theorem setCall_ne (s : Sys) {t t' : TaskId} (h : t' ≠ t) (c : Option Call) :
    (s.setCall t c).calls t' = s.calls t' := by
  simp [setCall, h]

/-- The call of `t` returns. -/
def finish (s : Sys) (t : TaskId) (r : Return) : Sys :=
  { s.setCall t none with waits := s.waits.done t, returned := s.returned ++ [r] }

def putChunk (s : Sys) (id : CallId) (chunk : List UInt8) : Sys :=
  { s with pipe := s.pipe.store chunk, chunks := s.chunks ++ [(id, chunk)] }

def takeChunk (s : Sys) (id : CallId) (n : Nat) : Sys :=
  { s with pipe := (s.pipe.load n).2, takes := s.takes ++ [(id, (s.pipe.load n).1)] }

def sleepOn (s : Sys) (q : Side) (t : TaskId) : Sys :=
  { s with waits := s.waits.sleep maxTasks q t }

def wake (s : Sys) (q : Side) : Sys := { s with waits := s.waits.wakeup q }

/-! ## `pipe_write` -/

/-- One pass of the loop of `pipe_write`. -/
def writePass (s : Sys) (t : TaskId) (id : CallId) (data : Data) (total : Nat) : Sys :=
  if !s.pipe.allocated || s.pipe.readClosed then
    s.finish t (.write id data (if total > 0 then toInt total else -epipe))
  else if s.pipe.dataSize ≥ pipeBufferSize then s.sleepOn .writers t
  else
    let available := pipeBufferSize - s.pipe.dataSize
    let remaining := data.val.length - total
    let toWrite := if remaining < available then remaining else available
    let s := s.putChunk id ((data.val.drop total).take toWrite)
    let s := s.setCall t (some (.write id data (total + toWrite)))
    s.wake .readers

/-- `while (total_written < size) …; return (int)total_written;` -/
def writeTurn (s : Sys) (t : TaskId) (id : CallId) (data : Data) (total : Nat) : Sys :=
  if total < data.val.length then s.writePass t id data total
  else s.finish t (.write id data (toInt total))

/-- The branches of `pipe_write` that do not block, for a pipe in capture mode or without wait
queues. -/
def writeClamped (s : Sys) (t : TaskId) (id : CallId) (data : Data) : Sys :=
  let available := pipeBufferSize - s.pipe.dataSize
  let toWrite := if data.val.length < available then data.val.length else available
  let s := s.putChunk id (data.val.take toWrite)
  if s.pipe.capture then
    let s := { s with pipe := { s.pipe with
      dropped := s.pipe.dropped + (data.val.length - toWrite) } }
    s.finish t (.write id data (if toWrite > 0 then toInt toWrite else -epipe))
  else s.finish t (.write id data (toInt toWrite))

/-- What `pipe_write` does before its loop. -/
def pipeWrite (s : Sys) (t : TaskId) (data : Data) : Sys :=
  let id := s.nextId
  let s := { s with nextId := id + 1 }
  if s.pipe.readClosed then s.finish t (.write id data (-epipe))
  else if s.pipe.capture || !s.pipe.allocated then s.writeClamped t id data
  else s.setCall t (some (.write id data 0))

/-! ## `pipe_read` -/

/-- One pass of the loop of `pipe_read`, with the copy that follows it under the same lock. -/
def readPass (s : Sys) (t : TaskId) (id : CallId) (size : Nat) : Sys :=
  if !s.pipe.allocated || (s.pipe.dataSize == 0 && s.pipe.writeClosed) then
    s.finish t (.read id size [])
  else if s.pipe.dataSize > 0 then
    let available := s.pipe.dataSize
    let toRead := if size < available then size else available
    let bytes := (s.pipe.load toRead).1
    let s := s.takeChunk id toRead
    let s := s.wake .writers
    s.finish t (.read id size bytes)
  else s.sleepOn .readers t

/-- What `pipe_read` does before its loop; without wait queues it does not block. -/
def pipeRead (s : Sys) (t : TaskId) (size : Nat) : Sys :=
  let id := s.nextId
  let s := { s with nextId := id + 1 }
  if !s.pipe.allocated then
    let toRead := if size < s.pipe.dataSize then size else s.pipe.dataSize
    let bytes := (s.pipe.load toRead).1
    (s.takeChunk id toRead).finish t (.read id size bytes)
  else s.setCall t (some (.read id size))

/-! ## Closing -/

def pipeCloseWrite (s : Sys) : Sys :=
  { s with
    pipe := { s.pipe with writeClosed := true }
    waits := if s.pipe.allocated then s.waits.wakeupAll .readers else s.waits }

def pipeCloseRead (s : Sys) : Sys :=
  { s with
    pipe := { s.pipe with readClosed := true }
    waits := if s.pipe.allocated then s.waits.wakeupAll .writers else s.waits }

/-- A task that is in a call and not asleep runs its next critical section. -/
def run (s : Sys) (t : TaskId) : Option Sys :=
  if s.waits.asleep t then none
  else
    match s.calls t with
    | none => none
    | some (.write id data total) => some (s.writeTurn t id data total)
    | some (.read id size) => some (s.readPass t id size)

end Sys

/-- What can happen next. A task begins a call when it is in none. -/
inductive Event
  | write (t : TaskId) (data : Data)
  | read (t : TaskId) (size : Nat)
  | run (t : TaskId)
  | closeWrite
  | closeRead

def Sys.step (s : Sys) : Event → Option Sys
  | .write t data => if (s.calls t).isNone then some (s.pipeWrite t data) else none
  | .read t size => if (s.calls t).isNone then some (s.pipeRead t size) else none
  | .run t => s.run t
  | .closeWrite => some s.pipeCloseWrite
  | .closeRead => some s.pipeCloseRead

/-- The event happens, as a relation. -/
def Sys.Steps (s : Sys) (e : Event) (s' : Sys) : Prop := s.step e = some s'

end TinyOS.Pipe
