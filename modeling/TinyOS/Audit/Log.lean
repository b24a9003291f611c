import TinyOS.Lib.HashChain
import TinyOS.Lib.Run

/-!
# The audit log

`audit.c` keeps the last 1000 events in a circular buffer. Each event carries an HMAC over its
fields and the HMAC of the event before it. `audit_verify_integrity` recomputes the chain from the
oldest event that is still there.

The HMAC is a parameter: a function from the previous value and the fields of an event. Of the
statistics only the counter of detections is modelled, which is the one that the check writes.
-/

namespace TinyOS.Audit

def auditBufferSize : Nat := 1000
def auditDescMax : Nat := 96

/-! ## Events -/

/-- `audit_event_type_t`: a number, because a stored one can be overwritten with any. -/
abbrev EventType := UInt32
/-- `audit_severity_t`. -/
abbrev Severity := UInt32

def auditSecPermissionDenied : EventType := 0x0401
def auditSysBoot : EventType := 0x0501
def auditSysConfigChange : EventType := 0x0504
def auditInfo : Severity := 1
def auditWarn : Severity := 2

/-- What the HMAC of an event covers, besides the HMAC before it. -/
structure Fields where
  timestamp : UInt32
  sequence : UInt32
  uid : UInt16
  pid : UInt16
  type : EventType
  severity : Severity
  /-- All the bytes of the array, also those behind the terminating zero. -/
  description : List UInt8
  deriving DecidableEq, Repr

/-- `audit_event_t`: the fields, and the HMAC. -/
abbrev Event (Mac : Type) := Fields × Mac

/-- `safe_strcpy`; what is behind the terminating zero stays. A null pointer copies nothing. -/
def safeStrcpy (dst : List UInt8) (src : Option (List UInt8)) (size : Nat) : List UInt8 :=
  match src with
  | none => dst
  | some src => (src.take (size - 1) ++ [0]) ++ dst.drop (min src.length (size - 1) + 1)

/-- An event after `memset`; its HMAC is all zeros. -/
def clearedEvent {Mac : Type} (zero : Mac) : Event Mac :=
  ({ timestamp := 0
     sequence := 0
     uid := 0
     pid := 0
     type := 0
     severity := 0
     description := List.replicate auditDescMax 0 }, zero)

structure State (Mac : Type) where
  buffer : Nat → Event Mac
  /-- Where the next event is written. -/
  head : Nat
  count : Nat
  sequence : UInt32
  prevHmac : Mac
  tamperDetections : UInt32

/-- What a call finds in the system: the uptime, and the task it runs in (0 in an interrupt). -/
structure Context where
  timestamp : UInt32
  pid : UInt16
  deriving DecidableEq, Repr

variable {Mac : Type} (hmac : Mac → Fields → Mac) (zero : Mac)

/-! ## Logging -/

/-- `audit_compute_hmac`: chained to whatever `audit_prev_hmac` is. -/
def auditComputeHmac (s : State Mac) (fields : Fields) : Mac := hmac s.prevHmac fields

/-- The event takes the next slot and becomes the end of the chain. -/
def State.append (s : State Mac) (event : Event Mac) : State Mac :=
  { s with
    buffer := Function.update s.buffer s.head event
    sequence := s.sequence + 1
    prevHmac := event.2
    head := (s.head + 1) % auditBufferSize
    count := if s.count < auditBufferSize then s.count + 1 else s.count }

/-- The event that `audit_log_raw` writes. -/
def newEvent (s : State Mac) (ctx : Context) (type : EventType) (severity : Severity)
    (uid : UInt16) (description : Option (List UInt8)) : Event Mac :=
  let fields : Fields :=
    { timestamp := ctx.timestamp
      sequence := s.sequence
      uid := uid
      pid := ctx.pid
      type := type
      severity := severity
      description := safeStrcpy (s.buffer s.head).1.description description auditDescMax }
  (fields, auditComputeHmac hmac s fields)

def auditLogRaw (s : State Mac) (ctx : Context) (type : EventType) (severity : Severity)
    (uid : UInt16) (description : Option (List UInt8)) : State Mac :=
  s.append (newEvent hmac s ctx type severity uid description)

def text (s : String) : Option (List UInt8) := some s.toUTF8.toList

def auditInit (ctx : Context) : State Mac :=
  auditLogRaw hmac
    { buffer := fun _ => clearedEvent zero
      head := 0
      count := 0
      sequence := 0
      prevHmac := zero
      tamperDetections := 0 }
    ctx auditSysBoot auditInfo 0 (text "TinyOS audit system initialized")

/-- `audit_clear`: only root may, and both outcomes are logged. -/
def auditClear (s : State Mac) (ctx : Context) (uid : UInt16) : State Mac :=
  if uid ≠ 0 then
    auditLogRaw hmac s ctx auditSecPermissionDenied auditWarn uid
      (text "Attempt to clear audit log denied")
  else
    let s := auditLogRaw hmac s ctx auditSysConfigChange auditWarn uid
      (text "Audit log cleared by UID 0")
    { s with
      buffer := fun _ => clearedEvent zero
      head := 0
      count := 0
      prevHmac := zero }

/-! ## Verification -/

/-- Where the oldest event is. -/
def State.startIdx (s : State Mac) : Nat :=
  if s.count < auditBufferSize then 0 else s.head

/-- The slot of the `i`-th event that is still there, from the oldest. -/
def State.slot (s : State Mac) (i : Nat) : Nat := (s.startIdx + i) % auditBufferSize

/-- The loop of `audit_verify_integrity` over the remaining events. `audit_compute_hmac` reads
`audit_prev_hmac`, so the loop lends it the chain value and puts the old one back. -/
def verifyLoop [DecidableEq Mac] (start : Nat) : State Mac → Mac → List Nat → Bool × State Mac
  | s, _, [] => (true, s)
  | s, chain, i :: rest =>
    let event := s.buffer ((start + i) % auditBufferSize)
    let saved := s.prevHmac
    let s := { s with prevHmac := chain }
    let computed := auditComputeHmac hmac s event.1
    let s := { s with prevHmac := saved }
    if computed ≠ event.2 then (false, { s with tamperDetections := s.tamperDetections + 1 })
    else verifyLoop start s event.2 rest

def auditVerifyIntegrity [DecidableEq Mac] (s : State Mac) : Bool × State Mac :=
  verifyLoop hmac s.startIdx s zero (List.range s.count)

/-! ## Histories -/

inductive Op
  | log (ctx : Context) (type : EventType) (severity : Severity) (uid : UInt16)
      (description : Option (List UInt8))
  | clear (ctx : Context) (uid : UInt16)
  deriving DecidableEq, Repr

def step (s : State Mac) : Op → State Mac
  | .log ctx type severity uid description => auditLogRaw hmac s ctx type severity uid description
  | .clear ctx uid => auditClear hmac zero s ctx uid

end TinyOS.Audit
