import TinyOS.Lib.Ring

/-!
# Pipes: the buffer

`pipe_buffer_t` is a ring of 4096 bytes with two positions and a size of its own, so the
ring can be full. The copy loops of `pipe_write` and `pipe_read` move one byte a turn.

* `PipeBuffer.contents`: the bytes in the pipe, oldest first.
* `contents_store`, `load_fst`, `contents_load`: the loops append to them and take from
  their front.
-/

namespace TinyOS.Pipe

open Lib Function List

def pipeBufferSize : Nat := 4096

/-- `pipe_buffer_t`. The pointers `readers` and `writers` lead into one page and are NULL
together; `allocated` says that they are not. -/
structure PipeBuffer where
  buffer : Nat → UInt8
  writePos : Nat
  readPos : Nat
  dataSize : Nat
  allocated : Bool
  writeClosed : Bool
  readClosed : Bool
  capture : Bool
  dropped : Nat

namespace PipeBuffer

/-- `pipe_init`; `allocated` is whether there was a page for the wait queues. -/
def pipeInit (allocated : Bool) : PipeBuffer where
  buffer := fun _ => 0
  writePos := 0
  readPos := 0
  dataSize := 0
  allocated := allocated
  writeClosed := false
  readClosed := false
  capture := false
  dropped := 0

/-- One turn of a loop that copies into the ring. -/
def putByte (p : PipeBuffer) (b : UInt8) : PipeBuffer :=
  { p with
    buffer := update p.buffer p.writePos b
    writePos := (p.writePos + 1) % pipeBufferSize }

/-- The loop, and `pipe->data_size += to_write`. -/
def store (p : PipeBuffer) (bytes : List UInt8) : PipeBuffer :=
  { bytes.foldl putByte p with dataSize := p.dataSize + bytes.length }

/-- Step over the oldest byte. -/
def advance (p : PipeBuffer) : PipeBuffer := { p with readPos := (p.readPos + 1) % pipeBufferSize }

/-- The loop that copies `n` bytes out of the ring. -/
def takeBytes : Nat → PipeBuffer → List UInt8 × PipeBuffer
  | 0, p => ([], p)
  | n + 1, p =>
    let (bytes, p') := takeBytes n p.advance
    (p.buffer p.readPos :: bytes, p')

/-- The loop, and `pipe->data_size -= to_read`. -/
def load (p : PipeBuffer) (n : Nat) : List UInt8 × PipeBuffer :=
  ((takeBytes n p).1, { (takeBytes n p).2 with dataSize := p.dataSize - n })

/-- How much fits. -/
def room (p : PipeBuffer) : Nat := pipeBufferSize - p.dataSize

/-- The bytes in the pipe, oldest first. -/
def contents (p : PipeBuffer) : List UInt8 :=
  (List.range p.dataSize).map fun k => p.buffer ((p.readPos + k) % pipeBufferSize)

/-- The write position stands behind the stored bytes, and there are no more than fit. -/
structure Valid (p : PipeBuffer) : Prop where
  size_le : p.dataSize ≤ pipeBufferSize
  read_lt : p.readPos < pipeBufferSize
  write_eq : p.writePos = (p.readPos + p.dataSize) % pipeBufferSize

/-- Two pipes differ in the ring only. -/
structure SameFlags (p p' : PipeBuffer) : Prop where
  allocated : p'.allocated = p.allocated
  writeClosed : p'.writeClosed = p.writeClosed
  readClosed : p'.readClosed = p.readClosed
  capture : p'.capture = p.capture

variable {p : PipeBuffer}

@[simp] theorem length_contents : p.contents.length = p.dataSize := by
  simp [contents]

theorem pipeInit_valid (allocated : Bool) : (pipeInit allocated).Valid :=
  ⟨Nat.zero_le _, (by decide : 0 < pipeBufferSize), rfl⟩

/-! ## Storing -/

@[simp] theorem store_dataSize (p : PipeBuffer) (bytes : List UInt8) :
    (p.store bytes).dataSize = p.dataSize + bytes.length := rfl

theorem store_flags (p : PipeBuffer) (bytes : List UInt8) : SameFlags p (p.store bytes) := by
  have hloop : SameFlags p (bytes.foldl putByte p) := by
    refine foldlRecOn (motive := SameFlags p) bytes putByte ⟨rfl, rfl, rfl, rfl⟩ fun p' h b _ => ?_
    exact { h with }
  exact { hloop with }

theorem store_cons (p : PipeBuffer) (b : UInt8) (bytes : List UInt8) :
    p.store (b :: bytes) = (p.store [b]).store bytes := by
  have hloop : bytes.foldl putByte (p.store [b]) =
      { bytes.foldl putByte (p.putByte b) with dataSize := p.dataSize + 1 } :=
    foldl_hom (fun q : PipeBuffer => { q with dataSize := p.dataSize + 1 }) fun _ _ => rfl
  rw [store, store, hloop, length_cons, foldl_cons, store_dataSize, length_singleton,
    Nat.add_assoc, Nat.add_comm 1]

theorem store_singleton (h : p.Valid) (hroom : p.dataSize < pipeBufferSize) (b : UInt8) :
    (p.store [b]).Valid ∧ (p.store [b]).contents = p.contents ++ [b] := by
  constructor
  · refine ⟨hroom, h.read_lt, ?_⟩
    show (p.writePos + 1) % pipeBufferSize = (p.readPos + (p.dataSize + 1)) % pipeBufferSize
    rw [h.write_eq, Nat.mod_add_mod, Nat.add_assoc]
  · show ((List.range (p.dataSize + 1)).map fun k =>
      update p.buffer p.writePos b ((p.readPos + k) % pipeBufferSize)) = _
    rw [h.write_eq, range_succ, map_append, map_singleton, update_self, contents]
    congr 1
    apply map_congr_left
    intro k hk
    -- the old bytes lie in other cells than the new one
    exact update_of_ne (Ring.mod_ne_mod (mem_range.mp hk) (by omega)) _ _

theorem store_spec (h : p.Valid) {bytes : List UInt8} (hfits : bytes.length ≤ p.room) :
    (p.store bytes).Valid ∧ (p.store bytes).contents = p.contents ++ bytes := by
  induction bytes generalizing p with
  | nil => exact ⟨h, (append_nil _).symm⟩
  | cons b bytes ih =>
    rw [room, length_cons] at hfits
    obtain ⟨hvalid, hcontents⟩ := store_singleton h (by omega) b
    have hrest : bytes.length ≤ (p.store [b]).room := by
      rw [room, store_dataSize, length_singleton]
      omega
    rw [store_cons, append_cons, ← hcontents]
    exact ih hvalid hrest

theorem store_valid (h : p.Valid) {bytes : List UInt8} (hfits : bytes.length ≤ p.room) :
    (p.store bytes).Valid := (store_spec h hfits).1

theorem contents_store (h : p.Valid) {bytes : List UInt8} (hfits : bytes.length ≤ p.room) :
    (p.store bytes).contents = p.contents ++ bytes := (store_spec h hfits).2

/-! ## Taking -/

theorem takeBytes_spec (n : Nat) (p : PipeBuffer) (hread : p.readPos < pipeBufferSize) :
    (takeBytes n p).1 = ((List.range n).map fun k => p.buffer ((p.readPos + k) % pipeBufferSize)) ∧
      (takeBytes n p).2 = { p with readPos := (p.readPos + n) % pipeBufferSize } := by
  induction n generalizing p with
  | zero => exact ⟨rfl, by rw [Nat.add_zero, Nat.mod_eq_of_lt hread]; rfl⟩
  | succ n ih =>
    obtain ⟨hbytes, hrest⟩ := ih p.advance (Nat.mod_lt _ (by decide))
    have hpos (k : Nat) : (p.advance.readPos + k) % pipeBufferSize =
        (p.readPos + (k + 1)) % pipeBufferSize := by
      show ((p.readPos + 1) % pipeBufferSize + k) % pipeBufferSize = _
      rw [Nat.mod_add_mod, Nat.add_assoc, Nat.add_comm 1 k]
    simp only [takeBytes]
    constructor
    · have hfirst : p.buffer p.readPos = p.buffer ((p.readPos + 0) % pipeBufferSize) := by
        rw [Nat.add_zero, Nat.mod_eq_of_lt hread]
      rw [hbytes, range_succ_eq_map, map_cons, map_map, hfirst]
      congr 1
      apply map_congr_left
      intro k _
      rw [hpos k]
      rfl
    · rw [hrest, hpos n]
      rfl

variable {n : Nat}

theorem load_fst (h : p.Valid) (hn : n ≤ p.dataSize) : (p.load n).1 = p.contents.take n := by
  show (takeBytes n p).1 = _
  rw [(takeBytes_spec n p h.read_lt).1, contents, ← map_take, take_range,
    Nat.min_eq_left hn]

@[simp] theorem load_dataSize (p : PipeBuffer) (n : Nat) :
    (p.load n).2.dataSize = p.dataSize - n := rfl

theorem load_flags (h : p.Valid) : SameFlags p (p.load n).2 := by
  have hrest := (takeBytes_spec n p h.read_lt).2
  simp only [load, hrest]
  exact ⟨rfl, rfl, rfl, rfl⟩

theorem load_valid (h : p.Valid) (hn : n ≤ p.dataSize) : (p.load n).2.Valid := by
  have hsize := h.size_le
  have hrest := (takeBytes_spec n p h.read_lt).2
  simp only [load, hrest]
  refine ⟨?_, Nat.mod_lt _ (by decide), ?_⟩
  · show p.dataSize - n ≤ _
    omega
  · rw [h.write_eq, Nat.mod_add_mod, Nat.add_assoc, Nat.add_sub_cancel' hn]

theorem contents_load (h : p.Valid) : (p.load n).2.contents = p.contents.drop n := by
  have hrest := (takeBytes_spec n p h.read_lt).2
  simp only [load, hrest, contents]
  apply ext_getElem
  · simp
  · intro k _ _
    simp only [getElem_map, getElem_range, getElem_drop]
    rw [Nat.mod_add_mod, Nat.add_assoc]

end PipeBuffer

end TinyOS.Pipe
