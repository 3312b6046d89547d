/-!
# Sinks

A sink takes the bytes that a program prints. It may have a capacity: a write that needs more room
than is left writes what fits and fails, and a write of nothing never fails. Flushing may fail as
well. What has been written stays written.
-/

namespace TreeLang

/-- Why a sink refuses output. -/
inductive WriteFault where
  /-- The sink has taken all it can. -/
  | full
  /-- The sink takes nothing more. -/
  | closed
  /-- The device behind the sink has no space left. -/
  | noSpace
  deriving DecidableEq

/-- The words for a fault of a sink. -/
def WriteFault.message : WriteFault → String
  | full => "sink full"
  | closed => "sink closed"
  | noSpace => "No space left on device (os error 28)"

/-- A place where output goes. -/
structure Sink where
  /-- The number of bytes that the sink accepts in total, if there is a limit. -/
  capacity : Option Nat
  /-- The fault of a write beyond the capacity. -/
  fullFault : WriteFault
  /-- The fault of flushing, if flushing fails. -/
  flushFault : Option WriteFault
  /-- What has been written. -/
  written : ByteArray

namespace Sink

/-- An empty sink on which nothing fails. -/
def unlimited : Sink := ⟨none, .full, none, ByteArray.empty⟩

/-- An empty sink that accepts so many bytes, and whose flushing fails or not. -/
def limited (capacity : Option Nat) (flushFails : Bool) : Sink :=
  ⟨capacity, .full, if flushFails then some .closed else none, ByteArray.empty⟩

/-- A device without any space. -/
def fullDevice : Sink := ⟨some 0, .noSpace, none, ByteArray.empty⟩

/-- The sink with more bytes behind what it holds. -/
def append (sink : Sink) (bytes : ByteArray) : Sink :=
  { sink with written := sink.written ++ bytes }

/-- Writes the bytes, or as many of them as fit. -/
def write (sink : Sink) (bytes : ByteArray) : Option WriteFault × Sink :=
  match sink.capacity with
  | none => (none, sink.append bytes)
  | some capacity =>
    let room := capacity - sink.written.size
    if bytes.size ≤ room then (none, sink.append bytes)
    else (some sink.fullFault, sink.append (bytes.extract 0 room))

/-- From one sink to the other bytes are appended, and nothing else changes. -/
def GrowsTo (sink later : Sink) : Prop := ∃ bytes, later = sink.append bytes

theorem GrowsTo.refl (sink : Sink) : sink.GrowsTo sink :=
  ⟨ByteArray.empty, by rw [append, ByteArray.append_empty]⟩

theorem GrowsTo.trans {sink later last : Sink} (h : sink.GrowsTo later) (h' : later.GrowsTo last) :
    sink.GrowsTo last := by
  obtain ⟨bytes, rfl⟩ := h
  obtain ⟨bytes', rfl⟩ := h'
  exact ⟨bytes ++ bytes', by simp only [append, ByteArray.append_assoc]⟩

/-- Writing appends, whether it succeeds or not. -/
theorem growsTo_write (sink : Sink) (bytes : ByteArray) : sink.GrowsTo (sink.write bytes).2 := by
  unfold write
  split
  · exact ⟨_, rfl⟩
  · dsimp only
    split <;> exact ⟨_, rfl⟩

/-- What is written without a fault is all there. -/
theorem eq_append_of_write {sink later : Sink} {bytes : ByteArray}
    (h : sink.write bytes = (none, later)) : later = sink.append bytes := by
  unfold write at h
  split at h
  · cases h
    rfl
  · dsimp only at h
    split at h
    · cases h
      rfl
    · cases h

/-- A sink without a capacity takes all bytes. -/
theorem write_of_capacity {sink : Sink} (h : sink.capacity = none) (bytes : ByteArray) :
    sink.write bytes = (none, sink.append bytes) := by
  simp [write, h]

/-- The text of bytes without their last one, two or three, whichever leaves whole characters; the
character that was cut is shown as the replacement character. -/
def cutText (bytes : ByteArray) : String :=
  let shorter (cut : Nat) := String.fromUTF8? (bytes.extract 0 (bytes.size - cut))
  (((shorter 1).or (shorter 2)).or (shorter 3)).getD "" ++ "\uFFFD"

/-- The text of bytes that were written, of which a full sink may have cut the last character. -/
def textOf (bytes : ByteArray) : String :=
  (String.fromUTF8? bytes).getD (cutText bytes)

end Sink

end TreeLang
