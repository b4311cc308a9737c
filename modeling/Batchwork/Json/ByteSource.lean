/-!
# Byte sources

A source that delivers its bytes piece by piece and may fail in between, and a buffer in front of
it. The buffer asks for more only when it is empty, and for no more than its capacity. A delivery
without bytes looks like the end of the input for that one call.
-/

namespace Batchwork.Json

inductive Delivery where
  | bytes (data : List UInt8)
  | failure (reason : String)
  deriving Repr, DecidableEq, Inhabited

/-- A call that was cut short and may be made again. -/
def Delivery.interrupted : Delivery := .failure "operation interrupted"

structure ByteSource where
  deliveries : List Delivery
  /-- Why every call behind the last delivery fails, if it does not tell the end of the input. -/
  broken : Option String := none
  deriving Repr, DecidableEq, Inhabited

namespace ByteSource

def ofBytes (data : List UInt8) : ByteSource := ⟨[.bytes data], none⟩

/-- One call, with room for `room` bytes. -/
def call (source : ByteSource) (room : Nat) : Except String (List UInt8) × ByteSource :=
  match source.deliveries with
  | [] =>
    match source.broken with
    | some reason => (.error reason, source)
    | none => (.ok [], source)
  | .failure reason :: later => (.error reason, { source with deliveries := later })
  | .bytes data :: later =>
    match data.drop room with
    | [] => (.ok data, { source with deliveries := later })
    | left => (.ok (data.take room), { source with deliveries := .bytes left :: later })

/-- All bytes that are still to be delivered. -/
def remaining (source : ByteSource) : List UInt8 :=
  source.deliveries.flatMap fun
    | .bytes data => data
    | .failure _ => []

theorem remaining_call {source after : ByteSource} {room : Nat} {data : List UInt8}
    (h : source.call room = (.ok data, after)) : data ++ after.remaining = source.remaining := by
  obtain ⟨deliveries, broken⟩ := source
  cases deliveries with
  | nil =>
    cases broken with
    | none =>
      obtain ⟨rfl, rfl⟩ := by simpa [call] using h
      rfl
    | some reason => simp [call] at h
  | cons delivery later =>
    cases delivery with
    | failure reason => simp [call] at h
    | bytes whole =>
      have split := List.take_append_drop room whole
      simp only [call] at h
      split at h
      · obtain ⟨rfl, rfl⟩ := by simpa using h
        simp [remaining]
      · obtain ⟨rfl, rfl⟩ := by simpa using h
        simp [remaining, ← List.append_assoc, split]

end ByteSource

structure BufferedSource where
  source : ByteSource
  capacity : Nat
  buffer : List UInt8 := []
  deriving Repr, DecidableEq, Inhabited

namespace BufferedSource

/-- The next byte, or nothing at what looks like the end of the input. -/
def next (input : BufferedSource) : Except String (Option UInt8) × BufferedSource :=
  match input.buffer with
  | byte :: rest => (.ok (some byte), { input with buffer := rest })
  | [] =>
    match input.source.call input.capacity with
    | (.error reason, source) => (.error reason, { input with source })
    | (.ok [], source) => (.ok none, { input with source })
    | (.ok (byte :: rest), source) => (.ok (some byte), { input with source, buffer := rest })

def remaining (input : BufferedSource) : List UInt8 := input.buffer ++ input.source.remaining

theorem remaining_next {input after : BufferedSource} {byte : UInt8}
    (h : input.next = (.ok (some byte), after)) : input.remaining = byte :: after.remaining := by
  obtain ⟨source, capacity, buffer⟩ := input
  cases buffer with
  | cons first rest =>
    obtain ⟨rfl, rfl⟩ := by simpa [next] using h
    simp [remaining]
  | nil =>
    simp only [next] at h
    split at h
    · simp at h
    · simp at h
    · rename_i data left call
      obtain ⟨rfl, rfl⟩ := by simpa using h
      simpa [remaining] using (ByteSource.remaining_call call).symm

end BufferedSource

end Batchwork.Json
