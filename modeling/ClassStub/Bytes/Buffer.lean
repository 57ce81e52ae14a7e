/-!
# Growing byte buffers

Class data is written front to back into a buffer.  A word whose value is known
only later is reserved first and overwritten afterwards; overwriting replaces
bytes that are already there and never grows the buffer.  Both operations are
described by what they do to the buffer's bytes as a list (`toList_append`,
`toList_overwrite?`).
-/

namespace ClassStub.Bytes

/-- Bytes written so far. -/
structure Buffer where
  bytes : Array UInt8 := #[]
  deriving DecidableEq

namespace Buffer

/-- The written bytes, front to back. -/
def toList (buffer : Buffer) : List UInt8 := buffer.bytes.toList

/-- The position at which the next byte is written. -/
def offset (buffer : Buffer) : Nat := buffer.bytes.size

/-- Writes bytes behind those written so far. -/
def append (buffer : Buffer) (more : List UInt8) : Buffer where
  bytes := buffer.bytes.appendList more

/-- Replaces the bytes from a position on, if all of them are already there. -/
def overwrite? (buffer : Buffer) (position : Nat) (value : List UInt8) : Option Buffer :=
  if position + value.length ≤ buffer.offset then
    some {
      bytes := (buffer.bytes.extract 0 position).appendList value ++
        buffer.bytes.extract (position + value.length) }
  else
    none

@[simp] theorem toList_append (buffer : Buffer) (more : List UInt8) :
    (buffer.append more).toList = buffer.toList ++ more := by
  simp [append, toList]

/-- Overwriting succeeds where the value fits into the written bytes, and keeps
the bytes around it. -/
theorem toList_overwrite? (buffer : Buffer) (position : Nat) (value : List UInt8) :
    (buffer.overwrite? position value).map toList =
      if position + value.length ≤ buffer.toList.length then
        some (buffer.toList.take position ++ value ++
          buffer.toList.drop (position + value.length))
      else
        none := by
  unfold overwrite? offset
  by_cases hfits : position + value.length ≤ buffer.bytes.size
  · simp only [hfits, ↓reduceIte, Option.map_some, toList, Array.toList_append,
      Array.toList_extract, Array.length_toList, List.extract_eq_take_drop]
    rw [List.take_of_length_le (l := List.drop _ _) (by simp)]
    simp
  · simp [hfits, toList]

end Buffer

end ClassStub.Bytes
