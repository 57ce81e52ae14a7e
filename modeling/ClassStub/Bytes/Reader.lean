import ClassStub.Bytes.BigEndian
import ClassStub.Text.Modified

/-!
# Reading bytes

A reader walks over bytes with a cursor.  Every read that asks for more bytes
than are left fails at the cursor's position.  A read made of several steps
keeps what its earlier steps consumed when a later one fails: a 64-bit word is
two 32-bit words, and a text is a 16-bit length, that many bytes, and then the
check that they are well-formed.
-/

namespace ClassStub

/-- Why bytes could not be read, with the position counted from the first
byte. -/
inductive ReadError where
  | unexpectedEnd (position : Nat)
  | malformedText (position : Nat)
  deriving DecidableEq

def ReadError.message : ReadError → String
  | .unexpectedEnd position => s!"Unexpected end of class data at offset {position}"
  | .malformedText position => s!"Invalid modified UTF-8 string at offset {position}"

/-- A place in a sequence of bytes: how many lie behind, and which lie ahead. -/
structure Cursor where
  position : Nat
  rest : List UInt8
  deriving DecidableEq

namespace Cursor

/-- The cursor in front of all bytes. -/
def ofBytes (bytes : List UInt8) : Cursor where
  position := 0
  rest := bytes

/-- The number of bytes ahead. -/
def remaining (cursor : Cursor) : Nat := cursor.rest.length

/-- Whether there are bytes ahead. -/
def hasMore (cursor : Cursor) : Bool := !cursor.rest.isEmpty

end Cursor

/-- A computation that consumes bytes and may fail; a failure leaves the cursor
where it happened. -/
abbrev Reader := EStateM ReadError Cursor

namespace Reader

/-- Consumes the next `count` bytes, or nothing if there are fewer. -/
def take (count : Nat) : Reader (List UInt8) := fun cursor =>
  let taken := cursor.rest.take count
  if taken.length < count then
    .error (.unexpectedEnd cursor.position) cursor
  else
    .ok taken { position := cursor.position + count, rest := cursor.rest.drop count }

/-- Passes over the next `count` bytes. -/
def skip (count : Nat) : Reader Unit := do
  let _ ← take count

def u8 : Reader UInt8 :=
  return UInt8.ofNat (Bytes.ofBigEndian (← take 1))

def u16 : Reader UInt16 :=
  return UInt16.ofNat (Bytes.ofBigEndian (← take 2))

def u32 : Reader UInt32 :=
  return UInt32.ofNat (Bytes.ofBigEndian (← take 4))

def i32 : Reader Int32 :=
  return (← u32).toInt32

/-- Consumes a 64-bit word, its upper half first. -/
def u64 : Reader UInt64 := do
  let high ← u32
  let low ← u32
  return UInt64.ofNat (high.toNat * 0x100000000 + low.toNat)

def i64 : Reader Int64 :=
  return (← u64).toInt64

/-- Consumes a text: its length in bytes as a 16-bit word, then its bytes. -/
def text : Reader JavaText := do
  let length ← u16
  let start := (← get).position
  let bytes ← take length.toNat
  match JavaText.ofBytes? bytes with
  | some text => return text
  | none => throw (.malformedText start)

end Reader

end ClassStub
