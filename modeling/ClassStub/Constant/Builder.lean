import ClassStub.Constant.Basic
import ClassStub.Descriptor.Basic
import Std.Data.HashMap

/-!
# Constant pools of written classes

While a class is written, its pool grows: each constant is interned, which
gives the index of an equal entry if there is one and appends the constant
otherwise.  The pool that is written in the end therefore depends only on the
sequence of interned constants.  The size of a pool is a 16-bit word, so a
constant whose indices would go beyond it is refused.

An `Encoder` produces bytes and interns constants on the way.  What was interned
before a failure stays interned.
-/

namespace ClassStub

/-- What is said when a number of slots goes beyond a 16-bit word. -/
def overflowMessage : String := "attempt to add with overflow"

/-- Why a class could not be written. -/
inductive EncodeError where
  | poolOverflow
  | textTooLong (bytes : Nat)
  | tooManyItems (count : Nat)
  | codeTooLarge (bytes : Nat)
  | stackUnderflow (instruction : Nat)
  | overflow
  | descriptor (cause : DescriptorError)
  deriving DecidableEq

def EncodeError.message : EncodeError → String
  | poolOverflow => "Constant pool overflow"
  | textTooLong bytes => s!"String constant too long: {bytes} bytes"
  | tooManyItems count => s!"Too many items for a class file table: {count}"
  | codeTooLarge bytes => s!"Method code too large: {bytes} bytes"
  | stackUnderflow instruction => s!"Stack underflow at instruction {instruction}"
  | overflow => overflowMessage
  | descriptor cause => cause.message

/-- A growing constant pool: its entries in order, the index of each, and the
next free index. -/
structure PoolBuilder where
  entries : Array Constant := #[]
  indices : Std.HashMap Constant UInt16 := {}
  next : Nat := 1

/-- A computation that interns constants and may fail. -/
abbrev Encoder := EStateM EncodeError PoolBuilder

/-- The largest number that a 16-bit word holds. -/
def maxWord : Nat := 65535

/-- The length of a table as a 16-bit word. -/
def tableLength (count : Nat) : Except EncodeError UInt16 :=
  if count ≤ maxWord then .ok (UInt16.ofNat count) else .error (.tooManyItems count)

namespace Encoder

/-- A check is an encoder that interns nothing. -/
instance : MonadLift (Except EncodeError) Encoder where
  monadLift
    | .ok value => pure value
    | .error cause => throw cause

/-- Encodes one item after another. -/
def concat {α : Type} (encode : α → Encoder (List UInt8)) : List α → Encoder (List UInt8)
  | [] => return []
  | item :: items => do
    let first ← encode item
    let more ← concat encode items
    return first ++ more

/-- Encodes the length of a table as a 16-bit word, then its items. -/
def table {α : Type} (encode : α → Encoder (List UInt8)) (items : List α) :
    Encoder (List UInt8) := do
  let length ← tableLength items.length
  let body ← concat encode items
  return Bytes.u16 length ++ body

end Encoder

namespace PoolBuilder

/-- The size of the pool: one more than the indices that its entries take. -/
def count (builder : PoolBuilder) : Nat := builder.next

/-- The written form of the pool. -/
def bytes (builder : PoolBuilder) : List UInt8 :=
  Bytes.u16 (UInt16.ofNat builder.next) ++ builder.entries.toList.flatMap Constant.bytes

/-- The index of a constant, which is appended if no equal entry exists. -/
def intern (constant : Constant) : Encoder UInt16 := fun builder =>
  match builder.indices[constant]? with
  | some index => .ok index builder
  | none =>
    if builder.next + constant.slots ≤ maxWord then
      let index := UInt16.ofNat builder.next
      .ok index {
        entries := builder.entries.push constant
        indices := builder.indices.insert constant index
        next := builder.next + constant.slots }
    else
      .error .poolOverflow builder

/-- Interns a text constant, whose length must fit a 16-bit word. -/
def javaText (text : JavaText) : Encoder UInt16 :=
  if text.bytes.length ≤ maxWord then
    intern (.utf8 text)
  else
    throw (.textTooLong text.bytes.length)

def utf8 (text : String) : Encoder UInt16 :=
  javaText (JavaText.ofString text)

/-- Interns the class with a name. -/
def classRef (name : String) : Encoder UInt16 := do
  intern (.classRef (← utf8 name))

/-- Interns a string literal given as a text constant. -/
def javaString (text : JavaText) : Encoder UInt16 := do
  intern (.string (← javaText text))

def string (text : String) : Encoder UInt16 :=
  javaString (JavaText.ofString text)

def nameAndType (name descriptor : String) : Encoder UInt16 := do
  let name ← utf8 name
  let descriptor ← utf8 descriptor
  intern (.nameAndType name descriptor)

def methodRef (member : MemberRef) : Encoder UInt16 := do
  let owner ← classRef member.owner
  let nameAndType ← nameAndType member.name member.descriptor
  if member.ofInterface then
    intern (.interfaceMethodRef owner nameAndType)
  else
    intern (.methodRef owner nameAndType)

end PoolBuilder

end ClassStub
