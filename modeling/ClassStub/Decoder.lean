import ClassStub.Constant.Basic
import ClassStub.Descriptor.Basic

/-!
# Decoding class data

Everything that can be wrong with class data is one cause of `FormatError`.  A
`Decoder` consumes bytes like a reader and fails with such a cause.  Data with a
count in front is read by `Decoder.repeated`, data with a length in front by
`Decoder.within`, which decodes the framed bytes on their own, counting
positions from the start of the frame.
-/

namespace ClassStub

/-- What a reference into the pool was supposed to lead to. -/
inductive ExpectedConstant where
  | ofKind (kind : Constant.Kind)
  | member
  deriving DecidableEq

/-- The name of an expectation in messages. -/
def ExpectedConstant.name : ExpectedConstant → String
  | ofKind kind => kind.name
  | member => "member reference"

/-- What is wrong with class data. -/
inductive FormatError where
  | unreadable (cause : ReadError)
  | descriptor (cause : DescriptorError)
  | badMagic (found : UInt32)
  | unsupportedVersion (major minor : UInt16)
  | badConstantTag (tag : UInt8) (index : Nat)
  | badConstantIndex (index : UInt16)
  | unexpectedConstant (index : UInt16) (expected : ExpectedConstant) (found : Constant.Kind)
  | badElementTag (tag : UInt8)
  | unreadAttributeBytes (name : String) (count : Nat)
  | noConstantForm (fieldType : String)
  | unsupportedOpcode (opcode : UInt8) (offset : Nat)
  | unpairedSurrogate (index : UInt16)
  | trailingBytes (count : Nat)
  deriving DecidableEq

/-- A number in hexadecimal digits, filled up with zeros from the left. -/
def hexText (width value : Nat) : String :=
  "0x" ++ String.ofList ((Nat.toDigits 16 value).leftpad width '0')

/-- The name of the attribute that holds the value of a constant field. -/
def constantValueName : String := "ConstantValue"

def FormatError.message : FormatError → String
  | unreadable cause => "Decode error: " ++ cause.message
  | descriptor cause => cause.message
  | badMagic found =>
    "Invalid magic number: expected 0xCAFEBABE, got " ++ hexText 8 found.toNat
  | unsupportedVersion major minor => s!"Unsupported class file version {major}.{minor}"
  | badConstantTag tag index => s!"Invalid constant pool tag {tag} at index {index}"
  | badConstantIndex index => s!"Invalid constant pool index {index}"
  | unexpectedConstant index expected found =>
    s!"Constant pool entry {index} is " ++ found.name ++ ", expected " ++ expected.name
  | badElementTag tag => "Invalid annotation element tag " ++ hexText 2 tag.toNat
  | unreadAttributeBytes name count =>
    s!"Malformed {name} attribute: {count} unread bytes"
  | noConstantForm fieldType =>
    s!"Malformed {constantValueName} attribute: no constant form for field type {fieldType}"
  | unsupportedOpcode opcode offset =>
    "Unsupported opcode " ++ hexText 2 opcode.toNat ++ s!" at offset {offset}"
  | unpairedSurrogate index => s!"Utf8 constant #{index} contains an unpaired surrogate"
  | trailingBytes count => s!"{count} trailing bytes after class data"

/-- A computation that consumes class data and may find it malformed. -/
abbrev Decoder := EStateM FormatError Cursor

namespace Decoder

/-- Reading bytes is decoding; its failures are format errors. -/
instance : MonadLift Reader Decoder where
  monadLift reader := reader.adaptExcept FormatError.unreadable

/-- Looking something up is decoding that consumes nothing. -/
instance : MonadLift (Except FormatError) Decoder where
  monadLift
    | .ok value => pure value
    | .error cause => throw cause

/-- Decodes one item after another, as many as the count says. -/
def repeated {α : Type} (item : Decoder α) : (count : Nat) → Decoder (List α)
  | 0 => return []
  | count + 1 => do
    let first ← item
    let more ← repeated item count
    return first :: more

/-- Decodes bytes that stand on their own, and counts those left over. -/
def within {α : Type} (framed : List UInt8) (decoder : Decoder α) : Decoder (α × Nat) :=
  match decoder.run (Cursor.ofBytes framed) with
  | .ok value rest => return (value, rest.remaining)
  | .error cause _ => throw cause

/-- Decodes from the first byte on and drops what is left over. -/
def decode {α : Type} (decoder : Decoder α) (bytes : List UInt8) : Except FormatError α :=
  match decoder.run (Cursor.ofBytes bytes) with
  | .ok value _ => .ok value
  | .error cause _ => .error cause

end Decoder

end ClassStub
