/-!
# Opcodes

The part of the instruction set that straight-line bodies use.  Every opcode
has one byte (`ofByte?_toByte`), and the bytes of all other instructions belong
to no opcode here.
-/

namespace ClassStub

/-- The operation of an instruction. -/
inductive Opcode where
  | nop
  | aconstNull
  | iconst1
  | ldc
  | ldcW
  | aload
  | aload0
  | aload1
  | aload2
  | aload3
  | dup
  | ireturn
  | areturn
  | returnVoid
  | invokeSpecial
  | invokeStatic
  | newObject
  | athrow
  deriving DecidableEq

namespace Opcode

/-- The byte that an instruction starts with. -/
def toByte : Opcode → UInt8
  | nop => 0x00
  | aconstNull => 0x01
  | iconst1 => 0x04
  | ldc => 0x12
  | ldcW => 0x13
  | aload => 0x19
  | aload0 => 0x2A
  | aload1 => 0x2B
  | aload2 => 0x2C
  | aload3 => 0x2D
  | dup => 0x59
  | ireturn => 0xAC
  | areturn => 0xB0
  | returnVoid => 0xB1
  | invokeSpecial => 0xB7
  | invokeStatic => 0xB8
  | newObject => 0xBB
  | athrow => 0xBF

/-- Every opcode, in the order of their bytes. -/
def all : List Opcode :=
  [nop, aconstNull, iconst1, ldc, ldcW, aload, aload0, aload1, aload2, aload3, dup, ireturn,
    areturn, returnVoid, invokeSpecial, invokeStatic, newObject, athrow]

/-- The opcode with the given byte. -/
def ofByte? (byte : UInt8) : Option Opcode :=
  all.find? fun opcode => opcode.toByte == byte

def name : Opcode → String
  | nop => "nop"
  | aconstNull => "aconst_null"
  | iconst1 => "iconst_1"
  | ldc => "ldc"
  | ldcW => "ldc_w"
  | aload => "aload"
  | aload0 => "aload_0"
  | aload1 => "aload_1"
  | aload2 => "aload_2"
  | aload3 => "aload_3"
  | dup => "dup"
  | ireturn => "ireturn"
  | areturn => "areturn"
  | returnVoid => "return"
  | invokeSpecial => "invokespecial"
  | invokeStatic => "invokestatic"
  | newObject => "new"
  | athrow => "athrow"

/-- Whether control never passes on to the next instruction. -/
def endsCode : Opcode → Bool
  | ireturn | areturn | returnVoid | athrow => true
  | _ => false

theorem ofByte?_toByte (opcode : Opcode) : ofByte? opcode.toByte = some opcode := by
  cases opcode <;> rfl

theorem toByte_of_ofByte? {byte : UInt8} {opcode : Opcode} (h : ofByte? byte = some opcode) :
    opcode.toByte = byte := by
  simpa using List.find?_some h

end Opcode

end ClassStub
