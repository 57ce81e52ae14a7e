import ClassStub.Code.Instruction
import ClassStub.Constant.Pool

/-!
# Disassembly

Code bytes are read back into instructions, with pool indices resolved to what
they name.  Every instruction takes at least one byte.
-/

namespace ClassStub

namespace Instruction

/-- The literal at a pool index: an integer, or else a string literal. -/
def literalAt (pool : Pool) (index : UInt16) : Except FormatError Literal := do
  match ← pool.entry index with
  | .integer value => return .int value
  | _ => return .string (← pool.string index)

/-- Decodes the operands behind an opcode. -/
def decodeOperands (pool : Pool) : Opcode → Decoder Instruction
  | .nop => return nop
  | .aconstNull => return aconstNull
  | .iconst1 => return iconst1
  | .ldc => do
    let index ← Reader.u8
    return ldc (← literalAt pool index.toUInt16)
  | .ldcW => return ldc (← literalAt pool (← Reader.u16))
  | .aload => return aload (← Reader.u8)
  | .aload0 => return aload 0
  | .aload1 => return aload 1
  | .aload2 => return aload 2
  | .aload3 => return aload 3
  | .dup => return dup
  | .ireturn => return ireturn
  | .areturn => return areturn
  | .returnVoid => return returnVoid
  | .invokeSpecial => return invokeSpecial (← pool.member (← Reader.u16))
  | .invokeStatic => return invokeStatic (← pool.member (← Reader.u16))
  | .newObject => return newObject (← pool.className (← Reader.u16))
  | .athrow => return athrow

def decode (pool : Pool) : Decoder Instruction := do
  let offset := (← get).position
  let byte ← Reader.u8
  match Opcode.ofByte? byte with
  | some opcode => decodeOperands pool opcode
  | none => throw (.unsupportedOpcode byte offset)

/-- Decodes instructions up to the end of the code, at most `count` of them. -/
def decodeAll (pool : Pool) : (count : Nat) → Decoder (List Instruction)
  | 0 => return []
  | count + 1 => do
    if (← get).hasMore then
      let first ← decode pool
      let more ← decodeAll pool count
      return first :: more
    else
      return []

end Instruction

/-- The instructions that code bytes stand for. -/
def disassemble (pool : Pool) (code : List UInt8) : Except FormatError (List Instruction) :=
  (Instruction.decodeAll pool code.length).decode code

end ClassStub
