import ClassStub.Code.Opcode
import ClassStub.Constant.Builder
import ClassStub.Descriptor.Method

/-!
# Instructions

Instructions name classes, members and literals directly; pool indices appear
only in their written form.  The written form is one opcode byte with its
operands, and the opcode may depend on the operand: the first four local slots
and short pool indices have forms of their own.

The effect of an instruction on the operand stack is how many slots it pops and
then pushes.  For a call both follow from the descriptor of the method, and a
call that pops more slots than a 16-bit word counts has no effect at all.
-/

namespace ClassStub

/-- A literal that can be pushed from the pool. -/
inductive Literal where
  | int (value : Int32)
  | string (text : String)
  deriving DecidableEq

/-- An instruction of straight-line code. -/
inductive Instruction where
  | nop
  | aconstNull
  | iconst1
  | ldc (value : Literal)
  | aload (slot : UInt8)
  | dup
  | ireturn
  | areturn
  | returnVoid
  | invokeSpecial (method : MemberRef)
  | invokeStatic (method : MemberRef)
  | newObject (className : String)
  | athrow
  deriving DecidableEq

namespace Instruction

/-- The opcode that loads a reference from a local slot. -/
def aloadOpcode (slot : UInt8) : Opcode :=
  match slot with
  | 0 => .aload0
  | 1 => .aload1
  | 2 => .aload2
  | 3 => .aload3
  | _ => .aload

def opcode : Instruction → Opcode
  | nop => .nop
  | aconstNull => .aconstNull
  | iconst1 => .iconst1
  | ldc _ => .ldc
  | aload slot => aloadOpcode slot
  | dup => .dup
  | ireturn => .ireturn
  | areturn => .areturn
  | returnVoid => .returnVoid
  | invokeSpecial _ => .invokeSpecial
  | invokeStatic _ => .invokeStatic
  | newObject _ => .newObject
  | athrow => .athrow

/-- Whether control never passes on to the next instruction. -/
def endsCode (instruction : Instruction) : Bool :=
  instruction.opcode.endsCode

def internLiteral : Literal → Encoder UInt16
  | .int value => PoolBuilder.intern (.integer value)
  | .string text => PoolBuilder.string text

/-- The written form of a push of the pool entry at an index. -/
def ldcBytes (index : UInt16) : List UInt8 :=
  if index.toNat < 256 then
    [Opcode.ldc.toByte, UInt8.ofNat index.toNat]
  else
    Opcode.ldcW.toByte :: Bytes.u16 index

def encode : Instruction → Encoder (List UInt8)
  | ldc value => return ldcBytes (← internLiteral value)
  | aload slot =>
    match aloadOpcode slot with
    | .aload => return [Opcode.aload.toByte, slot]
    | short => return [short.toByte]
  | invokeSpecial method => do
    let index ← PoolBuilder.methodRef method
    return Opcode.invokeSpecial.toByte :: Bytes.u16 index
  | invokeStatic method => do
    let index ← PoolBuilder.methodRef method
    return Opcode.invokeStatic.toByte :: Bytes.u16 index
  | newObject className => do
    let index ← PoolBuilder.classRef className
    return Opcode.newObject.toByte :: Bytes.u16 index
  | plain => return [plain.opcode.toByte]

/-- How many stack slots an instruction pops and then pushes. -/
structure StackEffect where
  popped : Nat
  pushed : Nat
  deriving DecidableEq

/-- Why the stack effect of a call cannot be told. -/
inductive EffectError where
  | descriptor (cause : DescriptorError)
  | overflow
  deriving DecidableEq

/-- The stack effect of a call that also pops `receiver` slots. -/
def callEffect (method : MemberRef) (receiver : Nat) : Except EffectError StackEffect := do
  let descriptor ← (MethodDescriptor.parse method.descriptor).mapError EffectError.descriptor
  let popped := descriptor.argumentSlots + receiver
  if maxWord < popped then
    throw .overflow
  return { popped, pushed := descriptor.resultSlots }

def effect : Instruction → Except EffectError StackEffect
  | nop | returnVoid => .ok { popped := 0, pushed := 0 }
  | aconstNull | iconst1 | ldc _ | aload _ | newObject _ => .ok { popped := 0, pushed := 1 }
  | dup => .ok { popped := 1, pushed := 2 }
  | ireturn | areturn | athrow => .ok { popped := 1, pushed := 0 }
  | invokeStatic method => callEffect method 0
  | invokeSpecial method => callEffect method 1

end Instruction

end ClassStub
