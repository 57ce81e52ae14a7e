import ClassStub.ClassFile.Basic
import ClassStub.Code.Body
import ClassStub.Code.Disassembly

/-!
# Verification

A method has code exactly if it is neither abstract nor native.  Its code must
disassemble to straight-line instructions of which the last one, and no other,
ends the method; its limits must cover the parameters, every local slot that is
used, and the stack depth after every instruction; nothing may be popped from an
empty stack; and no number of slots may go beyond a 16-bit word.
-/

namespace ClassStub

/-- What is wrong with a method. -/
inductive VerifyError where
  | missingCode (method : String)
  | unexpectedCode (method : String)
  | badCode (method : String) (cause : FormatError)
  | fallsOffEnd (method : String)
  | unreachableCode (method : String) (index : Nat)
  | tooFewLocals (method : String) (required declared : Nat)
  | badLocal (method : String) (slot declared : Nat)
  | stackUnderflow (method : String) (index : Nat)
  | stackOverflow (method : String) (depth declared : Nat)
  | overflow
  | descriptor (cause : DescriptorError)
  deriving DecidableEq

def VerifyError.message : VerifyError → String
  | missingCode method => s!"Method {method} has no code"
  | unexpectedCode method => s!"Abstract or native method {method} has code"
  | badCode method cause => s!"Method {method} has undecodable code: " ++ cause.message
  | fallsOffEnd method => s!"Execution falls off end of method {method}"
  | unreachableCode method index => s!"Unreachable instruction {index} in method {method}"
  | tooFewLocals method required declared =>
    s!"Method {method} declares max_locals {declared} but needs {required}"
  | badLocal method slot declared =>
    s!"Invalid local variable reference {slot} (max {declared}) in method {method}"
  | stackUnderflow method index => s!"Stack underflow at instruction {index} in method {method}"
  | stackOverflow method depth declared =>
    s!"Stack depth {depth} exceeds max_stack {declared} in method {method}"
  | overflow => overflowMessage
  | descriptor cause => cause.message

/-- Refuses a local slot beyond the declared ones. -/
def verifyLocal (label : String) (code : CodeBytes) : Instruction → Except VerifyError Unit
  | .aload slot =>
    if slot.toNat < code.maxLocals.toNat then
      .ok ()
    else
      .error (.badLocal label slot.toNat code.maxLocals.toNat)
  | _ => .ok ()

def VerifyError.ofEffect : Instruction.EffectError → VerifyError
  | .descriptor cause => .descriptor cause
  | .overflow => .overflow

/-- The stack depth after an instruction, if it stays within the limits. -/
def verifyStack (label : String) (code : CodeBytes) (index depth : Nat)
    (instruction : Instruction) : Except VerifyError Nat := do
  let effect ← instruction.effect.mapError VerifyError.ofEffect
  if depth < effect.popped then
    throw (.stackUnderflow label index)
  let depth := depth - effect.popped + effect.pushed
  if maxWord < depth then
    throw .overflow
  if code.maxStack.toNat < depth then
    throw (.stackOverflow label depth code.maxStack.toNat)
  return depth

/-- Verifies instructions from an index and a stack depth on. -/
def verifyFrom (label : String) (code : CodeBytes) (index depth : Nat) :
    List Instruction → Except VerifyError Unit
  | [] => .error (.fallsOffEnd label)
  | instruction :: more => do
    verifyLocal label code instruction
    let depth ← verifyStack label code index depth instruction
    if instruction.endsCode then
      if more.isEmpty then
        return
      else
        throw (.unreachableCode label (index + 1))
    else
      verifyFrom label code (index + 1) depth more

def verifyCode (pool : Pool) (label : String) (method : Method) (code : CodeBytes) :
    Except VerifyError Unit := do
  let type ← (MethodDescriptor.parse method.descriptor).mapError VerifyError.descriptor
  let required := MethodBody.localSlots type method.isStatic
  if maxWord < required then
    throw .overflow
  if code.maxLocals.toNat < required then
    throw (.tooFewLocals label required code.maxLocals.toNat)
  let instructions ← (disassemble pool code.code).mapError (VerifyError.badCode label)
  verifyFrom label code 0 0 instructions

namespace ClassFile

/-- How a method of a class is named in messages. -/
def methodLabel (file : ClassFile) (method : Method) : String :=
  file.header.name ++ "." ++ method.name ++ method.descriptor

def verifyMethod (file : ClassFile) (method : Method) : Except VerifyError Unit :=
  match method.code, method.lacksCode with
  | none, true => .ok ()
  | some _, true => .error (.unexpectedCode (file.methodLabel method))
  | none, false => .error (.missingCode (file.methodLabel method))
  | some code, false => verifyCode file.pool (file.methodLabel method) method code

/-- Verifies every method of a class, up to the first that fails. -/
def verify (file : ClassFile) : Except VerifyError Unit :=
  file.methods.forM file.verifyMethod

end ClassFile

end ClassStub
