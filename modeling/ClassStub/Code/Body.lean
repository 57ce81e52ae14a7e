import ClassStub.Code.Instruction

/-!
# Method bodies

A body is straight-line code with two limits: how deep its operand stack gets,
and how many local slots its method has.  Both are exact numbers here, and code
for which one of them goes beyond a 16-bit word has no body.
-/

namespace ClassStub

/-- Instructions with the limits that are declared for them. -/
structure MethodBody where
  maxStack : UInt16
  maxLocals : UInt16
  instructions : List Instruction
  deriving DecidableEq

namespace MethodBody

/-- The greatest stack depth while instructions run, if the depth and the
greatest depth before them are given.  The index of the first instruction tells
where too much is popped. -/
def peakFrom (index depth peak : Nat) : List Instruction → Except EncodeError Nat
  | [] => .ok peak
  | instruction :: more =>
    match instruction.effect with
    | .error (.descriptor cause) => .error (.descriptor cause)
    | .error .overflow => .error .overflow
    | .ok effect =>
      if depth < effect.popped then
        .error (.stackUnderflow index)
      else
        let depth := depth - effect.popped + effect.pushed
        if maxWord < depth then
          .error .overflow
        else
          peakFrom (index + 1) depth (max peak depth) more

/-- The greatest stack depth while instructions run from an empty stack. -/
def peakDepth (instructions : List Instruction) : Except EncodeError Nat :=
  peakFrom 0 0 0 instructions

/-- The local slots that a method needs for its receiver and its parameters. -/
def localSlots (descriptor : MethodDescriptor) (isStatic : Bool) : Nat :=
  descriptor.argumentSlots + if isStatic then 0 else 1

/-- The body of a method with the least limits that its instructions allow. -/
def ofInstructions (instructions : List Instruction) (descriptor : String) (isStatic : Bool) :
    Except EncodeError MethodBody := do
  let type ← (MethodDescriptor.parse descriptor).mapError EncodeError.descriptor
  let locals := localSlots type isStatic
  if maxWord < locals then
    throw .overflow
  let peak ← peakDepth instructions
  return { maxStack := UInt16.ofNat peak, maxLocals := UInt16.ofNat locals, instructions }

def encode (body : MethodBody) : Encoder (List UInt8) :=
  Encoder.concat Instruction.encode body.instructions

end MethodBody

end ClassStub
