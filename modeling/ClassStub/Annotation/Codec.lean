import ClassStub.Annotation.Basic
import ClassStub.Constant.Builder
import ClassStub.Constant.Pool

/-!
# The written form of annotations

An element value is a tag byte followed by pool indices or, for annotations and
arrays, by a count and that many parts.  Annotations stand in tables with a
count in front; the annotations of parameters are one table per parameter, with
an 8-bit count of parameters in front.

Values nest to any depth.  Every level has a tag of its own, so the number of
bytes ahead bounds the depth of what can be decoded.
-/

namespace ClassStub

/-! ## Encoding -/

def tagByte (tag : Char) : List UInt8 :=
  Bytes.u8 (UInt8.ofNat tag.toNat)

/-- Interns a constant as annotations refer to it: texts and class literals are
plain texts. -/
def ConstantValue.intern : ConstantValue → Encoder UInt16
  | .byte value | .char value | .short value | .boolean value | .int value =>
    PoolBuilder.intern (.integer value)
  | .long value => PoolBuilder.intern (.long value)
  | .float bits => PoolBuilder.intern (.float bits)
  | .double bits => PoolBuilder.intern (.double bits)
  | .string text => PoolBuilder.javaText text
  | .classLiteral descriptor => PoolBuilder.utf8 descriptor

mutual

/-- The bytes of a value: its tag, and then what the tag stands for. -/
def ElementValue.encode : ElementValue → Encoder (List UInt8)
  | .constant value => do
    let index ← value.intern
    return tagByte value.tag ++ Bytes.u16 index
  | .enumConstant type name => do
    let type ← PoolBuilder.utf8 type
    let name ← PoolBuilder.utf8 name
    return tagByte 'e' ++ Bytes.u16 type ++ Bytes.u16 name
  | .nested type elements => do
    let type ← PoolBuilder.utf8 type
    let count ← tableLength elements.length
    let body ← encodeElements elements
    return tagByte '@' ++ Bytes.u16 type ++ Bytes.u16 count ++ body
  | .array values => do
    let count ← tableLength values.length
    let body ← encodeValues values
    return tagByte '[' ++ Bytes.u16 count ++ body

/-- The bytes of elements, each behind the index of its name. -/
def encodeElements : List (String × ElementValue) → Encoder (List UInt8)
  | [] => return []
  | (name, value) :: elements => do
    let name ← PoolBuilder.utf8 name
    let first ← value.encode
    let more ← encodeElements elements
    return Bytes.u16 name ++ first ++ more

/-- The bytes of values, one behind the other. -/
def encodeValues : List ElementValue → Encoder (List UInt8)
  | [] => return []
  | value :: values => do
    let first ← value.encode
    let more ← encodeValues values
    return first ++ more

end

namespace Annotation

/-- The bytes of an annotation: the index of its type, and its elements behind their
count. -/
def encode (value : Annotation) : Encoder (List UInt8) := do
  let type ← PoolBuilder.utf8 value.type
  let count ← tableLength value.elements.length
  let body ← encodeElements value.elements
  return Bytes.u16 type ++ Bytes.u16 count ++ body

/-- The bytes of annotations behind their count. -/
def encodeTable (annotations : List Annotation) : Encoder (List UInt8) :=
  Encoder.table encode annotations

/-- Encodes one table of annotations for each parameter. -/
def encodeParameters (parameters : List (List Annotation)) : Encoder (List UInt8) := do
  if parameters.length < 256 then
    let body ← Encoder.concat encodeTable parameters
    return Bytes.u8 (UInt8.ofNat parameters.length) ++ body
  else
    throw (.tooManyItems parameters.length)

end Annotation

/-! ## Decoding -/

/-- Decodes an annotation whose element values are decoded by `value`. -/
def Annotation.decodeWith (pool : Pool) (value : Decoder ElementValue) : Decoder Annotation := do
  let type ← pool.utf8 (← Reader.u16)
  let count ← Reader.u16
  let elements ← Decoder.repeated (do
    let name ← pool.utf8 (← Reader.u16)
    let value ← value
    return (name, value)) count.toNat
  return { type, elements }

/-- Decodes an element value of at most the given depth. -/
def ElementValue.decodeWithin (pool : Pool) : (depth : Nat) → Decoder ElementValue
  | 0 => do throw (.unreadable (.unexpectedEnd (← get).position))
  | depth + 1 => do
    let tag ← Reader.u8
    match Char.ofNat tag.toNat with
    | 'B' => return .constant (.byte (← pool.integer (← Reader.u16)))
    | 'C' => return .constant (.char (← pool.integer (← Reader.u16)))
    | 'S' => return .constant (.short (← pool.integer (← Reader.u16)))
    | 'Z' => return .constant (.boolean (← pool.integer (← Reader.u16)))
    | 'I' => return .constant (.int (← pool.integer (← Reader.u16)))
    | 'J' => return .constant (.long (← pool.long (← Reader.u16)))
    | 'F' => return .constant (.float (← pool.float (← Reader.u16)))
    | 'D' => return .constant (.double (← pool.double (← Reader.u16)))
    | 's' => return .constant (.string (← pool.javaText (← Reader.u16)))
    | 'c' => return .constant (.classLiteral (← pool.utf8 (← Reader.u16)))
    | 'e' => return .enumConstant (← pool.utf8 (← Reader.u16)) (← pool.utf8 (← Reader.u16))
    | '@' => return (← Annotation.decodeWith pool (decodeWithin pool depth)).toValue
    | '[' => do
      let count ← Reader.u16
      return .array (← Decoder.repeated (decodeWithin pool depth) count.toNat)
    | _ => throw (.badElementTag tag)

/-- Reads a value as deep as there are bytes. -/
def ElementValue.decode (pool : Pool) : Decoder ElementValue := do
  decodeWithin pool (← get).remaining

namespace Annotation

def decode (pool : Pool) : Decoder Annotation := do
  decodeWith pool (ElementValue.decodeWithin pool (← get).remaining)

/-- Decodes a table of annotations whose element values are decoded by `value`. -/
def decodeTableWith (pool : Pool) (value : Decoder ElementValue) : Decoder (List Annotation) := do
  let count ← Reader.u16
  Decoder.repeated (decodeWith pool value) count.toNat

def decodeTable (pool : Pool) : Decoder (List Annotation) := do
  decodeTableWith pool (ElementValue.decodeWithin pool (← get).remaining)

/-- Decodes one table of annotations for each parameter. -/
def decodeParameters (pool : Pool) : Decoder (List (List Annotation)) := do
  let depth := (← get).remaining
  let count ← Reader.u8
  Decoder.repeated (decodeTableWith pool (ElementValue.decodeWithin pool depth)) count.toNat

end Annotation

end ClassStub
