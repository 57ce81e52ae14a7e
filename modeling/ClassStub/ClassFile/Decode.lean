import ClassStub.ClassFile.Attribute

/-!
# Decoding classes

A class is its header, its fields, its methods and its attributes, and nothing
may follow them.  Decoding the header alone stops where the fields begin.
-/

namespace ClassStub

/-- The word that every class starts with. -/
def classMagic : UInt32 := 0xCAFEBABE

/-- The oldest and the newest supported major version. -/
def supportedVersions : Nat × Nat := (45, 69)

namespace ClassHeader

/-- Decodes a header and the pool inside it. -/
def decodeWithPool : Decoder (ClassHeader × Pool) := do
  let magic ← Reader.u32
  if magic ≠ classMagic then
    throw (.badMagic magic)
  let minor ← Reader.u16
  let major ← Reader.u16
  if major.toNat < supportedVersions.1 ∨ supportedVersions.2 < major.toNat then
    throw (.unsupportedVersion major minor)
  let pool ← Pool.decode
  let flags ← Reader.u16
  let name ← pool.className (← Reader.u16)
  let superName ← pool.className? (← Reader.u16)
  let interfaces ← Attribute.decodeClassNames pool
  return ({ version := { major, minor }, flags, name, superName, interfaces }, pool)

/-- The header of the class that bytes start with. -/
def decode (bytes : List UInt8) : Except FormatError ClassHeader :=
  (Prod.fst <$> decodeWithPool).decode bytes

end ClassHeader

def Field.decode (pool : Pool) : Decoder Field := do
  let flags ← Reader.u16
  let name ← pool.utf8 (← Reader.u16)
  let descriptor ← pool.utf8 (← Reader.u16)
  let attributes ← Attribute.decodeTable pool (Attribute.ofField pool descriptor)
  return attributes.foldl withAttribute { flags, name, descriptor }

def Method.decode (pool : Pool) : Decoder Method := do
  let flags ← Reader.u16
  let name ← pool.utf8 (← Reader.u16)
  let descriptor ← pool.utf8 (← Reader.u16)
  let attributes ← Attribute.decodeTable pool (Attribute.ofMethod pool)
  return attributes.foldl withAttribute { flags, name, descriptor }

namespace ClassFile

/-- Decodes a class and checks that nothing follows it. -/
def decoder : Decoder ClassFile := do
  let (header, pool) ← ClassHeader.decodeWithPool
  let fieldCount ← Reader.u16
  let fields ← Decoder.repeated (Field.decode pool) fieldCount.toNat
  let methodCount ← Reader.u16
  let methods ← Decoder.repeated (Method.decode pool) methodCount.toNat
  let attributes ← Attribute.decodeTable pool (Attribute.ofClass pool)
  let trailing := (← get).remaining
  if trailing = 0 then
    return attributes.foldl withAttribute { header, fields, methods, pool }
  else
    throw (.trailingBytes trailing)

/-- The class that bytes stand for. -/
def decode (bytes : List UInt8) : Except FormatError ClassFile :=
  decoder.decode bytes

end ClassFile

end ClassStub
