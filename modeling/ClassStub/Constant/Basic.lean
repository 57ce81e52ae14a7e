import ClassStub.Bytes.Reader

/-!
# Constants

A class keeps its texts, numbers and references in one numbered table, the
constant pool.  Entries refer to each other by index.  Numbers of 64 bits take
two indices, the second of which is unusable, as is index 0.

The written form of a constant is a tag byte and its operands
(`Constant.bytes`).
-/

namespace ClassStub

/-- An entry of a constant pool.  Floating-point numbers are kept as their raw
bits, so that equality of entries is equality of their bytes. -/
inductive Constant where
  | utf8 (text : JavaText)
  | integer (value : Int32)
  | float (bits : UInt32)
  | long (value : Int64)
  | double (bits : UInt64)
  | classRef (name : UInt16)
  | string (text : UInt16)
  | fieldRef (owner nameAndType : UInt16)
  | methodRef (owner nameAndType : UInt16)
  | interfaceMethodRef (owner nameAndType : UInt16)
  | nameAndType (name descriptor : UInt16)
  | methodHandle (referenceKind : UInt8) (reference : UInt16)
  | methodType (descriptor : UInt16)
  | dynamic (bootstrap nameAndType : UInt16)
  | invokeDynamic (bootstrap nameAndType : UInt16)
  | moduleRef (name : UInt16)
  | packageRef (name : UInt16)
  | unusable
  deriving DecidableEq, Hashable

namespace Constant

inductive Kind where
  | utf8
  | integer
  | float
  | long
  | double
  | classRef
  | string
  | fieldRef
  | methodRef
  | interfaceMethodRef
  | nameAndType
  | methodHandle
  | methodType
  | dynamic
  | invokeDynamic
  | moduleRef
  | packageRef
  | unusable
  deriving DecidableEq

/-- The name of a kind in messages. -/
def Kind.name : Kind → String
  | utf8 => "Utf8"
  | integer => "Integer"
  | float => "Float"
  | long => "Long"
  | double => "Double"
  | classRef => "Class"
  | string => "String"
  | fieldRef => "Fieldref"
  | methodRef => "Methodref"
  | interfaceMethodRef => "InterfaceMethodref"
  | nameAndType => "NameAndType"
  | methodHandle => "MethodHandle"
  | methodType => "MethodType"
  | dynamic => "Dynamic"
  | invokeDynamic => "InvokeDynamic"
  | moduleRef => "Module"
  | packageRef => "Package"
  | unusable => "unusable"

def kind : Constant → Kind
  | utf8 _ => .utf8
  | integer _ => .integer
  | float _ => .float
  | long _ => .long
  | double _ => .double
  | classRef _ => .classRef
  | string _ => .string
  | fieldRef _ _ => .fieldRef
  | methodRef _ _ => .methodRef
  | interfaceMethodRef _ _ => .interfaceMethodRef
  | nameAndType _ _ => .nameAndType
  | methodHandle _ _ => .methodHandle
  | methodType _ => .methodType
  | dynamic _ _ => .dynamic
  | invokeDynamic _ _ => .invokeDynamic
  | moduleRef _ => .moduleRef
  | packageRef _ => .packageRef
  | unusable => .unusable

/-- Whether an entry takes two indices. -/
def isWide : Constant → Bool
  | long _ | double _ => true
  | _ => false

/-- The number of indices that an entry takes. -/
def slots (constant : Constant) : Nat :=
  if constant.isWide then 2 else 1

/-- The written form of an entry; an unusable one is not written. -/
def bytes : Constant → List UInt8
  | utf8 text => Bytes.u8 1 ++ Bytes.u16 (UInt16.ofNat text.bytes.length) ++ text.bytes
  | integer value => Bytes.u8 3 ++ Bytes.i32 value
  | float bits => Bytes.u8 4 ++ Bytes.u32 bits
  | long value => Bytes.u8 5 ++ Bytes.i64 value
  | double bits => Bytes.u8 6 ++ Bytes.u64 bits
  | classRef name => Bytes.u8 7 ++ Bytes.u16 name
  | string text => Bytes.u8 8 ++ Bytes.u16 text
  | fieldRef owner member => Bytes.u8 9 ++ Bytes.u16 owner ++ Bytes.u16 member
  | methodRef owner member => Bytes.u8 10 ++ Bytes.u16 owner ++ Bytes.u16 member
  | interfaceMethodRef owner member =>
    Bytes.u8 11 ++ Bytes.u16 owner ++ Bytes.u16 member
  | nameAndType name descriptor => Bytes.u8 12 ++ Bytes.u16 name ++ Bytes.u16 descriptor
  | methodHandle referenceKind reference =>
    Bytes.u8 15 ++ Bytes.u8 referenceKind ++ Bytes.u16 reference
  | methodType descriptor => Bytes.u8 16 ++ Bytes.u16 descriptor
  | dynamic bootstrap member =>
    Bytes.u8 17 ++ Bytes.u16 bootstrap ++ Bytes.u16 member
  | invokeDynamic bootstrap member =>
    Bytes.u8 18 ++ Bytes.u16 bootstrap ++ Bytes.u16 member
  | moduleRef name => Bytes.u8 19 ++ Bytes.u16 name
  | packageRef name => Bytes.u8 20 ++ Bytes.u16 name
  | unusable => []

end Constant

/-- A method or field named by its owner, its name and its descriptor. -/
structure MemberRef where
  owner : String
  name : String
  descriptor : String
  ofInterface : Bool := false
  deriving DecidableEq

end ClassStub
