import ClassStub.Decoder

/-!
# Constant pools of decoded classes

A pool is a table of slots.  Slot 0 is unusable, and so is the slot behind a
64-bit number; every other slot holds the entry with its index.  A pool whose
declared size cuts a 64-bit number in half, or leaves no room for slot 0, is
malformed.

Lookups follow references through the table (`Pool.member` goes from a
member to its name, its descriptor and its owner) and fail at the first index
that leads to an unusable slot or to an entry of another kind.
-/

namespace ClassStub

/-- Decodes the entry with the given index. -/
def Constant.decode (index : Nat) : Decoder Constant := do
  let tag ← Reader.u8
  match tag with
  | 1 => return .utf8 (← Reader.text)
  | 3 => return .integer (← Reader.i32)
  | 4 => return .float (← Reader.u32)
  | 5 => return .long (← Reader.i64)
  | 6 => return .double (← Reader.u64)
  | 7 => return .classRef (← Reader.u16)
  | 8 => return .string (← Reader.u16)
  | 9 => return .fieldRef (← Reader.u16) (← Reader.u16)
  | 10 => return .methodRef (← Reader.u16) (← Reader.u16)
  | 11 => return .interfaceMethodRef (← Reader.u16) (← Reader.u16)
  | 12 => return .nameAndType (← Reader.u16) (← Reader.u16)
  | 15 => return .methodHandle (← Reader.u8) (← Reader.u16)
  | 16 => return .methodType (← Reader.u16)
  | 17 => return .dynamic (← Reader.u16) (← Reader.u16)
  | 18 => return .invokeDynamic (← Reader.u16) (← Reader.u16)
  | 19 => return .moduleRef (← Reader.u16)
  | 20 => return .packageRef (← Reader.u16)
  | _ => throw (.badConstantTag tag index)

/-- The constant pool of a decoded class. -/
structure Pool where
  slots : Array Constant := #[]

namespace Pool

/-- Decodes the slots from an index on, so many that `left` are filled.  The
declared size of the whole pool is reported when a 64-bit number does not fit. -/
def slotsFrom (declared : UInt16) (index : Nat) : (left : Nat) → Decoder (List Constant)
  | 0 => return []
  | left + 1 => do
    let constant ← Constant.decode index
    if constant.isWide then
      match left with
      | 0 => throw (.badConstantIndex declared)
      | left + 1 => return constant :: .unusable :: (← slotsFrom declared (index + 2) left)
    else
      return constant :: (← slotsFrom declared (index + 1) left)

/-- Decodes a pool: its size as a 16-bit word, then its entries. -/
def decode : Decoder Pool := do
  let declared ← Reader.u16
  if declared = 0 then
    throw (.badConstantIndex declared)
  let slots ← slotsFrom declared 1 (declared.toNat - 1)
  return { slots := (.unusable :: slots).toArray }

/-- The number of slots, with the unusable ones. -/
def size (pool : Pool) : Nat := pool.slots.size

/-- Whether a pool has no entry. -/
def isEmpty (pool : Pool) : Bool := pool.slots.size ≤ 1

/-- The entries of a pool with their indices, in order. -/
def entries (pool : Pool) : List (Nat × Constant) :=
  (pool.slots.toList.zipIdx.map fun (constant, index) => (index, constant)).filter
    fun entry => entry.2 ≠ .unusable

def entry (pool : Pool) (index : UInt16) : Except FormatError Constant :=
  match pool.slots[index.toNat]? with
  | none | some .unusable => .error (.badConstantIndex index)
  | some constant => .ok constant

/-- The failure of a lookup that led to an entry of another kind. -/
def mismatch {α : Type} (index : UInt16) (expected : Constant.Kind) (found : Constant) :
    Except FormatError α :=
  .error (.unexpectedConstant index (.ofKind expected) found.kind)

/-- The text at an index. -/
def javaText (pool : Pool) (index : UInt16) : Except FormatError JavaText := do
  match ← pool.entry index with
  | .utf8 text => return text
  | other => mismatch index .utf8 other

/-- The text at an index, which must not hold a lone surrogate. -/
def utf8 (pool : Pool) (index : UInt16) : Except FormatError String := do
  match (← pool.javaText index).toString? with
  | some text => return text
  | none => throw (.unpairedSurrogate index)

def className (pool : Pool) (index : UInt16) : Except FormatError String := do
  match ← pool.entry index with
  | .classRef name => pool.utf8 name
  | other => mismatch index .classRef other

/-- Follows an index unless it is 0. -/
def optional {α : Type} (lookup : UInt16 → Except FormatError α) (index : UInt16) :
    Except FormatError (Option α) :=
  if index = 0 then .ok none else (lookup index).map some

/-- The name of the class at an index, or none at index 0. -/
def className? (pool : Pool) : UInt16 → Except FormatError (Option String) :=
  optional pool.className

/-- The text at an index, or none at index 0. -/
def utf8? (pool : Pool) : UInt16 → Except FormatError (Option String) :=
  optional pool.utf8

/-- The text constant of the string literal at an index. -/
def stringText (pool : Pool) (index : UInt16) : Except FormatError JavaText := do
  match ← pool.entry index with
  | .string text => pool.javaText text
  | other => mismatch index .string other

/-- The text of the string literal at an index, which must not hold a lone
surrogate. -/
def string (pool : Pool) (index : UInt16) : Except FormatError String := do
  match ← pool.entry index with
  | .string text => pool.utf8 text
  | other => mismatch index .string other

/-- The 32-bit integer at an index. -/
def integer (pool : Pool) (index : UInt16) : Except FormatError Int32 := do
  match ← pool.entry index with
  | .integer value => return value
  | other => mismatch index .integer other

def float (pool : Pool) (index : UInt16) : Except FormatError UInt32 := do
  match ← pool.entry index with
  | .float bits => return bits
  | other => mismatch index .float other

def long (pool : Pool) (index : UInt16) : Except FormatError Int64 := do
  match ← pool.entry index with
  | .long value => return value
  | other => mismatch index .long other

def double (pool : Pool) (index : UInt16) : Except FormatError UInt64 := do
  match ← pool.entry index with
  | .double bits => return bits
  | other => mismatch index .double other

def nameAndType (pool : Pool) (index : UInt16) : Except FormatError (String × String) := do
  match ← pool.entry index with
  | .nameAndType name descriptor => return (← pool.utf8 name, ← pool.utf8 descriptor)
  | other => mismatch index .nameAndType other

/-- The member that a reference to an owner and to a name and type stands for.
The name and type are looked up first. -/
def resolveMember (pool : Pool) (owner nameAndType : UInt16) (ofInterface : Bool) :
    Except FormatError MemberRef := do
  let (name, descriptor) ← pool.nameAndType nameAndType
  return { owner := ← pool.className owner, name, descriptor, ofInterface }

/-- The field or method that the reference at an index stands for. -/
def member (pool : Pool) (index : UInt16) : Except FormatError MemberRef := do
  match ← pool.entry index with
  | .fieldRef owner nameAndType | .methodRef owner nameAndType =>
    pool.resolveMember owner nameAndType false
  | .interfaceMethodRef owner nameAndType => pool.resolveMember owner nameAndType true
  | other => throw (.unexpectedConstant index .member other.kind)

end Pool

end ClassStub
