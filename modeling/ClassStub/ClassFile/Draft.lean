import ClassStub.Bytes.Buffer
import ClassStub.ClassFile.Decode
import ClassStub.Code.Body

/-!
# Writing classes

A class is written member by member.  Each member is encoded at once, which
interns what it refers to; class attributes are encoded at the end.  The written
class therefore depends only on the sequence of calls.

A member that cannot be encoded leaves behind what was interned and appended
before the failure, and is not counted.
-/

namespace ClassStub

/-- Encoded members of one kind, and how many there are. -/
structure MemberTable where
  encoded : Bytes.Buffer := {}
  count : Nat := 0

/-- The two kinds of members. -/
inductive MemberKind where
  | field
  | method
  deriving DecidableEq

/-- A class that is being written. -/
structure ClassDraft where
  pool : PoolBuilder
  version : Version
  flags : AccessFlags
  thisClass : UInt16
  superClass : UInt16
  interfaces : List UInt16
  signature : Option String
  deprecated : Bool := false
  visibleAnnotations : Array Annotation := #[]
  invisibleAnnotations : Array Annotation := #[]
  innerClasses : Array InnerClass := #[]
  fields : MemberTable := {}
  methods : MemberTable := {}

/-- A step of writing a class. -/
abbrev Writing := EStateM EncodeError ClassDraft

namespace ClassDraft

/-- An encoder interns into the pool of the class. -/
instance : MonadLift Encoder Writing where
  monadLift encoder draft :=
    let pool := draft.pool
    let draft := { draft with pool := {} }
    match encoder.run pool with
    | .ok value pool => .ok value { draft with pool }
    | .error cause pool => .error cause { draft with pool }

/-- Interns the name of a class, of its superclass and of its interfaces. -/
def internHeader (header : ClassHeader) : Encoder (UInt16 × UInt16 × List UInt16) := do
  let thisClass ← PoolBuilder.classRef header.name
  let superClass ← match header.superName with
    | some name => PoolBuilder.classRef name
    | none => pure 0
  let interfaces ← header.interfaces.mapM PoolBuilder.classRef
  return (thisClass, superClass, interfaces)

/-- Starts a class with a header and a generic signature. -/
def start (header : ClassHeader) (signature : Option String) : Except EncodeError ClassDraft :=
  match (internHeader header).run {} with
  | .error cause _ => .error cause
  | .ok (thisClass, superClass, interfaces) pool =>
    .ok { pool, version := header.version, flags := header.flags, thisClass, superClass,
          interfaces, signature }

def markDeprecated (draft : ClassDraft) : ClassDraft :=
  { draft with deprecated := true }

/-- Adds annotations to the visible or the invisible table of the class. -/
def annotate (draft : ClassDraft) (visible : Bool) (table : List Annotation) :
    ClassDraft :=
  if visible then
    { draft with visibleAnnotations := draft.visibleAnnotations.appendList table }
  else
    { draft with invisibleAnnotations := draft.invisibleAnnotations.appendList table }

def listInnerClass (draft : ClassDraft) (record : InnerClass) : ClassDraft :=
  { draft with innerClasses := draft.innerClasses.push record }

/-- Changes the table of one kind of members. -/
def changeTable (kind : MemberKind) (change : MemberTable → MemberTable)
    (draft : ClassDraft) : ClassDraft :=
  match kind with
  | .field => { draft with fields := change draft.fields }
  | .method => { draft with methods := change draft.methods }

/-- Appends bytes to the table of one kind of members. -/
def append (kind : MemberKind) (bytes : List UInt8) : Writing Unit :=
  modify (changeTable kind fun table => { table with encoded := table.encoded.append bytes })

/-- Adds a member with encoded attributes. -/
def writeMember (kind : MemberKind) (flags : AccessFlags) (name descriptor : String)
    (attributes : Encoder (List UInt8)) : Writing Unit := do
  append kind (Bytes.u16 flags)
  let name ← PoolBuilder.utf8 name
  append kind (Bytes.u16 name)
  let descriptor ← PoolBuilder.utf8 descriptor
  append kind (Bytes.u16 descriptor)
  let attributes ← attributes
  append kind attributes
  modify (changeTable kind fun table => { table with count := table.count + 1 })

def writeField (field : Field) : Writing Unit :=
  writeMember .field field.flags field.name field.descriptor
    (Attribute.encodeTable field.attributes)

/-- Encodes the code of a body, whose length must fit a 16-bit word. -/
def encodeBody (body : MethodBody) : Encoder CodeBytes := do
  let code ← body.encode
  if code.length ≤ maxWord then
    return { maxStack := body.maxStack, maxLocals := body.maxLocals, code }
  else
    throw (.codeTooLarge code.length)

/-- Encodes the attributes of a method whose code is the given body. -/
def encodeMethodAttributes (method : Method) (body : Option MethodBody) :
    Encoder (List UInt8) := do
  let code ← body.mapM encodeBody
  Attribute.encodeTable { method with code }.attributes

/-- Adds a method with the given body in place of its code. -/
def writeMethod (method : Method) (body : Option MethodBody) : Writing Unit :=
  writeMember .method method.flags method.name method.descriptor
    (encodeMethodAttributes method body)

/-- The attributes of the class, in the order in which they are written. -/
def attributes (draft : ClassDraft) : List Attribute :=
  Attribute.common draft.signature draft.deprecated draft.visibleAnnotations.toList
      draft.invisibleAnnotations.toList ++
    if draft.innerClasses.isEmpty then [] else [.innerClasses draft.innerClasses.toList]

/-- Encodes the finished class.  Its attributes are encoded first, since they
still intern constants. -/
def complete (draft : ClassDraft) : Except EncodeError (List UInt8) :=
  match (Attribute.encodeTable draft.attributes).run draft.pool with
  | .error cause _ => .error cause
  | .ok attributes pool => do
    let interfaceCount ← tableLength draft.interfaces.length
    let fieldCount ← tableLength draft.fields.count
    let methodCount ← tableLength draft.methods.count
    return Bytes.u32 classMagic ++ Bytes.u16 draft.version.minor ++
      Bytes.u16 draft.version.major ++ pool.bytes ++ Bytes.u16 draft.flags ++
      Bytes.u16 draft.thisClass ++ Bytes.u16 draft.superClass ++
      Bytes.u16 interfaceCount ++ draft.interfaces.flatMap Bytes.u16 ++
      Bytes.u16 fieldCount ++ draft.fields.encoded.toList ++
      Bytes.u16 methodCount ++ draft.methods.encoded.toList ++ attributes

end ClassDraft

end ClassStub
