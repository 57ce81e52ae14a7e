import ClassStub.Annotation.Codec
import ClassStub.ClassFile.Basic

/-!
# Attributes

What a class, a field or a method has beyond its name and flags is kept in a
table of named attributes.  Each attribute is framed by its length, so a table
can be read without knowing all of them: those that the place does not know are
passed over, those that it knows must fill their frame exactly.

A table is read into a list of attributes and written from one.  A declaration
is a base without attributes together with its list, the last attribute of a
kind winning, except that tables of exceptions add up.
-/

namespace ClassStub

/-- An attribute that is read or written. -/
inductive Attribute where
  | signature (text : String)
  | deprecated
  | annotations (visible : Bool) (table : List Annotation)
  | parameterAnnotations (visible : Bool) (tables : List (List Annotation))
  | annotationDefault (value : ElementValue)
  | constantValue (value : ConstantValue)
  | code (code : CodeBytes)
  | exceptions (names : List String)
  | innerClasses (records : List InnerClass)

namespace Attribute

def name : Attribute → String
  | signature _ => "Signature"
  | deprecated => "Deprecated"
  | annotations true _ => "RuntimeVisibleAnnotations"
  | annotations false _ => "RuntimeInvisibleAnnotations"
  | parameterAnnotations true _ => "RuntimeVisibleParameterAnnotations"
  | parameterAnnotations false _ => "RuntimeInvisibleParameterAnnotations"
  | annotationDefault _ => "AnnotationDefault"
  | constantValue _ => constantValueName
  | code _ => "Code"
  | exceptions _ => "Exceptions"
  | innerClasses _ => "InnerClasses"

/-! ## Decoding -/

/-- How the attributes of a place are decoded, by their names. -/
abbrev Recognition (α : Type) := String → Option (Decoder α)

/-- Decodes an attribute if the place recognises it, and passes over it
otherwise. -/
def decodeEntry {α : Type} (pool : Pool) (recognise : Recognition α) : Decoder (Option α) := do
  let name ← pool.utf8 (← Reader.u16)
  let length ← Reader.u32
  let body ← Reader.take length.toNat
  match recognise name with
  | none => return none
  | some decoder => do
    let (value, unread) ← Decoder.within body decoder
    if unread = 0 then
      return some value
    else
      throw (.unreadAttributeBytes name unread)

/-- Decodes a table of attributes into those that the place recognises. -/
def decodeTable {α : Type} (pool : Pool) (recognise : Recognition α) : Decoder (List α) := do
  let count ← Reader.u16
  let entries ← Decoder.repeated (decodeEntry pool recognise) count.toNat
  return entries.filterMap id

/-- Decodes names of classes with a count in front. -/
def decodeClassNames (pool : Pool) : Decoder (List String) := do
  let count ← Reader.u16
  Decoder.repeated (do pool.className (← Reader.u16)) count.toNat

/-- Looks up the value of a constant field, whose type selects the kind of
entry. -/
def lookUpConstant (pool : Pool) (descriptor : String) (index : UInt16) :
    Except FormatError ConstantValue := do
  match descriptor with
  | "B" => return .byte (← pool.integer index)
  | "C" => return .char (← pool.integer index)
  | "S" => return .short (← pool.integer index)
  | "Z" => return .boolean (← pool.integer index)
  | "I" => return .int (← pool.integer index)
  | "J" => return .long (← pool.long index)
  | "F" => return .float (← pool.float index)
  | "D" => return .double (← pool.double index)
  | _ =>
    match ← pool.entry index with
    | .string text => return .string (← pool.javaText text)
    | _ => throw (.noConstantForm descriptor)

/-- Decodes code.  Exception handlers and attributes of the code are passed
over. -/
def decodeCode (pool : Pool) : Decoder CodeBytes := do
  let maxStack ← Reader.u16
  let maxLocals ← Reader.u16
  let length ← Reader.u32
  let code ← Reader.take length.toNat
  let handlers ← Reader.u16
  Reader.skip (handlers.toNat * 8)
  let _ ← decodeTable (α := Unit) pool fun _ => none
  return { maxStack, maxLocals, code }

def decodeInnerClass (pool : Pool) : Decoder InnerClass := do
  let name ← pool.className (← Reader.u16)
  let outerName ← pool.className? (← Reader.u16)
  let innerName ← pool.utf8? (← Reader.u16)
  let flags ← Reader.u16
  return { name, outerName, innerName, flags }

/-- The attributes that any declaration can have. -/
def ofDeclaration (pool : Pool) : Recognition Attribute
  | "Signature" => some do return signature (← pool.utf8 (← Reader.u16))
  | "Deprecated" => some (return deprecated)
  | "RuntimeVisibleAnnotations" => some do
    return annotations true (← Annotation.decodeTable pool)
  | "RuntimeInvisibleAnnotations" => some do
    return annotations false (← Annotation.decodeTable pool)
  | _ => none

def ofClass (pool : Pool) : Recognition Attribute
  | "InnerClasses" => some do
    let count ← Reader.u16
    return innerClasses (← Decoder.repeated (decodeInnerClass pool) count.toNat)
  | other => ofDeclaration pool other

/-- The attributes of fields with a given descriptor. -/
def ofField (pool : Pool) (descriptor : String) : Recognition Attribute
  | "ConstantValue" => some do
    return constantValue (← lookUpConstant pool descriptor (← Reader.u16))
  | other => ofDeclaration pool other

/-- The attributes of methods. -/
def ofMethod (pool : Pool) : Recognition Attribute
  | "Code" => some do return code (← decodeCode pool)
  | "Exceptions" => some do return exceptions (← decodeClassNames pool)
  | "RuntimeVisibleParameterAnnotations" => some do
    return parameterAnnotations true (← Annotation.decodeParameters pool)
  | "RuntimeInvisibleParameterAnnotations" => some do
    return parameterAnnotations false (← Annotation.decodeParameters pool)
  | "AnnotationDefault" => some do return annotationDefault (← ElementValue.decode pool)
  | other => ofDeclaration pool other

/-! ## Encoding -/

/-- Encodes an attribute from its name and its body; the name is interned
first. -/
def encodeEntry (name : String) (body : Encoder (List UInt8)) : Encoder (List UInt8) := do
  let name ← PoolBuilder.utf8 name
  let content ← body
  return Bytes.u16 name ++ Bytes.u32 (UInt32.ofNat content.length) ++ content

/-- Interns the value of a constant field; texts are string literals and class
literals are classes. -/
def internConstant : ConstantValue → Encoder UInt16
  | .byte value | .char value | .short value | .boolean value | .int value =>
    PoolBuilder.intern (.integer value)
  | .long value => PoolBuilder.intern (.long value)
  | .float bits => PoolBuilder.intern (.float bits)
  | .double bits => PoolBuilder.intern (.double bits)
  | .string text => PoolBuilder.javaString text
  | .classLiteral name => PoolBuilder.classRef name

/-- Encodes the index of an entry that may be missing, 0 standing for none. -/
def encodeOptional {α : Type} (intern : α → Encoder UInt16) : Option α → Encoder (List UInt8)
  | none => return Bytes.u16 0
  | some value => return Bytes.u16 (← intern value)

def encodeClassName (name : String) : Encoder (List UInt8) :=
  return Bytes.u16 (← PoolBuilder.classRef name)

/-- The bytes of a record: the indices of three names and the flags. -/
def encodeInnerClass (record : InnerClass) : Encoder (List UInt8) := do
  let name ← encodeClassName record.name
  let outerName ← encodeOptional PoolBuilder.classRef record.outerName
  let innerName ← encodeOptional PoolBuilder.utf8 record.innerName
  return name ++ outerName ++ innerName ++ Bytes.u16 record.flags

/-- The written form of code without exception handlers and attributes. -/
def codeBody (body : CodeBytes) : List UInt8 :=
  Bytes.u16 body.maxStack ++ Bytes.u16 body.maxLocals ++
    Bytes.u32 (UInt32.ofNat body.code.length) ++ body.code ++ Bytes.u16 0 ++ Bytes.u16 0

/-- Encodes the body of an attribute, given the index of a constant value that
was interned before. -/
def encodeBody : Attribute → Encoder (List UInt8)
  | signature text => return Bytes.u16 (← PoolBuilder.utf8 text)
  | deprecated => return []
  | annotations _ table => Annotation.encodeTable table
  | parameterAnnotations _ tables => Annotation.encodeParameters tables
  | annotationDefault value => value.encode
  | constantValue value => return Bytes.u16 (← internConstant value)
  | code body => return codeBody body
  | exceptions names => Encoder.table encodeClassName names
  | innerClasses records => Encoder.table encodeInnerClass records

/-- Encodes an attribute.  The value of a constant field is interned before the
name of its attribute. -/
def encode : Attribute → Encoder (List UInt8)
  | constantValue value => do
    let index ← internConstant value
    encodeEntry constantValueName (return Bytes.u16 index)
  | other => encodeEntry other.name (encodeBody other)

def encodeTable (attributes : List Attribute) : Encoder (List UInt8) := do
  let body ← Encoder.concat encode attributes
  let count ← tableLength attributes.length
  return Bytes.u16 count ++ body

/-! ## Declarations as lists of attributes -/

/-- An annotation table as an attribute, left out when empty. -/
def ofAnnotations (visible : Bool) (table : List Annotation) : List Attribute :=
  if table.isEmpty then [] else [annotations visible table]

/-- The attributes that any declaration can have, as a list. -/
def common (signatureText : Option String) (isDeprecated : Bool)
    (visible invisible : List Annotation) : List Attribute :=
  (signatureText.map signature).toList ++ (if isDeprecated then [deprecated] else []) ++
    ofAnnotations true visible ++ ofAnnotations false invisible

end Attribute

/-- The attributes of a field, in the order in which they are written. -/
def Field.attributes (field : Field) : List Attribute :=
  (field.constantValue.map Attribute.constantValue).toList ++
    Attribute.common field.signature field.deprecated field.visibleAnnotations
      field.invisibleAnnotations

/-- A field with one more attribute. -/
def Field.withAttribute (field : Field) : Attribute → Field
  | .signature text => { field with signature := some text }
  | .constantValue value => { field with constantValue := some value }
  | .deprecated => { field with deprecated := true }
  | .annotations true table => { field with visibleAnnotations := table }
  | .annotations false table => { field with invisibleAnnotations := table }
  | _ => field

/-- The attributes of a method, in the order in which they are written. -/
def Method.attributes (method : Method) : List Attribute :=
  (method.code.map Attribute.code).toList ++
    (if method.exceptions.isEmpty then [] else [.exceptions method.exceptions]) ++
    Attribute.common method.signature method.deprecated method.visibleAnnotations
      method.invisibleAnnotations ++
    (method.visibleParameterAnnotations.map (Attribute.parameterAnnotations true)).toList ++
    (method.invisibleParameterAnnotations.map (Attribute.parameterAnnotations false)).toList ++
    (method.annotationDefault.map Attribute.annotationDefault).toList

/-- A method with one more attribute. -/
def Method.withAttribute (method : Method) : Attribute → Method
  | .signature text => { method with signature := some text }
  | .deprecated => { method with deprecated := true }
  | .annotations true table => { method with visibleAnnotations := table }
  | .annotations false table => { method with invisibleAnnotations := table }
  | .parameterAnnotations true tables => { method with visibleParameterAnnotations := some tables }
  | .parameterAnnotations false tables =>
    { method with invisibleParameterAnnotations := some tables }
  | .annotationDefault value => { method with annotationDefault := some value }
  | .code code => { method with code := some code }
  | .exceptions names => { method with exceptions := method.exceptions ++ names }
  | _ => method

/-- A class with one more attribute. -/
def ClassFile.withAttribute (file : ClassFile) : Attribute → ClassFile
  | .signature text => { file with signature := some text }
  | .deprecated => { file with deprecated := true }
  | .annotations true table => { file with visibleAnnotations := table }
  | .annotations false table => { file with invisibleAnnotations := table }
  | .innerClasses records => { file with innerClasses := records }
  | _ => file

end ClassStub
