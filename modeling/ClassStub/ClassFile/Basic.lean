import ClassStub.AccessFlags
import ClassStub.Annotation.Basic
import ClassStub.Constant.Pool

/-!
# Class files

A decoded class with its members.  Names, descriptors and signatures are
resolved texts; only code is kept as bytes, which is why a class keeps its pool.
-/

namespace ClassStub

structure Version where
  major : UInt16
  minor : UInt16
  deriving DecidableEq

/-- What stands before the members of a class.  A class without superclass is
the root of the class hierarchy. -/
structure ClassHeader where
  version : Version
  flags : AccessFlags
  name : String
  superName : Option String
  interfaces : List String
  deriving DecidableEq

def ClassHeader.isInterface (header : ClassHeader) : Bool :=
  header.flags.has .accInterface

/-- The code of a method in its written form, with its declared limits. -/
structure CodeBytes where
  maxStack : UInt16
  maxLocals : UInt16
  code : List UInt8
  deriving DecidableEq

structure Field where
  flags : AccessFlags
  name : String
  descriptor : String
  signature : Option String := none
  constantValue : Option ConstantValue := none
  deprecated : Bool := false
  visibleAnnotations : List Annotation := []
  invisibleAnnotations : List Annotation := []

/-- Whether a field belongs to the class and not to its instances. -/
def Field.isStatic (field : Field) : Bool :=
  field.flags.has .accStatic

structure Method where
  flags : AccessFlags
  name : String
  descriptor : String
  signature : Option String := none
  exceptions : List String := []
  deprecated : Bool := false
  visibleAnnotations : List Annotation := []
  invisibleAnnotations : List Annotation := []
  visibleParameterAnnotations : Option (List (List Annotation)) := none
  invisibleParameterAnnotations : Option (List (List Annotation)) := none
  annotationDefault : Option ElementValue := none
  code : Option CodeBytes := none

namespace Method

/-- Whether a method belongs to the class and not to its instances. -/
def isStatic (method : Method) : Bool :=
  method.flags.has .accStatic

/-- Whether a method has no code of its own. -/
def lacksCode (method : Method) : Bool :=
  method.flags.hasAny (.accAbstract ||| .accNative)

end Method

/-- A record of a class that is declared inside another one.  Local classes have
no outer class, anonymous ones no name of their own. -/
structure InnerClass where
  name : String
  outerName : Option String
  innerName : Option String
  flags : AccessFlags
  deriving DecidableEq

/-- A decoded class. -/
structure ClassFile where
  header : ClassHeader
  signature : Option String := none
  deprecated : Bool := false
  fields : List Field
  methods : List Method
  innerClasses : List InnerClass := []
  visibleAnnotations : List Annotation := []
  invisibleAnnotations : List Annotation := []
  pool : Pool

namespace ClassFile

/-- The first method with a name and a descriptor. -/
def method? (file : ClassFile) (name descriptor : String) : Option Method :=
  file.methods.find? fun method => method.name == name && method.descriptor == descriptor

/-- The first field with a name. -/
def field? (file : ClassFile) (name : String) : Option Field :=
  file.fields.find? fun field => field.name == name

end ClassFile

end ClassStub
