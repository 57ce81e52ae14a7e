import ClassStub.Annotation.Normal
import ClassStub.ClassFile.Basic
import ClassStub.PackagePolicy

/-!
# The API surface of a class

The surface of a class is what its users can see of it: the header, the members
that count as API, and the inner classes, without code and without values of
constants.  Everything whose order means nothing is sorted, so that the surface
does not depend on the order of declarations.
-/

namespace ClassStub

structure SurfaceMethod where
  flags : AccessFlags
  name : String
  descriptor : String
  signature : Option String
  exceptions : List String
  annotations : List Retained
  visibleParameterAnnotations : Option (List (List Retained))
  invisibleParameterAnnotations : Option (List (List Retained))
  annotationDefault : Option ElementValue
  deprecated : Bool

structure SurfaceField where
  flags : AccessFlags
  name : String
  descriptor : String
  signature : Option String
  annotations : List Retained
  deprecated : Bool

/-- The API of a class. -/
structure Surface where
  header : ClassHeader
  signature : Option String
  annotations : List Retained
  deprecated : Bool
  methods : List SurfaceMethod
  fields : List SurfaceField
  innerClasses : List InnerClass

/-- The order of members: by name, then by descriptor. -/
def memberLe (first second : String × String) : Bool :=
  if first.1 = second.1 then first.2 ≤ second.2 else first.1 ≤ second.1

/-- The annotations of each parameter, in normal form. -/
def retainParameters (visible : Bool) (parameters : List (List Annotation)) :
    List (List Retained) :=
  parameters.map (Retained.ofTable visible)

/-- What the API shows of a method. -/
def Method.surface (method : Method) : SurfaceMethod where
  flags := method.flags
  name := method.name
  descriptor := method.descriptor
  signature := method.signature
  exceptions := method.exceptions
  annotations := Retained.ofTables method.visibleAnnotations method.invisibleAnnotations
  visibleParameterAnnotations := method.visibleParameterAnnotations.map (retainParameters true)
  invisibleParameterAnnotations :=
    method.invisibleParameterAnnotations.map (retainParameters false)
  annotationDefault := method.annotationDefault.map ElementValue.normalize
  deprecated := method.deprecated

def Field.surface (field : Field) : SurfaceField where
  flags := field.flags
  name := field.name
  descriptor := field.descriptor
  signature := field.signature
  annotations := Retained.ofTables field.visibleAnnotations field.invisibleAnnotations
  deprecated := field.deprecated

namespace PackagePolicy

/-- Whether a method counts as API.  Initialisers of classes never do;
constructors always do in a class with the modern call semantics, even private
ones. -/
def includesMethod (policy : PackagePolicy) (file : ClassFile) (method : Method) : Bool :=
  method.name ≠ "<clinit>" &&
    (policy.isVisible method.flags ||
      (file.header.flags.has .accSuper && method.name = "<init>"))

/-- Whether a field counts as API. -/
def includesField (policy : PackagePolicy) (field : Field) : Bool :=
  policy.isVisible field.flags

/-- Whether the record of an inner class is kept.  A declared policy drops those
that are visible only inside their package. -/
def includesInnerClass (policy : PackagePolicy) (record : InnerClass) : Bool :=
  policy.isOpen || Visibility.ofFlags record.flags ≠ .packageAccess

end PackagePolicy

namespace ClassFile

/-- The methods of a class that count as API, in declared order. -/
def apiMethods (file : ClassFile) (policy : PackagePolicy) : List Method :=
  file.methods.filter (policy.includesMethod file)

/-- The fields of a class that count as API, in declared order. -/
def apiFields (file : ClassFile) (policy : PackagePolicy) : List Field :=
  file.fields.filter policy.includesField

/-- The annotations of a class, in normal form. -/
def retainedAnnotations (file : ClassFile) : List Retained :=
  Retained.ofTables file.visibleAnnotations file.invisibleAnnotations

/-- The API of a class under a policy. -/
def surface (file : ClassFile) (policy : PackagePolicy) : Surface where
  header := file.header
  signature := file.signature
  annotations := file.retainedAnnotations
  deprecated := file.deprecated
  methods := ((file.apiMethods policy).map Method.surface).mergeSort fun first second =>
    memberLe (first.name, first.descriptor) (second.name, second.descriptor)
  fields := ((file.apiFields policy).map Field.surface).mergeSort fun first second =>
    memberLe (first.name, first.descriptor) (second.name, second.descriptor)
  innerClasses := (file.innerClasses.filter policy.includesInnerClass).mergeSort
    fun first second => decide (first.name ≤ second.name)

end ClassFile

end ClassStub
