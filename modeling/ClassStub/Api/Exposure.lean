import ClassStub.Api.Surface
import ClassStub.Constant.Builder
import ClassStub.Descriptor.Signature
import ClassStub.Descriptor.Source

/-!
# Exposed types

An API may only expose types of allowed packages.  Types are exposed by the
supertypes of a class, by the signatures of members (or their descriptors, where
there is no signature), and by annotations at any depth.  Every place reports the
types that offend, in order of first appearance; the supertypes of a class are
checked together, each member and each annotation on its own.
-/

namespace ClassStub

/-- Where a supertype that is not allowed was found first. -/
inductive SupertypeOrigin where
  | superclass
  | signature
  | interface
  deriving DecidableEq

/-- How an API exposes types that are not allowed. -/
inductive Exposure where
  | supertype (className type : String) (origin : SupertypeOrigin)
  | supertypes (className : String) (types : List String)
  | methodType (method type : String)
  | fieldType (field type : String)
  | memberTypes (member : String) (types : List String)
  | annotationType (owner type : String)
  | annotationClass (owner type : String)
  | annotationEnum (owner type : String)
  deriving DecidableEq

namespace Exposure

/-- The end of a sentence about a type that is not allowed. -/
def notAllowed : String := "its package is not one of the allowed packages."

/-- The message about several types, one line for each. -/
def listTypes (subject : String) (types : List String) : String :=
  s!"The following types are referenced in {subject} but their package is not one of the " ++
    "allowed packages:\n" ++ String.join (types.map fun type => "   - " ++ type ++ "\n")

def message : Exposure → String
  | supertype className type .superclass =>
    s!"'{className}' extends '{type}' and {notAllowed}"
  | supertype className type .signature =>
    s!"'{className}' references disallowed API type '{type}' in superclass or interfaces."
  | supertype className type .interface =>
    s!"'{className}' declares interface '{type}' and {notAllowed}"
  | supertypes className types => listTypes s!"the supertypes of '{className}'" types
  | methodType method type =>
    s!"In {method}, type {type} is exposed in the public API but {notAllowed}"
  | fieldType field type => s!"Field '{field}' references disallowed API type '{type}'"
  | memberTypes member types => listTypes member types
  | annotationType owner type =>
    s!"'{owner}' is annotated with '{type}' effectively exposing it in the public API but " ++
      notAllowed
  | annotationClass owner type =>
    s!"'{owner}' references class '{type}' in an annotation value but {notAllowed}"
  | annotationEnum owner type =>
    s!"'{owner}' uses enum '{type}' in an annotation value but {notAllowed}"

end Exposure

/-- Why a class has no stub. -/
inductive ApiError where
  | exposed (cause : Exposure)
  | unreadable (reason : String)
  | malformed (cause : FormatError)
  | unwritable (cause : EncodeError)
  deriving DecidableEq

def ApiError.message : ApiError → String
  | exposed cause => cause.message
  | unreadable reason => "Failed to read class data: " ++ reason
  | malformed cause => "Malformed class file: " ++ cause.message
  | unwritable cause => "Failed to emit stub class: " ++ cause.message

namespace PackagePolicy

/-- Refuses a text that is no descriptor or signature. -/
def orMalformed {α : Type} (result : Except DescriptorError α) : Except ApiError α :=
  result.mapError fun cause => .malformed (.descriptor cause)

/-- The classes that a descriptor or signature refers to and that are not
allowed, by their dotted names. -/
def offenders (policy : PackagePolicy) (signature : String) : Except ApiError (List String) := do
  let classes ← orMalformed (distinctOuterClasses signature)
  return (classes.map ClassName.toBinary).filter fun name => !policy.allowsClass name

/-! ## Supertypes -/

/-- The name of a class if it is not allowed. -/
def offender? (policy : PackagePolicy) (internalName : String) : Option String :=
  let name := ClassName.toBinary internalName
  if policy.allowsClass name then none else some name

/-- The supertypes of a class that are not allowed, each with its first origin:
the superclass, then the classes of the signature, then the interfaces. -/
def supertypeOffenders (policy : PackagePolicy) (file : ClassFile) :
    Except ApiError (List (String × SupertypeOrigin)) := do
  let superclass := (file.header.superName.bind policy.offender?).toList
  let signature ← match file.signature with
    | some signature => policy.offenders signature
    | none => pure []
  let interfaces := file.header.interfaces.filterMap policy.offender?
  return (superclass.map (·, SupertypeOrigin.superclass) ++
    signature.map (·, SupertypeOrigin.signature) ++
    interfaces.map (·, SupertypeOrigin.interface)).eraseDupsBy
      fun first second => first.1 == second.1

/-- Refuses supertypes that are not allowed. -/
def checkSupertypes (policy : PackagePolicy) (file : ClassFile) : Except ApiError Unit := do
  let className := ClassName.toBinary file.header.name
  match ← policy.supertypeOffenders file with
  | [] => return
  | [(type, origin)] => throw (.exposed (.supertype className type origin))
  | several => throw (.exposed (.supertypes className (several.map (·.1))))

/-! ## Annotations -/

/-- Refuses a type, given as in source code, that is not allowed. -/
def checkType (policy : PackagePolicy) (exposure : String → Exposure) (descriptor : String) :
    Except ApiError Unit := do
  let type ← orMalformed (sourceTypeName descriptor)
  if policy.allowsClass type then
    return
  else
    throw (.exposed (exposure type))

/-- Refuses a class literal whose element type is a class that is not allowed. -/
def checkClassLiteral (policy : PackagePolicy) (owner descriptor : String) :
    Except ApiError Unit :=
  let element := descriptor.toList.dropWhile (· = '[')
  if element.head? = some 'L' then
    policy.checkType (.annotationClass owner) (String.ofList element)
  else
    .ok ()

mutual

/-- Refuses types that an element value exposes and that are not allowed. -/
def checkValue (policy : PackagePolicy) (owner : String) : ElementValue → Except ApiError Unit
  | .constant (.classLiteral descriptor) => policy.checkClassLiteral owner descriptor
  | .constant _ => .ok ()
  | .enumConstant type _ => policy.checkType (.annotationEnum owner) type
  | .nested type elements => do
    policy.checkType (.annotationType owner) type
    checkElements policy owner elements
  | .array values => checkValues policy owner values

def checkElements (policy : PackagePolicy) (owner : String) :
    List (String × ElementValue) → Except ApiError Unit
  | [] => .ok ()
  | (_, value) :: elements => do
    checkValue policy owner value
    checkElements policy owner elements

def checkValues (policy : PackagePolicy) (owner : String) :
    List ElementValue → Except ApiError Unit
  | [] => .ok ()
  | value :: values => do
    checkValue policy owner value
    checkValues policy owner values

end

def checkAnnotations (policy : PackagePolicy) (owner : String)
    (retained : List Retained) : Except ApiError Unit :=
  retained.forM fun one => policy.checkValue owner one.content.toValue

/-! ## Members -/

/-- Refuses a member whose signature, or else whose descriptor, exposes types
that are not allowed. -/
def checkMember (policy : PackagePolicy) (owner : String) (single : String → Exposure)
    (signature : Option String) (descriptor : String) : Except ApiError Unit := do
  match ← policy.offenders (signature.getD descriptor) with
  | [] => return
  | [type] => throw (.exposed (single type))
  | several => throw (.exposed (.memberTypes owner several))

/-- Checks everything that a method exposes. -/
def checkMethod (policy : PackagePolicy) (owner : String) (method : SurfaceMethod) :
    Except ApiError Unit := do
  policy.checkMember owner (.methodType owner) method.signature method.descriptor
  policy.checkAnnotations owner method.annotations
  (method.visibleParameterAnnotations.getD []).forM (policy.checkAnnotations owner)
  (method.invisibleParameterAnnotations.getD []).forM (policy.checkAnnotations owner)
  match method.annotationDefault with
  | some value => policy.checkValue owner value
  | none => return

/-- Checks everything that a field exposes. -/
def checkField (policy : PackagePolicy) (owner : String) (field : SurfaceField) :
    Except ApiError Unit := do
  policy.checkMember owner (.fieldType owner) field.signature field.descriptor
  policy.checkAnnotations owner field.annotations

end PackagePolicy

end ClassStub
