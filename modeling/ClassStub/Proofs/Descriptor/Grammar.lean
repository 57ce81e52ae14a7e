import ClassStub.Descriptor.Signature

/-!
# The grammar of signatures and descriptors

What a class may hold in the place of a signature or a descriptor, as syntax
trees of the official grammar: class signatures, method signatures, field
signatures and the raw descriptors of fields and methods (`Written`).  Every tree
has its spelling and the list of outer classes that it names, in the order of
the spelling and with repetitions.

Neither refers to how signatures are read.
-/

namespace ClassStub

/-- The mark of a variance in front of a type. -/
def Variance.mark : Variance → List Char
  | exactly => []
  | subtypes => ['+']
  | supertypes => ['-']

namespace Grammar

/-- The characters that structure signatures and stand in no identifier. -/
def reserved : List Char := ['.', ';', '[', '/', '<', '>', ':']

/-- A name without any of the characters that structure signatures. -/
structure Identifier where
  chars : List Char
  nonempty : chars ≠ []
  plain : ∀ char ∈ chars, char ∉ reserved

/-- A class that lies in no other class, with the parts of its package. -/
structure OuterClass where
  package : List Identifier
  name : Identifier

/-- The spelling of an outer class, with a slash behind each part of its package. -/
def OuterClass.chars (outer : OuterClass) : List Char :=
  outer.package.flatMap (fun part => part.chars ++ ['/']) ++ outer.name.chars

/-! ## Types -/

mutual

/-- A type whose values are references. -/
inductive ReferenceType where
  | classType (type : ClassType)
  | typeVariable (name : Identifier)
  | array (element : JavaType)

/-- A type of the language. -/
inductive JavaType where
  | primitive (type : Primitive)
  | reference (type : ReferenceType)

/-- An outer class with its type arguments, and the member classes behind it. -/
inductive ClassType where
  | mk (outer : OuterClass) (arguments : Arguments) (members : Members)

/-- Member classes, each with its type arguments. -/
inductive Members where
  | none
  | select (name : Identifier) (arguments : Arguments) (more : Members)

/-- Type arguments; where there are none, no brackets are written. -/
inductive Arguments where
  | none
  | wildcard (more : Arguments)
  | typed (variance : Variance) (type : ReferenceType) (more : Arguments)

end

/-- Brackets around type arguments or type parameters, if there are any. -/
def bracketed (inside : List Char) : List Char :=
  if inside = [] then [] else '<' :: inside ++ ['>']

mutual

/-- The spelling of a type of references. -/
def ReferenceType.chars : ReferenceType → List Char
  | .classType type => type.chars
  | .typeVariable name => 'T' :: name.chars ++ [';']
  | .array element => '[' :: element.chars

/-- The spelling of a type. -/
def JavaType.chars : JavaType → List Char
  | .primitive type => [type.letter]
  | .reference type => type.chars

/-- The spelling of a class, with its type arguments and member classes. -/
def ClassType.chars : ClassType → List Char
  | .mk outer arguments members =>
    'L' :: outer.chars ++ bracketed arguments.chars ++ members.chars ++ [';']

/-- The spelling of member classes, each behind a dot. -/
def Members.chars : Members → List Char
  | .none => []
  | .select name arguments more => '.' :: name.chars ++ bracketed arguments.chars ++ more.chars

/-- The spelling of type arguments without brackets. -/
def Arguments.chars : Arguments → List Char
  | .none => []
  | .wildcard more => '*' :: more.chars
  | .typed variance type more => variance.mark ++ type.chars ++ more.chars

end

mutual

/-- The outer classes that a type names, in the order of its spelling. -/
def ReferenceType.classes : ReferenceType → List String
  | .classType type => type.classes
  | .typeVariable _ => []
  | .array element => element.classes

/-- The outer classes that a type names. -/
def JavaType.classes : JavaType → List String
  | .primitive _ => []
  | .reference type => type.classes

/-- The outer class itself, and those that type arguments name. -/
def ClassType.classes : ClassType → List String
  | .mk outer arguments members =>
    String.ofList outer.chars :: (arguments.classes ++ members.classes)

/-- Member classes are no outer classes; their type arguments name some. -/
def Members.classes : Members → List String
  | .none => []
  | .select _ arguments more => arguments.classes ++ more.classes

/-- The outer classes that type arguments name. -/
def Arguments.classes : Arguments → List String
  | .none => []
  | .wildcard more => more.classes
  | .typed _ type more => type.classes ++ more.classes

end

/-- A type without type variables and type arguments, as raw descriptors have
it. -/
inductive RawType where
  | primitive (type : Primitive)
  | object (outer : OuterClass)
  | array (element : RawType)

namespace RawType

def chars : RawType → List Char
  | primitive type => [type.letter]
  | object outer => 'L' :: outer.chars ++ [';']
  | array element => '[' :: element.chars

def classes : RawType → List String
  | primitive _ => []
  | object outer => [String.ofList outer.chars]
  | array element => element.classes

end RawType

/-! ## Declarations -/

/-- The spelling of a type behind a mark. -/
def ReferenceType.markedChars (mark : Char) (type : ReferenceType) : List Char :=
  mark :: type.chars

/-- The bounds of a type parameter: a class bound or at least one interface
bound. -/
inductive Bounds where
  | ofClass (bound : ReferenceType) (interfaces : List ReferenceType)
  | ofInterfaces (first : ReferenceType) (more : List ReferenceType)

namespace Bounds

def chars : Bounds → List Char
  | ofClass bound interfaces =>
    bound.chars ++ interfaces.flatMap (ReferenceType.markedChars ':')
  | ofInterfaces first more => (first :: more).flatMap (ReferenceType.markedChars ':')

def classes : Bounds → List String
  | ofClass bound interfaces => bound.classes ++ interfaces.flatMap ReferenceType.classes
  | ofInterfaces first more => (first :: more).flatMap ReferenceType.classes

end Bounds

/-- The declaration of a type parameter. -/
structure TypeParameter where
  name : Identifier
  bounds : Bounds

/-- The spelling of a type parameter with its bounds. -/
def TypeParameter.chars (parameter : TypeParameter) : List Char :=
  parameter.name.chars ++ ':' :: parameter.bounds.chars

def TypeParameter.classes (parameter : TypeParameter) : List String :=
  parameter.bounds.classes

/-- What a method throws. -/
inductive Thrown where
  | classType (type : ClassType)
  | typeVariable (name : Identifier)

/-- What is thrown, as a type. -/
def Thrown.toType : Thrown → ReferenceType
  | classType type => .classType type
  | typeVariable name => .typeVariable name

/-- The spelling of a result; no type stands for no result. -/
def resultChars {α : Type} (chars : α → List Char) : Option α → List Char
  | none => ['V']
  | some type => chars type

def resultClasses {α : Type} (classes : α → List String) : Option α → List String
  | none => []
  | some type => classes type

/-- The signature of a class. -/
structure ClassSignature where
  typeParameters : List TypeParameter
  superclass : ClassType
  superinterfaces : List ClassType

/-- The signature of a method. -/
structure MethodSignature where
  typeParameters : List TypeParameter
  parameters : List JavaType
  result : Option JavaType
  thrown : List Thrown

/-- The spelling of a method without its type parameters. -/
def MethodSignature.bodyChars (signature : MethodSignature) : List Char :=
  '(' :: signature.parameters.flatMap JavaType.chars ++
    ')' :: resultChars JavaType.chars signature.result ++
      (signature.thrown.map Thrown.toType).flatMap (ReferenceType.markedChars '^')

/-- A signature or a raw descriptor. -/
inductive Written where
  | classSignature (signature : ClassSignature)
  | methodSignature (signature : MethodSignature)
  | fieldSignature (type : ReferenceType)
  | methodDescriptor (parameters : List RawType) (result : Option RawType)
  | fieldDescriptor (type : RawType)

namespace Written

def chars : Written → List Char
  | classSignature signature =>
    bracketed (signature.typeParameters.flatMap TypeParameter.chars) ++
      signature.superclass.chars ++ signature.superinterfaces.flatMap ClassType.chars
  | methodSignature signature =>
    bracketed (signature.typeParameters.flatMap TypeParameter.chars) ++ signature.bodyChars
  | fieldSignature type => type.chars
  | methodDescriptor parameters result =>
    '(' :: parameters.flatMap RawType.chars ++ ')' :: resultChars RawType.chars result
  | fieldDescriptor type => type.chars

/-- The spelling of a signature or descriptor. -/
def text (written : Written) : String :=
  String.ofList written.chars

/-- The outer classes that a signature or descriptor names, in the order of its
spelling. -/
def classes : Written → List String
  | classSignature signature =>
    signature.typeParameters.flatMap TypeParameter.classes ++ signature.superclass.classes ++
      signature.superinterfaces.flatMap ClassType.classes
  | methodSignature signature =>
    signature.typeParameters.flatMap TypeParameter.classes ++
      signature.parameters.flatMap JavaType.classes ++
        resultClasses JavaType.classes signature.result ++
          (signature.thrown.map Thrown.toType).flatMap ReferenceType.classes
  | fieldSignature type => type.classes
  | methodDescriptor parameters result =>
    parameters.flatMap RawType.classes ++ resultClasses RawType.classes result
  | fieldDescriptor type => type.classes

end Written

end Grammar

end ClassStub
