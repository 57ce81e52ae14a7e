/-!
# Access flags

Classes, fields and methods carry a word of flags.  Some bits mean different
things on different kinds of declaration, so the source modifiers of a word
depend on the kind.  Visibility is read off the word alone, `public` winning
over `protected` and `protected` over `private`.
-/

namespace ClassStub

/-- The access flags of a declaration. -/
abbrev AccessFlags := UInt16

namespace AccessFlags

def accPublic : AccessFlags := 0x0001
def accPrivate : AccessFlags := 0x0002
def accProtected : AccessFlags := 0x0004
def accStatic : AccessFlags := 0x0008
def accFinal : AccessFlags := 0x0010
/-- On a class: superclass methods are looked up anew on each call. -/
def accSuper : AccessFlags := 0x0020
/-- On a method: declared `synchronized`. -/
def accSynchronized : AccessFlags := 0x0020
/-- On a field: declared `volatile`. -/
def accVolatile : AccessFlags := 0x0040
/-- On a field: declared `transient`. -/
def accTransient : AccessFlags := 0x0080
/-- On a method: declared `native`. -/
def accNative : AccessFlags := 0x0100
/-- On a class: is an interface. -/
def accInterface : AccessFlags := 0x0200
def accAbstract : AccessFlags := 0x0400
/-- On a method: declared `strictfp`. -/
def accStrict : AccessFlags := 0x0800
/-- Not present in source code. -/
def accSynthetic : AccessFlags := 0x1000

/-- Whether every bit of `flag` is set. -/
def has (flags flag : AccessFlags) : Bool := flags &&& flag == flag

/-- Whether some bit of `mask` is set. -/
def hasAny (flags mask : AccessFlags) : Bool := flags &&& mask != 0

end AccessFlags

/-- Who may use a declaration. -/
inductive Visibility where
  | publicAccess
  | protectedAccess
  | packageAccess
  | privateAccess
  deriving DecidableEq

/-- The visibility that access flags declare. -/
def Visibility.ofFlags (flags : AccessFlags) : Visibility :=
  if flags.hasAny .accPublic then .publicAccess
  else if flags.hasAny .accProtected then .protectedAccess
  else if flags.hasAny .accPrivate then .privateAccess
  else .packageAccess

/-- What kind of declaration access flags belong to. -/
inductive DeclarationKind where
  | classDeclaration
  | fieldDeclaration
  | methodDeclaration
  deriving DecidableEq

namespace DeclarationKind

/-- The modifiers that a kind of declaration can have, in the order in which
source code lists them. -/
def modifiers (kind : DeclarationKind) : List (AccessFlags × String) :=
  let visibility : List (AccessFlags × String) :=
    [(.accPublic, "public"), (.accProtected, "protected"), (.accPrivate, "private")]
  let abstractness : List (AccessFlags × String) := [(.accAbstract, "abstract")]
  let sharing : List (AccessFlags × String) := [(.accStatic, "static"), (.accFinal, "final")]
  match kind with
  | classDeclaration =>
    visibility ++ abstractness ++ sharing ++ [(.accInterface, "interface")]
  | fieldDeclaration =>
    visibility ++ sharing ++ [(.accTransient, "transient"), (.accVolatile, "volatile")]
  | methodDeclaration =>
    visibility ++ abstractness ++ sharing ++
      [(.accSynchronized, "synchronized"), (.accNative, "native"), (.accStrict, "strictfp")]

end DeclarationKind

/-- The source modifiers that access flags stand for, separated by blanks. -/
def AccessFlags.modifiers (flags : AccessFlags) (kind : DeclarationKind) : String :=
  " ".intercalate ((kind.modifiers.filter fun entry => flags.has entry.1).map (·.2))

end ClassStub
