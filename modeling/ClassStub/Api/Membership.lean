import ClassStub.ClassFile.Basic
import ClassStub.PackagePolicy

/-!
# Classes that belong to the API

A class belongs to the API if its package is allowed, if it is visible, and if
it is neither local nor anonymous.  Local and anonymous classes are told by
their names: behind the name of the enclosing class comes a dollar sign and a
number, then perhaps a name of their own.
-/

namespace ClassStub

/-- Digits of the numbers of local classes. -/
def isAsciiDigit (char : Char) : Bool :=
  '0' ≤ char && char ≤ '9'

/-- Characters of the names of local classes. -/
def isLocalNameChar (char : Char) : Bool :=
  isAsciiDigit char || ('a' ≤ char && char ≤ 'z') || ('A' ≤ char && char ≤ 'Z') ||
    char = '_' || char = '$'

/-- Whether a name goes on with a number and a name of its own. -/
def isLocalSuffix (chars : List Char) : Bool :=
  chars.head?.any isAsciiDigit && chars.all isLocalNameChar

/-- Whether a dollar sign splits the rest of a name into the end of an enclosing
name, which holds no line break, and a local suffix. -/
def hasLocalSuffix : List Char → Bool
  | [] => false
  | char :: rest =>
    (char = '$' && isLocalSuffix rest) || (char ≠ '\n' && hasLocalSuffix rest)

/-- Whether a name is that of a local or anonymous class.  The enclosing name is
not empty. -/
def isLocalName (name : String) : Bool :=
  match name.toList with
  | [] => false
  | char :: rest => char ≠ '\n' && hasLocalSuffix rest

/-- Whether a class belongs to the API under a policy. -/
def ClassHeader.isApi (header : ClassHeader) (policy : PackagePolicy) : Bool :=
  policy.allowsClass (ClassName.toBinary header.name) && policy.isVisible header.flags &&
    !isLocalName header.name

end ClassStub
