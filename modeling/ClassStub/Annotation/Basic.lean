import ClassStub.Text.Modified

/-!
# Annotations

An annotation has a type and named elements.  The value of an element is a
constant, an enum constant, another annotation or an array of values.  Small
integers of different types are different values although the pool keeps them
all as 32-bit integers.
-/

namespace ClassStub

/-- A value that the pool keeps: a number, a text, or a class named by its
descriptor. -/
inductive ConstantValue where
  | byte (value : Int32)
  | char (value : Int32)
  | short (value : Int32)
  | boolean (value : Int32)
  | int (value : Int32)
  | long (value : Int64)
  | float (bits : UInt32)
  | double (bits : UInt64)
  | string (text : JavaText)
  | classLiteral (descriptor : String)
  deriving DecidableEq

/-- The value of an annotation element. -/
inductive ElementValue where
  | constant (value : ConstantValue)
  | enumConstant (type name : String)
  | nested (type : String) (elements : List (String × ElementValue))
  | array (values : List ElementValue)

/-- An annotation: the descriptor of its type, and the elements that are given,
by name. -/
structure Annotation where
  type : String
  elements : List (String × ElementValue)

/-- An annotation as the value of an element. -/
def Annotation.toValue (value : Annotation) : ElementValue :=
  .nested value.type value.elements

/-- The tag of a constant among element values. -/
def ConstantValue.tag : ConstantValue → Char
  | byte _ => 'B'
  | char _ => 'C'
  | short _ => 'S'
  | boolean _ => 'Z'
  | int _ => 'I'
  | long _ => 'J'
  | float _ => 'F'
  | double _ => 'D'
  | string _ => 's'
  | classLiteral _ => 'c'

def ElementValue.tag : ElementValue → Char
  | constant value => value.tag
  | enumConstant _ _ => 'e'
  | nested _ _ => '@'
  | array _ => '['

end ClassStub
