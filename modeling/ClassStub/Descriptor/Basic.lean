/-!
# Descriptors: common parts

Descriptors and generic signatures share the letters of the primitive types and
the way a malformed text is reported: the text and the position, counted in
UTF-8 bytes, at which reading failed.  Readers work on characters and fail with
the characters they could not read; the position follows from how many bytes
these take up at the end of the text.
-/

namespace ClassStub

/-- A malformed descriptor or signature. -/
structure DescriptorError where
  text : String
  offset : Nat
  deriving DecidableEq

def DescriptorError.message : DescriptorError → String
  | { text, offset } => s!"Invalid descriptor or signature '{text}' at offset {offset}"

/-- The number of bytes that characters take in UTF-8. -/
def utf8Length : List Char → Nat
  | [] => 0
  | char :: rest => char.utf8Size + utf8Length rest

/-- The error of a text that could not be read from the given end of it on. -/
def DescriptorError.atRest (text : String) (rest : List Char) : DescriptorError where
  text
  offset := utf8Length text.toList - utf8Length rest

inductive Primitive where
  | byte
  | char
  | double
  | float
  | int
  | long
  | short
  | boolean
  deriving DecidableEq

namespace Primitive

/-- The letter of a primitive type in descriptors. -/
def letter : Primitive → Char
  | byte => 'B'
  | char => 'C'
  | double => 'D'
  | float => 'F'
  | int => 'I'
  | long => 'J'
  | short => 'S'
  | boolean => 'Z'

/-- The name of a primitive type in source code. -/
def sourceName : Primitive → String
  | byte => "byte"
  | char => "char"
  | double => "double"
  | float => "float"
  | int => "int"
  | long => "long"
  | short => "short"
  | boolean => "boolean"

def all : List Primitive :=
  [byte, char, double, float, int, long, short, boolean]

/-- The primitive type with the given letter. -/
def ofLetter? (char : Char) : Option Primitive :=
  all.find? fun type => type.letter == char

/-- The number of local variable slots that a value takes. -/
def slots : Primitive → Nat
  | double | long => 2
  | _ => 1

@[simp] theorem ofLetter?_letter (type : Primitive) : ofLetter? type.letter = some type := by
  cases type <;> rfl

theorem letter_of_ofLetter? {char : Char} {type : Primitive} (h : ofLetter? char = some type) :
    type.letter = char := by
  simpa using List.find?_some h

end Primitive

end ClassStub
