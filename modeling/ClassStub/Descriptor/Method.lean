import ClassStub.Descriptor.FieldType

/-!
# Method descriptors

A method descriptor is `(`, the parameter types, `)`, and then the result type
or `V` for no result.  A malformed one is reported at the type that could not be
read, or at what follows the result.
-/

namespace ClassStub

/-- The parameter types and the result type of a method; no result type stands
for a method without a result. -/
structure MethodDescriptor where
  parameters : List FieldType
  result : Option FieldType
  deriving DecidableEq

namespace MethodDescriptor

def resultChars : Option FieldType → List Char
  | none => ['V']
  | some type => type.chars

def chars (descriptor : MethodDescriptor) : List Char :=
  '(' :: descriptor.parameters.flatMap FieldType.chars ++
    ')' :: resultChars descriptor.result

def resultDescriptor (descriptor : MethodDescriptor) : String :=
  String.ofList (resultChars descriptor.result)

/-- Reads parameter types up to the closing parenthesis, or fails with the
characters that are no type. -/
def readParameters (chars : List Char) : Except (List Char) (List FieldType × List Char) :=
  if chars.head? = some ')' then
    .ok ([], chars.tail)
  else
    match _hread : FieldType.read? chars with
    | none => .error chars
    | some (parameter, rest) =>
      match readParameters rest with
      | .error rest => .error rest
      | .ok (parameters, rest) => .ok (parameter :: parameters, rest)
termination_by chars.length
decreasing_by exact FieldType.length_lt_of_read? _hread

/-- Reads the result part. -/
def readResult (chars : List Char) : Except (List Char) (Option FieldType × List Char) :=
  if chars.head? = some 'V' then
    .ok (none, chars.tail)
  else
    match FieldType.read? chars with
    | none => .error chars
    | some (type, rest) => .ok (some type, rest)

/-- Reads a whole method descriptor, or fails with the characters from which on
it is malformed. -/
def read (chars : List Char) : Except (List Char) MethodDescriptor :=
  match chars with
  | '(' :: rest => do
    let (parameters, rest) ← readParameters rest
    let (result, rest) ← readResult rest
    if rest.isEmpty then
      return { parameters, result }
    else
      throw rest
  | _ => .error chars

/-- The method descriptor that a text spells. -/
def parse (text : String) : Except DescriptorError MethodDescriptor :=
  (read text.toList).mapError (DescriptorError.atRest text)

/-- The number of local variable slots that the parameters take. -/
def argumentSlots (descriptor : MethodDescriptor) : Nat :=
  descriptor.parameters.foldr (fun type total => type.slots + total) 0

/-- The number of operand stack slots that the result takes. -/
def resultSlots (descriptor : MethodDescriptor) : Nat :=
  match descriptor.result with
  | none => 0
  | some type => type.slots

end MethodDescriptor

end ClassStub
