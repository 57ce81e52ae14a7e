import ClassStub.Descriptor.Basic

/-!
# Generic signatures

One grammar covers the descriptor of a field, the signature of a field, the
signature of a method and the signature of a class:

* a **type** is a primitive, a type variable, an array or a class type; a class
  type is an outer class name followed by type arguments and inner class names;
* a **method** lists its parameter types, its result and what it throws;
* anything else is a non-empty list of types: one for a field, the superclass
  and the superinterfaces for a class;
* either may start with type parameters, each with its bounds.

Reading yields the tree of a text (`Signature.parse`), and the classes that a text
refers to are the outer classes of the tree (`Signature.outerClasses`), each once, in
order of first appearance (`distinctOuterClasses`).
-/

namespace ClassStub

/-- How a type argument relates to the type it names. -/
inductive Variance where
  | exactly
  | subtypes
  | supertypes
  deriving DecidableEq

mutual

/-- A type in a signature. -/
inductive SignatureType where
  | primitive (type : Primitive)
  | variable (name : String)
  | array (element : SignatureType)
  | classType (outer : String) (tail : ClassTail)

/-- What follows the outer name of a class type. -/
inductive ClassTail where
  | done
  | inner (name : String) (tail : ClassTail)
  | applied (arguments : TypeArguments) (tail : ClassTail)

/-- A list of type arguments; an unbounded wildcard names no type. -/
inductive TypeArguments where
  | nil
  | wildcard (more : TypeArguments)
  | typed (variance : Variance) (type : SignatureType) (more : TypeArguments)

end

/-- A type variable of a declaration with its bounds. -/
structure TypeParameter where
  name : String
  classBound : Option SignatureType
  interfaceBounds : List SignatureType

/-- What a signature declares. -/
inductive SignatureBody where
  | types (types : List SignatureType)
  | method (parameters : List SignatureType) (result : Option SignatureType)
      (thrown : List SignatureType)

/-- A descriptor or signature. -/
structure Signature where
  typeParameters : Option (List TypeParameter)
  body : SignatureBody

/-! ## Classes referred to -/

mutual

/-- The outer classes of a type, in the order of its text. -/
def SignatureType.outerClasses : SignatureType → List String
  | .primitive _ => []
  | .variable _ => []
  | .array element => element.outerClasses
  | .classType outer tail => outer :: tail.outerClasses

def ClassTail.outerClasses : ClassTail → List String
  | .done => []
  | .inner _ tail => tail.outerClasses
  | .applied arguments tail => arguments.outerClasses ++ tail.outerClasses

def TypeArguments.outerClasses : TypeArguments → List String
  | .nil => []
  | .wildcard more => more.outerClasses
  | .typed _ type more => type.outerClasses ++ more.outerClasses

end

def TypeParameter.outerClasses (parameter : TypeParameter) : List String :=
  (parameter.classBound.map SignatureType.outerClasses).getD [] ++
    parameter.interfaceBounds.flatMap SignatureType.outerClasses

def SignatureBody.outerClasses : SignatureBody → List String
  | .types listed => listed.flatMap SignatureType.outerClasses
  | .method parameters result thrown =>
    parameters.flatMap SignatureType.outerClasses ++
      (result.map SignatureType.outerClasses).getD [] ++
      thrown.flatMap SignatureType.outerClasses

/-- The outer classes of a signature, in the order of its text. -/
def Signature.outerClasses (signature : Signature) : List String :=
  (signature.typeParameters.map (List.flatMap TypeParameter.outerClasses)).getD [] ++
    signature.body.outerClasses

/-! ## Reading -/

/-- Reads something from the front of a text and gives it with what follows, or
fails with the characters at which the text is malformed. -/
abbrev SignatureReader (α : Type) := List Char → Except (List Char) (α × List Char)

namespace SignatureReader

/-- Identifiers hold none of the characters that structure a signature. -/
def isNameChar (char : Char) : Bool :=
  char ≠ '<' && char ≠ '>' && char ≠ ';' && char ≠ ':' && char ≠ '.'

/-- Reads a non-empty identifier in front of one of the given characters, which
is left in place. -/
def identifier (stops : List Char) : SignatureReader String := fun chars =>
  let name := chars.takeWhile isNameChar
  let rest := chars.dropWhile isNameChar
  match rest with
  | [] => .error rest
  | stop :: _ =>
    if name.isEmpty || !stops.contains stop then .error rest
    else .ok (String.ofList name, rest)

/-- Reads an identifier and the character that closes it. -/
def closedIdentifier (stop : Char) : SignatureReader String := fun chars => do
  let (name, rest) ← identifier [stop] chars
  return (name, rest.drop 1)

/-- The primitive type at the front of a text. -/
def primitive? (chars : List Char) : Option Primitive :=
  chars.head?.bind Primitive.ofLetter?

/-- The characters that may follow a class name. -/
def classNameStops : List Char := ['<', '.', ';']

mutual

/-- Reads a type variable, an array or a class type.  As everywhere below, the
first argument bounds the depth of the recursion. -/
def referenceWithin : Nat → SignatureReader SignatureType
  | 0, chars => .error chars
  | fuel + 1, chars =>
    match chars with
    | 'L' :: rest => do
      let (outer, rest) ← identifier classNameStops rest
      let (tail, rest) ← tailWithin fuel rest
      return (.classType outer tail, rest)
    | 'T' :: rest => do
      let (name, rest) ← closedIdentifier ';' rest
      return (.variable name, rest)
    | '[' :: rest =>
      match primitive? rest with
      | some type => return (.array (.primitive type), rest.drop 1)
      | none => do
        let (element, rest) ← referenceWithin fuel rest
        return (.array element, rest)
    | _ => .error chars

/-- Reads what follows the outer name of a class type, up to its `;`. -/
def tailWithin : Nat → SignatureReader ClassTail
  | 0, chars => .error chars
  | fuel + 1, chars =>
    match chars with
    | ';' :: rest => return (.done, rest)
    | '.' :: rest => do
      let (name, rest) ← identifier classNameStops rest
      let (tail, rest) ← tailWithin fuel rest
      return (.inner name tail, rest)
    | '<' :: rest =>
      if rest.head? = some '>' then
        .error rest
      else do
        let (arguments, rest) ← argumentsWithin fuel rest
        let (tail, rest) ← tailWithin fuel rest
        return (.applied arguments tail, rest)
    | _ => .error chars

/-- Reads type arguments up to the closing bracket, which is consumed. -/
def argumentsWithin : Nat → SignatureReader TypeArguments
  | 0, chars => .error chars
  | fuel + 1, chars =>
    match chars with
    | '>' :: rest => return (.nil, rest)
    | '*' :: rest => do
      let (more, rest) ← argumentsWithin fuel rest
      return (.wildcard more, rest)
    | '+' :: rest => do
      let (type, rest) ← referenceWithin fuel rest
      let (more, rest) ← argumentsWithin fuel rest
      return (.typed .subtypes type more, rest)
    | '-' :: rest => do
      let (type, rest) ← referenceWithin fuel rest
      let (more, rest) ← argumentsWithin fuel rest
      return (.typed .supertypes type more, rest)
    | _ => do
      let (type, rest) ← referenceWithin fuel chars
      let (more, rest) ← argumentsWithin fuel rest
      return (.typed .exactly type more, rest)

end

def anyType (fuel : Nat) : SignatureReader SignatureType := fun chars =>
  match primitive? chars with
  | some type => .ok (.primitive type, chars.drop 1)
  | none => referenceWithin fuel chars

/-- Reads items as long as `continues` holds of what is ahead. -/
def many {α : Type} (continues : List Char → Bool) (item : SignatureReader α) :
    Nat → SignatureReader (List α)
  | 0, chars => .error chars
  | fuel + 1, chars =>
    if continues chars then do
      let (first, rest) ← item chars
      let (more, rest) ← many continues item fuel rest
      return (first :: more, rest)
    else
      return ([], chars)

/-- Reads items up to a closing character, which is consumed. -/
def upTo {α : Type} (closing : Char) (item : SignatureReader α) (fuel : Nat) :
    SignatureReader (List α) := fun chars => do
  let (items, rest) ← many (fun chars => chars.head? ≠ some closing) item fuel chars
  return (items, rest.drop 1)

/-- Reads reference types that each follow the same mark. -/
def marked (mark : Char) (fuel : Nat) : SignatureReader (List SignatureType) :=
  many (fun chars => chars.head? = some mark)
    (fun chars => referenceWithin fuel (chars.drop 1)) fuel

def typeParameter (fuel : Nat) : SignatureReader TypeParameter := fun chars => do
  let (name, rest) ← closedIdentifier ':' chars
  let (classBound, rest) ←
    if rest.head?.any fun char => char = 'L' || char = 'T' || char = '[' then do
      let (bound, rest) ← referenceWithin fuel rest
      pure (some bound, rest)
    else
      pure (none, rest)
  let (interfaceBounds, rest) ← marked ':' fuel rest
  return ({ name, classBound, interfaceBounds }, rest)

/-- Reads type parameters in angle brackets, if there are any. -/
def typeParameters (fuel : Nat) : SignatureReader (Option (List TypeParameter)) := fun chars =>
  match chars with
  | '<' :: rest => do
    let (parameters, rest) ← upTo '>' (typeParameter fuel) fuel rest
    return (some parameters, rest)
  | _ => return (none, chars)

def result (fuel : Nat) : SignatureReader (Option SignatureType) := fun chars =>
  match chars with
  | 'V' :: rest => return (none, rest)
  | _ => do
    let (type, rest) ← anyType fuel chars
    return (some type, rest)

def body (fuel : Nat) : SignatureReader SignatureBody := fun chars =>
  match chars with
  | [] => .error []
  | '(' :: rest => do
    let (parameters, rest) ← upTo ')' (anyType fuel) fuel rest
    let (result, rest) ← result fuel rest
    let (thrown, rest) ← marked '^' fuel rest
    return (.method parameters result thrown, rest)
  | _ => do
    let (types, rest) ← many (fun chars => !chars.isEmpty) (anyType fuel) fuel chars
    return (.types types, rest)

/-- Reads a whole signature, or fails with the characters from which on it is
malformed. -/
def signatureWithin (fuel : Nat) (chars : List Char) : Except (List Char) Signature := do
  let (typeParameters, rest) ← typeParameters fuel chars
  let (body, rest) ← body fuel rest
  if rest.isEmpty then
    return { typeParameters, body }
  else
    throw rest

/-- Reads a whole signature.  Among any two nested steps one consumes a
character, so twice the length is depth enough. -/
def signature (chars : List Char) : Except (List Char) Signature :=
  signatureWithin (2 * chars.length + 2) chars

end SignatureReader

/-- The signature that a text spells. -/
def Signature.parse (text : String) : Except DescriptorError Signature :=
  (SignatureReader.signature text.toList).mapError (DescriptorError.atRest text)

/-- The outer classes that a descriptor or signature refers to, each once, in
order of first appearance. -/
def distinctOuterClasses (text : String) : Except DescriptorError (List String) :=
  return (← Signature.parse text).outerClasses.eraseDups

end ClassStub
