import ClassStub.AccessFlags
import ClassStub.ClassName
import ClassStub.Descriptor.Method

/-!
# Declarations as source code

Members are named in messages the way source code declares them.  A field type
is spelled out directly (`FieldType.sourceName`); the type text of a field
declaration may be looser than a field type, since only its first and last
characters are looked at (`sourceTypeName`).  On the descriptor of a field type
both agree (`sourceTypeName_descriptor`).
-/

namespace ClassStub

/-- A type name with a pair of brackets for each array dimension. -/
def withDimensions (name : String) : (dimensions : Nat) → String
  | 0 => name
  | dimensions + 1 => withDimensions name dimensions ++ "[]"

/-- The source name of a field type. -/
def FieldType.sourceName : FieldType → String
  | primitive type => type.sourceName
  | object name => ClassName.toBinary name.text
  | array element => element.sourceName ++ "[]"

/-- The source name of a type that is no array: a primitive, `void`, or a name
of at least one character between `L` and a final `;`. -/
def sourceElementName? (chars : List Char) : Option String :=
  match chars with
  | ['V'] => some "void"
  | [letter] => (Primitive.ofLetter? letter).map Primitive.sourceName
  | 'L' :: rest =>
    if rest.getLast? = some ';' ∧ rest.dropLast ≠ [] then
      some (ClassName.toBinary (String.ofList rest.dropLast))
    else
      none
  | _ => none

/-- The source name of the type that a descriptor spells. -/
def sourceTypeName (descriptor : String) : Except DescriptorError String :=
  let dimensions := (descriptor.toList.takeWhile (· = '[')).length
  match sourceElementName? (descriptor.toList.dropWhile (· = '[')) with
  | some name => .ok (withDimensions name dimensions)
  | none => .error { text := descriptor, offset := 0 }

/-- The source name of a method's result. -/
def MethodDescriptor.resultName (descriptor : MethodDescriptor) : String :=
  match descriptor.result with
  | none => "void"
  | some type => type.sourceName

/-- Words in front of a declaration, each followed by a blank. -/
def withModifiers (modifiers declaration : String) : String :=
  if modifiers.isEmpty then declaration else modifiers ++ " " ++ declaration

/-- A method declaration in source code, without parameter names. -/
def sourceMethod (flags : AccessFlags) (name descriptor : String) :
    Except DescriptorError String := do
  let type ← MethodDescriptor.parse descriptor
  let parameters := ", ".intercalate (type.parameters.map FieldType.sourceName)
  return withModifiers (flags.modifiers .methodDeclaration)
    (type.resultName ++ " " ++ name ++ "(" ++ parameters ++ ")")

/-- A field declaration in source code. -/
def sourceField (flags : AccessFlags) (name descriptor : String) :
    Except DescriptorError String := do
  let type ← sourceTypeName descriptor
  return withModifiers (flags.modifiers .fieldDeclaration) (type ++ " " ++ name)

/-- What comes before the element type of a descriptor are its dimensions. -/
private theorem sourceTypeName_dimensions (type : FieldType) (outer : List Char)
    (houter : ∀ char ∈ outer, char = '[') :
    (match sourceElementName? ((outer ++ type.chars).dropWhile (· = '[')) with
      | some name =>
        some (withDimensions name ((outer ++ type.chars).takeWhile (· = '[')).length)
      | none => none) =
      some (withDimensions type.sourceName outer.length) := by
  have hclear : ∀ char ∈ outer, decide (char = '[') = true := by simpa using houter
  induction type generalizing outer with
  | primitive type =>
    rw [List.dropWhile_append_of_pos hclear, List.takeWhile_append_of_pos hclear]
    cases type <;>
      simp [FieldType.chars, Primitive.letter, sourceElementName?, FieldType.sourceName,
        Primitive.ofLetter?, Primitive.all]
  | object name =>
    rw [List.dropWhile_append_of_pos hclear, List.takeWhile_append_of_pos hclear]
    have hnonempty := name.nonempty
    cases hname : name.text.toList with
    | nil => exact absurd hname hnonempty
    | cons first rest =>
      have htext : String.ofList (first :: rest) = name.text := by
        rw [← hname, String.ofList_toList]
      simp [FieldType.chars, sourceElementName?, FieldType.sourceName, hname, htext,
        List.getLast?_cons, List.dropLast_cons_of_ne_nil]
  | array element ih =>
    have hmore : ∀ char ∈ outer ++ ['['], char = '[' := by
      intro char hchar
      rcases List.mem_append.1 hchar with hin | hlast
      · exact houter char hin
      · simpa using hlast
    have hinner := ih (outer ++ ['[']) hmore (by simpa using hmore)
    simp only [List.append_assoc, List.cons_append, List.nil_append, List.length_append,
      List.length_cons, List.length_nil] at hinner
    simp only [FieldType.chars, hinner]
    suffices hflip : ∀ (dimensions : Nat),
        withDimensions element.sourceName (dimensions + 1) =
          withDimensions (element.sourceName ++ "[]") dimensions by
      simpa [FieldType.sourceName] using hflip outer.length
    intro dimensions
    induction dimensions with
    | zero => rfl
    | succ dimensions ih => rw [withDimensions, ih, withDimensions]

/-- On the descriptor of a field type, the loose source name is the exact one. -/
theorem sourceTypeName_descriptor (type : FieldType) :
    sourceTypeName type.descriptor = .ok type.sourceName := by
  have hname := sourceTypeName_dimensions type [] (by simp)
  simp only [List.nil_append, List.length_nil, withDimensions] at hname
  unfold sourceTypeName FieldType.descriptor
  simp only [String.toList_ofList]
  cases helement : sourceElementName? (type.chars.dropWhile (· = '[')) with
  | none => simp [helement] at hname
  | some name =>
    simp only [helement] at hname
    exact congrArg Except.ok (Option.some.inj hname)

end ClassStub
