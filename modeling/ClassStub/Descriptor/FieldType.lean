import ClassStub.Descriptor.Basic

/-!
# Field types

The type of a field or parameter is a primitive, a class or an array.  Its
descriptor is a letter for a primitive, `L`, the class name and `;` for a class,
and `[` before the element type for an array.  Reading a descriptor from the
front of a text undoes writing it (`read?_chars_append`), and whatever is read
was written (`append_of_read?`).
-/

namespace ClassStub

/-- A class name as descriptors can hold it: not empty and without `;`. -/
structure ObjectName where
  text : String
  nonempty : text.toList ≠ []
  delimited : ';' ∉ text.toList
  deriving DecidableEq

/-- The type of a field or parameter. -/
inductive FieldType where
  | primitive (type : Primitive)
  | object (name : ObjectName)
  | array (element : FieldType)
  deriving DecidableEq

/-- Nothing that is taken while it differs from a character equals it. -/
theorem notMem_takeWhile_ne (stop : Char) (chars : List Char) :
    stop ∉ chars.takeWhile (· ≠ stop) := by
  induction chars with
  | nil => simp
  | cons char chars ih =>
    by_cases hstop : char = stop
    · simp [hstop]
    · simpa [List.takeWhile_cons, hstop, Ne.symm hstop] using ih

/-- Reads a class name up to its `;`. -/
def ObjectName.read? (chars : List Char) : Option (ObjectName × List Char) :=
  match chars.dropWhile (· ≠ ';') with
  | [] => none
  | _ :: rest =>
    if nonempty : chars.takeWhile (· ≠ ';') ≠ [] then
      some ({
        text := String.ofList (chars.takeWhile (· ≠ ';'))
        nonempty := by simpa using nonempty
        delimited := by simpa using notMem_takeWhile_ne ';' chars }, rest)
    else
      none

namespace FieldType

def chars : FieldType → List Char
  | primitive type => [type.letter]
  | object name => 'L' :: name.text.toList ++ [';']
  | array element => '[' :: element.chars

def descriptor (type : FieldType) : String :=
  String.ofList type.chars

/-- Reads a field type from the front of a text. -/
def read? : List Char → Option (FieldType × List Char)
  | [] => none
  | char :: rest =>
    if char = '[' then
      (read? rest).map fun (element, rest) => (array element, rest)
    else if char = 'L' then
      (ObjectName.read? rest).map fun (name, rest) => (object name, rest)
    else
      (Primitive.ofLetter? char).map fun type => (primitive type, rest)

/-- The number of local variable slots that a value of the type takes. -/
def slots : FieldType → Nat
  | primitive type => type.slots
  | _ => 1

end FieldType

theorem ObjectName.read?_append (name : ObjectName) (rest : List Char) :
    ObjectName.read? (name.text.toList ++ ';' :: rest) = some (name, rest) := by
  have hclear : ∀ char ∈ name.text.toList, decide (char ≠ ';') = true := by
    intro char hchar
    have hne : char ≠ ';' := fun heq => name.delimited (heq ▸ hchar)
    simpa using hne
  have htake : (name.text.toList ++ ';' :: rest).takeWhile (· ≠ ';') = name.text.toList := by
    rw [List.takeWhile_append_of_pos hclear]
    simp
  have hdrop : (name.text.toList ++ ';' :: rest).dropWhile (· ≠ ';') = ';' :: rest := by
    rw [List.dropWhile_append_of_pos hclear]
    simp
  unfold ObjectName.read?
  simp only [hdrop, htake, String.ofList_toList]
  rw [dif_pos name.nonempty]

theorem ObjectName.append_of_read? {chars rest : List Char} {name : ObjectName}
    (h : ObjectName.read? chars = some (name, rest)) :
    chars = name.text.toList ++ ';' :: rest := by
  unfold ObjectName.read? at h
  split at h
  case h_1 => cases h
  case h_2 stop after hdrop =>
    split at h
    case isFalse => cases h
    case isTrue hname =>
      obtain ⟨rfl, rfl⟩ := Prod.mk.inj (Option.some.inj h)
      have hstop : stop = ';' := by
        have hhead := List.head?_dropWhile_not (fun char => decide (char ≠ ';')) chars
        rw [hdrop] at hhead
        simpa using hhead
      have hsplit : chars.takeWhile (· ≠ ';') ++ chars.dropWhile (· ≠ ';') = chars :=
        List.takeWhile_append_dropWhile
      rw [hdrop, hstop] at hsplit
      rw [String.toList_ofList]
      exact hsplit.symm

namespace FieldType

/-- A written field type in front of a text is read first. -/
theorem read?_chars_append (type : FieldType) (rest : List Char) :
    read? (type.chars ++ rest) = some (type, rest) := by
  induction type with
  | primitive type => cases type <;> rfl
  | object name =>
    simp only [chars, List.cons_append, List.append_assoc, List.nil_append, read?]
    rw [if_neg (by decide), if_pos trivial, ObjectName.read?_append]
    rfl
  | array element ih =>
    simp only [chars, List.cons_append, read?]
    rw [if_pos trivial, ih]
    rfl

/-- Whatever is read from the front of a text was written there. -/
theorem append_of_read? {text rest : List Char} {type : FieldType}
    (h : read? text = some (type, rest)) : text = type.chars ++ rest := by
  fun_induction read? text generalizing type with
  | case1 => cases h
  | case2 after ih =>
    obtain ⟨⟨element, tail⟩, hread, hpair⟩ := Option.map_eq_some_iff.1 h
    obtain ⟨rfl, rfl⟩ : array element = type ∧ tail = rest := by simpa using hpair
    simp [chars, ih hread]
  | case3 after _ =>
    obtain ⟨⟨name, tail⟩, hread, hpair⟩ := Option.map_eq_some_iff.1 h
    obtain ⟨rfl, rfl⟩ : object name = type ∧ tail = rest := by simpa using hpair
    simp [chars, ObjectName.append_of_read? hread]
  | case4 char after hbracket hletter =>
    obtain ⟨primitiveType, hread, hpair⟩ := Option.map_eq_some_iff.1 h
    obtain ⟨rfl, rfl⟩ : primitive primitiveType = type ∧ after = rest := by simpa using hpair
    simp [chars, Primitive.letter_of_ofLetter? hread]

/-- Reading a field type consumes at least one character. -/
theorem length_lt_of_read? {text rest : List Char} {type : FieldType}
    (h : read? text = some (type, rest)) : rest.length < text.length := by
  rw [append_of_read? h, List.length_append]
  have hchars : 0 < type.chars.length := by cases type <;> simp [chars]
  omega

end FieldType

end ClassStub
