import ClassStub.Proofs.Descriptor.Grammar

/-!
# Reading types

Every spelling of a type is read as the tree that it stands for, whatever follows
it and whatever greater depth is allowed: by mutual induction over the syntax,
with a depth of twice the length (`Grammar.ReferenceType.reads`,
`Grammar.JavaType.reads`).  The outer classes of the tree are those that the
syntax names (`Grammar.JavaType.outerClasses_tree`).
-/

namespace ClassStub.Grammar

open SignatureReader

/-! ## The trees of types -/

/-- A tail behind type arguments, if there are any. -/
def applied (arguments : TypeArguments) (tail : ClassTail) : ClassTail :=
  match arguments with
  | .nil => tail
  | arguments => .applied arguments tail

mutual

/-- What a type is read as. -/
def ReferenceType.tree : ReferenceType → SignatureType
  | .classType type => type.tree
  | .typeVariable name => .variable (String.ofList name.chars)
  | .array element => .array element.tree

/-- A type as it is read. -/
def JavaType.tree : JavaType → SignatureType
  | .primitive type => .primitive type
  | .reference type => type.tree

/-- A class type as it is read. -/
def ClassType.tree : ClassType → SignatureType
  | .mk outer arguments members =>
    .classType (String.ofList outer.chars) (applied arguments.tree members.tree)

/-- Member classes as they are read, up to the end of the type. -/
def Members.tree : Members → ClassTail
  | .none => .done
  | .select name arguments more =>
    .inner (String.ofList name.chars) (applied arguments.tree more.tree)

/-- Type arguments as they are read. -/
def Arguments.tree : Arguments → TypeArguments
  | .none => .nil
  | .wildcard more => .wildcard more.tree
  | .typed variance type more => .typed variance type.tree more.tree

end

/-- Empty type arguments are left out, and refer to no classes. -/
theorem outerClasses_applied (arguments : TypeArguments) (tail : ClassTail) :
    (applied arguments tail).outerClasses = arguments.outerClasses ++ tail.outerClasses := by
  cases arguments <;> rfl

mutual

/-- A reference type as it is read names the classes that it names as it is written.
-/
theorem ReferenceType.outerClasses_tree (type : ReferenceType) :
    type.tree.outerClasses = type.classes := by
  cases type with
  | classType type => exact type.outerClasses_tree
  | typeVariable name => rfl
  | array element => exact element.outerClasses_tree

theorem JavaType.outerClasses_tree (type : JavaType) :
    type.tree.outerClasses = type.classes := by
  cases type with
  | primitive type => rfl
  | reference type => exact type.outerClasses_tree

/-- A class type as it is read names its outer class and those of its arguments. -/
theorem ClassType.outerClasses_tree (type : ClassType) :
    type.tree.outerClasses = type.classes := by
  obtain ⟨outer, arguments, members⟩ := type
  rw [ClassType.tree, SignatureType.outerClasses, outerClasses_applied,
    arguments.outerClasses_tree, members.outerClasses_tree, ClassType.classes]

/-- Member classes as they are read name the classes of their arguments. -/
theorem Members.outerClasses_tree (members : Members) :
    members.tree.outerClasses = members.classes := by
  cases members with
  | none => rfl
  | select name arguments more =>
    rw [Members.tree, ClassTail.outerClasses, outerClasses_applied, arguments.outerClasses_tree,
      more.outerClasses_tree, Members.classes]

/-- Type arguments as they are read name the classes of their types. -/
theorem Arguments.outerClasses_tree (arguments : Arguments) :
    arguments.tree.outerClasses = arguments.classes := by
  cases arguments with
  | none => rfl
  | wildcard more => exact more.outerClasses_tree
  | typed variance type more =>
    rw [Arguments.tree, TypeArguments.outerClasses, type.outerClasses_tree,
      more.outerClasses_tree, Arguments.classes]

end

/-! ## Names -/

/-- Characters that are read as part of a name. -/
def NameChars (chars : List Char) : Prop :=
  chars ≠ [] ∧ ∀ char ∈ chars, isNameChar char

/-- Characters that structure no signature can stand in a name. -/
theorem isNameChar_of_not_reserved {char : Char} (h : char ∉ reserved) : isNameChar char := by
  simp only [reserved, List.mem_cons, List.not_mem_nil, or_false, not_or] at h
  simp [isNameChar, h]

theorem Identifier.nameChars (name : Identifier) : NameChars name.chars :=
  ⟨name.nonempty, fun char hchar => isNameChar_of_not_reserved (name.plain char hchar)⟩

/-- The name of an outer class holds slashes, at which no name ends. -/
theorem OuterClass.nameChars (outer : OuterClass) : NameChars outer.chars := by
  refine ⟨by simp [OuterClass.chars, outer.name.nonempty], fun char hchar => ?_⟩
  simp only [OuterClass.chars, List.mem_append, List.mem_flatMap, List.mem_singleton] at hchar
  rcases hchar with ⟨part, _, hpart | rfl⟩ | hname
  · exact part.nameChars.2 char hpart
  · decide
  · exact outer.name.nameChars.2 char hname

/-- A name is read up to the character that stops it. -/
theorem identifier_append {chars stops : List Char} (hchars : NameChars chars) {stop : Char}
    (hstop : isNameChar stop = false) (hstops : stop ∈ stops) (rest : List Char) :
    identifier stops (chars ++ stop :: rest) = .ok (String.ofList chars, stop :: rest) := by
  have htake : (chars ++ stop :: rest).takeWhile isNameChar = chars := by
    rw [List.takeWhile_append_of_pos hchars.2, List.takeWhile_cons_of_neg (by simp [hstop]),
      List.append_nil]
  have hdrop : (chars ++ stop :: rest).dropWhile isNameChar = stop :: rest := by
    rw [List.dropWhile_append_of_pos hchars.2, List.dropWhile_cons_of_neg (by simp [hstop])]
  simp [identifier, htake, hdrop, hchars.1, hstops]

/-- A name is read with the character that closes it. -/
theorem closedIdentifier_append {chars : List Char} (hchars : NameChars chars) {stop : Char}
    (hstop : isNameChar stop = false) (rest : List Char) :
    closedIdentifier stop (chars ++ stop :: rest) = .ok (String.ofList chars, rest) := by
  rw [closedIdentifier, identifier_append hchars hstop (List.mem_singleton_self stop)]
  rfl

/-! ## Types -/

/-- A reference type begins with one of three letters. -/
theorem ReferenceType.exists_head (type : ReferenceType) :
    ∃ head more, type.chars = head :: more ∧ (head = 'L' ∨ head = 'T' ∨ head = '[') := by
  cases type with
  | classType type =>
    obtain ⟨outer, arguments, members⟩ := type
    exact ⟨'L', _, rfl, Or.inl rfl⟩
  | typeVariable name => exact ⟨'T', _, rfl, Or.inr (Or.inl rfl)⟩
  | array element => exact ⟨'[', _, rfl, Or.inr (Or.inr rfl)⟩

/-- None of these letters is that of a primitive type. -/
theorem ReferenceType.primitive?_append (type : ReferenceType) (rest : List Char) :
    primitive? (type.chars ++ rest) = none := by
  obtain ⟨head, more, hchars, hhead⟩ := type.exists_head
  rw [hchars]
  rcases hhead with rfl | rfl | rfl <;> rfl

/-- Behind a bracket, the type of the elements is read. -/
theorem referenceWithin_array (fuel : Nat) (chars : List Char) :
    referenceWithin (fuel + 1) ('[' :: chars) = do
      let (element, rest) ← anyType fuel chars
      return (.array element, rest) := by
  rw [referenceWithin, anyType]
  cases primitive? chars <;> rfl

/-- Type arguments do not start with their closing bracket. -/
theorem Arguments.head?_append_ne {arguments : Arguments} (h : arguments ≠ .none)
    (rest : List Char) : (arguments.chars ++ rest).head? ≠ some '>' := by
  cases arguments with
  | none => exact absurd rfl h
  | wildcard more =>
    rw [Arguments.chars, List.cons_append, List.head?_cons]
    decide
  | typed variance type more =>
    obtain ⟨head, after, hchars, hhead⟩ := type.exists_head
    rw [Arguments.chars, hchars]
    cases variance with
    | exactly => rcases hhead with rfl | rfl | rfl <;> simp [Variance.mark]
    | subtypes => simp [Variance.mark]
    | supertypes => simp [Variance.mark]

/-- Only where there are no type arguments is nothing written. -/
theorem Arguments.chars_eq_nil_iff (arguments : Arguments) :
    arguments.chars = [] ↔ arguments = .none := by
  cases arguments with
  | none => simp [Arguments.chars]
  | wildcard more => simp [Arguments.chars]
  | typed variance type more =>
    obtain ⟨head, after, hchars, _⟩ := type.exists_head
    simp [Arguments.chars, hchars]

/-- A type that follows no mark is an argument by itself. -/
theorem argumentsWithin_reference (fuel : Nat) (type : ReferenceType) (rest : List Char) :
    argumentsWithin (fuel + 1) (type.chars ++ rest) = do
      let (type, rest) ← referenceWithin fuel (type.chars ++ rest)
      let (more, rest) ← argumentsWithin fuel rest
      return (.typed .exactly type more, rest) := by
  obtain ⟨head, more, hchars, hhead⟩ := type.exists_head
  rw [hchars, List.cons_append, argumentsWithin]
  all_goals rcases hhead with rfl | rfl | rfl <;> simp

/-- What follows a class name is its type arguments, if there are any, and then
the rest of the tail. -/
theorem tailWithin_bracketed (arguments : Arguments) {tail : ClassTail} {text rest : List Char}
    {fuel : Nat} (hfuel : 2 * ((bracketed arguments.chars ++ text).length + 1) ≤ fuel)
    (harguments : ∀ depth after, 2 * arguments.chars.length + 1 ≤ depth →
      argumentsWithin depth (arguments.chars ++ '>' :: after) = .ok (arguments.tree, after))
    (htail : ∀ depth, 2 * (text.length + 1) ≤ depth →
      tailWithin depth (text ++ ';' :: rest) = .ok (tail, rest)) :
    tailWithin fuel (bracketed arguments.chars ++ (text ++ ';' :: rest)) =
      .ok (applied arguments.tree tail, rest) := by
  by_cases hnone : arguments = .none
  · subst hnone
    exact htail fuel hfuel
  · have hinside : arguments.chars ≠ [] := mt arguments.chars_eq_nil_iff.1 hnone
    simp only [bracketed, hinside, ↓reduceIte, List.length_append, List.length_cons,
      List.length_nil] at hfuel
    obtain ⟨depth, rfl⟩ : ∃ depth, fuel = depth + 1 := ⟨fuel - 1, by omega⟩
    have hinner := harguments depth (text ++ ';' :: rest) (by omega)
    have hmore := htail depth (by omega)
    have happlied : applied arguments.tree tail = .applied arguments.tree tail := by
      cases arguments with
      | none => exact absurd rfl hnone
      | wildcard more => rfl
      | typed variance type more => rfl
    simp only [bracketed, hinside, ↓reduceIte, List.cons_append, List.append_assoc,
      List.nil_append]
    rw [tailWithin, if_neg (Arguments.head?_append_ne hnone _), hinner, happlied]
    simp only [Bind.bind, Except.bind, hmore]
    rfl

/-- A class name ends at its type arguments, at its member classes or at the
closing semicolon. -/
theorem exists_stop (inside : List Char) (members : Members) (rest : List Char) :
    ∃ stop more, bracketed inside ++ (members.chars ++ ';' :: rest) = stop :: more ∧
      isNameChar stop = false ∧ stop ∈ classNameStops := by
  by_cases hinside : inside = []
  · rw [bracketed, if_pos hinside]
    cases members with
    | none => exact ⟨';', rest, rfl, rfl, by decide⟩
    | select name arguments more => exact ⟨'.', _, rfl, rfl, by decide⟩
  · rw [bracketed, if_neg hinside]
    exact ⟨'<', _, rfl, rfl, by decide⟩

mutual

/-- A written reference type is read, whatever follows it. -/
theorem ReferenceType.reads (type : ReferenceType) (fuel : Nat) (rest : List Char)
    (hfuel : 2 * type.chars.length ≤ fuel) :
    referenceWithin fuel (type.chars ++ rest) = .ok (type.tree, rest) := by
  cases type with
  | classType type => exact type.reads fuel rest hfuel
  | typeVariable name =>
    simp only [ReferenceType.chars, List.length_append, List.length_cons] at hfuel
    obtain ⟨depth, rfl⟩ : ∃ depth, fuel = depth + 1 := ⟨fuel - 1, by omega⟩
    rw [ReferenceType.chars, List.cons_append, List.cons_append, List.append_assoc,
      List.singleton_append, referenceWithin, closedIdentifier_append name.nameChars rfl]
    rfl
  | array element =>
    simp only [ReferenceType.chars, List.length_cons] at hfuel
    obtain ⟨depth, rfl⟩ : ∃ depth, fuel = depth + 1 := ⟨fuel - 1, by omega⟩
    rw [ReferenceType.chars, List.cons_append, referenceWithin_array,
      element.reads depth rest (by omega)]
    rfl

/-- A written type is read, whatever follows it. -/
theorem JavaType.reads (type : JavaType) (fuel : Nat) (rest : List Char)
    (hfuel : 2 * type.chars.length ≤ fuel) :
    anyType fuel (type.chars ++ rest) = .ok (type.tree, rest) := by
  cases type with
  | primitive type => cases type <;> rfl
  | reference type =>
    have hread := type.reads fuel rest hfuel
    rw [JavaType.chars, anyType, type.primitive?_append]
    exact hread

theorem ClassType.reads (type : ClassType) (fuel : Nat) (rest : List Char)
    (hfuel : 2 * type.chars.length ≤ fuel) :
    referenceWithin fuel (type.chars ++ rest) = .ok (type.tree, rest) := by
  obtain ⟨outer, arguments, members⟩ := type
  simp only [ClassType.chars, List.length_append, List.length_cons, List.length_nil] at hfuel
  obtain ⟨depth, rfl⟩ : ∃ depth, fuel = depth + 1 := ⟨fuel - 1, by omega⟩
  have htail : tailWithin depth (bracketed arguments.chars ++ (members.chars ++ ';' :: rest)) =
      .ok (applied arguments.tree members.tree, rest) :=
    tailWithin_bracketed arguments (by simp only [List.length_append]; omega) arguments.reads
      fun less hless => members.reads less rest hless
  obtain ⟨stop, after, htext, hname, hstop⟩ := exists_stop arguments.chars members rest
  rw [ClassType.chars]
  simp only [List.cons_append, List.append_assoc, List.nil_append]
  rw [referenceWithin, htext, identifier_append outer.nameChars hname hstop]
  rw [htext] at htail
  simp only [Bind.bind, Except.bind, htail]
  rfl

/-- Written member classes are read up to the end of the type. -/
theorem Members.reads (members : Members) (fuel : Nat) (rest : List Char)
    (hfuel : 2 * (members.chars.length + 1) ≤ fuel) :
    tailWithin fuel (members.chars ++ ';' :: rest) = .ok (members.tree, rest) := by
  obtain ⟨depth, rfl⟩ : ∃ depth, fuel = depth + 1 := ⟨fuel - 1, by omega⟩
  cases members with
  | none => rfl
  | select name arguments more =>
    simp only [Members.chars, List.length_append, List.length_cons] at hfuel
    have htail : tailWithin depth (bracketed arguments.chars ++ (more.chars ++ ';' :: rest)) =
        .ok (applied arguments.tree more.tree, rest) :=
      tailWithin_bracketed arguments (by simp only [List.length_append]; omega) arguments.reads
        fun less hless => more.reads less rest hless
    obtain ⟨stop, after, htext, hname, hstop⟩ := exists_stop arguments.chars more rest
    rw [Members.chars]
    simp only [List.cons_append, List.append_assoc]
    rw [tailWithin, htext, identifier_append name.nameChars hname hstop]
    rw [htext] at htail
    simp only [Bind.bind, Except.bind, htail]
    rfl

/-- Written type arguments are read up to the closing bracket. -/
theorem Arguments.reads (arguments : Arguments) (fuel : Nat) (rest : List Char)
    (hfuel : 2 * arguments.chars.length + 1 ≤ fuel) :
    argumentsWithin fuel (arguments.chars ++ '>' :: rest) = .ok (arguments.tree, rest) := by
  obtain ⟨depth, rfl⟩ : ∃ depth, fuel = depth + 1 := ⟨fuel - 1, by omega⟩
  cases arguments with
  | none => rfl
  | wildcard more =>
    simp only [Arguments.chars, List.length_cons] at hfuel
    have hmore := more.reads depth rest (by omega)
    rw [Arguments.chars, List.cons_append, argumentsWithin, hmore]
    rfl
  | typed variance type more =>
    simp only [Arguments.chars, List.length_append] at hfuel
    obtain ⟨head, after, hchars, _⟩ := type.exists_head
    have hpositive : 0 < type.chars.length := by simp [hchars]
    have htype := type.reads depth (more.chars ++ '>' :: rest) (by omega)
    have hmore := more.reads depth rest (by omega)
    rw [Arguments.chars, List.append_assoc, List.append_assoc]
    cases variance with
    | exactly =>
      rw [Variance.mark, List.nil_append, argumentsWithin_reference]
      simp only [Bind.bind, Except.bind, htype, hmore]
      rfl
    | subtypes =>
      rw [Variance.mark, List.singleton_append, argumentsWithin]
      simp only [Bind.bind, Except.bind, htype, hmore]
      rfl
    | supertypes =>
      rw [Variance.mark, List.singleton_append, argumentsWithin]
      simp only [Bind.bind, Except.bind, htype, hmore]
      rfl

end

/-- A type begins with none of the characters that mean something else where a type
may stand: brackets, parentheses, and the letter of no result. -/
theorem JavaType.exists_head (type : JavaType) :
    ∃ head more, type.chars = head :: more ∧ head ∉ ['<', '(', ')', 'V'] := by
  cases type with
  | primitive type => exact ⟨type.letter, [], rfl, by cases type <;> decide⟩
  | reference type =>
    obtain ⟨head, more, hchars, hhead⟩ := type.exists_head
    exact ⟨head, more, hchars, by rcases hhead with rfl | rfl | rfl <;> decide⟩

end ClassStub.Grammar
