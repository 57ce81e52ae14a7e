import Mathlib
import ClassStub.Proofs.Descriptor.OuterClasses
import ClassStub.Proofs.Descriptor.ReadNames
import ClassStub.Proofs.Descriptor.Splitting
import ClassStub.Proofs.Order.FirstOccurrences

/-!
# Descriptors read as signatures

A method descriptor can be taken apart into its types, or it can be read as a
signature for the classes that it refers to.  The first reads a class name up to its
`;`, the second up to any character that structures signatures.  So they agree on the
descriptors whose class names hold no such character
(`MethodDescriptor.agrees_iff_readable`).  Legal names hold no dot and no `;`, but
they may hold `<`, `>` and `:`, and where one does, the classes that the signature
refers to are not those of the descriptor (`MethodDescriptor.agrees_iff`).
-/

namespace ClassStub

open SignatureReader

/-! ## Classes of descriptors -/

namespace FieldType

/-- The class that a field type is made of, if it is not made of a primitive type. -/
def classNames : FieldType → List String
  | primitive _ => []
  | object name => [name.text]
  | array element => element.classNames

/-- A field type as a type of signatures. -/
def tree : FieldType → SignatureType
  | primitive type => .primitive type
  | object name => .classType name.text .done
  | array element => .array element.tree

/-- The syntax tree of a type names the classes of the type. -/
theorem outerClasses_tree (type : FieldType) : type.tree.outerClasses = type.classNames := by
  induction type with
  | primitive type => rfl
  | object name => rfl
  | array element ih => exact ih

/-- Every type is written with a character at least. -/
theorem chars_ne_nil (type : FieldType) : type.chars ≠ [] := by
  cases type <;> exact List.cons_ne_nil _ _

/-- Field types start neither like a list that ends nor like a result that is missing. -/
theorem head?_chars (type : FieldType) (rest : List Char) {mark : Char}
    (hmark : mark = ')' ∨ mark = 'V') : (type.chars ++ rest).head? ≠ some mark := by
  cases type with
  | primitive type =>
    rcases hmark with rfl | rfl <;> cases type <;> simp [chars, Primitive.letter]
  | object name => rcases hmark with rfl | rfl <;> simp [chars]
  | array element => rcases hmark with rfl | rfl <;> simp [chars]

/-- A class name is read whole if it holds no character that stops it. -/
theorem referenceWithin_object {name : ObjectName} (hname : Readable [name.text]) (fuel : Nat)
    (rest : List Char) :
    referenceWithin (fuel + 2) ((object name).chars ++ rest) =
      .ok ((object name).tree, rest) := by
  have hchars : Grammar.NameChars name.text.toList :=
    ⟨name.nonempty, hname name.text (List.mem_singleton_self _)⟩
  have hread : identifier classNameStops (name.text.toList ++ ';' :: rest) = .ok _ :=
    Grammar.identifier_append hchars rfl (by decide) rest
  rw [chars, List.cons_append, List.cons_append, List.append_assoc, List.singleton_append,
    referenceWithin, hread]
  simp only [Bind.bind, Except.bind, tailWithin, String.ofList_toList]
  rfl

/-- A type is read as a signature if all of its names can be read there. -/
theorem reads {type : FieldType} (hnames : Readable type.classNames) (fuel : Nat)
    (rest : List Char) (hfuel : 2 * type.chars.length ≤ fuel) :
    anyType fuel (type.chars ++ rest) = .ok (type.tree, rest) := by
  induction type generalizing fuel with
  | primitive type => cases type <;> rfl
  | object name =>
    obtain ⟨depth, rfl⟩ : ∃ depth, fuel = depth + 2 :=
      ⟨fuel - 2, by simp only [chars, List.length_append, List.length_cons] at hfuel; omega⟩
    exact referenceWithin_object hnames depth rest
  | array element ih =>
    simp only [chars, List.length_cons] at hfuel
    obtain ⟨depth, rfl⟩ : ∃ depth, fuel = depth + 1 := ⟨fuel - 1, by omega⟩
    have hread := ih hnames depth (by omega)
    rw [chars, List.cons_append]
    change referenceWithin (depth + 1) ('[' :: (element.chars ++ rest)) = _
    rw [Grammar.referenceWithin_array, hread]
    rfl

end FieldType

namespace MethodDescriptor

/-- The classes of the parameters and of the result, in the order of the text. -/
def classNames (descriptor : MethodDescriptor) : List String :=
  descriptor.parameters.flatMap FieldType.classNames ++
    (descriptor.result.map FieldType.classNames).getD []

/-- A method descriptor as a signature. -/
def tree (descriptor : MethodDescriptor) : Signature where
  typeParameters := none
  body := .method (descriptor.parameters.map FieldType.tree) (descriptor.result.map FieldType.tree)
    []

/-- The syntax tree of a descriptor names the classes of the descriptor. -/
theorem outerClasses_tree (descriptor : MethodDescriptor) :
    descriptor.tree.outerClasses = descriptor.classNames := by
  cases hresult : descriptor.result <;>
    simp [tree, Signature.outerClasses, SignatureBody.outerClasses, classNames, hresult,
      List.flatMap_map, FieldType.outerClasses_tree]

/-- Written parameters are read as those of a signature. -/
theorem parameters_append {types : List FieldType}
    (hnames : Readable (types.flatMap FieldType.classNames)) (fuel : Nat) (rest : List Char)
    (hfuel : 2 * (types.flatMap FieldType.chars).length < fuel) :
    upTo ')' (anyType fuel) fuel (types.flatMap FieldType.chars ++ ')' :: rest) =
      .ok (types.map FieldType.tree, rest) := by
  have hlength := Grammar.length_le_length_flatMap _ FieldType.chars_ne_nil types
  refine Grammar.upTo_append (fun _ => True) (fun type htype after _ => ?_) (fun _ _ => trivial)
    trivial fuel (by omega)
  have htext := Grammar.length_le_flatMap FieldType.chars htype
  have hname : Readable type.classNames := fun name hname =>
    hnames name (List.mem_flatMap.2 ⟨type, htype, hname⟩)
  exact ⟨type.head?_chars after (.inl rfl), FieldType.reads hname fuel after (by omega)⟩

/-- A written result is read as that of a signature. -/
theorem result_resultChars {type : Option FieldType}
    (hnames : Readable ((type.map FieldType.classNames).getD [])) (fuel : Nat)
    (hfuel : 2 * (resultChars type).length ≤ fuel) :
    SignatureReader.result fuel (resultChars type) = .ok (type.map FieldType.tree, []) := by
  cases type with
  | none => rfl
  | some type =>
    have hread := FieldType.reads hnames fuel [] hfuel
    have hhead := type.head?_chars [] (.inr rfl)
    rw [List.append_nil] at hread hhead
    rw [resultChars, SignatureReader.result, hread]
    · rfl
    · intro after hafter
      rw [hafter] at hhead
      exact hhead rfl

/-- Descriptors whose class names can be read are read as what they are. -/
theorem parse_signature {descriptor : MethodDescriptor} (hnames : Readable descriptor.classNames) :
    Signature.parse (String.ofList descriptor.chars) = .ok descriptor.tree := by
  obtain ⟨hparameters, hresult⟩ := List.forall_mem_append.1 hnames
  have hbody : ∀ fuel, 2 * descriptor.chars.length < fuel →
      body fuel descriptor.chars = .ok (descriptor.tree.body, []) := by
    intro fuel hfuel
    simp only [chars, List.length_append, List.length_cons] at hfuel
    have hfirst := parameters_append hparameters fuel (resultChars descriptor.result) (by omega)
    have hlast := result_resultChars hresult fuel (by omega)
    obtain ⟨depth, rfl⟩ : ∃ depth, fuel = depth + 1 := ⟨fuel - 1, by omega⟩
    simp only [chars, List.cons_append, body, Bind.bind, Except.bind, hfirst, hlast]
    rfl
  exact Grammar.parse_bracketed [] (by simp) hbody

/-! ## Agreement -/

/-- The classes that a text refers to as a signature are those of a descriptor, each
once, where it comes up first. -/
def Agrees (text : String) (descriptor : MethodDescriptor) : Prop :=
  ∃ classes, distinctOuterClasses text = .ok classes ∧
    FirstOccurrences descriptor.classNames classes

variable {text : String} {descriptor : MethodDescriptor}

/-- A descriptor is understood alike exactly if all of its names can be read in a
signature. -/
theorem agrees_iff_readable (hparse : parse text = .ok descriptor) :
    Agrees text descriptor ↔ Readable descriptor.classNames := by
  constructor
  · intro ⟨classes, hclasses, hfirst⟩ name hname
    obtain ⟨tree, htree, hdistinct⟩ := bind_eq_ok.1 hclasses
    cases hdistinct
    have hmem := (hfirst.mem_iff name).2 hname
    exact Signature.readable_of_parse htree name (List.mem_eraseDups.1 hmem)
  · intro hnames
    refine ⟨descriptor.classNames.eraseDups, ?_, firstOccurrences_eraseDups _⟩
    rw [parse_eq_ok_iff.1 hparse, distinctOuterClasses, parse_signature hnames]
    change Except.ok descriptor.tree.outerClasses.eraseDups = _
    rw [outerClasses_tree]

end MethodDescriptor

/-! ## Legal names -/

/-- What is in joined parts is in one of them, or separates them. -/
theorem mem_intercalate {α : Type} {separator item : α} {parts : List (List α)}
    (hitem : item ∈ [separator].intercalate parts) :
    item = separator ∨ ∃ part ∈ parts, item ∈ part := by
  induction parts with
  | nil => simp at hitem
  | cons part more ih =>
    cases more with
    | nil => exact .inr ⟨part, List.mem_singleton_self part, by simpa using hitem⟩
    | cons next more =>
      rw [List.intercalate_cons_cons, List.mem_append, List.mem_append, List.mem_singleton]
        at hitem
      rcases hitem with (hpart | hseparator) | hmore
      · exact .inr ⟨part, List.mem_cons_self, hpart⟩
      · exact .inl hseparator
      · obtain hseparator | ⟨other, hother, hmem⟩ := ih hmore
        · exact .inl hseparator
        · exact .inr ⟨other, List.mem_cons_of_mem part hother, hmem⟩

/-- A legal class name in slashed form: between the slashes stand parts that are not
empty and hold no dot, no semicolon and no bracket of an array. -/
def ClassName.Legal (name : String) : Prop :=
  ∀ part ∈ name.toList.splitOn '/', part ≠ [] ∧ '.' ∉ part ∧ ';' ∉ part ∧ '[' ∉ part

/-- What a legal name lacks for signatures is that it may hold brackets of type
arguments and colons. -/
theorem ClassName.Legal.readable_iff {name : String} (hlegal : Legal name) :
    (∀ char ∈ name.toList, isNameChar char) ↔
      '<' ∉ name.toList ∧ '>' ∉ name.toList ∧ ':' ∉ name.toList := by
  constructor
  · intro hchars
    exact ⟨fun hmem => absurd (hchars _ hmem) (by decide),
      fun hmem => absurd (hchars _ hmem) (by decide),
      fun hmem => absurd (hchars _ hmem) (by decide)⟩
  · intro ⟨hopening, hclosing, hcolon⟩ char hchar
    have hother : char ≠ '.' ∧ char ≠ ';' := by
      rw [← name.toList.intercalate_splitOn '/'] at hchar
      obtain rfl | ⟨part, hpart, hmem⟩ := mem_intercalate hchar
      · decide
      · obtain ⟨_, hdot, hsemicolon, _⟩ := hlegal part hpart
        exact ⟨fun hsame => hdot (hsame ▸ hmem), fun hsame => hsemicolon (hsame ▸ hmem)⟩
    have hstructure : char ≠ '<' ∧ char ≠ '>' ∧ char ≠ ':' :=
      ⟨fun hsame => hopening (hsame ▸ hchar), fun hsame => hclosing (hsame ▸ hchar),
        fun hsame => hcolon (hsame ▸ hchar)⟩
    simp [isNameChar, hother, hstructure]

namespace MethodDescriptor

variable {text : String} {descriptor : MethodDescriptor}

/-- **Descriptors refer to their classes where signatures can hold the names.** A
descriptor whose class names are legal is read as a signature that refers to these
classes, each once, unless one of the names holds a bracket of type arguments or a
colon. -/
theorem agrees_iff (hparse : parse text = .ok descriptor)
    (hlegal : ∀ name ∈ descriptor.classNames, ClassName.Legal name) :
    Agrees text descriptor ↔ ∀ name ∈ descriptor.classNames,
      '<' ∉ name.toList ∧ '>' ∉ name.toList ∧ ':' ∉ name.toList := by
  rw [agrees_iff_readable hparse]
  exact forall₂_congr fun name hname => (hlegal name hname).readable_iff

/-- Classes that come up again and arrays. -/
def sampleRepeated : MethodDescriptor where
  parameters := [.object { text := "p/A", nonempty := by decide, delimited := by decide },
    .array (.object { text := "q/B-C", nonempty := by decide, delimited := by decide })]
  result := some (.object { text := "p/A", nonempty := by decide, delimited := by decide })

/-- A descriptor in which one class is repeated is understood alike. -/
theorem agrees_iff_sampleRepeated :
    parse "(Lp/A;[Lq/B-C;)Lp/A;" = .ok sampleRepeated ∧
      (∀ name ∈ sampleRepeated.classNames, ClassName.Legal name) ∧
        Agrees "(Lp/A;[Lq/B-C;)Lp/A;" sampleRepeated := by
  have hparse : parse "(Lp/A;[Lq/B-C;)Lp/A;" = .ok sampleRepeated :=
    parse_eq_ok_iff.2 (by decide)
  have hlegal : ∀ name ∈ sampleRepeated.classNames, ClassName.Legal name := by
    unfold ClassName.Legal
    decide
  exact ⟨hparse, hlegal, (agrees_iff hparse hlegal).2 (by decide)⟩

/-- What looks like type arguments inside a class name. -/
def sampleApplied : MethodDescriptor where
  parameters := [.object { text := "p/A<*>", nonempty := by decide, delimited := by decide }]
  result := none

/-- The class `p/A<*>` is read as `p/A` with a type argument. -/
theorem not_agrees_of_legal :
    ¬∀ (text : String) (descriptor : MethodDescriptor), parse text = .ok descriptor →
      (∀ name ∈ descriptor.classNames, ClassName.Legal name) → Agrees text descriptor := by
  intro hagrees
  have hparse : parse "(Lp/A<*>;)V" = .ok sampleApplied := parse_eq_ok_iff.2 (by decide)
  have hlegal : ∀ name ∈ sampleApplied.classNames, ClassName.Legal name := by
    unfold ClassName.Legal
    decide
  obtain ⟨classes, hclasses, hfirst⟩ := hagrees _ _ hparse hlegal
  have hread : distinctOuterClasses "(Lp/A<*>;)V" = .ok ["p/A"] := by cbv
  rw [hread] at hclasses
  cases hclasses
  exact absurd ((hfirst.mem_iff "p/A").1 (List.mem_singleton_self _)) (by decide)

end MethodDescriptor

end ClassStub
