import ClassStub.Proofs.Descriptor.Agreement
import ClassStub.Proofs.Stub.Membership

/-!
# Descriptors of class types under a policy

Annotations and enums are checked by the source name of their type, which ends in a
pair of brackets for each array dimension, members by the classes that their
signature refers to.  Brackets hold no dot, so they do not move the package of a name
(`ClassName.IsPackage.append`), and a descriptor of a class type refers to that class
alone (`FieldType.distinctOuterClasses_descriptor`).  So both kinds of check accept
the same class types (`PackagePolicy.agreesOn_classDescriptor`).
-/

namespace ClassStub

open SignatureReader

/-! ## Packages behind brackets -/

/-- What is appended without a dot leaves a name in its package. -/
theorem ClassName.IsPackage.append {package binary suffix : String}
    (hpackage : IsPackage package binary) (hsuffix : '.' ∉ suffix.toList) :
    IsPackage package (binary ++ suffix) := by
  obtain ⟨simple, hname, hsimple⟩ | ⟨rfl, hname⟩ := hpackage
  · refine Or.inl ⟨simple ++ suffix.toList, by simp [hname], ?_⟩
    exact fun hmem => (List.mem_append.1 hmem).elim hsimple hsuffix
  · refine Or.inr ⟨rfl, ?_⟩
    rw [String.toList_append]
    exact fun hmem => (List.mem_append.1 hmem).elim hname hsuffix

/-- An array type is in the package of its elements. -/
theorem packageName_withDimensions (name : String) (dimensions : Nat) :
    ClassName.packageName (withDimensions name dimensions) = ClassName.packageName name := by
  induction dimensions with
  | zero => rfl
  | succ dimensions ih =>
    rw [← ih, withDimensions, ← ClassName.isPackage_iff]
    exact (ClassName.isPackage_iff.2 rfl).append (by simp)

namespace FieldType

/-! ## Arrays of a type -/

/-- An array of a type with the given dimensions, or the type itself if there are
none. -/
def nested (element : FieldType) : (dimensions : Nat) → FieldType
  | 0 => element
  | dimensions + 1 => .array (element.nested dimensions)

variable {element : FieldType}

/-- An array of a type is written with a bracket for each dimension. -/
theorem chars_nested (dimensions : Nat) :
    (element.nested dimensions).chars = List.replicate dimensions '[' ++ element.chars := by
  induction dimensions with
  | zero => rfl
  | succ dimensions ih => rw [nested, chars, ih, List.replicate_succ, List.cons_append]

/-- An array of a type names the classes of the type. -/
theorem classNames_nested (dimensions : Nat) :
    (element.nested dimensions).classNames = element.classNames := by
  induction dimensions with
  | zero => rfl
  | succ dimensions ih => exact ih

/-- An array of a type has brackets behind the source name of the type. -/
theorem sourceName_nested (dimensions : Nat) :
    (element.nested dimensions).sourceName = withDimensions element.sourceName dimensions := by
  induction dimensions with
  | zero => rfl
  | succ dimensions ih => rw [nested, sourceName, ih, withDimensions]

/-! ## Field descriptors as signatures -/

/-- Field types start neither like a method nor like type parameters. -/
theorem exists_head (type : FieldType) :
    ∃ head more, type.chars = head :: more ∧ head ≠ '(' ∧ head ≠ '<' := by
  cases type with
  | primitive type => exact ⟨type.letter, [], rfl, by cases type <;> decide⟩
  | object name => exact ⟨'L', _, rfl, by decide⟩
  | array element => exact ⟨'[', _, rfl, by decide⟩

/-- A field descriptor is read as a type with nothing behind it. -/
theorem body_chars {type : FieldType} (hnames : Readable type.classNames) (fuel : Nat)
    (hfuel : 2 * type.chars.length < fuel) :
    body fuel type.chars = .ok (.types [type.tree], []) := by
  obtain ⟨head, more, hchars, hmethod, -⟩ := type.exists_head
  have hpos : 1 ≤ type.chars.length := by simp [hchars]
  have hmany : many (fun chars => !chars.isEmpty) (anyType fuel) fuel
      ([type].flatMap chars ++ []) = .ok ([type].map tree, []) := by
    refine Grammar.many_append (fun _ => True) _ (fun one hone after _ => ?_)
      (fun _ _ => trivial) trivial rfl fuel (by rw [List.length_singleton]; omega)
    obtain rfl := List.mem_singleton.1 hone
    exact ⟨by simp [hchars], reads hnames fuel after (by omega)⟩
  rw [List.flatMap_singleton, List.append_nil] at hmany
  rw [hchars] at hmany ⊢
  rw [body, hmany]
  · rfl
  · simp
  · intro rest hrest
    exact hmethod (List.cons.inj hrest).1

/-- A field type as a signature. -/
def signature (type : FieldType) : Signature where
  typeParameters := none
  body := .types [type.tree]

/-- A field descriptor is read as a signature if its names can be. -/
theorem parse_signature {type : FieldType} (hnames : Readable type.classNames) :
    Signature.parse type.descriptor = .ok type.signature := by
  obtain ⟨head, more, hchars, -, hdeclared⟩ := type.exists_head
  have hstart : type.chars.head? ≠ some '<' := by simp [hchars, hdeclared]
  exact Grammar.parse_bracketed [] hstart (body_chars hnames)

/-- The descriptor of a field refers to the class that its type is made of. -/
theorem distinctOuterClasses_descriptor {type : FieldType} (hnames : Readable type.classNames) :
    distinctOuterClasses type.descriptor = .ok type.classNames.eraseDups := by
  have hclasses : type.signature.outerClasses = type.classNames := by
    rw [← outerClasses_tree]
    exact List.append_nil _
  rw [distinctOuterClasses, parse_signature hnames, ← hclasses]
  rfl

end FieldType

/-! ## Checks -/

/-- The descriptor of a class, or of an array of it with the given dimensions. -/
def classDescriptor (dimensions : Nat) (name : String) : String :=
  String.ofList (List.replicate dimensions '[' ++ 'L' :: name.toList ++ [';'])

namespace PackagePolicy

/-- A descriptor is read as that of a class in both ways, its source name has the
package of the class, and every check accepts the descriptor exactly if that package
is allowed. -/
structure AgreesOn (policy : PackagePolicy) (descriptor name : String) : Prop where
  classes_eq : distinctOuterClasses descriptor = .ok [name]
  source : ∃ type, sourceTypeName descriptor = .ok type ∧
    policy.allowsClass type = policy.allowsClass (ClassName.toBinary name)
  annotation_or_enum (exposure : String → Exposure) :
    policy.checkType exposure descriptor = .ok () ↔ policy.allowsClass (ClassName.toBinary name)
  classLiteral (owner : String) :
    policy.checkClassLiteral owner descriptor = .ok () ↔
      policy.allowsClass (ClassName.toBinary name)
  member (owner : String) (single : String → Exposure) (signature : Option String)
    (raw : String) (hsignature : signature.getD raw = descriptor) :
    policy.checkMember owner single signature raw = .ok () ↔
      policy.allowsClass (ClassName.toBinary name)

variable {policy : PackagePolicy} {descriptor : String}

/-- A type passes the check exactly if its source name is allowed. -/
theorem checkType_eq_ok_iff {type : String} (htype : sourceTypeName descriptor = .ok type)
    (exposure : String → Exposure) :
    policy.checkType exposure descriptor = .ok () ↔ policy.allowsClass type := by
  rw [checkType, htype]
  change (if policy.allowsClass type then Except.ok () else Except.error _) = _ ↔ _
  by_cases hallowed : policy.allowsClass type <;> simp [hallowed]

/-- A member that refers to one class passes the check exactly if this is allowed.
-/
theorem checkMember_eq_ok_iff {name : String}
    (hclasses : distinctOuterClasses descriptor = .ok [name]) (owner : String)
    (single : String → Exposure) {signature : Option String} {raw : String}
    (hsignature : signature.getD raw = descriptor) :
    policy.checkMember owner single signature raw = .ok () ↔
      policy.allowsClass (ClassName.toBinary name) := by
  have hoffenders : policy.offenders descriptor =
      .ok ([ClassName.toBinary name].filter fun name => !policy.allowsClass name) := by
    rw [offenders, hclasses]
    rfl
  rw [checkMember, hsignature, hoffenders]
  by_cases hallowed : policy.allowsClass (ClassName.toBinary name)
  · rw [List.filter_cons_of_neg (by simp [hallowed])]
    exact iff_of_true rfl hallowed
  · rw [List.filter_cons_of_pos (by simp [hallowed])]
    exact iff_of_false (by simp [Bind.bind, Except.bind, throw, throwThe, MonadExceptOf.throw])
      hallowed

/-- A class type with a legal name, as a type of descriptors. -/
theorem exists_object {name : String} (hname : name ≠ "")
    (hclear : ∀ char ∈ name.toList, char ∉ ['.', ';', '[', '<', '>', ':']) :
    ∃ object : ObjectName, object.text = name ∧ Readable [object.text] := by
  have hdelimited : ';' ∉ name.toList := fun hmem => hclear ';' hmem (by decide)
  refine ⟨⟨name, by simpa using hname, hdelimited⟩, rfl, fun one hone char hchar => ?_⟩
  obtain rfl := List.mem_singleton.1 hone
  have hplain := hclear char hchar
  simp only [List.mem_cons, List.not_mem_nil, or_false, not_or] at hplain
  simp [isNameChar, hplain]

/-- The descriptor of a class is that of an array of the class. -/
theorem descriptor_nested (object : ObjectName) (dimensions : Nat) :
    ((FieldType.object object).nested dimensions).descriptor =
      classDescriptor dimensions object.text := by
  rw [classDescriptor, FieldType.descriptor, FieldType.chars_nested, List.append_assoc]
  rfl

/-- The source name of that type is the dotted name with brackets. -/
theorem sourceTypeName_classDescriptor (object : ObjectName) (dimensions : Nat) :
    sourceTypeName (classDescriptor dimensions object.text) =
      .ok (withDimensions (ClassName.toBinary object.text) dimensions) := by
  rw [← descriptor_nested, sourceTypeName_descriptor, FieldType.sourceName_nested]
  rfl

/-- **One policy, two routes.** A descriptor of a class type, with or without array
dimensions, is accepted by the check of annotations and enums exactly if it is by the
check of members: if the package of the class is allowed. -/
theorem agreesOn_classDescriptor (policy : PackagePolicy) (dimensions : Nat) {name : String}
    (hname : name ≠ "")
    (hclear : ∀ char ∈ name.toList, char ∉ ['.', ';', '[', '<', '>', ':']) :
    policy.AgreesOn (classDescriptor dimensions name) name := by
  obtain ⟨object, rfl, hreadable⟩ := exists_object hname hclear
  have hclasses : distinctOuterClasses (classDescriptor dimensions object.text) =
      .ok [object.text] := by
    have hnames : Readable ((FieldType.object object).nested dimensions).classNames := by
      rwa [FieldType.classNames_nested]
    rw [← descriptor_nested, FieldType.distinctOuterClasses_descriptor hnames,
      FieldType.classNames_nested]
    rfl
  have hpackage (dimensions : Nat) :
      policy.allowsClass (withDimensions (ClassName.toBinary object.text) dimensions) =
        policy.allowsClass (ClassName.toBinary object.text) := by
    rw [allowsClass, allowsClass, packageName_withDimensions]
  have hsource := sourceTypeName_classDescriptor object
  exact {
    classes_eq := hclasses
    source := ⟨_, hsource dimensions, hpackage dimensions⟩
    annotation_or_enum := fun exposure => by
      rw [checkType_eq_ok_iff (hsource dimensions), hpackage]
    classLiteral := fun owner => by
      -- A class literal is checked without its dimensions.
      rw [checkClassLiteral, classDescriptor, String.toList_ofList, List.append_assoc,
        List.dropWhile_append_of_pos (by simp), ← hpackage 0, ← checkType_eq_ok_iff (hsource 0)]
      rfl
    member := fun owner single signature raw hsignature =>
      checkMember_eq_ok_iff hclasses owner single hsignature }

/-- A two-dimensional array of a class of the allowed package `p`. -/
theorem agreesOn_classDescriptor_sampleArray :
    "p/É,A" ≠ "" ∧ (∀ char ∈ "p/É,A".toList, char ∉ ['.', ';', '[', '<', '>', ':']) ∧
      (ofList ["p"]).AgreesOn (classDescriptor 2 "p/É,A") "p/É,A" := by
  have hclear : ∀ char ∈ "p/É,A".toList, char ∉ ['.', ';', '[', '<', '>', ':'] := by simp
  exact ⟨by simp, hclear, agreesOn_classDescriptor (ofList ["p"]) 2 (by simp) hclear⟩

end PackagePolicy

end ClassStub
