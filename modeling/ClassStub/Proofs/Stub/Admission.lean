import ClassStub.Proofs.Stub.Checking
import ClassStub.Proofs.Stub.Surface

/-!
# Which classes are admitted

Under a declared policy with checks, a class is admitted if everything it
exposes lies in permitted packages (`ClassFile.Admissible`): its supertypes, the
types of its members that count as API, and what their annotations and its own
expose at any depth (`ElementValue.Exposes`).  This is said without the order of
the checks and without the normal forms that they are made on; extraction
succeeds for exactly these classes (`ApiRules.exists_extract_iff`).
-/

namespace ClassStub

/-! ## What annotations expose -/

/-- The types, as descriptors, that an element value exposes at any depth.  A
class literal exposes the class that it is made of, if there is one. -/
inductive ElementValue.Exposes : ElementValue → String → Prop
  | classLiteral {descriptor : String}
      (hclass : (descriptor.toList.dropWhile (· = '[')).head? = some 'L') :
      Exposes (.constant (.classLiteral descriptor))
        (String.ofList (descriptor.toList.dropWhile (· = '[')))
  | enumConstant (type name : String) : Exposes (.enumConstant type name) type
  | annotationType (type : String) (elements : List (String × ElementValue)) :
      Exposes (.nested type elements) type
  | element {type exposed : String} {elements : List (String × ElementValue)}
      {element : String × ElementValue} (helement : element ∈ elements)
      (hexposed : Exposes element.2 exposed) : Exposes (.nested type elements) exposed
  | item {exposed : String} {values : List ElementValue} {value : ElementValue}
      (hvalue : value ∈ values) (hexposed : Exposes value exposed) :
      Exposes (.array values) exposed

namespace ElementValue

/-- A nested annotation exposes its type and what its elements expose. -/
theorem exposes_nested {type exposed : String} {elements : List (String × ElementValue)} :
    (nested type elements).Exposes exposed ↔
      exposed = type ∨ ∃ element ∈ elements, element.2.Exposes exposed := by
  constructor
  · rintro (_ | _ | _ | ⟨helement, hexposed⟩)
    · exact Or.inl rfl
    · exact Or.inr ⟨_, helement, hexposed⟩
  · rintro (rfl | ⟨element, helement, hexposed⟩)
    · exact .annotationType exposed elements
    · exact .element helement hexposed

/-- An array exposes what its items expose. -/
theorem exposes_array {exposed : String} {values : List ElementValue} :
    (array values).Exposes exposed ↔ ∃ value ∈ values, value.Exposes exposed := by
  constructor
  · rintro (_ | _ | _ | _ | ⟨hvalue, hexposed⟩)
    exact ⟨_, hvalue, hexposed⟩
  · rintro ⟨value, hvalue, hexposed⟩
    exact .item hvalue hexposed

end ElementValue

mutual

/-- The normal form of a value exposes what the value does. -/
theorem ElementValue.exposes_normalize (value : ElementValue) (exposed : String) :
    value.normalize.Exposes exposed ↔ value.Exposes exposed := by
  cases value with
  | constant value => rfl
  | enumConstant type name => rfl
  | nested type elements =>
    rw [ElementValue.normalize, ElementValue.exposes_nested, ElementValue.exposes_nested]
    simp only [sortByName, List.mem_mergeSort, exposes_normalizeElements elements exposed]
  | array values =>
    rw [ElementValue.normalize, ElementValue.exposes_array, ElementValue.exposes_array,
      exposes_normalizeValues values exposed]

/-- Normal elements expose what the elements do. -/
theorem exposes_normalizeElements (elements : List (String × ElementValue)) (exposed : String) :
    (∃ element ∈ normalizeElements elements, element.2.Exposes exposed) ↔
      ∃ element ∈ elements, element.2.Exposes exposed := by
  cases elements with
  | nil => rfl
  | cons element elements =>
    obtain ⟨name, value⟩ := element
    simp only [normalizeElements, List.exists_mem_cons_iff, value.exposes_normalize exposed,
      exposes_normalizeElements elements exposed]

theorem exposes_normalizeValues (values : List ElementValue) (exposed : String) :
    (∃ value ∈ normalizeValues values, value.Exposes exposed) ↔
      ∃ value ∈ values, value.Exposes exposed := by
  cases values with
  | nil => rfl
  | cons value values =>
    simp only [normalizeValues, List.exists_mem_cons_iff, value.exposes_normalize exposed,
      exposes_normalizeValues values exposed]

end

/-! ## What a policy permits -/

namespace PackagePolicy

/-- The package of a class, given by its dotted name, is one of the base module
or a declared one. -/
def Permits (policy : PackagePolicy) (name : String) : Prop :=
  ClassName.packageName name ∈ basePackages ∨ ClassName.packageName name ∈ policy.packages

/-- A descriptor names a type of a permitted package. -/
def PermitsType (policy : PackagePolicy) (descriptor : String) : Prop :=
  ∃ type, sourceTypeName descriptor = .ok type ∧ policy.Permits type

/-- A descriptor or signature can be read, and all classes that it refers to are
permitted. -/
def PermitsSignature (policy : PackagePolicy) (signature : String) : Prop :=
  ∃ classes, distinctOuterClasses signature = .ok classes ∧
    ∀ name ∈ classes, policy.Permits (ClassName.toBinary name)

/-- A value exposes permitted types only. -/
def PermitsValue (policy : PackagePolicy) (value : ElementValue) : Prop :=
  ∀ exposed, value.Exposes exposed → policy.PermitsType exposed

/-- All annotations of a table expose permitted types only. -/
def PermitsTable (policy : PackagePolicy) (table : List Annotation) : Prop :=
  ∀ annotation ∈ table, policy.PermitsValue annotation.toValue

variable {policy : PackagePolicy} {owner : String}

/-- A value is permitted exactly if its normal form is. -/
theorem permitsValue_normalize (value : ElementValue) :
    policy.PermitsValue value.normalize ↔ policy.PermitsValue value := by
  simp only [PermitsValue, value.exposes_normalize]

theorem permitsValue_normalize_toValue (one : Annotation) :
    policy.PermitsValue one.normalize.toValue ↔ policy.PermitsValue one.toValue :=
  permitsValue_normalize one.toValue

/-- A nested annotation is permitted with its type and its elements. -/
theorem permitsValue_nested (type : String) (elements : List (String × ElementValue)) :
    policy.PermitsValue (.nested type elements) ↔
      policy.PermitsType type ∧ ∀ element ∈ elements, policy.PermitsValue element.2 := by
  simp only [PermitsValue, ElementValue.exposes_nested]
  constructor
  · intro hall
    exact ⟨hall type (Or.inl rfl), fun element helement exposed hexposed =>
      hall exposed (Or.inr ⟨element, helement, hexposed⟩)⟩
  · rintro ⟨htype, helements⟩ exposed (rfl | ⟨element, helement, hexposed⟩)
    · exact htype
    · exact helements element helement exposed hexposed

theorem permitsValue_array (values : List ElementValue) :
    policy.PermitsValue (.array values) ↔ ∀ value ∈ values, policy.PermitsValue value := by
  simp only [PermitsValue, ElementValue.exposes_array]
  constructor
  · intro hall value hvalue exposed hexposed
    exact hall exposed ⟨value, hvalue, hexposed⟩
  · rintro hall exposed ⟨value, hvalue, hexposed⟩
    exact hall value hvalue exposed hexposed

theorem permitsTable_append (table others : List Annotation) :
    policy.PermitsTable (table ++ others) ↔
      policy.PermitsTable table ∧ policy.PermitsTable others :=
  List.forall_mem_append

/-- With declared packages, the allowed classes are the permitted ones. -/
theorem allowsClass_iff (hdeclared : policy.packages ≠ []) (name : String) :
    policy.allowsClass name = true ↔ policy.Permits name := by
  simp [allowsClass, allows, isOpen, Permits, hdeclared]

/-- A type passes the check exactly if it is permitted. -/
theorem checkType_eq_ok (hdeclared : policy.packages ≠ []) {exposure : String → Exposure}
    {descriptor : String} :
    policy.checkType exposure descriptor = .ok () ↔ policy.PermitsType descriptor := by
  unfold checkType orMalformed PermitsType
  simp only [bind_eq_ok, mapError_eq_ok, ← allowsClass_iff hdeclared]
  refine exists_congr fun type => and_congr_right fun _ => ?_
  by_cases hallowed : policy.allowsClass type
  · simp [hallowed, Pure.pure, Except.pure]
  · simp [hallowed, throw, throwThe, MonadExceptOf.throw]

/-- A class literal passes the check exactly if it is permitted. -/
theorem checkClassLiteral_eq_ok (hdeclared : policy.packages ≠ []) {descriptor : String} :
    policy.checkClassLiteral owner descriptor = .ok () ↔
      policy.PermitsValue (.constant (.classLiteral descriptor)) := by
  unfold checkClassLiteral PermitsValue
  by_cases hclass : (descriptor.toList.dropWhile (· = '[')).head? = some 'L'
  · simp only [hclass, ↓reduceIte, checkType_eq_ok hdeclared]
    constructor
    · rintro hpermits exposed (_ | _)
      exact hpermits
    · intro hall
      exact hall _ (.classLiteral hclass)
  · simp only [hclass, ↓reduceIte, true_iff]
    rintro exposed (hliteral | _)
    exact absurd hliteral hclass

mutual

/-- A value passes if all that it exposes is permitted. -/
theorem checkValue_eq_ok (hdeclared : policy.packages ≠ []) (value : ElementValue) :
    policy.checkValue owner value = .ok () ↔ policy.PermitsValue value := by
  cases value with
  | constant constant =>
    cases constant with
    | classLiteral descriptor =>
      rw [checkValue]
      exact checkClassLiteral_eq_ok hdeclared
    | _ => exact iff_of_true rfl nofun
  | enumConstant type name =>
    rw [checkValue, checkType_eq_ok hdeclared]
    constructor
    · rintro htype exposed (_ | _)
      exact htype
    · intro hall
      exact hall type (.enumConstant type name)
  | nested type elements =>
    rw [checkValue, check_bind_eq_ok, permitsValue_nested, checkElements_eq_ok hdeclared elements,
      checkType_eq_ok hdeclared]
  | array values =>
    rw [checkValue, permitsValue_array, checkValues_eq_ok hdeclared values]

theorem checkElements_eq_ok (hdeclared : policy.packages ≠ [])
    (elements : List (String × ElementValue)) :
    policy.checkElements owner elements = .ok () ↔
      ∀ element ∈ elements, policy.PermitsValue element.2 := by
  cases elements with
  | nil => exact iff_of_true rfl nofun
  | cons element elements =>
    obtain ⟨name, value⟩ := element
    rw [checkElements, check_bind_eq_ok, List.forall_mem_cons, checkValue_eq_ok hdeclared value,
      checkElements_eq_ok hdeclared elements]

theorem checkValues_eq_ok (hdeclared : policy.packages ≠ []) (values : List ElementValue) :
    policy.checkValues owner values = .ok () ↔ ∀ value ∈ values, policy.PermitsValue value := by
  cases values with
  | nil => exact iff_of_true rfl nofun
  | cons value values =>
    rw [checkValues, check_bind_eq_ok, List.forall_mem_cons, checkValue_eq_ok hdeclared value,
      checkValues_eq_ok hdeclared values]

end

/-- Retained annotations pass the check exactly if all of them are permitted. -/
theorem checkAnnotations_eq_ok (hdeclared : policy.packages ≠ []) {retained : List Retained} :
    policy.checkAnnotations owner retained = .ok () ↔
      ∀ one ∈ retained, policy.PermitsValue one.content.toValue := by
  rw [checkAnnotations, forM_eq_ok]
  simp only [checkValue_eq_ok hdeclared]

/-- What is retained from two tables passes the check exactly if both are permitted.
-/
theorem checkAnnotations_ofTables (hdeclared : policy.packages ≠ [])
    (visible invisible : List Annotation) :
    policy.checkAnnotations owner (Retained.ofTables visible invisible) = .ok () ↔
      policy.PermitsTable (visible ++ invisible) := by
  rw [checkAnnotations_eq_ok hdeclared, permitsTable_append]
  simp only [Retained.ofTables, Retained.sort, List.mem_mergeSort, List.forall_mem_append,
    List.forall_mem_map, Retained.retain, PermitsTable, permitsValue_normalize_toValue]

/-- What is retained from a table passes the check exactly if the table is
permitted. -/
theorem checkAnnotations_ofTable (hdeclared : policy.packages ≠ []) (visible : Bool)
    (table : List Annotation) :
    policy.checkAnnotations owner (Retained.ofTable visible table) = .ok () ↔
      policy.PermitsTable table := by
  rw [checkAnnotations_eq_ok hdeclared]
  simp only [Retained.ofTable, Retained.sort, List.mem_mergeSort, List.forall_mem_map,
    Retained.retain, permitsValue_normalize_toValue, PermitsTable]

/-- A signature has no offenders exactly if it is permitted. -/
theorem offenders_eq_nil (hdeclared : policy.packages ≠ []) {signature : String} :
    policy.offenders signature = .ok [] ↔ policy.PermitsSignature signature := by
  unfold offenders orMalformed PermitsSignature
  simp only [bind_eq_ok, mapError_eq_ok, ← allowsClass_iff hdeclared]
  refine exists_congr fun classes => and_congr_right fun _ => ?_
  simp [Pure.pure, Except.pure, List.filter_eq_nil_iff]

/-- A member is checked by its signature, and by its descriptor without one. -/
theorem checkMember_eq_ok (hdeclared : policy.packages ≠ []) {single : String → Exposure}
    {signature : Option String} {descriptor : String} :
    policy.checkMember owner single signature descriptor = .ok () ↔
      policy.PermitsSignature (signature.getD descriptor) := by
  rw [← offenders_eq_nil hdeclared, checkMember, bind_eq_ok]
  constructor
  · rintro ⟨found, hfound, hnone⟩
    rcases found with _ | ⟨first, _ | ⟨second, more⟩⟩
    · exact hfound
    · cases hnone
    · cases hnone
  · intro hfound
    exact ⟨[], hfound, rfl⟩

/-- A name is no offender exactly if it is permitted. -/
theorem offender?_eq_none (hdeclared : policy.packages ≠ []) {name : String} :
    policy.offender? name = none ↔ policy.Permits (ClassName.toBinary name) := by
  rw [← allowsClass_iff hdeclared, offender?]
  by_cases hallowed : policy.allowsClass (ClassName.toBinary name) <;> simp [hallowed]

end PackagePolicy

/-! ## Admissible members and classes -/

/-- A method with a well-formed descriptor that exposes permitted types only. -/
structure Method.Admissible (method : Method) (policy : PackagePolicy) : Prop where
  descriptor : ∃ type, MethodDescriptor.parse method.descriptor = .ok type
  types : policy.PermitsSignature (method.signature.getD method.descriptor)
  annotations : policy.PermitsTable (method.visibleAnnotations ++ method.invisibleAnnotations)
  parameterAnnotations : ∀ table ∈ method.visibleParameterAnnotations.getD [] ++
    method.invisibleParameterAnnotations.getD [], policy.PermitsTable table
  annotationDefault : ∀ value ∈ method.annotationDefault, policy.PermitsValue value

/-- A field whose descriptor names a type and that exposes permitted types only. -/
structure Field.Admissible (field : Field) (policy : PackagePolicy) : Prop where
  descriptor : ∃ type, sourceTypeName field.descriptor = .ok type
  types : policy.PermitsSignature (field.signature.getD field.descriptor)
  annotations : policy.PermitsTable (field.visibleAnnotations ++ field.invisibleAnnotations)

/-- A class that exposes permitted types only. -/
structure ClassFile.Admissible (file : ClassFile) (policy : PackagePolicy) : Prop where
  superclass : ∀ name ∈ file.header.superName, policy.Permits (ClassName.toBinary name)
  interfaces : ∀ name ∈ file.header.interfaces, policy.Permits (ClassName.toBinary name)
  signature : ∀ signature ∈ file.signature, policy.PermitsSignature signature
  annotations : policy.PermitsTable (file.visibleAnnotations ++ file.invisibleAnnotations)
  methods : ∀ method ∈ file.methods, KeepsMethod policy file.header method →
    method.Admissible policy
  fields : ∀ field ∈ file.fields, policy.isVisible field.flags → field.Admissible policy

namespace PackagePolicy

variable {policy : PackagePolicy} {owner : String} (hdeclared : policy.packages ≠ [])

include hdeclared

/-- The annotations of parameters pass if all their tables are permitted. -/
theorem checkParameters_eq_ok (visible : Bool) (parameters : Option (List (List Annotation))) :
    ((parameters.map (retainParameters visible)).getD []).forM (policy.checkAnnotations owner) =
        .ok () ↔
      ∀ table ∈ parameters.getD [], policy.PermitsTable table := by
  rw [forM_eq_ok]
  cases parameters with
  | none => exact iff_of_true nofun nofun
  | some tables =>
    simp only [Option.map_some, Option.getD_some, retainParameters, List.forall_mem_map,
      checkAnnotations_ofTable hdeclared]

/-- A method is admissible exactly if its descriptor is well formed and its surface
passes the check. -/
theorem checkMethod_eq_ok (method : Method) :
    (∃ type, MethodDescriptor.parse method.descriptor = .ok type) ∧
        policy.checkMethod owner method.surface = .ok () ↔
      method.Admissible policy := by
  simp only [checkMethod, check_bind_eq_ok, Method.surface, checkMember_eq_ok hdeclared,
    checkAnnotations_ofTables hdeclared, checkParameters_eq_ok hdeclared]
  constructor
  · rintro ⟨hdescriptor, htypes, hannotations, hvisible, hinvisible, hvalue⟩
    refine ⟨hdescriptor, htypes, hannotations, List.forall_mem_append.2 ⟨hvisible, hinvisible⟩,
      fun value hdefault => ?_⟩
    rw [Option.mem_def.1 hdefault] at hvalue
    exact (permitsValue_normalize value).1 ((checkValue_eq_ok hdeclared _).1 hvalue)
  · rintro ⟨hdescriptor, htypes, hannotations, hparameters, hvalue⟩
    obtain ⟨hvisible, hinvisible⟩ := List.forall_mem_append.1 hparameters
    refine ⟨hdescriptor, htypes, hannotations, hvisible, hinvisible, ?_⟩
    cases hdefault : method.annotationDefault with
    | none => rfl
    | some value =>
      exact (checkValue_eq_ok hdeclared _).2 ((permitsValue_normalize value).2 (hvalue value hdefault))

/-- A field is admissible exactly if its type has a source name and its surface
passes the check. -/
theorem checkField_eq_ok (field : Field) :
    (∃ type, sourceTypeName field.descriptor = .ok type) ∧
        policy.checkField owner field.surface = .ok () ↔
      field.Admissible policy := by
  simp only [checkField, check_bind_eq_ok, Field.surface, checkMember_eq_ok hdeclared,
    checkAnnotations_ofTables hdeclared]
  constructor
  · rintro ⟨hdescriptor, htypes, hannotations⟩
    exact ⟨hdescriptor, htypes, hannotations⟩
  · rintro ⟨hdescriptor, htypes, hannotations⟩
    exact ⟨hdescriptor, htypes, hannotations⟩

omit hdeclared in
/-- Supertypes pass if none offends. -/
theorem checkSupertypes_eq_ok_iff (file : ClassFile) :
    policy.checkSupertypes file = .ok () ↔ policy.supertypeOffenders file = .ok [] := by
  rw [checkSupertypes, bind_eq_ok]
  constructor
  · rintro ⟨found, hfound, hnone⟩
    rcases found with _ | ⟨first, _ | ⟨second, more⟩⟩
    · exact hfound
    · cases hnone
    · cases hnone
  · intro hfound
    exact ⟨[], hfound, rfl⟩

/-- Supertypes pass the check exactly if all that they name is permitted. -/
theorem checkSupertypes_eq_ok (file : ClassFile) :
    policy.checkSupertypes file = .ok () ↔
      (∀ name ∈ file.header.superName, policy.Permits (ClassName.toBinary name)) ∧
      (∀ signature ∈ file.signature, policy.PermitsSignature signature) ∧
      ∀ name ∈ file.header.interfaces, policy.Permits (ClassName.toBinary name) := by
  have hnone : ∀ offenders : List (String × SupertypeOrigin),
      offenders.eraseDupsBy (fun first second => first.1 == second.1) = [] ↔ offenders = [] := by
    rintro (_ | ⟨first, more⟩) <;> simp [List.eraseDupsBy_cons]
  rw [checkSupertypes_eq_ok_iff, supertypeOffenders]
  cases file.signature with
  | none =>
    simp [Pure.pure, Except.pure, Bind.bind, Except.bind, hnone, offender?_eq_none hdeclared]
  | some signature =>
    simp [Pure.pure, Except.pure, bind_eq_ok, hnone, offender?_eq_none hdeclared,
      ← offenders_eq_nil hdeclared, and_left_comm]

end PackagePolicy

namespace ApiRules

variable {rules : ApiRules} (hvalidate : rules.validate = true)
  (hdeclared : rules.policy.packages ≠ [])

include hvalidate hdeclared

theorem whenChecked_eq (check : Except ApiError Unit) : rules.whenChecked check = check := by
  simp [whenChecked, checksExposure, PackagePolicy.isOpen, hvalidate, hdeclared]

/-- A method passes the check exactly if it is admissible. -/
theorem checkMethod_eq_ok (method : Method) :
    rules.checkMethod method = .ok () ↔ method.Admissible rules.policy := by
  simp only [checkMethod, PackagePolicy.orMalformed, bind_eq_ok, mapError_eq_ok, sourceMethod,
    whenChecked_eq hvalidate hdeclared]
  constructor
  · rintro ⟨owner, ⟨type, htype, _⟩, hmethod⟩
    exact (PackagePolicy.checkMethod_eq_ok hdeclared method).1 ⟨⟨type, htype⟩, hmethod⟩
  · intro hadmissible
    obtain ⟨type, htype⟩ := hadmissible.descriptor
    exact ⟨_, ⟨type, htype, rfl⟩,
      ((PackagePolicy.checkMethod_eq_ok hdeclared method).2 hadmissible).2⟩

/-- A field passes the check exactly if it is admissible. -/
theorem checkField_eq_ok (field : Field) :
    rules.checkField field = .ok () ↔ field.Admissible rules.policy := by
  simp only [checkField, PackagePolicy.orMalformed, bind_eq_ok, mapError_eq_ok, sourceField,
    whenChecked_eq hvalidate hdeclared]
  constructor
  · rintro ⟨owner, ⟨type, htype, _⟩, hfield⟩
    exact (PackagePolicy.checkField_eq_ok hdeclared field).1 ⟨⟨type, htype⟩, hfield⟩
  · intro hadmissible
    obtain ⟨type, htype⟩ := hadmissible.descriptor
    exact ⟨_, ⟨type, htype, rfl⟩,
      ((PackagePolicy.checkField_eq_ok hdeclared field).2 hadmissible).2⟩

/-- A class passes all checks exactly if it is admissible. -/
theorem check_eq_ok_iff_admissible (file : ClassFile) :
    rules.check file = .ok () ↔ file.Admissible rules.policy := by
  simp only [check_eq_ok_of_members, whenChecked_eq hvalidate hdeclared,
    PackagePolicy.checkSupertypes_eq_ok hdeclared, ClassFile.retainedAnnotations,
    PackagePolicy.checkAnnotations_ofTables hdeclared, file.apiMethods_eq, ClassFile.apiFields,
    List.mem_filter, and_imp, decide_eq_true_eq, checkMethod_eq_ok hvalidate hdeclared,
    checkField_eq_ok hvalidate hdeclared]
  constructor
  · rintro ⟨⟨hsuperclass, hsignature, hinterfaces⟩, hannotations, hmethods, hfields⟩
    exact ⟨hsuperclass, hinterfaces, hsignature, hannotations, hmethods, hfields⟩
  · rintro ⟨hsuperclass, hinterfaces, hsignature, hannotations, hmethods, hfields⟩
    exact ⟨⟨hsuperclass, hsignature, hinterfaces⟩, hannotations, hmethods, hfields⟩

/-- Under a declared policy with checks, extraction succeeds for the classes that
expose permitted types only. -/
theorem exists_extract_iff (file : ClassFile) :
    (∃ surface, rules.extract file = .ok surface) ↔ file.Admissible rules.policy := by
  simp only [extract, check_bind_eq_ok, check_eq_ok_iff_admissible hvalidate hdeclared]
  constructor
  · rintro ⟨surface, hadmissible, _⟩
    exact hadmissible
  · intro hadmissible
    exact ⟨_, hadmissible, rfl⟩

omit hvalidate hdeclared

/-- The class `p.A` with a field whose annotation has an array with a constant of
the enum `x.E`. -/
def sampleEnumField : ClassFile where
  header := {
    version := { major := 52, minor := 0 }
    flags := .accPublic
    name := "p/A"
    superName := some "java/lang/Object"
    interfaces := [] }
  fields := [{
    flags := .accPublic
    name := "f"
    descriptor := "I"
    visibleAnnotations := [{
      type := "Lp/B;"
      elements := [("value", .array [.enumConstant "Lx/E;" "ONE"])] }] }]
  methods := []
  pool := {}

/-- The sample is refused for the type of its field. -/
theorem not_exists_extract_sampleEnumField :
    (ofPackages ["p"] true).validate = true ∧ (ofPackages ["p"] true).policy.packages ≠ [] ∧
      ¬∃ surface, (ofPackages ["p"] true).extract sampleEnumField = .ok surface := by
  refine ⟨rfl, by decide, ?_⟩
  rw [exists_extract_iff rfl (by decide)]
  intro hadmissible
  have hfield := hadmissible.fields _ List.mem_cons_self (by decide)
  obtain ⟨type, htype, hpermitted⟩ := hfield.annotations _ List.mem_cons_self "Lx/E;"
    (.element List.mem_cons_self (.item List.mem_cons_self (.enumConstant "Lx/E;" "ONE")))
  have hname : sourceTypeName "Lx/E;" = .ok "x.E" := by cbv
  rw [hname] at htype
  cases htype
  revert hpermitted
  unfold PackagePolicy.Permits
  decide

end ApiRules

end ClassStub
