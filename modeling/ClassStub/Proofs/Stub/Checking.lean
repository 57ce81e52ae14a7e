import ClassStub.Api.Rules
import ClassStub.Proofs.Codec.Interning

/-!
# What checks depend on

The checks of members see no more than the surfaces of the members
(`ApiRules.checkMethod_eq`), and whether they pass depends neither on the order
of the members nor on how messages name the member that is checked
(`PackagePolicy.checkMethod_owner`).
-/

namespace ClassStub

namespace PackagePolicy

variable {policy : PackagePolicy} {owner : String} (other : String)

/-- A type passes if it is allowed, whatever the message would be. -/
theorem checkType_exposure {exposure : String → Exposure} (named : String → Exposure)
    {descriptor : String} (hpass : policy.checkType exposure descriptor = .ok ()) :
    policy.checkType named descriptor = .ok () := by
  unfold checkType at hpass ⊢
  rw [bind_eq_ok] at hpass ⊢
  rcases hpass with ⟨type, htype, hallowed⟩
  refine ⟨type, htype, ?_⟩
  by_cases hclass : policy.allowsClass type
  · rw [if_pos hclass]
    rfl
  · rw [if_neg hclass] at hallowed
    cases hallowed

/-- Who owns a class literal does not matter if it passes. -/
theorem checkClassLiteral_owner {descriptor : String}
    (hpass : policy.checkClassLiteral owner descriptor = .ok ()) :
    policy.checkClassLiteral other descriptor = .ok () := by
  unfold checkClassLiteral at hpass ⊢
  by_cases hclass : (descriptor.toList.dropWhile (· = '[')).head? = some 'L'
  · simp only [hclass, ↓reduceIte] at hpass ⊢
    exact checkType_exposure _ hpass
  · simp only [hclass, ↓reduceIte]

mutual

/-- Who owns a value does not matter if it passes. -/
theorem checkValue_owner (value : ElementValue)
    (hpass : policy.checkValue owner value = .ok ()) : policy.checkValue other value = .ok () := by
  cases value with
  | constant constant =>
    cases constant with
    | classLiteral descriptor =>
      rw [checkValue] at hpass ⊢
      exact checkClassLiteral_owner other hpass
    | _ => rfl
  | enumConstant type name =>
    rw [checkValue] at hpass ⊢
    exact checkType_exposure _ hpass
  | nested type elements =>
    rw [checkValue, bind_eq_ok] at hpass ⊢
    rcases hpass with ⟨_, htype, helements⟩
    exact ⟨(), checkType_exposure _ htype, checkElements_owner elements helements⟩
  | array values =>
    rw [checkValue] at hpass ⊢
    exact checkValues_owner values hpass

theorem checkElements_owner (elements : List (String × ElementValue))
    (hpass : policy.checkElements owner elements = .ok ()) :
    policy.checkElements other elements = .ok () := by
  cases elements with
  | nil => rfl
  | cons element elements =>
    obtain ⟨name, value⟩ := element
    rw [checkElements, bind_eq_ok] at hpass ⊢
    rcases hpass with ⟨_, hvalue, hmore⟩
    exact ⟨(), checkValue_owner value hvalue, checkElements_owner elements hmore⟩

theorem checkValues_owner (values : List ElementValue)
    (hpass : policy.checkValues owner values = .ok ()) :
    policy.checkValues other values = .ok () := by
  cases values with
  | nil => rfl
  | cons value values =>
    rw [checkValues, bind_eq_ok] at hpass ⊢
    rcases hpass with ⟨_, hvalue, hmore⟩
    exact ⟨(), checkValue_owner value hvalue, checkValues_owner values hmore⟩

end

/-- Who owns annotations does not matter if they pass. -/
theorem checkAnnotations_owner {retained : List Retained}
    (hpass : policy.checkAnnotations owner retained = .ok ()) :
    policy.checkAnnotations other retained = .ok () := by
  rw [checkAnnotations, forM_eq_ok] at hpass ⊢
  intro one hone
  exact checkValue_owner other one.content.toValue (hpass one hone)

/-- Neither does it matter how a member that passes would be reported. -/
theorem checkMember_owner {single : String → Exposure} (named : String → Exposure)
    {signature : Option String} {descriptor : String}
    (hpass : policy.checkMember owner single signature descriptor = .ok ()) :
    policy.checkMember other named signature descriptor = .ok () := by
  unfold checkMember at hpass ⊢
  rw [bind_eq_ok] at hpass ⊢
  rcases hpass with ⟨found, hfound, hnone⟩
  refine ⟨found, hfound, ?_⟩
  cases found with
  | nil => rfl
  | cons first more => cases more <;> cases hnone

/-- A method passes whatever messages call it, and whatever its flags are. -/
theorem checkMethod_owner {one : SurfaceMethod} (flags : AccessFlags)
    (hpass : policy.checkMethod owner one = .ok ()) :
    policy.checkMethod other { one with flags } = .ok () := by
  unfold checkMethod at hpass ⊢
  simp only [bind_eq_ok] at hpass ⊢
  rcases hpass with ⟨_, hmember, _, hannotations, _, hvisible, _, hinvisible, hdefault⟩
  refine ⟨(), checkMember_owner other _ hmember, (), checkAnnotations_owner other hannotations,
    (), ?_, (), ?_, ?_⟩
  · rw [forM_eq_ok] at hvisible ⊢
    exact fun table htable => checkAnnotations_owner other (hvisible table htable)
  · rw [forM_eq_ok] at hinvisible ⊢
    exact fun table htable => checkAnnotations_owner other (hinvisible table htable)
  · cases hvalue : one.annotationDefault with
    | none => rfl
    | some value =>
      rw [hvalue] at hdefault
      exact checkValue_owner other value hdefault

end PackagePolicy

namespace ApiRules

/-- Checks what the API shows of a method. -/
def checkSurfaceMethod (rules : ApiRules) (one : SurfaceMethod) : Except ApiError Unit := do
  let owner ← PackagePolicy.orMalformed (sourceMethod one.flags one.name one.descriptor)
  rules.whenChecked (rules.policy.checkMethod owner one)

/-- Checks what the API shows of a field. -/
def checkSurfaceField (rules : ApiRules) (one : SurfaceField) : Except ApiError Unit := do
  let owner ← PackagePolicy.orMalformed (sourceField one.flags one.name one.descriptor)
  rules.whenChecked (rules.policy.checkField owner one)

theorem checkMethod_eq (rules : ApiRules) (method : Method) :
    rules.checkMethod method = rules.checkSurfaceMethod method.surface :=
  rfl

theorem checkField_eq (rules : ApiRules) (field : Field) :
    rules.checkField field = rules.checkSurfaceField field.surface :=
  rfl

/-- A method passes whatever its flags are; they only show in messages. -/
theorem checkSurfaceMethod_flags {rules : ApiRules} {one : SurfaceMethod} (flags : AccessFlags)
    (hpass : rules.checkSurfaceMethod one = .ok ()) :
    rules.checkSurfaceMethod { one with flags } = .ok () := by
  unfold checkSurfaceMethod PackagePolicy.orMalformed at hpass ⊢
  simp only [bind_eq_ok, mapError_eq_ok, sourceMethod] at hpass ⊢
  rcases hpass with ⟨owner, ⟨type, htype, _⟩, hmethod⟩
  refine ⟨_, ⟨type, htype, rfl⟩, ?_⟩
  unfold whenChecked at hmethod ⊢
  by_cases hchecks : rules.checksExposure
  · rw [if_pos hchecks] at hmethod ⊢
    exact PackagePolicy.checkMethod_owner _ flags hmethod
  · rw [if_neg hchecks]

/-- The supertypes of a class are those of its header and its signature. -/
theorem checkSupertypes_congr (policy : PackagePolicy) {file other : ClassFile}
    (hheader : file.header = other.header) (hsignature : file.signature = other.signature) :
    policy.checkSupertypes file = policy.checkSupertypes other := by
  unfold PackagePolicy.checkSupertypes PackagePolicy.supertypeOffenders
  rw [hheader, hsignature]

/-- A class passes if its supertypes, its annotations and each of its members
do. -/
theorem check_eq_ok_of_members {rules : ApiRules} {file : ClassFile} :
    rules.check file = .ok () ↔
      rules.whenChecked (rules.policy.checkSupertypes file) = .ok () ∧
      rules.whenChecked (rules.policy.checkAnnotations (ClassName.toBinary file.header.name)
        file.retainedAnnotations) = .ok () ∧
      (∀ method ∈ file.apiMethods rules.policy, rules.checkMethod method = .ok ()) ∧
      ∀ field ∈ file.apiFields rules.policy, rules.checkField field = .ok () := by
  simp only [check, check_bind_eq_ok, forM_eq_ok]

/-- It is enough to check what the surface of a class shows of its members. -/
theorem check_eq_ok {rules : ApiRules} {file : ClassFile} :
    rules.check file = .ok () ↔
      rules.whenChecked (rules.policy.checkSupertypes file) = .ok () ∧
      rules.whenChecked (rules.policy.checkAnnotations (ClassName.toBinary file.header.name)
        file.retainedAnnotations) = .ok () ∧
      (∀ one ∈ (file.surface rules.policy).methods, rules.checkSurfaceMethod one = .ok ()) ∧
      ∀ one ∈ (file.surface rules.policy).fields, rules.checkSurfaceField one = .ok () := by
  simp only [check_eq_ok_of_members, ClassFile.surface, List.mem_mergeSort, List.forall_mem_map,
    checkMethod_eq, checkField_eq]

end ApiRules

end ClassStub
