import ClassStub.Proofs.Stub.Admission
import ClassStub.Proofs.Stub.Projection

/-!
# Checks only refuse

Policies that are both declared, or both open, keep the same members, so they
make the same surface of a class (`ClassFile.surface_congr`).  What a policy
permits is still permitted when more packages are declared
(`ClassFile.Admissible.mono`).  So whatever stub is made with checks is made with
more packages too, and without checks; under an open policy the checks make no
difference (`ApiRules.stub_monotone`).
-/

namespace ClassStub

/-! ## What depends on openness alone -/

section

variable {policy other : PackagePolicy} (hopen : policy.isOpen = other.isOpen)

include hopen

/-- What is visible depends on openness alone. -/
theorem PackagePolicy.isVisible_congr : policy.isVisible = other.isVisible := by
  funext flags
  rw [isVisible, isVisible, hopen]

/-- Which methods are kept depends on openness alone. -/
theorem keepsMethod_congr (header : ClassHeader) (method : Method) :
    KeepsMethod policy header method ↔ KeepsMethod other header method := by
  rw [KeepsMethod, KeepsMethod, PackagePolicy.isVisible_congr hopen]

/-- The methods of the API depend on openness alone. -/
theorem ClassFile.apiMethods_congr (file : ClassFile) :
    file.apiMethods policy = file.apiMethods other := by
  rw [file.apiMethods_eq, file.apiMethods_eq]
  exact List.filter_congr fun method _ =>
    decide_eq_decide.2 (keepsMethod_congr hopen file.header method)

theorem ClassFile.apiFields_congr (file : ClassFile) :
    file.apiFields policy = file.apiFields other := by
  refine List.filter_congr fun field _ => ?_
  rw [PackagePolicy.includesField, PackagePolicy.includesField,
    PackagePolicy.isVisible_congr hopen]

/-- The surface of a class depends on whether package-private declarations count,
and on nothing else of a policy. -/
theorem ClassFile.surface_congr (file : ClassFile) : file.surface policy = file.surface other := by
  have hrecords : policy.includesInnerClass = other.includesInnerClass := by
    funext record
    rw [PackagePolicy.includesInnerClass, PackagePolicy.includesInnerClass, hopen]
  rw [surface, surface, file.apiMethods_congr hopen, file.apiFields_congr hopen, hrecords]

end

/-! ## What more packages permit -/

section

variable {policy larger : PackagePolicy} (hmore : policy.packages ⊆ larger.packages)

namespace PackagePolicy

include hmore

/-- More packages permit more classes. -/
theorem Permits.mono {name : String} (hpermits : policy.Permits name) : larger.Permits name :=
  hpermits.imp_right fun hdeclared => hmore hdeclared

/-- More packages permit more types. -/
theorem PermitsType.mono {descriptor : String} (hpermits : policy.PermitsType descriptor) :
    larger.PermitsType descriptor := by
  obtain ⟨type, htype, hname⟩ := hpermits
  exact ⟨type, htype, hname.mono hmore⟩

/-- More packages permit more signatures. -/
theorem PermitsSignature.mono {signature : String} (hpermits : policy.PermitsSignature signature) :
    larger.PermitsSignature signature := by
  obtain ⟨classes, hclasses, hnames⟩ := hpermits
  exact ⟨classes, hclasses, fun name hname => (hnames name hname).mono hmore⟩

/-- More packages permit more values. -/
theorem PermitsValue.mono {value : ElementValue} (hpermits : policy.PermitsValue value) :
    larger.PermitsValue value :=
  fun exposed hexposed => (hpermits exposed hexposed).mono hmore

theorem PermitsTable.mono {table : List Annotation} (hpermits : policy.PermitsTable table) :
    larger.PermitsTable table :=
  fun annotation hannotation => (hpermits annotation hannotation).mono hmore

end PackagePolicy

include hmore

/-- More packages admit more methods. -/
theorem Method.Admissible.mono {method : Method} (hadmissible : method.Admissible policy) :
    method.Admissible larger where
  descriptor := hadmissible.descriptor
  types := hadmissible.types.mono hmore
  annotations := hadmissible.annotations.mono hmore
  parameterAnnotations := fun table htable =>
    (hadmissible.parameterAnnotations table htable).mono hmore
  annotationDefault := fun value hvalue => (hadmissible.annotationDefault value hvalue).mono hmore

theorem Field.Admissible.mono {field : Field} (hadmissible : field.Admissible policy) :
    field.Admissible larger where
  descriptor := hadmissible.descriptor
  types := hadmissible.types.mono hmore
  annotations := hadmissible.annotations.mono hmore

/-- A class that exposes permitted types only still does so when more packages
are permitted, if the same members are looked at. -/
theorem ClassFile.Admissible.mono {file : ClassFile} (hopen : policy.isOpen = larger.isOpen)
    (hadmissible : file.Admissible policy) : file.Admissible larger where
  superclass := fun name hname => (hadmissible.superclass name hname).mono hmore
  interfaces := fun name hname => (hadmissible.interfaces name hname).mono hmore
  signature := fun signature hsignature => (hadmissible.signature signature hsignature).mono hmore
  annotations := hadmissible.annotations.mono hmore
  methods := fun method hmethod hkept =>
    (hadmissible.methods method hmethod
      ((keepsMethod_congr hopen file.header method).2 hkept)).mono hmore
  fields := fun field hfield hvisible =>
    (hadmissible.fields field hfield
      ((PackagePolicy.isVisible_congr hopen) ▸ hvisible)).mono hmore

end

/-! ## Rules -/

namespace ApiRules

/-- The rules with the same policy that check nothing but descriptors. -/
def unchecked (rules : ApiRules) : ApiRules :=
  { rules with validate := false }

@[simp] theorem unchecked_ofPackages (packages : List String) (validate : Bool) :
    (ofPackages packages validate).unchecked = ofPackages packages false :=
  rfl

/-- Rules that check nothing accept everything. -/
theorem whenChecked_eq_ok {rules : ApiRules} (hunchecked : rules.checksExposure = false)
    (check : Except ApiError Unit) : rules.whenChecked check = .ok () := by
  rw [whenChecked, if_neg (by simp [hunchecked])]

/-- A method that passes the checks passes without them. -/
theorem checkMethod_unchecked {rules : ApiRules} {method : Method}
    (hpass : rules.checkMethod method = .ok ()) :
    rules.unchecked.checkMethod method = .ok () := by
  rw [checkMethod, bind_eq_ok] at hpass ⊢
  obtain ⟨owner, howner, _⟩ := hpass
  exact ⟨owner, howner, whenChecked_eq_ok rfl _⟩

theorem checkField_unchecked {rules : ApiRules} {field : Field}
    (hpass : rules.checkField field = .ok ()) : rules.unchecked.checkField field = .ok () := by
  rw [checkField, bind_eq_ok] at hpass ⊢
  obtain ⟨owner, howner, _⟩ := hpass
  exact ⟨owner, howner, whenChecked_eq_ok rfl _⟩

/-- A class that passes with checks passes without them. -/
theorem check_unchecked {rules : ApiRules} {file : ClassFile}
    (hpass : rules.check file = .ok ()) : rules.unchecked.check file = .ok () := by
  rw [check_eq_ok_of_members] at hpass ⊢
  obtain ⟨_, _, hmethods, hfields⟩ := hpass
  exact ⟨whenChecked_eq_ok rfl _, whenChecked_eq_ok rfl _,
    fun method hmethod => checkMethod_unchecked (hmethods method hmethod),
    fun field hfield => checkField_unchecked (hfields field hfield)⟩

/-- A stub that is made with checks is made without them. -/
theorem stub_unchecked {rules : ApiRules} {bytes stub : List UInt8}
    (hstub : rules.stub bytes = .ok stub) : rules.unchecked.stub bytes = .ok stub := by
  obtain ⟨file, hfile, hcheck, hwrite⟩ := stub_eq_ok.1 hstub
  exact stub_eq_ok.2 ⟨file, hfile, check_unchecked hcheck, hwrite⟩

/-- Rules that make no checks differ in nothing but their policies. -/
theorem check_congr {rules other : ApiRules} (hpolicy : rules.policy = other.policy)
    (hrules : rules.checksExposure = false) (hother : other.checksExposure = false)
    (file : ClassFile) : rules.check file = other.check file := by
  have hmethod : rules.checkMethod = other.checkMethod := by
    funext method
    simp only [checkMethod, whenChecked_eq_ok hrules, whenChecked_eq_ok hother]
  have hfield : rules.checkField = other.checkField := by
    funext field
    simp only [checkField, whenChecked_eq_ok hrules, whenChecked_eq_ok hother]
  simp only [check, whenChecked_eq_ok hrules, whenChecked_eq_ok hother, hmethod, hfield, hpolicy]

theorem mem_packages_ofPackages {packages : List String} {validate : Bool} {package : String} :
    package ∈ (ofPackages packages validate).policy.packages ↔ package ∈ packages :=
  List.mem_eraseDups

theorem packages_ofPackages_ne_nil {packages : List String} (hdeclared : packages ≠ [])
    (validate : Bool) : (ofPackages packages validate).policy.packages ≠ [] := by
  obtain ⟨package, hpackage⟩ := List.exists_mem_of_ne_nil packages hdeclared
  exact List.ne_nil_of_mem (mem_packages_ofPackages.2 hpackage)

/-- A stub that is made under declared packages is made under more of them. -/
theorem stub_more {packages more : List String} {bytes stub : List UInt8}
    (hdeclared : packages ≠ []) (hmore : packages ⊆ more)
    (hstub : (ofPackages packages true).stub bytes = .ok stub) :
    (ofPackages more true).stub bytes = .ok stub := by
  have hlarger : more ≠ [] := fun hnone => hdeclared (List.subset_nil.1 (hnone ▸ hmore))
  have hfirst := packages_ofPackages_ne_nil hdeclared true
  have hsecond := packages_ofPackages_ne_nil hlarger true
  have hopen : (ofPackages packages true).policy.isOpen = (ofPackages more true).policy.isOpen := by
    rw [PackagePolicy.isOpen, PackagePolicy.isOpen, List.isEmpty_eq_false_iff.2 hfirst,
      List.isEmpty_eq_false_iff.2 hsecond]
  have hpermitted : (ofPackages packages true).policy.packages ⊆
      (ofPackages more true).policy.packages :=
    fun package hpackage =>
      mem_packages_ofPackages.2 (hmore (mem_packages_ofPackages.1 hpackage))
  obtain ⟨file, hfile, hcheck, hwrite⟩ := stub_eq_ok.1 hstub
  have hadmissible := (check_eq_ok_iff_admissible rfl hfirst file).1 hcheck
  refine stub_eq_ok.2 ⟨file, hfile, ?_, ?_⟩
  · exact (check_eq_ok_iff_admissible rfl hsecond file).2 (hadmissible.mono hpermitted hopen)
  · rwa [← file.surface_congr hopen]

/-- Without declared packages nothing is checked. -/
theorem checksExposure_ofPackages_nil (validate : Bool) :
    (ofPackages [] validate).checksExposure = false := by
  simp [checksExposure, ofPackages, PackagePolicy.ofList, PackagePolicy.isOpen]

/-- Without declared packages nothing is checked in any case. -/
theorem stub_open (bytes : List UInt8) :
    (ofPackages [] true).stub bytes = (ofPackages [] false).stub bytes := by
  have hextract : (ofPackages [] true).extract = (ofPackages [] false).extract := by
    funext file
    have hcheck : (ofPackages [] true).check file = (ofPackages [] false).check file :=
      check_congr rfl (checksExposure_ofPackages_nil true) (checksExposure_ofPackages_nil false)
        file
    rw [extract, extract, hcheck]
    rfl
  rw [ApiRules.stub, ApiRules.stub, hextract]

/-- **Checks only refuse.** A stub that is made with checks under declared
packages is made, byte for byte, when more packages are declared and when nothing
is checked.  Without declared packages it makes no difference whether there are
checks. -/
theorem stub_monotone (bytes : List UInt8) :
    (∀ packages more stub, packages ≠ [] → packages ⊆ more →
      (ofPackages packages true).stub bytes = .ok stub →
        (ofPackages more true).stub bytes = .ok stub ∧
          (ofPackages packages false).stub bytes = .ok stub ∧
            (ofPackages more false).stub bytes = .ok stub) ∧
      (ofPackages [] true).stub bytes = (ofPackages [] false).stub bytes := by
  constructor
  · intro packages more stub hdeclared hmore hstub
    have hlarger := stub_more hdeclared hmore hstub
    have hplain := stub_unchecked hstub
    have hlargerPlain := stub_unchecked hlarger
    rw [unchecked_ofPackages] at hplain hlargerPlain
    exact ⟨hlarger, hplain, hlargerPlain⟩
  · exact stub_open bytes

/-- The sample is an interface of the package `p`, which the larger list has
behind another one. -/
theorem stub_monotone_sampleInterface :
    ["p"] ≠ [] ∧ ["p"] ⊆ ["q", "p", "q"] ∧
      (ofPackages ["p"] true).stub sampleInterface = .ok sampleStub ∧
        (ofPackages ["q", "p", "q"] true).stub sampleInterface = .ok sampleStub ∧
          (ofPackages ["p"] false).stub sampleInterface = .ok sampleStub ∧
            (ofPackages ["q", "p", "q"] false).stub sampleInterface = .ok sampleStub :=
  ⟨List.cons_ne_nil _ _, by decide, stub_sampleInterface,
    (stub_monotone sampleInterface).1 ["p"] ["q", "p", "q"] sampleStub (List.cons_ne_nil _ _)
      (by decide) stub_sampleInterface⟩

end ApiRules

end ClassStub
