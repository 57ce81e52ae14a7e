import ClassStub.Proofs.Stub.Checking
import ClassStub.Proofs.Stub.Projection

/-!
# Stubs of stubs

A stub is its own stub.  The helper that a stub declares is private, so it is
left out when the stub is read again; everything else is kept, in the order and
in the normal form that it already has.  So the surface of a stub is the surface
that it was written from, up to the marks of native methods
(`Stub.Shows.surface_eq`), which no declaration of a stub has anyway.
-/

namespace ClassStub

open Annotation

/-! ## Members -/

/-- A method of a surface as its stub shows it, without the mark of native
methods. -/
def SurfaceMethod.written (one : SurfaceMethod) : SurfaceMethod :=
  { one with flags := (Stub.method one).flags }

/-- Retaining again what was retained from parameters changes nothing. -/
theorem retainParameters_content (visible : Bool) (parameters : Option (List (List Annotation))) :
    ((parameters.map (retainParameters visible)).map (·.map (·.map (·.content)))).map
      (retainParameters visible) = parameters.map (retainParameters visible) := by
  cases parameters with
  | none => rfl
  | some tables =>
    simp only [Option.map_some, retainParameters, List.map_map, Option.some.injEq]
    exact List.map_congr_left fun table _ => Retained.ofTable_content visible table

/-- The stub of a method shows the method as it was written. -/
theorem Stub.surface_method (original : Method) :
    (Stub.method original.surface).surface = original.surface.written := by
  have hdefault : (original.annotationDefault.map ElementValue.normalize).map
      ElementValue.normalize = original.annotationDefault.map ElementValue.normalize := by
    rw [Option.map_map]
    exact Option.map_congr fun value _ => value.normalize_normalize
  simp only [Method.surface, Stub.method, SurfaceMethod.written, Retained.ofTables_select,
    retainParameters_content, hdefault]

/-- The field of a stub has the surface that it was made of. -/
theorem Stub.surface_field (original : Field) :
    (Stub.field original.surface).surface = original.surface := by
  simp only [Field.surface, Stub.field, Retained.ofTables_select]

/-- A method that is written again stays as it was written. -/
theorem Stub.method_written (one : SurfaceMethod) : Stub.method one.written = Stub.method one := by
  have hflags : (Stub.method one.written).flags = (Stub.method one).flags := by
    by_cases habstract : one.flags.has .accAbstract
    · simp only [Stub.method, SurfaceMethod.written, habstract, ↓reduceIte]
    · simp only [Stub.method, SurfaceMethod.written, habstract, Bool.false_eq_true, ↓reduceIte,
        UInt16.and_assoc, UInt16.and_self, ite_self]
  rw [Stub.method, Stub.method, Method.mk.injEq]
  exact ⟨hflags, rfl, rfl, rfl, rfl, rfl, rfl, rfl, rfl, rfl, rfl, rfl⟩

/-! ## What counts as API in a stub -/

/-- A method of a stub is as visible as the one that it was made of. -/
theorem Stub.visibility_method (one : SurfaceMethod) :
    Visibility.ofFlags (Stub.method one).flags = Visibility.ofFlags one.flags := by
  have hsame : ∀ mask, ~~~AccessFlags.accNative &&& mask = mask →
      (Stub.method one).flags.hasAny mask = one.flags.hasAny mask := by
    intro mask hmask
    rw [AccessFlags.hasAny, AccessFlags.hasAny, Stub.flags_and one hmask]
  rw [Visibility.ofFlags, Visibility.ofFlags, hsame .accPublic (by decide),
    hsame .accProtected (by decide), hsame .accPrivate (by decide)]

/-- A method of a stub is kept if the one that it was made of is. -/
theorem SurfaceMethod.isKept_written (policy : PackagePolicy) (header : ClassHeader)
    (one : SurfaceMethod) : one.written.isKept policy header = one.isKept policy header := by
  have hvisible : policy.isVisible one.written.flags = policy.isVisible one.flags := by
    rw [PackagePolicy.isVisible, PackagePolicy.isVisible, written, Stub.visibility_method]
  rw [isKept, isKept, hvisible, written]

/-- The helper is private and no constructor. -/
theorem Stub.isKept_helper (policy : PackagePolicy) (header : ClassHeader) :
    helper.surface.isKept policy header = false := by
  have hprivate : Visibility.ofFlags helper.surface.flags = .privateAccess := by decide
  have hname : helper.surface.name ≠ "<init>" := by decide
  simp [SurfaceMethod.isKept, PackagePolicy.isVisible, hprivate, hname]

/-- The methods of a surface are those of the class that are kept. -/
theorem ClassFile.mem_surface_methods {file : ClassFile} {policy : PackagePolicy}
    {one : SurfaceMethod} (hone : one ∈ (file.surface policy).methods) :
    ∃ original : Method, one = original.surface ∧ one.isKept policy file.header := by
  simp only [surface, List.mem_mergeSort, map_surface_apiMethods, List.mem_filter,
    List.mem_map] at hone
  rcases hone with ⟨⟨original, _, rfl⟩, hkept⟩
  exact ⟨original, rfl, hkept⟩

theorem ClassFile.mem_surface_fields {file : ClassFile} {policy : PackagePolicy}
    {one : SurfaceField} (hone : one ∈ (file.surface policy).fields) :
    ∃ original : Field, one = original.surface ∧ policy.isVisible one.flags := by
  simp only [surface, List.mem_mergeSort, map_surface_apiFields, List.mem_filter,
    List.mem_map] at hone
  rcases hone with ⟨⟨original, _, rfl⟩, hkept⟩
  exact ⟨original, rfl, hkept⟩

/-! ## The surface of a stub -/

namespace Stub.Shows

variable {policy : PackagePolicy} {file stubFile : ClassFile}

/-- The methods of a stub have the surfaces of what it declares. -/
theorem map_surface_methods {surface : Surface} (hshown : Stub.Shows stubFile surface) :
    stubFile.methods.map Method.surface =
      (Stub.declarations surface).map fun declared => declared.1.surface := by
  refine (map_eq_map_of_forall₂ ?_ hshown.methods_declared).symm
  intro declared method hdeclared
  rcases hdeclared with ⟨code, rfl, _⟩
  rfl

/-- Of the declarations of a stub all but the helper count as API. -/
theorem map_surface_apiMethods (hshown : Stub.Shows stubFile (file.surface policy)) :
    (stubFile.apiMethods policy).map Method.surface =
      (file.surface policy).methods.map SurfaceMethod.written := by
  have hheader : stubFile.header = file.header := hshown.header_eq
  have hhelper : ∀ isInterface : Bool,
      ((if isInterface then [] else [(helper, some helperCode)]).map
        fun declared : Declaration => declared.1.surface).filter
          (·.isKept policy file.header) = [] := by
    intro isInterface
    cases isInterface with
    | true => rfl
    | false => simp [isKept_helper]
  have hwritten : ∀ one ∈ (file.surface policy).methods,
      (Stub.method one).surface = one.written := by
    intro one hone
    obtain ⟨original, rfl, _⟩ := ClassFile.mem_surface_methods hone
    exact surface_method original
  have hkept : ∀ one ∈ (file.surface policy).methods.map SurfaceMethod.written,
      one.isKept policy file.header := by
    intro one hone
    obtain ⟨given, hgiven, rfl⟩ := List.mem_map.1 hone
    obtain ⟨_, _, hkept⟩ := ClassFile.mem_surface_methods hgiven
    rw [given.isKept_written]
    exact hkept
  rw [stubFile.map_surface_apiMethods, hshown.map_surface_methods, hheader, declarations,
    List.map_append, List.filter_append, hhelper, List.nil_append, List.map_map]
  change ((file.surface policy).methods.map fun one => (Stub.method one).surface).filter _ = _
  rw [List.map_congr_left hwritten, List.filter_eq_self.2 hkept]

/-- The surface of a stub has the methods of the surface, as they were written. -/
theorem methods_eq (hshown : Stub.Shows stubFile (file.surface policy)) :
    (stubFile.surface policy).methods =
      (file.surface policy).methods.map SurfaceMethod.written := by
  have hkey : ∀ one : SurfaceMethod, one.written.key = one.key := fun _ => rfl
  have hsorted := stableSort_mergeSort keyOrder_member SurfaceMethod.key
    ((file.apiMethods policy).map Method.surface)
  rw [ClassFile.surface, hshown.map_surface_apiMethods]
  exact (hsorted.map SurfaceMethod.written hkey).mergeSort_eq keyOrder_member

theorem fields_eq_surface (hshown : Stub.Shows stubFile (file.surface policy)) :
    (stubFile.surface policy).fields = (file.surface policy).fields := by
  have hsame : ∀ one ∈ (file.surface policy).fields, (Stub.field one).surface = one := by
    intro one hone
    obtain ⟨original, rfl, _⟩ := ClassFile.mem_surface_fields hone
    exact surface_field original
  have hkept : ∀ one ∈ (file.surface policy).fields, policy.isVisible one.flags := by
    intro one hone
    obtain ⟨_, _, hkept⟩ := ClassFile.mem_surface_fields hone
    exact hkept
  have hfields : (stubFile.apiFields policy).map Field.surface =
      (file.surface policy).fields := by
    rw [stubFile.map_surface_apiFields, hshown.fields_eq, List.map_map]
    change ((file.surface policy).fields.map fun one => (Stub.field one).surface).filter _ = _
    rw [List.map_congr_left hsame, List.map_id', List.filter_eq_self.2 hkept]
  have hsorted := stableSort_mergeSort keyOrder_member SurfaceField.key
    ((file.apiFields policy).map Field.surface)
  rw [ClassFile.surface, hfields]
  exact hsorted.mergeSort_eq keyOrder_member

theorem innerClasses_eq_surface (hshown : Stub.Shows stubFile (file.surface policy)) :
    (stubFile.surface policy).innerClasses = (file.surface policy).innerClasses := by
  have hkept : ∀ record ∈ (file.surface policy).innerClasses,
      policy.includesInnerClass record := by
    intro record hrecord
    simp only [ClassFile.surface, List.mem_mergeSort] at hrecord
    exact (List.mem_filter.1 hrecord).2
  have hsorted := stableSort_mergeSort keyOrder_text InnerClass.name
    (file.innerClasses.filter policy.includesInnerClass)
  rw [ClassFile.surface, hshown.innerClasses_eq, List.filter_eq_self.2 hkept]
  exact hsorted.mergeSort_eq keyOrder_text

/-- A stub retains the annotations of the class. -/
theorem annotations_eq (hshown : Stub.Shows stubFile (file.surface policy)) :
    stubFile.retainedAnnotations = file.retainedAnnotations := by
  rw [ClassFile.retainedAnnotations, hshown.visible_eq, hshown.invisible_eq]
  exact Retained.ofTables_select _ _

/-- A stub has the surface that it was written from. -/
theorem surface_eq (hshown : Stub.Shows stubFile (file.surface policy)) :
    stubFile.surface policy = { file.surface policy with
      methods := (file.surface policy).methods.map SurfaceMethod.written } := by
  rw [← hshown.methods_eq, Surface.mk.injEq]
  exact ⟨hshown.header_eq, hshown.signature_eq, hshown.annotations_eq, hshown.deprecated_eq, rfl,
    hshown.fields_eq_surface, hshown.innerClasses_eq_surface⟩

end Stub.Shows

/-- A surface is written in the same way when its methods were written before. -/
theorem Stub.write_written (surface : Surface) :
    Stub.write { surface with methods := surface.methods.map SurfaceMethod.written } =
      Stub.write surface := by
  have hmethods : ((surface.methods.map SurfaceMethod.written).forM fun one =>
      writeMethod surface.header (method one)) =
        surface.methods.forM fun one => writeMethod surface.header (method one) := by
    simp only [List.forM_eq_forM, List.forM_map, method_written]
  rw [write, write, writeSurface, writeSurface, hmethods]

namespace ApiRules

variable {rules : ApiRules} {file stubFile : ClassFile}

/-- A stub passes the checks that its class has passed. -/
theorem check_stub (hshown : Stub.Shows stubFile (file.surface rules.policy))
    (hcheck : rules.check file = .ok ()) : rules.check stubFile = .ok () := by
  have hheader : stubFile.header = file.header := hshown.header_eq
  rw [check_eq_ok] at hcheck ⊢
  rcases hcheck with ⟨hsupertypes, hannotations, hmethods, hfields⟩
  rw [checkSupertypes_congr rules.policy hheader hshown.signature_eq, hheader,
    hshown.annotations_eq, hshown.methods_eq, hshown.fields_eq_surface]
  -- Methods may have lost the mark of native ones, which only shows in messages.
  refine ⟨hsupertypes, hannotations, ?_, hfields⟩
  intro one hone
  obtain ⟨given, hgiven, rfl⟩ := List.mem_map.1 hone
  exact checkSurfaceMethod_flags _ (hmethods given hgiven)

/-- **A stub is its own stub.** From a stub the same stub is made, byte for
byte, and it belongs to the API if and only if the class that it was made from
does. -/
theorem stub_idempotent (rules : ApiRules) (bytes stub : List UInt8)
    (hstub : rules.stub bytes = .ok stub) :
    rules.stub stub = .ok stub ∧ rules.includesClass stub = rules.includesClass bytes := by
  obtain ⟨file, stubFile, hfile, hcheck, hwrite, hstubFile, hshown, hheader⟩ :=
    shows_of_stub hstub
  constructor
  · rw [stub_eq_ok_of_decode hstubFile, hshown.surface_eq, Stub.write_written]
    exact ⟨check_stub hshown hcheck, hwrite⟩
  · rw [includesClass, includesClass, hheader, ClassHeader.decode_of_decode hfile]

/-- The stub of the sample is its own stub. -/
theorem stub_idempotent_sampleInterface :
    (ofPackages ["p"] true).stub sampleInterface = .ok sampleStub ∧
      (ofPackages ["p"] true).stub sampleStub = .ok sampleStub ∧
        (ofPackages ["p"] true).includesClass sampleStub =
          (ofPackages ["p"] true).includesClass sampleInterface :=
  ⟨stub_sampleInterface, stub_idempotent (ofPackages ["p"] true) sampleInterface sampleStub
    stub_sampleInterface⟩

end ApiRules

end ClassStub
