import ClassStub.Api.ByteSource
import ClassStub.Proofs.Codec.Decoded
import ClassStub.Proofs.Order.NormalForm
import ClassStub.Proofs.Stub.Written

/-!
# Surfaces and their stubs

Which declarations of a class count as API is a matter of their flags and names
(`KeepsMethod`, `KeepsInnerClass`), and a surface has just these, sorted.  Stubs
are written from surfaces, so a stub decodes to a class that shows the surface
of the class that it was made from (`ApiRules.shows_of_stub`).
-/

namespace ClassStub

open Annotation

/-! ## What counts as API -/

/-- What members are sorted by. -/
def Method.key (method : Method) : String × String :=
  (method.name, method.descriptor)

/-- What members are sorted by. -/
def Field.key (field : Field) : String × String :=
  (field.name, field.descriptor)

/-- Whether a method of a class with the given header counts as API: it is
visible, or it is a constructor of a class with the modern call semantics. -/
def KeepsMethod (policy : PackagePolicy) (header : ClassHeader) (method : Method) : Prop :=
  method.name ≠ "<clinit>" ∧ (policy.isVisible method.flags ∨
    (method.name = "<init>" ∧ header.flags.has .accSuper))

instance (policy : PackagePolicy) (header : ClassHeader) :
    DecidablePred (KeepsMethod policy header) :=
  fun method => inferInstanceAs (Decidable (method.name ≠ "<clinit>" ∧
    (policy.isVisible method.flags ∨ (method.name = "<init>" ∧ header.flags.has .accSuper))))

/-- Whether the record of an inner class is kept. -/
def KeepsInnerClass (policy : PackagePolicy) (record : InnerClass) : Prop :=
  policy.isOpen ∨ Visibility.ofFlags record.flags ≠ .packageAccess

instance (policy : PackagePolicy) : DecidablePred (KeepsInnerClass policy) :=
  fun record => inferInstanceAs (Decidable (policy.isOpen ∨
    Visibility.ofFlags record.flags ≠ .packageAccess))

/-! ## What a surface keeps -/

/-- What members are sorted by. -/
def SurfaceMethod.key (one : SurfaceMethod) : String × String :=
  (one.name, one.descriptor)

/-- What members are sorted by. -/
def SurfaceField.key (one : SurfaceField) : String × String :=
  (one.name, one.descriptor)

/-- Whether a method of a class with the given header counts as API. -/
def SurfaceMethod.isKept (policy : PackagePolicy) (header : ClassHeader) (one : SurfaceMethod) :
    Bool :=
  one.name ≠ "<clinit>" &&
    (policy.isVisible one.flags || (header.flags.has .accSuper && one.name = "<init>"))

/-- Related lists are mapped to the same if related items are. -/
theorem map_eq_map_of_forall₂ {α β γ : Type} {related : α → β → Prop} {f : α → γ} {g : β → γ}
    {items : List α} {others : List β} (hsame : ∀ one other, related one other → f one = g other)
    (hrelated : List.Forall₂ related items others) : items.map f = others.map g := by
  rw [← List.forall₂_eq_eq_eq, List.forall₂_map_left_iff, List.forall₂_map_right_iff]
  exact hrelated.imp hsame

/-- Members are ordered by their names, and by their descriptors in ties. -/
theorem keyOrder_member : KeyOrder (lexLe textLe textLe) :=
  keyOrder_text.lex keyOrder_text

/-- The methods that are included are those that count as API. -/
theorem PackagePolicy.includesMethod_eq (policy : PackagePolicy) (file : ClassFile)
    (method : Method) :
    policy.includesMethod file method = decide (KeepsMethod policy file.header method) := by
  rw [Bool.eq_iff_iff, decide_eq_true_eq]
  simp [includesMethod, KeepsMethod, and_comm]

theorem PackagePolicy.includesInnerClass_eq (policy : PackagePolicy) (record : InnerClass) :
    policy.includesInnerClass record = decide (KeepsInnerClass policy record) := by
  rw [Bool.eq_iff_iff, decide_eq_true_eq]
  simp [includesInnerClass, KeepsInnerClass]

namespace ClassFile

theorem apiMethods_eq (file : ClassFile) (policy : PackagePolicy) :
    file.apiMethods policy = file.methods.filter (KeepsMethod policy file.header ·) :=
  List.filter_congr fun method _ => policy.includesMethod_eq file method

theorem filter_innerClasses_eq (file : ClassFile) (policy : PackagePolicy) :
    file.innerClasses.filter policy.includesInnerClass =
      file.innerClasses.filter (KeepsInnerClass policy ·) :=
  List.filter_congr fun record _ => policy.includesInnerClass_eq record

/-- Whether a method counts as API shows in its surface. -/
theorem map_surface_apiMethods (file : ClassFile) (policy : PackagePolicy) :
    (file.apiMethods policy).map Method.surface =
      (file.methods.map Method.surface).filter (·.isKept policy file.header) := by
  rw [List.filter_map]
  rfl

/-- Fields are filtered alike before and behind making surfaces. -/
theorem map_surface_apiFields (file : ClassFile) (policy : PackagePolicy) :
    (file.apiFields policy).map Field.surface =
      (file.fields.map Field.surface).filter fun one => policy.isVisible one.flags := by
  rw [List.filter_map]
  rfl

/-- The methods of a surface are the kept ones, sorted stably. -/
theorem surface_methods (file : ClassFile) (policy : PackagePolicy) :
    ∃ kept, StableSort (lexLe textLe textLe) Method.key
        (file.methods.filter (KeepsMethod policy file.header ·)) kept ∧
      (file.surface policy).methods = kept.map Method.surface := by
  rw [← file.apiMethods_eq]
  refine ⟨_, stableSort_mergeSort keyOrder_member Method.key (file.apiMethods policy), ?_⟩
  exact (List.map_mergeSort (f := Method.surface) (s := fun first second =>
    memberLe (first.name, first.descriptor) (second.name, second.descriptor))
      fun _ _ _ _ => rfl).symm

/-- The fields of a surface are the visible ones, sorted stably. -/
theorem surface_fields (file : ClassFile) (policy : PackagePolicy) :
    ∃ kept, StableSort (lexLe textLe textLe) Field.key
        (file.fields.filter fun field => policy.isVisible field.flags) kept ∧
      (file.surface policy).fields = kept.map Field.surface := by
  refine ⟨_, stableSort_mergeSort keyOrder_member Field.key (file.apiFields policy), ?_⟩
  exact (List.map_mergeSort (f := Field.surface) (s := fun first second =>
    memberLe (first.name, first.descriptor) (second.name, second.descriptor))
      fun _ _ _ _ => rfl).symm

/-- The inner classes of a surface are the kept ones, sorted stably. -/
theorem surface_innerClasses (file : ClassFile) (policy : PackagePolicy) :
    StableSort textLe InnerClass.name (file.innerClasses.filter (KeepsInnerClass policy ·))
      (file.surface policy).innerClasses := by
  rw [← file.filter_innerClasses_eq]
  exact stableSort_mergeSort keyOrder_text InnerClass.name _

end ClassFile

/-! ## What a stub declares -/

/-- In a stub no flag changes but the mark of native methods. -/
theorem Stub.flags_and (one : SurfaceMethod) {mask : AccessFlags}
    (hmask : ~~~AccessFlags.accNative &&& mask = mask) :
    (Stub.method one).flags &&& mask = one.flags &&& mask := by
  by_cases habstract : one.flags.has .accAbstract
  · simp only [Stub.method, habstract, ↓reduceIte]
  · simp only [Stub.method, habstract, Bool.false_eq_true, ↓reduceIte]
    rw [UInt16.and_assoc, hmask]

/-- A method of a stub is abstract exactly if the original is. -/
theorem Stub.has_abstract (one : SurfaceMethod) :
    (Stub.method one).flags.has .accAbstract = one.flags.has .accAbstract := by
  have hmask : ~~~AccessFlags.accNative &&& .accAbstract = .accAbstract := by decide
  rw [AccessFlags.has, AccessFlags.has, Stub.flags_and one hmask]

theorem Stub.isStatic_method (original : Method) :
    (Stub.method original.surface).isStatic = original.isStatic := by
  have hmask : ~~~AccessFlags.accNative &&& .accStatic = .accStatic := by decide
  rw [Method.isStatic, AccessFlags.has, Stub.flags_and original.surface hmask]
  rfl

/-- What is retained from parameters are normal tables, one for each. -/
theorem normalTables_retainParameters (visible : Bool)
    (parameters : Option (List (List Annotation))) :
    Option.Rel (List.Forall₂ NormalTable) parameters
      ((parameters.map (retainParameters visible)).map (·.map (·.map (·.content)))) := by
  cases parameters with
  | none => exact Option.Rel.none
  | some tables =>
    apply Option.Rel.some
    change List.Forall₂ NormalTable tables ((tables.map (Retained.ofTable visible)).map _)
    rw [List.map_map, List.forall₂_map_right_iff, List.forall₂_same]
    exact fun table _ => Retained.normalTable_sort visible table

/-! ## Sizes -/

/-- The normal annotations of parameters have the same size. -/
theorem parametersSize_eq {tables normal : List (List Annotation)}
    (hnormal : List.Forall₂ NormalTable tables normal) :
    parametersSize normal = parametersSize tables := by
  induction hnormal with
  | nil => rfl
  | cons hfirst _ ih => rw [parametersSize, parametersSize, hfirst.tableSize_eq, ih]

/-- Their size stays below a bound that the original size is below. -/
theorem parametersSize_lt {tables normal : Option (List (List Annotation))}
    (hnormal : Option.Rel (List.Forall₂ NormalTable) tables normal)
    (hfits : ∀ one, tables = some one → parametersSize one < UInt32.size) :
    ∀ one, normal = some one → parametersSize one < UInt32.size := by
  intro one hone
  subst hone
  cases hnormal with
  | some hsome =>
    rw [parametersSize_eq hsome]
    exact hfits _ rfl

/-- A method of a stub fits if the original does. -/
theorem Method.Fits.surface {original : Method} (hfits : original.Fits) :
    (Stub.method original.surface).Fits where
  visible := (Retained.normalTable_select_visible _ _).tableSize_lt hfits.visible
  invisible := (Retained.normalTable_select_invisible _ _).tableSize_lt hfits.invisible
  visibleParameters :=
    parametersSize_lt (normalTables_retainParameters true _) hfits.visibleParameters
  invisibleParameters :=
    parametersSize_lt (normalTables_retainParameters false _) hfits.invisibleParameters
  default := by
    intro value hvalue
    obtain ⟨given, hgiven, rfl⟩ := Option.map_eq_some_iff.1 hvalue
    rw [given.size_normalize]
    exact hfits.default given hgiven

theorem Field.Fits.surface {original : Field} (hfits : original.Fits) :
    (Stub.field original.surface).Fits where
  visible := (Retained.normalTable_select_visible _ _).tableSize_lt hfits.visible
  invisible := (Retained.normalTable_select_invisible _ _).tableSize_lt hfits.invisible

/-- The surface of a class fits if the class does. -/
theorem ClassFile.Fits.surface {file : ClassFile} (hfits : file.Fits) (policy : PackagePolicy) :
    Stub.SurfaceFits (file.surface policy) where
  version := hfits.version
  visible := (Retained.normalTable_select_visible _ _).tableSize_lt hfits.visible
  invisible := (Retained.normalTable_select_invisible _ _).tableSize_lt hfits.invisible
  methods := by
    intro one hone
    simp only [ClassFile.surface, List.mem_mergeSort, List.mem_map] at hone
    rcases hone with ⟨original, horiginal, rfl⟩
    exact (hfits.methods original (List.mem_filter.1 horiginal).1).surface
  fields := by
    intro one hone
    simp only [ClassFile.surface, List.mem_mergeSort, List.mem_map] at hone
    rcases hone with ⟨original, horiginal, rfl⟩
    exact (hfits.fields original (List.mem_filter.1 horiginal).1).surface

/-! ## Stubs of surfaces -/

namespace ApiRules

variable {rules : ApiRules} {bytes stub : List UInt8}

/-- A stub is made of a class that decodes and passes all checks. -/
theorem stub_eq_ok : rules.stub bytes = .ok stub ↔
    ∃ file, ClassFile.decode bytes = .ok file ∧ rules.check file = .ok () ∧
      Stub.write (file.surface rules.policy) = .ok stub := by
  simp only [ApiRules.stub, extract, bind_eq_ok, mapError_eq_ok]
  constructor
  · intro hstub
    rcases hstub with ⟨file, hfile, surface, ⟨_, hcheck, hsurface⟩, hwrite⟩
    cases hsurface
    exact ⟨file, hfile, hcheck, hwrite⟩
  · intro hparts
    rcases hparts with ⟨file, hfile, hcheck, hwrite⟩
    exact ⟨file, hfile, _, ⟨(), hcheck, rfl⟩, hwrite⟩

/-- The stub of a class is what its surface is written as, if it passes the checks.
-/
theorem stub_eq_ok_of_decode {file : ClassFile} (hfile : ClassFile.decode bytes = .ok file) :
    rules.stub bytes = .ok stub ↔
      rules.check file = .ok () ∧ Stub.write (file.surface rules.policy) = .ok stub := by
  rw [stub_eq_ok, hfile]
  constructor
  · intro hstub
    rcases hstub with ⟨found, hfound, hparts⟩
    cases hfound
    exact hparts
  · intro hparts
    exact ⟨file, rfl, hparts⟩

/-- Every stub decodes to a class that shows the surface of the class it was
made from. -/
theorem shows_of_stub (hstub : rules.stub bytes = .ok stub) :
    ∃ file stubFile, ClassFile.decode bytes = .ok file ∧ rules.check file = .ok () ∧
      Stub.write (file.surface rules.policy) = .ok stub ∧
      ClassFile.decode stub = .ok stubFile ∧ Stub.Shows stubFile (file.surface rules.policy) ∧
      ClassHeader.decode stub = .ok file.header := by
  obtain ⟨file, hfile, hcheck, hwrite⟩ := stub_eq_ok.1 hstub
  have hfits := (ClassFile.fits_of_decode hfile).surface rules.policy
  obtain ⟨stubFile, hstubFile, hshown, hheader⟩ := Stub.decode_write hfits hwrite
  exact ⟨file, stubFile, hfile, hcheck, hwrite, hstubFile, hshown, hheader⟩

end ApiRules

end ClassStub
