import ClassStub.ClassFile.Equality
import ClassStub.Proofs.Stub.Checking
import ClassStub.Proofs.Stub.Surface

/-!
# The order of declarations does not matter

Two classes are reordered if they differ only in the order of their methods,
their fields and their records of inner classes, of annotations in a table, and
of elements in an annotation at any depth, where only items of distinct keys
change places (`ClassFile.Reordered`).  Such classes have the same surface
(`ClassFile.Reordered.surface_eq`), so they have the same stub, if any
(`ApiRules.stub_order_independent`).
-/

namespace ClassStub

open Annotation

/-! ## Lists in another order -/

/-- The same items in another order, which is possible if their keys are
distinct. -/
def Moved {α κ : Type} (key : α → κ) (items moved : List α) : Prop :=
  moved = items ∨ items.Perm moved ∧ (items.map key).Nodup

/-- A list in another order whose items are related one by one. -/
def Reordered {α κ : Type} (key : α → κ) (related : α → α → Prop) (items others : List α) :
    Prop :=
  ∃ moved, Moved key items moved ∧ List.Forall₂ related moved others

section

variable {α β κ ι : Type} [DecidableEq ι] {key : α → κ} {items moved others : List α}

/-- If a function tells items of distinct keys apart, moving does not change the
items that it maps to one value. -/
theorem Moved.sameTies (hmoved : Moved key items moved) (f : α → β) {other : β → ι}
    (hkey : ∀ one two, other (f one) = other (f two) → key one = key two) :
    SameTies other (items.map f) (moved.map f) := by
  rcases hmoved with rfl | ⟨hperm, hdistinct⟩
  · exact SameTies.refl other _
  · apply SameTies.of_perm (hperm.map f)
    rw [List.nodup_iff_pairwise_ne, List.pairwise_map] at hdistinct ⊢
    rw [List.pairwise_map]
    exact hdistinct.imp fun hne hsame => hne (hkey _ _ hsame)

/-- Items in another order have the same ties in keys that tell theirs apart. -/
theorem Reordered.sameTies {related : α → α → Prop}
    (hreordered : Reordered key related items others)
    (f : α → β) {other : β → ι} (hsame : ∀ one two, related one two → f one = f two)
    (hkey : ∀ one two, other (f one) = other (f two) → key one = key two) :
    SameTies other (items.map f) (others.map f) := by
  rcases hreordered with ⟨moved, hmoved, hrelated⟩
  rw [← map_eq_map_of_forall₂ hsame hrelated]
  exact hmoved.sameTies f hkey

end

/-! ## Annotations -/

mutual

/-- Element values that differ in the order of elements. -/
inductive ValueRelated : ElementValue → ElementValue → Prop where
  | constant (value : ConstantValue) : ValueRelated (.constant value) (.constant value)
  | enumConstant (type name : String) :
      ValueRelated (.enumConstant type name) (.enumConstant type name)
  | nested {type : String} {elements moved others : List (String × ElementValue)}
      (hmoved : Moved Prod.fst elements moved) (hothers : ElementsRelated moved others) :
      ValueRelated (.nested type elements) (.nested type others)
  | array {values others : List ElementValue} (hothers : ValuesRelated values others) :
      ValueRelated (.array values) (.array others)

/-- Elements of the same names, in the same order, with reordered values. -/
inductive ElementsRelated :
    List (String × ElementValue) → List (String × ElementValue) → Prop where
  | nil : ElementsRelated [] []
  | cons {name : String} {value other : ElementValue}
      {elements others : List (String × ElementValue)} (hvalue : ValueRelated value other)
      (hothers : ElementsRelated elements others) :
      ElementsRelated ((name, value) :: elements) ((name, other) :: others)

/-- Values in the same order, each reordered. -/
inductive ValuesRelated : List ElementValue → List ElementValue → Prop where
  | nil : ValuesRelated [] []
  | cons {value other : ElementValue} {values others : List ElementValue}
      (hvalue : ValueRelated value other) (hothers : ValuesRelated values others) :
      ValuesRelated (value :: values) (other :: others)

end

/-- Elements of distinct names may change places before they are sorted. -/
theorem sortByName_moved {elements moved : List (String × ElementValue)}
    (hmoved : Moved Prod.fst elements moved) :
    sortByName (normalizeElements elements) = sortByName (normalizeElements moved) := by
  have hties : SameTies Prod.fst (normalizeElements elements) (normalizeElements moved) := by
    rw [normalizeElements_eq_map, normalizeElements_eq_map]
    exact hmoved.sameTies _ fun _ _ hname => hname
  have hsorted := (stableSort_sortByName (normalizeElements elements)).of_sameTies hties
  exact hsorted.unique keyOrder_text (stableSort_sortByName _)

mutual

/-- Reordered values have the same normal form. -/
theorem ValueRelated.normalize_eq {value other : ElementValue}
    (hreordered : ValueRelated value other) : value.normalize = other.normalize := by
  cases hreordered with
  | constant value => rfl
  | enumConstant type name => rfl
  | nested hmoved hothers =>
    rw [ElementValue.normalize, ElementValue.normalize, sortByName_moved hmoved,
      hothers.normalize_eq]
  | array hothers => rw [ElementValue.normalize, ElementValue.normalize, hothers.normalize_eq]

/-- Reordered elements have the same normal form, one by one. -/
theorem ElementsRelated.normalize_eq {elements others : List (String × ElementValue)}
    (hrelated : ElementsRelated elements others) :
    normalizeElements elements = normalizeElements others := by
  cases hrelated with
  | nil => rfl
  | cons hvalue hothers =>
    rw [normalizeElements, normalizeElements, hvalue.normalize_eq, hothers.normalize_eq]

theorem ValuesRelated.normalize_eq {values others : List ElementValue}
    (hrelated : ValuesRelated values others) : normalizeValues values = normalizeValues others := by
  cases hrelated with
  | nil => rfl
  | cons hvalue hothers =>
    rw [normalizeValues, normalizeValues, hvalue.normalize_eq, hothers.normalize_eq]

end

namespace Annotation

/-- Annotations that differ in the order of elements at any depth. -/
def Reordered (value other : Annotation) : Prop :=
  ValueRelated value.toValue other.toValue

/-- A reordered annotation has the same normal form. -/
theorem Reordered.normalize_eq {value other : Annotation} (hreordered : value.Reordered other) :
    value.normalize = other.normalize := by
  have hnormal := ValueRelated.normalize_eq hreordered
  simp only [toValue, ElementValue.normalize, ElementValue.nested.injEq] at hnormal
  rw [normalize, normalize, hnormal.1, hnormal.2]

/-- Tables that differ in the order of annotations, and these in the order of
their elements. -/
def TableReordered (table others : List Annotation) : Prop :=
  ClassStub.Reordered Annotation.type Reordered table others

/-- A reordered table has the same ties when it is retained. -/
theorem TableReordered.sameTies {table others : List Annotation}
    (hreordered : TableReordered table others) (visible : Bool) :
    SameTies Retained.key (table.map (Retained.retain visible))
      (others.map (Retained.retain visible)) := by
  refine ClassStub.Reordered.sameTies hreordered _ ?_ ?_
  · intro value other hvalue
    rw [Retained.retain, Retained.retain, hvalue.normalize_eq]
  · intro value other hkey
    exact congrArg Prod.snd hkey

end Annotation

namespace Retained

/-- Annotations with the same ties are sorted alike. -/
theorem sort_eq_of_sameTies {retained others : List Retained}
    (hties : SameTies key retained others) : sort retained = sort others :=
  ((stableSort_sort retained).of_sameTies hties).unique keyOrder_key (stableSort_sort others)

/-- The same is retained from a reordered table. -/
theorem ofTable_eq {visible : Bool} {table others : List Annotation}
    (hreordered : TableReordered table others) : ofTable visible table = ofTable visible others :=
  sort_eq_of_sameTies (hreordered.sameTies visible)

/-- The same is retained from two reordered tables. -/
theorem ofTables_eq {visible invisible others more : List Annotation}
    (hvisible : TableReordered visible others) (hinvisible : TableReordered invisible more) :
    ofTables visible invisible = ofTables others more :=
  sort_eq_of_sameTies ((hvisible.sameTies true).append (hinvisible.sameTies false))

end Retained

/-! ## Members -/

/-- Methods that differ in the order of annotations and of their elements.  What
the code says depends on the pool, so code is left open. -/
structure Method.Reordered (method other : Method) : Prop where
  flags_eq : method.flags = other.flags
  name_eq : method.name = other.name
  descriptor_eq : method.descriptor = other.descriptor
  signature_eq : method.signature = other.signature
  exceptions_eq : method.exceptions = other.exceptions
  deprecated_eq : method.deprecated = other.deprecated
  visible : TableReordered method.visibleAnnotations other.visibleAnnotations
  invisible : TableReordered method.invisibleAnnotations other.invisibleAnnotations
  visibleParameters : Option.Rel (List.Forall₂ TableReordered)
    method.visibleParameterAnnotations other.visibleParameterAnnotations
  invisibleParameters : Option.Rel (List.Forall₂ TableReordered)
    method.invisibleParameterAnnotations other.invisibleParameterAnnotations
  default : Option.Rel ValueRelated method.annotationDefault other.annotationDefault

/-- Fields that differ in the order of annotations and of their elements. -/
structure Field.Reordered (field other : Field) : Prop where
  flags_eq : field.flags = other.flags
  name_eq : field.name = other.name
  descriptor_eq : field.descriptor = other.descriptor
  signature_eq : field.signature = other.signature
  deprecated_eq : field.deprecated = other.deprecated
  visible : TableReordered field.visibleAnnotations other.visibleAnnotations
  invisible : TableReordered field.invisibleAnnotations other.invisibleAnnotations

/-- What may be missing is missing in both, or the same is made of it. -/
theorem optionMap_eq_of_related {α β : Type} {related : α → α → Prop} {f : α → β}
    (hsame : ∀ one two, related one two → f one = f two) {item other : Option α}
    (hrelated : Option.Rel related item other) : item.map f = other.map f := by
  cases hrelated with
  | none => rfl
  | some hsome => rw [Option.map_some, Option.map_some, hsame _ _ hsome]

/-- The same is retained from the reordered annotations of parameters. -/
theorem retainParameters_eq (visible : Bool) (tables others : List (List Annotation))
    (hrelated : List.Forall₂ TableReordered tables others) :
    retainParameters visible tables = retainParameters visible others :=
  map_eq_map_of_forall₂ (fun _ _ => Retained.ofTable_eq) hrelated

/-- A reordered method has the same surface. -/
theorem Method.Reordered.surface_eq {method other : Method} (hreordered : method.Reordered other) :
    method.surface = other.surface := by
  have hvisible := optionMap_eq_of_related (retainParameters_eq true) hreordered.visibleParameters
  have hinvisible :=
    optionMap_eq_of_related (retainParameters_eq false) hreordered.invisibleParameters
  have hdefault : method.annotationDefault.map ElementValue.normalize =
      other.annotationDefault.map ElementValue.normalize :=
    optionMap_eq_of_related (f := ElementValue.normalize)
      (fun _ _ => ValueRelated.normalize_eq) hreordered.default
  rw [Method.surface, Method.surface, hreordered.flags_eq, hreordered.name_eq,
    hreordered.descriptor_eq, hreordered.signature_eq, hreordered.exceptions_eq,
    hreordered.deprecated_eq, Retained.ofTables_eq hreordered.visible hreordered.invisible,
    hvisible, hinvisible, hdefault]

theorem Field.Reordered.surface_eq {field other : Field} (hreordered : field.Reordered other) :
    field.surface = other.surface := by
  rw [Field.surface, Field.surface, hreordered.flags_eq, hreordered.name_eq,
    hreordered.descriptor_eq, hreordered.signature_eq, hreordered.deprecated_eq,
    Retained.ofTables_eq hreordered.visible hreordered.invisible]

/-! ## Classes -/

/-- Classes that differ only in the order of declarations, of annotations and of
their elements, and in their pools. -/
structure ClassFile.Reordered (file other : ClassFile) : Prop where
  header_eq : file.header = other.header
  signature_eq : file.signature = other.signature
  deprecated_eq : file.deprecated = other.deprecated
  visible : TableReordered file.visibleAnnotations other.visibleAnnotations
  invisible : TableReordered file.invisibleAnnotations other.invisibleAnnotations
  methods : ClassStub.Reordered Method.key Method.Reordered file.methods other.methods
  fields : ClassStub.Reordered Field.key Field.Reordered file.fields other.fields
  innerClasses : ClassStub.Reordered InnerClass.name Eq file.innerClasses other.innerClasses

namespace ClassFile.Reordered

variable {file other : ClassFile}

/-- The surface of a reordered class has the same methods. -/
theorem methods_eq (hreordered : file.Reordered other) (policy : PackagePolicy) :
    (file.surface policy).methods = (other.surface policy).methods := by
  have hties : SameTies SurfaceMethod.key (file.methods.map Method.surface)
      (other.methods.map Method.surface) :=
    hreordered.methods.sameTies _ (fun _ _ => Method.Reordered.surface_eq) fun _ _ hkey => hkey
  -- Whether a method is kept shows in its surface, so filtering respects ties.
  have hkept := hties.filter (·.isKept policy file.header)
  rw [← file.map_surface_apiMethods, hreordered.header_eq, ← other.map_surface_apiMethods] at hkept
  have hsorted := stableSort_mergeSort keyOrder_member SurfaceMethod.key
    ((file.apiMethods policy).map Method.surface)
  exact (hsorted.of_sameTies hkept).unique keyOrder_member
    (stableSort_mergeSort keyOrder_member SurfaceMethod.key _)

theorem fields_eq (hreordered : file.Reordered other) (policy : PackagePolicy) :
    (file.surface policy).fields = (other.surface policy).fields := by
  have hties : SameTies SurfaceField.key (file.fields.map Field.surface)
      (other.fields.map Field.surface) :=
    hreordered.fields.sameTies _ (fun _ _ => Field.Reordered.surface_eq) fun _ _ hkey => hkey
  have hkept := hties.filter fun one => policy.isVisible one.flags
  rw [← file.map_surface_apiFields, ← other.map_surface_apiFields] at hkept
  have hsorted := stableSort_mergeSort keyOrder_member SurfaceField.key
    ((file.apiFields policy).map Field.surface)
  exact (hsorted.of_sameTies hkept).unique keyOrder_member
    (stableSort_mergeSort keyOrder_member SurfaceField.key _)

theorem innerClasses_eq (hreordered : file.Reordered other) (policy : PackagePolicy) :
    (file.surface policy).innerClasses = (other.surface policy).innerClasses := by
  have hties : SameTies InnerClass.name (file.innerClasses.map id) (other.innerClasses.map id) :=
    hreordered.innerClasses.sameTies id (fun _ _ hsame => hsame) fun _ _ hkey => hkey
  rw [List.map_id, List.map_id] at hties
  have hkept := hties.filter policy.includesInnerClass
  have hsorted := stableSort_mergeSort keyOrder_text InnerClass.name
    (file.innerClasses.filter policy.includesInnerClass)
  exact (hsorted.of_sameTies hkept).unique keyOrder_text
    (stableSort_mergeSort keyOrder_text InnerClass.name _)

/-- A reordered class retains the same annotations. -/
theorem annotations_eq (hreordered : file.Reordered other) :
    file.retainedAnnotations = other.retainedAnnotations :=
  Retained.ofTables_eq hreordered.visible hreordered.invisible

/-- Reordered classes have the same surface. -/
theorem surface_eq (hreordered : file.Reordered other) (policy : PackagePolicy) :
    file.surface policy = other.surface policy := by
  rw [ClassFile.surface, ClassFile.surface, Surface.mk.injEq]
  exact ⟨hreordered.header_eq, hreordered.signature_eq, hreordered.annotations_eq,
    hreordered.deprecated_eq, hreordered.methods_eq policy, hreordered.fields_eq policy,
    hreordered.innerClasses_eq policy⟩

/-- A reordered class passes the checks if the class does. -/
theorem check_iff (hreordered : file.Reordered other) (rules : ApiRules) :
    rules.check file = .ok () ↔ rules.check other = .ok () := by
  rw [ApiRules.check_eq_ok, ApiRules.check_eq_ok,
    ApiRules.checkSupertypes_congr rules.policy hreordered.header_eq hreordered.signature_eq,
    hreordered.header_eq, hreordered.annotations_eq, hreordered.surface_eq rules.policy]

end ClassFile.Reordered

namespace ApiRules

/-- **The order of declarations does not matter.** From the bytes of classes that
differ only in the order of declarations and in their pools the same stubs are
made, if any. -/
theorem stub_order_independent (rules : ApiRules) (bytes others : List UInt8)
    (file other : ClassFile) (hfile : ClassFile.decode bytes = .ok file)
    (hother : ClassFile.decode others = .ok other) (hreordered : file.Reordered other)
    (stub : List UInt8) : rules.stub bytes = .ok stub ↔ rules.stub others = .ok stub := by
  rw [stub_eq_ok_of_decode hfile, stub_eq_ok_of_decode hother, hreordered.check_iff,
    hreordered.surface_eq]

/-- An abstract method of an interface without annotations. -/
def sampleMethod (name : String) : Method where
  flags := .accPublic ||| .accAbstract
  name
  descriptor := "()V"

/-- An interface `A` with given methods and visible annotations. -/
def sampleFile (methods : List Method) (visibleAnnotations : List Annotation) (pool : Pool) :
    ClassFile where
  header := {
    version := ⟨52, 0⟩, flags := 0x601, name := "A", superName := none, interfaces := [] }
  fields := []
  methods
  visibleAnnotations
  pool

/-- An annotation with two elements. -/
def sampleMark (first second : String × Int32) : Annotation where
  type := "LP;"
  elements := [(first.1, .constant (.int first.2)), (second.1, .constant (.int second.2))]

/-- The interface `@Q @P(y = 2, x = 1) A` with the methods `b` and `a`. -/
def sampleAnnotated : List UInt8 :=
  [0xca, 0xfe, 0xba, 0xbe, 0x00, 0x00, 0x00, 0x34, 0x00, 0x0d, 0x01, 0x00, 0x01, 0x62, 0x01,
    0x00, 0x03, 0x28, 0x29, 0x56, 0x01, 0x00, 0x01, 0x61, 0x01, 0x00, 0x03, 0x4c, 0x51, 0x3b,
    0x01, 0x00, 0x03, 0x4c, 0x50, 0x3b, 0x01, 0x00, 0x01, 0x79, 0x03, 0x00, 0x00, 0x00, 0x02,
    0x01, 0x00, 0x01, 0x78, 0x03, 0x00, 0x00, 0x00, 0x01, 0x01, 0x00, 0x19, 0x52, 0x75, 0x6e,
    0x74, 0x69, 0x6d, 0x65, 0x56, 0x69, 0x73, 0x69, 0x62, 0x6c, 0x65, 0x41, 0x6e, 0x6e, 0x6f,
    0x74, 0x61, 0x74, 0x69, 0x6f, 0x6e, 0x73, 0x01, 0x00, 0x01, 0x41, 0x07, 0x00, 0x0b, 0x06,
    0x01, 0x00, 0x0c, 0x00, 0x00, 0x00, 0x00, 0x00, 0x00, 0x00, 0x02, 0x04, 0x01, 0x00, 0x01,
    0x00, 0x02, 0x00, 0x00, 0x04, 0x01, 0x00, 0x03, 0x00, 0x02, 0x00, 0x00, 0x00, 0x01, 0x00,
    0x0a, 0x00, 0x00, 0x00, 0x14, 0x00, 0x02, 0x00, 0x04, 0x00, 0x00, 0x00, 0x05, 0x00, 0x02,
    0x00, 0x06, 0x49, 0x00, 0x07, 0x00, 0x08, 0x49, 0x00, 0x09]

/-- The interface `@P(x = 1, y = 2) @Q A` with the methods `a` and `b`. -/
def sampleReordered : List UInt8 :=
  [0xca, 0xfe, 0xba, 0xbe, 0x00, 0x00, 0x00, 0x34, 0x00, 0x0d, 0x01, 0x00, 0x01, 0x61, 0x01,
    0x00, 0x03, 0x28, 0x29, 0x56, 0x01, 0x00, 0x01, 0x62, 0x01, 0x00, 0x03, 0x4c, 0x50, 0x3b,
    0x01, 0x00, 0x01, 0x78, 0x03, 0x00, 0x00, 0x00, 0x01, 0x01, 0x00, 0x01, 0x79, 0x03, 0x00,
    0x00, 0x00, 0x02, 0x01, 0x00, 0x03, 0x4c, 0x51, 0x3b, 0x01, 0x00, 0x19, 0x52, 0x75, 0x6e,
    0x74, 0x69, 0x6d, 0x65, 0x56, 0x69, 0x73, 0x69, 0x62, 0x6c, 0x65, 0x41, 0x6e, 0x6e, 0x6f,
    0x74, 0x61, 0x74, 0x69, 0x6f, 0x6e, 0x73, 0x01, 0x00, 0x01, 0x41, 0x07, 0x00, 0x0b, 0x06,
    0x01, 0x00, 0x0c, 0x00, 0x00, 0x00, 0x00, 0x00, 0x00, 0x00, 0x02, 0x04, 0x01, 0x00, 0x01,
    0x00, 0x02, 0x00, 0x00, 0x04, 0x01, 0x00, 0x03, 0x00, 0x02, 0x00, 0x00, 0x00, 0x01, 0x00,
    0x0a, 0x00, 0x00, 0x00, 0x14, 0x00, 0x02, 0x00, 0x04, 0x00, 0x02, 0x00, 0x05, 0x49, 0x00,
    0x06, 0x00, 0x07, 0x49, 0x00, 0x08, 0x00, 0x09, 0x00, 0x00]

/-- The two samples are reordered forms of each other. -/
theorem reordered_sampleFile (pool other : Pool) :
    (sampleFile [sampleMethod "b", sampleMethod "a"]
      [⟨"LQ;", []⟩, sampleMark ("y", 2) ("x", 1)] pool).Reordered
    (sampleFile [sampleMethod "a", sampleMethod "b"]
      [sampleMark ("x", 1) ("y", 2), ⟨"LQ;", []⟩] other) := by
  have hnone : TableReordered [] [] := ⟨[], .inl rfl, .nil⟩
  have hmethod : ∀ name, (sampleMethod name).Reordered (sampleMethod name) := fun _ =>
    ⟨rfl, rfl, rfl, rfl, rfl, rfl, hnone, hnone, .none, .none, .none⟩
  have hplain : Annotation.Reordered ⟨"LQ;", []⟩ ⟨"LQ;", []⟩ :=
    ValueRelated.nested (.inl rfl) ElementsRelated.nil
  have hswapped : (sampleMark ("y", 2) ("x", 1)).Reordered
      (sampleMark ("x", 1) ("y", 2)) :=
    ValueRelated.nested (.inr ⟨List.Perm.swap _ _ _, by decide⟩)
      (.cons (.constant _) (.cons (.constant _) .nil))
  have htypes : ["LQ;", "LP;"].Nodup := by decide
  have hkeys : [("b", "()V"), ("a", "()V")].Nodup := by decide
  exact {
    header_eq := rfl
    signature_eq := rfl
    deprecated_eq := rfl
    visible := ⟨_, .inr ⟨List.Perm.swap _ _ _, htypes⟩, .cons hswapped (.cons hplain .nil)⟩
    invisible := hnone
    methods := ⟨_, .inr ⟨List.Perm.swap _ _ _, hkeys⟩,
      .cons (hmethod "a") (.cons (hmethod "b") .nil)⟩
    fields := ⟨[], .inl rfl, .nil⟩
    innerClasses := ⟨[], .inl rfl, .nil⟩ }

theorem decode_sampleAnnotated : ∃ pool, ClassFile.decode sampleAnnotated =
    .ok (sampleFile [sampleMethod "b", sampleMethod "a"]
      [⟨"LQ;", []⟩, sampleMark ("y", 2) ("x", 1)] pool) := by
  exact ClassFile.exists_decode_eq (sampleFile _ _ ⟨#[]⟩) (by decide +kernel)

theorem decode_sampleReordered : ∃ pool, ClassFile.decode sampleReordered =
    .ok (sampleFile [sampleMethod "a", sampleMethod "b"]
      [sampleMark ("x", 1) ("y", 2), ⟨"LQ;", []⟩] pool) := by
  exact ClassFile.exists_decode_eq (sampleFile _ _ ⟨#[]⟩) (by decide +kernel)

/-- Both samples have the same stub. -/
theorem stub_order_independent_sampleReordered :
    ∃ file other, ClassFile.decode sampleAnnotated = .ok file ∧
      ClassFile.decode sampleReordered = .ok other ∧ file.Reordered other ∧
        ∀ stub, (ofPackages [] true).stub sampleAnnotated = .ok stub ↔
          (ofPackages [] true).stub sampleReordered = .ok stub := by
  obtain ⟨pool, hfile⟩ := decode_sampleAnnotated
  obtain ⟨others, hother⟩ := decode_sampleReordered
  have hreordered := reordered_sampleFile pool others
  exact ⟨_, _, hfile, hother, hreordered,
    stub_order_independent (ofPackages [] true) _ _ _ _ hfile hother hreordered⟩

end ApiRules

end ClassStub
