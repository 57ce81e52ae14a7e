import ClassStub.Proofs.Stub.OrderIndependence

/-!
# Normal forms as rearrangements

What normalizing may do is said here without how it is done: at every depth the
elements of an annotation are put into ascending order, those of one name keep
their order, and everything else stays where it is (`ValueRearranged`).
There is exactly one such value, the normal form (`valueRearranged_iff`).
What occurs in it at any depth are the normal forms of what occurs in the value
(`ElementValue.exists_origin`), so elements ascend everywhere.  A retained
annotation has such a normal form, and retaining it once more, or in another order
of elements, gives the same (`Retained.retain_isNormalForm`).
-/

namespace ClassStub

/-! ## Rearranged values -/

mutual

/-- Values that differ in the order of elements only, which ascends in the second
one at every depth and is kept between elements of one name. -/
inductive ValueRearranged : ElementValue → ElementValue → Prop where
  | constant (value : ConstantValue) : ValueRearranged (.constant value) (.constant value)
  | enumConstant (type name : String) :
      ValueRearranged (.enumConstant type name) (.enumConstant type name)
  | nested {type : String} {elements inside sorted : List (String × ElementValue)}
      (hinside : ElementsRearranged elements inside)
      (hsorted : StableSort textLe Prod.fst inside sorted) :
      ValueRearranged (.nested type elements) (.nested type sorted)
  | array {values inside : List ElementValue} (hinside : ValuesRearranged values inside) :
      ValueRearranged (.array values) (.array inside)

/-- Elements of the same names, in the same order, with rearranged values. -/
inductive ElementsRearranged :
    List (String × ElementValue) → List (String × ElementValue) → Prop where
  | nil : ElementsRearranged [] []
  | cons {name : String} {value other : ElementValue}
      {elements others : List (String × ElementValue)} (hvalue : ValueRearranged value other)
      (hothers : ElementsRearranged elements others) :
      ElementsRearranged ((name, value) :: elements) ((name, other) :: others)

/-- As many values, in the same order, each rearranged. -/
inductive ValuesRearranged : List ElementValue → List ElementValue → Prop where
  | nil : ValuesRearranged [] []
  | cons {value other : ElementValue} {values others : List ElementValue}
      (hvalue : ValueRearranged value other) (hothers : ValuesRearranged values others) :
      ValuesRearranged (value :: values) (other :: others)

end

mutual

/-- The normal form of a value is a rearrangement of it. -/
theorem ElementValue.rearranged_normalize (value : ElementValue) :
    ValueRearranged value value.normalize := by
  cases value with
  | constant value => exact .constant value
  | enumConstant type name => exact .enumConstant type name
  | nested type elements =>
    exact .nested (elementsRearranged_normalize elements) (stableSort_sortByName _)
  | array values => exact .array (valuesRearranged_normalize values)

/-- Normal elements are rearrangements of the elements. -/
theorem elementsRearranged_normalize (elements : List (String × ElementValue)) :
    ElementsRearranged elements (normalizeElements elements) := by
  cases elements with
  | nil => exact .nil
  | cons element elements =>
    exact .cons element.2.rearranged_normalize (elementsRearranged_normalize elements)

theorem valuesRearranged_normalize (values : List ElementValue) :
    ValuesRearranged values (normalizeValues values) := by
  cases values with
  | nil => exact .nil
  | cons value values => exact .cons value.rearranged_normalize (valuesRearranged_normalize values)

end

mutual

/-- Any rearrangement of a value is its normal form. -/
theorem ValueRearranged.eq_normalize {value other : ElementValue}
    (hrearranged : ValueRearranged value other) : other = value.normalize := by
  cases hrearranged with
  | constant value => rfl
  | enumConstant type name => rfl
  | nested hinside hsorted =>
    rw [ElementValue.normalize, ← hinside.eq_normalize,
      hsorted.unique keyOrder_text (stableSort_sortByName _)]
  | array hinside => rw [ElementValue.normalize, hinside.eq_normalize]

/-- Any rearrangements of elements are the normal elements. -/
theorem ElementsRearranged.eq_normalize {elements others : List (String × ElementValue)}
    (hrearranged : ElementsRearranged elements others) : others = normalizeElements elements := by
  cases hrearranged with
  | nil => rfl
  | cons hvalue hothers => rw [normalizeElements, hvalue.eq_normalize, hothers.eq_normalize]

theorem ValuesRearranged.eq_normalize {values others : List ElementValue}
    (hrearranged : ValuesRearranged values others) : others = normalizeValues values := by
  cases hrearranged with
  | nil => rfl
  | cons hvalue hothers => rw [normalizeValues, hvalue.eq_normalize, hothers.eq_normalize]

end

/-- The normal form of a value is the only one that it can be rearranged to. -/
theorem valueRearranged_iff {value other : ElementValue} :
    ValueRearranged value other ↔ other = value.normalize := by
  constructor
  · exact ValueRearranged.eq_normalize
  · rintro rfl
    exact value.rearranged_normalize

/-! ## What occurs in values -/

/-- A value occurs in another one, at any depth. -/
inductive ElementValue.Within (inner : ElementValue) : ElementValue → Prop where
  | self : Within inner inner
  | element {type : String} {elements : List (String × ElementValue)}
      {element : String × ElementValue} (helement : element ∈ elements)
      (hinner : Within inner element.2) : Within inner (.nested type elements)
  | item {values : List ElementValue} {value : ElementValue} (hvalue : value ∈ values)
      (hinner : Within inner value) : Within inner (.array values)

namespace ElementValue

variable {inner : ElementValue}

/-- A nested annotation holds itself and what its elements hold. -/
theorem within_nested {type : String} {elements : List (String × ElementValue)} :
    inner.Within (.nested type elements) ↔
      inner = .nested type elements ∨ ∃ element ∈ elements, inner.Within element.2 := by
  constructor
  · rintro (_ | ⟨helement, hinner⟩)
    · exact .inl rfl
    · exact .inr ⟨_, helement, hinner⟩
  · rintro (rfl | ⟨element, helement, hinner⟩)
    · exact .self
    · exact .element helement hinner

/-- An array holds itself and what its items hold. -/
theorem within_array {values : List ElementValue} :
    inner.Within (.array values) ↔
      inner = .array values ∨ ∃ value ∈ values, inner.Within value := by
  constructor
  · rintro (_ | _ | ⟨hvalue, hinner⟩)
    · exact .inl rfl
    · exact .inr ⟨_, hvalue, hinner⟩
  · rintro (rfl | ⟨value, hvalue, hinner⟩)
    · exact .self
    · exact .item hvalue hinner

end ElementValue

mutual

/-- What occurs in a normal form is the normal form of what occurs in the value. -/
theorem ElementValue.exists_origin {inner : ElementValue} (value : ElementValue)
    (hinner : inner.Within value.normalize) :
    ∃ origin : ElementValue, origin.Within value ∧ inner = origin.normalize := by
  cases value with
  | constant value =>
    cases hinner
    exact ⟨_, .self, rfl⟩
  | enumConstant type name =>
    cases hinner
    exact ⟨_, .self, rfl⟩
  | nested type elements =>
    rw [ElementValue.normalize, ElementValue.within_nested] at hinner
    rcases hinner with rfl | ⟨element, helement, hinner⟩
    · exact ⟨_, .self, rfl⟩
    · rw [sortByName, List.mem_mergeSort] at helement
      obtain ⟨source, hsource, origin, horigin, rfl⟩ :=
        exists_origin_elements elements helement hinner
      exact ⟨origin, .element hsource horigin, rfl⟩
  | array values =>
    rw [ElementValue.normalize, ElementValue.within_array] at hinner
    rcases hinner with rfl | ⟨item, hitem, hinner⟩
    · exact ⟨_, .self, rfl⟩
    · obtain ⟨source, hsource, origin, horigin, rfl⟩ := exists_origin_values values hitem hinner
      exact ⟨origin, .item hsource horigin, rfl⟩

/-- What normal elements hold is the normal form of what the elements hold. -/
theorem exists_origin_elements {inner : ElementValue} {element : String × ElementValue}
    (elements : List (String × ElementValue)) (helement : element ∈ normalizeElements elements)
    (hinner : inner.Within element.2) :
    ∃ source ∈ elements, ∃ origin : ElementValue,
      origin.Within source.2 ∧ inner = origin.normalize := by
  cases elements with
  | nil => cases helement
  | cons first elements =>
    obtain ⟨name, value⟩ := first
    rw [normalizeElements] at helement
    rcases List.mem_cons.1 helement with rfl | hmore
    · obtain ⟨origin, horigin⟩ := ElementValue.exists_origin value hinner
      exact ⟨_, List.mem_cons_self, origin, horigin⟩
    · obtain ⟨source, hsource, hfound⟩ := exists_origin_elements elements hmore hinner
      exact ⟨source, List.mem_cons_of_mem _ hsource, hfound⟩

theorem exists_origin_values {inner item : ElementValue} (values : List ElementValue)
    (hitem : item ∈ normalizeValues values) (hinner : inner.Within item) :
    ∃ source ∈ values, ∃ origin : ElementValue,
      origin.Within source ∧ inner = origin.normalize := by
  cases values with
  | nil => cases hitem
  | cons value values =>
    rw [normalizeValues] at hitem
    rcases List.mem_cons.1 hitem with rfl | hmore
    · obtain ⟨origin, horigin⟩ := ElementValue.exists_origin value hinner
      exact ⟨value, List.mem_cons_self, origin, horigin⟩
    · obtain ⟨source, hsource, hfound⟩ := exists_origin_values values hmore hinner
      exact ⟨source, List.mem_cons_of_mem _ hsource, hfound⟩

end

/-- Elements ascend wherever an annotation occurs in a normal form. -/
theorem ElementValue.ascending_of_within {value : ElementValue} {type : String}
    {elements : List (String × ElementValue)}
    (hinner : (ElementValue.nested type elements).Within value.normalize) :
    elements.Pairwise fun first second => first.1 ≤ second.1 := by
  obtain ⟨origin, _, horigin⟩ := ElementValue.exists_origin value hinner
  cases origin with
  | nested given others =>
    rw [ElementValue.normalize, ElementValue.nested.injEq] at horigin
    rw [horigin.2]
    exact (stableSort_sortByName _).ascending.imp fun hle => by simpa [textLe] using hle
  | constant value => cases horigin
  | enumConstant type name => cases horigin
  | array values => cases horigin

/-! ## Normal forms of annotations -/

/-- An annotation and its normal form: the only rearrangement of it, in which
elements ascend by name at every depth. -/
structure Annotation.IsNormalForm (value normal : Annotation) : Prop where
  rearranged : ValueRearranged value.toValue normal.toValue
  unique : ∀ other, ValueRearranged value.toValue other → other = normal.toValue
  ascending : ∀ (type : String) (elements : List (String × ElementValue)),
    (ElementValue.nested type elements).Within normal.toValue →
      elements.Pairwise fun first second => first.1 ≤ second.1

theorem Annotation.isNormalForm_normalize (value : Annotation) :
    value.IsNormalForm value.normalize where
  rearranged := valueRearranged_iff.2 rfl
  unique := fun _ => valueRearranged_iff.1
  ascending := fun _ _ => @ElementValue.ascending_of_within value.toValue _ _

namespace Retained

/-- **What is retained of an annotation is its normal form.**  It does not depend
on the mark, it is retained as it is, with its mark, and annotations that differ in
the order of elements of distinct names have the same. -/
theorem retain_isNormalForm (visible : Bool) (value : Annotation) :
    value.IsNormalForm (retain visible value).content ∧
      (∀ mark, (retain mark (retain visible value).content).content =
        (retain visible value).content) ∧
      retain (retain visible value).visible (retain visible value).content =
        retain visible value ∧
      ∀ (mark : Bool) (other : Annotation), value.Reordered other →
        (retain mark other).content = (retain visible value).content := by
  refine ⟨value.isNormalForm_normalize, fun mark => value.normalize_normalize, ?_, ?_⟩
  · rw [retain, retain, value.normalize_normalize]
  · intro mark other hreordered
    exact hreordered.normalize_eq.symm

/-- An annotation that holds an annotation in an array, both with elements in the
given order. -/
def sampleNested (elements : List (String × ElementValue) → List (String × ElementValue)) :
    Annotation where
  type := "LP;"
  elements := elements [
    ("b", .array [
      .nested "LQ;" (elements [("y", .constant (.int 2)), ("x", .constant (.int 1))]),
      .constant (.int 0)]),
    ("a", .enumConstant "LE;" "ONE")]

/-- The sample with its elements reversed at each depth retains the same. -/
theorem retain_isNormalForm_sampleNested :
    (sampleNested id).Reordered (sampleNested List.reverse) ∧
      (retain true (sampleNested List.reverse)).content =
        (retain false (sampleNested id)).content := by
  have hinner : ValueRelated
      (.nested "LQ;" [("y", .constant (.int 2)), ("x", .constant (.int 1))])
      (.nested "LQ;" [("x", .constant (.int 1)), ("y", .constant (.int 2))]) :=
    .nested (.inr ⟨List.Perm.swap _ _ _, by decide⟩)
      (.cons (.constant _) (.cons (.constant _) .nil))
  have hnames : ["b", "a"].Nodup := by decide
  have hreordered : (sampleNested id).Reordered (sampleNested List.reverse) :=
    ValueRelated.nested (.inr ⟨List.Perm.swap _ _ _, hnames⟩)
      (.cons (.enumConstant _ _) (.cons (.array (.cons hinner (.cons (.constant _) .nil))) .nil))
  exact ⟨hreordered, (retain_isNormalForm false _).2.2.2 true _ hreordered⟩

end Retained

end ClassStub
