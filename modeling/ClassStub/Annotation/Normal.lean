import ClassStub.Annotation.Basic

/-!
# Normal form of annotations

The order of elements in an annotation means nothing, so in normal form they
are sorted by name, at every depth.  The order of values in an array means
something and is kept.  Annotations that are kept carry a mark that tells which
of two tables they stand in, and are sorted by mark and type.
-/

namespace ClassStub

/-- Sorts named elements by name; elements of one name keep their order. -/
def sortByName {α : Type} (elements : List (String × α)) : List (String × α) :=
  elements.mergeSort fun first second => decide (first.1 ≤ second.1)

mutual

/-- The normal form of an element value. -/
def ElementValue.normalize : ElementValue → ElementValue
  | .constant value => .constant value
  | .enumConstant type name => .enumConstant type name
  | .nested type elements => .nested type (sortByName (normalizeElements elements))
  | .array values => .array (normalizeValues values)

/-- The normal forms of named elements, in the given order. -/
def normalizeElements : List (String × ElementValue) → List (String × ElementValue)
  | [] => []
  | (name, value) :: elements => (name, value.normalize) :: normalizeElements elements

/-- The normal forms of values, in the given order. -/
def normalizeValues : List ElementValue → List ElementValue
  | [] => []
  | value :: values => value.normalize :: normalizeValues values

end

def Annotation.normalize (value : Annotation) : Annotation where
  type := value.type
  elements := sortByName (normalizeElements value.elements)

/-- An annotation in normal form, and whether it is visible at run time. -/
structure Retained where
  visible : Bool
  content : Annotation

namespace Retained

/-- Retains an annotation in normal form. -/
def retain (visible : Bool) (value : Annotation) : Retained where
  visible
  content := value.normalize

/-- Invisible annotations come before visible ones, each sorted by type. -/
def le (first second : Retained) : Bool :=
  if first.visible = second.visible then
    first.content.type ≤ second.content.type
  else
    second.visible

/-- Sorts annotations; those of one mark and type keep their order. -/
def sort (annotations : List Retained) : List Retained :=
  annotations.mergeSort le

/-- The retained annotations of one table. -/
def ofTable (visible : Bool) (table : List Annotation) : List Retained :=
  sort (table.map (retain visible))

/-- The retained annotations of a declaration with a visible and an invisible
table. -/
def ofTables (visible invisible : List Annotation) : List Retained :=
  sort (visible.map (retain true) ++ invisible.map (retain false))

/-- The annotations with a given mark. -/
def select (visible : Bool) (annotations : List Retained) : List Annotation :=
  (annotations.filter (·.visible == visible)).map (·.content)

end Retained

end ClassStub
