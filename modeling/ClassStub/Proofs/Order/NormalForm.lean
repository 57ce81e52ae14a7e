import ClassStub.Annotation.Normal
import ClassStub.Proofs.Codec.Annotation
import ClassStub.Proofs.Order.StableSort

/-!
# Normal forms of annotations

Normalizing sorts the elements of an annotation at every depth and changes
nothing else, so it has no effect the second time
(`ElementValue.normalize_normalize`) and keeps the number of bytes
(`ElementValue.size_normalize`).  A table has exactly one normal form
(`Annotation.NormalTable.unique`).  The annotations that a declaration retains are
those of its two tables, each in normal form (`Retained.normalTable_select`), and
retaining these again yields the same ones (`Retained.ofTables_select`).
-/

namespace ClassStub

/-! ## Lexicographic order -/

/-- Pairs are compared by their first components, and by the second ones where
the first are the same. -/
def lexLe {κ ι : Type} [DecidableEq κ] (le : κ → κ → Bool) (tie : ι → ι → Bool)
    (first second : κ × ι) : Bool :=
  if first.1 = second.1 then tie first.2 second.2 else le first.1 second.1

/-- Pairs are ordered by their first part, and by the second one in ties. -/
theorem KeyOrder.lex {κ ι : Type} [DecidableEq κ] {le : κ → κ → Bool} {tie : ι → ι → Bool}
    (horder : KeyOrder le) (htie : KeyOrder tie) : KeyOrder (lexLe le tie) where
  trans := by
    intro first second third hfirst hsecond
    obtain ⟨one, first⟩ := first
    obtain ⟨two, second⟩ := second
    obtain ⟨three, third⟩ := third
    simp only [lexLe] at hfirst hsecond ⊢
    by_cases hone : one = two
    · subst hone
      by_cases htwo : one = three
      · subst htwo
        simp only [↓reduceIte] at hfirst hsecond ⊢
        exact htie.trans _ _ _ hfirst hsecond
      · simpa only [htwo, ↓reduceIte] using hsecond
    · by_cases htwo : two = three
      · subst htwo
        simpa only [hone, ↓reduceIte] using hfirst
      · simp only [hone, htwo, ↓reduceIte] at hfirst hsecond
        have hle := horder.trans _ _ _ hfirst hsecond
        -- Different keys cannot lie between two that are the same.
        by_cases hends : one = three
        · subst hends
          exact absurd (horder.antisymm _ _ hfirst hsecond) hone
        · simpa only [hends, ↓reduceIte] using hle
  total := by
    intro first second
    by_cases hsame : first.1 = second.1
    · simpa only [lexLe, hsame, ↓reduceIte] using htie.total first.2 second.2
    · simpa only [lexLe, hsame, Ne.symm hsame, ↓reduceIte] using horder.total first.1 second.1
  antisymm := by
    intro first second hle hge
    by_cases hsame : first.1 = second.1
    · simp only [lexLe, hsame, ↓reduceIte] at hle hge
      exact Prod.ext hsame (htie.antisymm _ _ hle hge)
    · simp only [lexLe, hsame, Ne.symm hsame, ↓reduceIte] at hle hge
      exact absurd (horder.antisymm _ _ hle hge) hsame

/-! ## Elements -/

/-- The value of each element is normalized, and no element moves. -/
theorem normalizeElements_eq_map (elements : List (String × ElementValue)) :
    normalizeElements elements =
      elements.map fun element => (element.1, element.2.normalize) := by
  induction elements with
  | nil => rfl
  | cons element elements ih => rw [normalizeElements, ih, List.map_cons]

/-- Elements are sorted by their names. -/
theorem stableSort_sortByName {α : Type} (elements : List (String × α)) :
    StableSort textLe Prod.fst elements (sortByName elements) :=
  stableSort_mergeSort keyOrder_text Prod.fst elements

/-- Elements whose values are in normal form are sorted once and for all. -/
theorem sortByName_normalizeElements {elements : List (String × ElementValue)}
    (hnormal : normalizeElements elements = elements) :
    sortByName (normalizeElements (sortByName elements)) = sortByName elements := by
  have hsorted := stableSort_sortByName elements
  have hkept : normalizeElements (sortByName elements) = sortByName elements := by
    have hmapped : StableSort textLe Prod.fst _ _ :=
      hsorted.map (fun element => (element.1, element.2.normalize)) fun _ => rfl
    rw [← normalizeElements_eq_map, ← normalizeElements_eq_map, hnormal] at hmapped
    exact hmapped.unique keyOrder_text hsorted
  rw [hkept]
  have htwice := stableSort_sortByName (sortByName elements)
  exact htwice.unique keyOrder_text (stableSort_self hsorted.ascending)

mutual

/-- Normalizing has no effect on a normal form. -/
theorem ElementValue.normalize_normalize (value : ElementValue) :
    value.normalize.normalize = value.normalize := by
  cases value with
  | constant value => rfl
  | enumConstant type name => rfl
  | nested type elements =>
    have hnormal := normalizeElements_normalizeElements elements
    rw [ElementValue.normalize, ElementValue.normalize, sortByName_normalizeElements hnormal]
  | array values =>
    have hnormal := normalizeValues_normalizeValues values
    rw [ElementValue.normalize, ElementValue.normalize, hnormal]

/-- Normalizing elements again changes nothing. -/
theorem normalizeElements_normalizeElements (elements : List (String × ElementValue)) :
    normalizeElements (normalizeElements elements) = normalizeElements elements := by
  cases elements with
  | nil => rfl
  | cons element elements =>
    obtain ⟨name, value⟩ := element
    rw [normalizeElements, normalizeElements, value.normalize_normalize,
      normalizeElements_normalizeElements elements]

theorem normalizeValues_normalizeValues (values : List ElementValue) :
    normalizeValues (normalizeValues values) = normalizeValues values := by
  cases values with
  | nil => rfl
  | cons value values =>
    rw [normalizeValues, normalizeValues, value.normalize_normalize,
      normalizeValues_normalizeValues values]

end

theorem Annotation.normalize_normalize (value : Annotation) :
    value.normalize.normalize = value.normalize := by
  have hnormal := normalizeElements_normalizeElements value.elements
  simp only [normalize, sortByName_normalizeElements hnormal]

/-! ## Sizes -/

/-- The size of elements does not depend on their order. -/
theorem elementsSize_perm {elements others : List (String × ElementValue)}
    (hperm : elements.Perm others) : elementsSize elements = elementsSize others := by
  induction hperm with
  | nil => rfl
  | cons element _ ih =>
    obtain ⟨name, value⟩ := element
    rw [elementsSize, elementsSize, ih]
  | swap first second elements =>
    simp only [elementsSize]
    omega
  | trans _ _ ihfirst ihsecond => exact ihfirst.trans ihsecond

theorem elementsSize_sortByName (elements : List (String × ElementValue)) :
    elementsSize (sortByName elements) = elementsSize elements :=
  elementsSize_perm ((stableSort_sortByName elements).perm keyOrder_text)

mutual

/-- A normal form has as many bytes as the value. -/
theorem ElementValue.size_normalize (value : ElementValue) : value.normalize.size = value.size := by
  cases value with
  | constant value => rfl
  | enumConstant type name => rfl
  | nested type elements =>
    rw [ElementValue.normalize, ElementValue.size, ElementValue.size, elementsSize_sortByName,
      elementsSize_normalizeElements elements]
  | array values =>
    rw [ElementValue.normalize, ElementValue.size, ElementValue.size,
      valuesSize_normalizeValues values]

/-- Normal elements have the same size. -/
theorem elementsSize_normalizeElements (elements : List (String × ElementValue)) :
    elementsSize (normalizeElements elements) = elementsSize elements := by
  cases elements with
  | nil => rfl
  | cons element elements =>
    obtain ⟨name, value⟩ := element
    rw [normalizeElements, elementsSize, elementsSize, value.size_normalize,
      elementsSize_normalizeElements elements]

theorem valuesSize_normalizeValues (values : List ElementValue) :
    valuesSize (normalizeValues values) = valuesSize values := by
  cases values with
  | nil => rfl
  | cons value values =>
    rw [normalizeValues, valuesSize, valuesSize, value.size_normalize,
      valuesSize_normalizeValues values]

end

namespace Annotation

/-- A normal annotation has the same size. -/
theorem size_normalize (value : Annotation) : value.normalize.size = value.size := by
  rw [size, normalize, elementsSize_sortByName, elementsSize_normalizeElements, size]

/-- The size of a table does not depend on its order. -/
theorem tableSize_perm {table others : List Annotation} (hperm : table.Perm others) :
    tableSize table = tableSize others := by
  induction hperm with
  | nil => rfl
  | cons value _ ih => rw [tableSize, tableSize, ih]
  | swap first second table =>
    simp only [tableSize]
    omega
  | trans _ _ ihfirst ihsecond => exact ihfirst.trans ihsecond

/-- A table of normal annotations has the same size. -/
theorem tableSize_map_normalize (table : List Annotation) :
    tableSize (table.map normalize) = tableSize table := by
  induction table with
  | nil => rfl
  | cons value table ih => rw [List.map_cons, tableSize, tableSize, size_normalize, ih]

/-! ## Tables -/

/-- A table in normal form: its annotations are, and they are sorted by type. -/
def NormalTable (table normal : List Annotation) : Prop :=
  StableSort textLe Annotation.type (table.map normalize) normal

/-- A table has exactly one normal form. -/
theorem NormalTable.unique {table normal other : List Annotation}
    (hnormal : NormalTable table normal) (hother : NormalTable table other) : normal = other :=
  StableSort.unique keyOrder_text hnormal hother

/-- A normal table has the size of the table. -/
theorem NormalTable.tableSize_eq {table normal : List Annotation}
    (hnormal : NormalTable table normal) : tableSize normal = tableSize table := by
  rw [tableSize_perm (hnormal.perm keyOrder_text), tableSize_map_normalize]

theorem NormalTable.tableSize_lt {table normal : List Annotation} {bound : Nat}
    (hnormal : NormalTable table normal) (hsize : tableSize table < bound) :
    tableSize normal < bound := by
  rw [hnormal.tableSize_eq]
  exact hsize

end Annotation

namespace Retained

open Annotation

/-- What annotations are sorted by. -/
def key (one : Retained) : Bool × String :=
  (one.visible, one.content.type)

/-- Invisible annotations come first. -/
def markLe (first second : Bool) : Bool :=
  !first || second

theorem keyOrder_mark : KeyOrder markLe where
  trans := by decide
  total := by decide
  antisymm := by decide

/-- Retained annotations are compared by their marks, and by their types in ties. -/
theorem le_eq (first second : Retained) :
    le first second = lexLe markLe textLe first.key second.key := by
  obtain ⟨firstMark, first⟩ := first
  obtain ⟨secondMark, second⟩ := second
  cases firstMark with
  | false => cases secondMark <;> rfl
  | true => cases secondMark <;> rfl

theorem keyOrder_key : KeyOrder (lexLe markLe textLe) :=
  keyOrder_mark.lex keyOrder_text

/-- Retained annotations are sorted by these keys. -/
theorem stableSort_sort (retained : List Retained) :
    StableSort (lexLe markLe textLe) key retained (sort retained) := by
  have hsame : sort retained =
      retained.mergeSort fun first second => lexLe markLe textLe first.key second.key := by
    simp only [sort, ← le_eq]
  rw [hsame]
  exact stableSort_mergeSort keyOrder_key key retained

/-- Retained annotations of one mark are sorted by type. -/
theorem normalTable_sort (visible : Bool) (table : List Annotation) :
    NormalTable table ((sort (table.map (retain visible))).map content) := by
  have hle : ∀ first ∈ table.map (retain visible), ∀ second ∈ table.map (retain visible),
      le first second = textLe first.content.type second.content.type := by
    intro first hfirst second hsecond
    obtain ⟨one, _, rfl⟩ := List.mem_map.1 hfirst
    obtain ⟨other, _, rfl⟩ := List.mem_map.1 hsecond
    simp [le, retain, textLe]
  have hsorted := stableSort_mergeSort keyOrder_text Annotation.type (table.map normalize)
  rw [sort, List.map_mergeSort (s := fun first second : Annotation =>
    textLe first.type second.type) hle, List.map_map]
  exact hsorted

/-- Of the annotations of two tables those of one mark are those of its table. -/
theorem filter_ofTables (table : Bool → List Annotation) (visible : Bool) :
    (ofTables (table true) (table false)).filter (·.visible == visible) =
      sort ((table visible).map (retain visible)) := by
  have hmarks : ∀ mark, ((table mark).map (retain mark)).filter (·.visible == visible) =
      if mark = visible then (table mark).map (retain mark) else [] := by
    intro mark
    rw [List.filter_map]
    by_cases hmark : mark = visible
    · rw [if_pos hmark, List.filter_eq_self.2 fun value _ => by simp [retain, hmark]]
    · rw [if_neg hmark, List.filter_eq_nil_iff.2 fun value _ => by simp [retain, hmark]]
      rfl
  have hsorted := (stableSort_sort
    ((table true).map (retain true) ++ (table false).map (retain false))).filter
      (·.visible == visible)
  rw [List.filter_append, hmarks, hmarks] at hsorted
  apply hsorted.unique keyOrder_key
  cases visible with
  | true => simpa using stableSort_sort ((table true).map (retain true))
  | false => simpa using stableSort_sort ((table false).map (retain false))

/-- What is selected from both tables is the normal form of one of them. -/
theorem normalTable_select (table : Bool → List Annotation) (visible : Bool) :
    NormalTable (table visible) (select visible (ofTables (table true) (table false))) := by
  rw [select, filter_ofTables]
  exact normalTable_sort visible (table visible)

theorem normalTable_select_visible (visible invisible : List Annotation) :
    NormalTable visible (select true (ofTables visible invisible)) :=
  normalTable_select (fun mark => bif mark then visible else invisible) true

theorem normalTable_select_invisible (visible invisible : List Annotation) :
    NormalTable invisible (select false (ofTables visible invisible)) :=
  normalTable_select (fun mark => bif mark then visible else invisible) false

/-! ## Retaining again -/

/-- What is retained is in normal form. -/
theorem normalize_content {marked : List Annotation} {visible : Bool} {one : Retained}
    (hone : one ∈ marked.map (retain visible)) : one.content.normalize = one.content := by
  obtain ⟨value, _, rfl⟩ := List.mem_map.1 hone
  exact value.normalize_normalize

/-- Annotations that are marked and in normal form are retained as they are. -/
theorem retain_content {retained : List Retained} {visible : Bool}
    (hmarks : ∀ one ∈ retained, one.visible = visible)
    (hnormal : ∀ one ∈ retained, one.content.normalize = one.content) :
    (retained.map content).map (retain visible) = retained := by
  have hsame : ∀ one ∈ retained, (retain visible ∘ content) one = one := by
    intro one hone
    rw [Function.comp_apply, retain, hnormal one hone, ← hmarks one hone]
  rw [List.map_map, List.map_congr_left hsame, List.map_id_fun', id]

/-- A sorted list is sorted from its invisible and its visible part. -/
theorem sort_filter_append_filter {retained : List Retained}
    (hsorted : retained.Pairwise fun first second =>
      lexLe markLe textLe first.key second.key) :
    sort (retained.filter (·.visible == true) ++ retained.filter (·.visible == false)) =
      retained := by
  refine (stableSort_sort _).unique keyOrder_key ⟨hsorted, fun value => ?_⟩
  obtain ⟨mark, type⟩ := value
  have hkey : ∀ visible, (retained.filter (·.visible == visible)).filter (·.key = (mark, type)) =
      if mark = visible then retained.filter (·.key = (mark, type)) else [] := by
    intro visible
    rw [List.filter_filter]
    by_cases hmark : mark = visible
    · rw [if_pos hmark]
      refine List.filter_congr fun one _ => ?_
      by_cases hone : one.key = (mark, type)
      · have hvisible : one.visible = mark := congrArg Prod.fst hone
        simp [hone, hvisible, hmark]
      · simp [hone]
    · rw [if_neg hmark, List.filter_eq_nil_iff]
      intro one _ hboth
      simp only [Bool.and_eq_true, decide_eq_true_eq, beq_iff_eq] at hboth
      exact hmark ((congrArg Prod.fst hboth.1).symm.trans hboth.2)
  rw [List.filter_append, hkey, hkey]
  cases mark with
  | true => simp
  | false => simp

/-- Retaining the annotations of a declaration again changes nothing. -/
theorem ofTables_select (visible invisible : List Annotation) :
    ofTables (select true (ofTables visible invisible))
      (select false (ofTables visible invisible)) = ofTables visible invisible := by
  have hsorted := stableSort_sort (visible.map (retain true) ++ invisible.map (retain false))
  have hnormal : ∀ one ∈ ofTables visible invisible, one.content.normalize = one.content := by
    intro one hone
    rw [ofTables, sort, List.mem_mergeSort, List.mem_append] at hone
    exact hone.elim normalize_content normalize_content
  have hpart : ∀ mark, (select mark (ofTables visible invisible)).map (retain mark) =
      (ofTables visible invisible).filter (·.visible == mark) := by
    intro mark
    refine retain_content ?_ ?_
    · intro one hone
      simpa using (List.mem_filter.1 hone).2
    · intro one hone
      exact hnormal one (List.mem_filter.1 hone).1
  rw [ofTables, hpart, hpart]
  exact sort_filter_append_filter hsorted.ascending

/-- Retaining again what was retained from a table changes nothing. -/
theorem ofTable_content (visible : Bool) (table : List Annotation) :
    ofTable visible ((ofTable visible table).map content) = ofTable visible table := by
  have hkept : ∀ one ∈ ofTable visible table, one ∈ table.map (retain visible) := by
    intro one hone
    rwa [ofTable, sort, List.mem_mergeSort] at hone
  have hmarks : ∀ one ∈ ofTable visible table, one.visible = visible := by
    intro one hone
    obtain ⟨value, _, rfl⟩ := List.mem_map.1 (hkept one hone)
    rfl
  have hsorted := stableSort_sort (table.map (retain visible))
  rw [ofTable, retain_content hmarks fun one hone => normalize_content (hkept one hone)]
  exact (stableSort_sort _).unique keyOrder_key (stableSort_self hsorted.ascending)

end Retained

end ClassStub
