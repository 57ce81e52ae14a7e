/-!
# Stable sorting by a key

A list is a stable sort of another one if its keys ascend and if, for each key,
it has the same items in the same order.  This determines the sorted list
(`StableSort.unique`), so sorting commutes with filtering and mapping, and the
order of items with distinct keys does not matter.
-/

namespace ClassStub

/-- A comparison of keys that puts any two of them into one order. -/
structure KeyOrder {κ : Type} (le : κ → κ → Bool) : Prop where
  trans : ∀ first second third, le first second → le second third → le first third
  total : ∀ first second, le first second || le second first
  antisymm : ∀ first second, le first second → le second first → first = second

namespace KeyOrder

variable {κ : Type} {le : κ → κ → Bool}

theorem refl (horder : KeyOrder le) (key : κ) : le key key := by
  simpa using horder.total key key

end KeyOrder

/-- The order of texts. -/
def textLe (first second : String) : Bool :=
  decide (first ≤ second)

/-- Texts are ordered by their characters. -/
theorem keyOrder_text : KeyOrder textLe where
  trans := by
    intro first second third hfirst hsecond
    simp only [textLe, decide_eq_true_eq] at hfirst hsecond ⊢
    exact String.le_trans hfirst hsecond
  total := by
    intro first second
    simp only [textLe, Bool.or_eq_true, decide_eq_true_eq]
    exact String.le_total first second
  antisymm := by
    intro first second hfirst hsecond
    simp only [textLe, decide_eq_true_eq] at hfirst hsecond
    exact String.le_antisymm hfirst hsecond

/-- Two lists that have the same items for each key, in the same order. -/
def SameTies {α κ : Type} [DecidableEq κ] (key : α → κ) (items others : List α) : Prop :=
  ∀ value, items.filter (key · = value) = others.filter (key · = value)

/-- A sorted list: its keys ascend, and items of one key keep their order. -/
structure StableSort {α κ : Type} [DecidableEq κ] (le : κ → κ → Bool) (key : α → κ)
    (items sorted : List α) : Prop where
  ascending : sorted.Pairwise fun first second => le (key first) (key second)
  stable : SameTies key sorted items

section

variable {α β κ : Type} [DecidableEq κ] {le : κ → κ → Bool} {key : α → κ}
  {items sorted : List α}

/-- Ascending items are sorted already. -/
theorem stableSort_self (hascending : items.Pairwise fun first second =>
    le (key first) (key second)) : StableSort le key items items :=
  ⟨hascending, fun _ => rfl⟩

/-- Merge sort is stable. -/
theorem stableSort_mergeSort (horder : KeyOrder le) (key : α → κ) (items : List α) :
    StableSort le key items (items.mergeSort fun first second => le (key first) (key second)) := by
  have htrans : ∀ first second third : α, le (key first) (key second) →
      le (key second) (key third) → le (key first) (key third) :=
    fun first second third => horder.trans (key first) (key second) (key third)
  have htotal : ∀ first second : α, le (key first) (key second) || le (key second) (key first) :=
    fun first second => horder.total (key first) (key second)
  refine ⟨List.pairwise_mergeSort htrans htotal items, fun value => ?_⟩
  have htied : (items.filter (key · = value)).Pairwise fun first second =>
      le (key first) (key second) := by
    apply List.pairwise_of_forall_mem_list
    intro first hfirst second hsecond
    have hfirstKey : key first = value := by simpa using (List.mem_filter.1 hfirst).2
    have hsecondKey : key second = value := by simpa using (List.mem_filter.1 hsecond).2
    rw [hfirstKey, hsecondKey]
    exact horder.refl value
  have hkept := (List.sublist_mergeSort htrans htotal htied List.filter_sublist).filter
    (key · = value)
  rw [List.filter_filter] at hkept
  simp only [Bool.and_self] at hkept
  have hlength := ((List.mergeSort_perm items fun first second =>
    le (key first) (key second)).filter (key · = value)).length_eq
  exact (hkept.eq_of_length hlength.symm).symm

namespace SameTies

variable {first second : List α}

theorem refl (key : α → κ) (items : List α) : SameTies key items items :=
  fun _ => rfl

theorem symm (hties : SameTies key first second) : SameTies key second first :=
  fun value => (hties value).symm

/-- Lists with the same ties have the same items. -/
theorem mem (hties : SameTies key first second) {item : α} (hitem : item ∈ first) :
    item ∈ second := by
  have hkept : item ∈ first.filter (key · = key item) := by simpa using hitem
  rw [hties] at hkept
  exact (List.mem_filter.1 hkept).1

/-- Lists with the same ties have so with others behind them. -/
theorem append {more others : List α} (hties : SameTies key first second)
    (hmore : SameTies key more others) : SameTies key (first ++ more) (second ++ others) := by
  intro value
  rw [List.filter_append, List.filter_append, hties value, hmore value]

/-- Lists with the same ties have so as far as a property holds. -/
theorem filter (hties : SameTies key first second) (property : α → Bool) :
    SameTies key (first.filter property) (second.filter property) := by
  intro value
  have hswap : ∀ list : List α, (list.filter property).filter (key · = value) =
      (list.filter (key · = value)).filter property := by
    intro list
    simp only [List.filter_filter, Bool.and_comm]
  rw [hswap, hswap, hties value]

/-- Items with distinct keys may change places. -/
theorem of_perm (hperm : first.Perm second) (hdistinct : (first.map key).Nodup) :
    SameTies key first second := by
  intro value
  have hties := hperm.filter (key · = value)
  have hsingle : ((first.filter (key · = value)).map key).Nodup :=
    hdistinct.sublist (List.filter_sublist.map key)
  have hkeys : ∀ item ∈ first.filter (key · = value), key item = value := by
    intro item hitem
    simpa using (List.mem_filter.1 hitem).2
  cases hcase : first.filter (key · = value) with
  | nil =>
    rw [hcase] at hties
    exact hties.nil_eq
  | cons item more =>
    rw [hcase] at hties hsingle hkeys
    cases more with
    | nil => exact hties.singleton_eq
    | cons other more =>
      have hitem := hkeys item (by simp)
      have hother := hkeys other (by simp)
      simp [hitem, hother] at hsingle

end SameTies

/-- Two ascending lists with the same items for each key are the same. -/
theorem eq_of_sameTies (horder : KeyOrder le) {first second : List α}
    (hfirst : first.Pairwise fun one other => le (key one) (key other))
    (hsecond : second.Pairwise fun one other => le (key one) (key other))
    (hties : SameTies key first second) : first = second := by
  induction first generalizing second with
  | nil =>
    rw [eq_comm, List.eq_nil_iff_forall_not_mem]
    intro item hitem
    have hnone := hties.symm.mem hitem
    cases hnone
  | cons item first ih =>
    cases second with
    | nil =>
      have hnone := hties.mem (List.mem_cons_self ..)
      cases hnone
    | cons other second =>
      have hitem := hties.mem (List.mem_cons_self ..)
      have hother := hties.symm.mem (List.mem_cons_self ..)
      have hle : le (key item) (key other) := by
        rcases List.mem_cons.1 hother with rfl | hlater
        · exact horder.refl _
        · exact List.rel_of_pairwise_cons hfirst hlater
      have hge : le (key other) (key item) := by
        rcases List.mem_cons.1 hitem with rfl | hlater
        · exact horder.refl _
        · exact List.rel_of_pairwise_cons hsecond hlater
      -- The heads have one key, and ties tell which item of that key comes first.
      have hkey := horder.antisymm _ _ hle hge
      have hheads := hties (key item)
      simp only [List.filter_cons, hkey, decide_true, ↓reduceIte, List.cons.injEq] at hheads
      rcases hheads with ⟨rfl, _⟩
      have hrest : SameTies key first second := by
        intro value
        have htails := hties value
        by_cases hvalue : key item = value
        · simpa [List.filter_cons, hvalue] using htails
        · simpa [List.filter_cons, hvalue] using htails
      rw [ih hfirst.of_cons hsecond.of_cons hrest]

namespace StableSort

/-- There is only one stable sort of a list. -/
theorem unique (horder : KeyOrder le) {other : List α} (hsorted : StableSort le key items sorted)
    (hother : StableSort le key items other) : sorted = other :=
  eq_of_sameTies horder hsorted.ascending hother.ascending fun value =>
    (hsorted.stable value).trans (hother.stable value).symm

/-- Whatever is sorted stably is what merge sort makes. -/
theorem eq_mergeSort (horder : KeyOrder le) (hsorted : StableSort le key items sorted) :
    sorted = items.mergeSort fun first second => le (key first) (key second) :=
  hsorted.unique horder (stableSort_mergeSort horder key items)

/-- Sorting again changes nothing. -/
theorem mergeSort_eq (horder : KeyOrder le) (hsorted : StableSort le key items sorted) :
    (sorted.mergeSort fun first second => le (key first) (key second)) = sorted :=
  ((stableSort_self hsorted.ascending).eq_mergeSort horder).symm

/-- Sorting moves items, and neither drops nor adds any. -/
theorem perm (horder : KeyOrder le) (hsorted : StableSort le key items sorted) :
    sorted.Perm items := by
  rw [hsorted.eq_mergeSort horder]
  exact List.mergeSort_perm items _

/-- What remains of a sorted list is the sorted rest. -/
theorem filter (hsorted : StableSort le key items sorted) (property : α → Bool) :
    StableSort le key (items.filter property) (sorted.filter property) where
  ascending := hsorted.ascending.filter property
  stable := hsorted.stable.filter property

/-- Items keep their places when they change but not their keys. -/
theorem map (hsorted : StableSort le key items sorted) (f : α → β) {other : β → κ}
    (hkey : ∀ item, other (f item) = key item) :
    StableSort le other (items.map f) (sorted.map f) where
  ascending := by
    rw [List.pairwise_map]
    simpa only [hkey] using hsorted.ascending
  stable := by
    intro value
    have hfilter : ∀ list : List α,
        (list.map f).filter (other · = value) = (list.filter (key · = value)).map f := by
      intro list
      rw [List.filter_map]
      simp only [Function.comp_def, hkey]
    rw [hfilter, hfilter, hsorted.stable value]

/-- Lists with the same ties are sorted alike. -/
theorem of_sameTies {others : List α} (hties : SameTies key items others)
    (hsorted : StableSort le key items sorted) : StableSort le key others sorted where
  ascending := hsorted.ascending
  stable := fun value => (hsorted.stable value).trans (hties value)

end StableSort

end

end ClassStub
