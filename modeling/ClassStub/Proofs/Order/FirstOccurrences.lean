import Mathlib.Data.List.Basic
import Mathlib.Data.List.Induction
import Mathlib.Data.List.Pairwise

/-!
# First occurrences

What is reported about several things is reported once for each, where it came up
first.  This says what a list becomes that way without saying how it is done
(`FirstOccurrences`); there is one such list (`FirstOccurrences.unique`), and
erasing what came before gives it (`firstOccurrences_eraseDups`).  Erasing commutes
with what is done to lists of names, and it may be done to parts of a list first.
-/

namespace ClassStub

section

variable {α : Type} [BEq α] [LawfulBEq α]

/-- The items of a list, each once, in the order in which they first occur. -/
structure FirstOccurrences (items kept : List α) : Prop where
  mem_iff : ∀ item, item ∈ kept ↔ item ∈ items
  ordered : kept.Pairwise fun first second => items.idxOf first < items.idxOf second

namespace FirstOccurrences

variable {items kept others : List α}

omit [LawfulBEq α] in
/-- Nothing occurs twice among first occurrences. -/
theorem nodup (hkept : FirstOccurrences items kept) : kept.Nodup := by
  refine hkept.ordered.imp fun {first second} hbefore hsame => ?_
  subst hsame
  exact Nat.lt_irrefl _ hbefore

omit [LawfulBEq α] in
/-- A list has its first occurrences in one order only. -/
theorem unique (hkept : FirstOccurrences items kept) (hothers : FirstOccurrences items others) :
    kept = others := by
  have hperm : kept.Perm others := by
    rw [List.perm_ext_iff_of_nodup hkept.nodup hothers.nodup]
    exact fun item => (hkept.mem_iff item).trans (hothers.mem_iff item).symm
  refine hperm.eq_of_pairwise ?_ hkept.ordered hothers.ordered
  exact fun first second _ _ hbefore hafter => absurd hafter (Nat.lt_asymm hbefore)

end FirstOccurrences

/-- What occurs before is erased at the end. -/
theorem eraseDups_concat_of_mem {items : List α} {item : α} (hitem : item ∈ items) :
    (items ++ [item]).eraseDups = items.eraseDups := by
  simp [List.eraseDups_append, List.removeAll, hitem]

/-- What is new stays at the end. -/
theorem eraseDups_concat_of_notMem {items : List α} {item : α} (hitem : item ∉ items) :
    (items ++ [item]).eraseDups = items.eraseDups ++ [item] := by
  simp [List.eraseDups_append, List.removeAll, hitem, List.eraseDups_cons]

/-- Erasing duplicates leaves the first occurrences. -/
theorem firstOccurrences_eraseDups (items : List α) :
    FirstOccurrences items items.eraseDups where
  mem_iff item := List.mem_eraseDups
  ordered := by
    induction items using List.reverseRecOn with
    | nil => exact List.Pairwise.nil
    | append_singleton items item ih =>
      have hgrown : items.eraseDups.Pairwise fun first second =>
          (items ++ [item]).idxOf first < (items ++ [item]).idxOf second := by
        refine ih.imp_of_mem fun hfirst hsecond hbefore => ?_
        rwa [List.idxOf_append_of_mem (List.mem_eraseDups.1 hfirst),
          List.idxOf_append_of_mem (List.mem_eraseDups.1 hsecond)]
      by_cases hitem : item ∈ items
      · rwa [eraseDups_concat_of_mem hitem]
      · rw [eraseDups_concat_of_notMem hitem, List.pairwise_append]
        refine ⟨hgrown, List.pairwise_singleton _ _, fun first hfirst last hlast => ?_⟩
        obtain rfl := List.mem_singleton.1 hlast
        have hmem := List.mem_eraseDups.1 hfirst
        rw [List.idxOf_append_of_mem hmem, List.idxOf_append_of_notMem hitem]
        exact Nat.lt_of_lt_of_le (List.idxOf_lt_length_of_mem hmem) (Nat.le_add_right _ _)

theorem FirstOccurrences.eq_eraseDups {items kept : List α} (hkept : FirstOccurrences items kept) :
    kept = items.eraseDups :=
  hkept.unique (firstOccurrences_eraseDups items)

/-! ## Erasing duplicates -/

/-- Erasing duplicates before or behind a filter leaves the same. -/
theorem eraseDups_filter (p : α → Bool) (items : List α) :
    (items.filter p).eraseDups = items.eraseDups.filter p := by
  induction items using List.reverseRecOn with
  | nil => rfl
  | append_singleton items item ih =>
    by_cases hpass : p item
    · have hone : [item].filter p = [item] := by simp [hpass]
      by_cases hitem : item ∈ items
      · rw [List.filter_append, hone, eraseDups_concat_of_mem (List.mem_filter.2 ⟨hitem, hpass⟩),
          eraseDups_concat_of_mem hitem, ih]
      · rw [List.filter_append, hone,
          eraseDups_concat_of_notMem fun hmem => hitem (List.mem_filter.1 hmem).1,
          eraseDups_concat_of_notMem hitem, List.filter_append, hone, ih]
    · have hnone : [item].filter p = [] := by simp [hpass]
      rw [List.filter_append, hnone, List.append_nil, ih]
      by_cases hitem : item ∈ items
      · rw [eraseDups_concat_of_mem hitem]
      · rw [eraseDups_concat_of_notMem hitem, List.filter_append, hnone, List.append_nil]

/-- Where no two items become the same, duplicates may be erased before. -/
theorem eraseDups_map {β : Type} [BEq β] [LawfulBEq β] {f : α → β} {items : List α}
    (hinjective : ∀ first ∈ items, ∀ second ∈ items, f first = f second → first = second) :
    (items.map f).eraseDups = items.eraseDups.map f := by
  induction items using List.reverseRecOn with
  | nil => rfl
  | append_singleton items item ih =>
    have hbefore := ih fun first hfirst second hsecond =>
      hinjective first (List.mem_append_left _ hfirst) second (List.mem_append_left _ hsecond)
    rw [List.map_append, List.map_singleton]
    by_cases hitem : item ∈ items
    · rw [eraseDups_concat_of_mem (List.mem_map_of_mem hitem), eraseDups_concat_of_mem hitem,
        hbefore]
    · have hnew : f item ∉ items.map f := by
        intro hmem
        obtain ⟨other, hother, hsame⟩ := List.mem_map.1 hmem
        have hequal := hinjective other (List.mem_append_left _ hother) item
          (List.mem_append_right _ List.mem_cons_self) hsame
        exact hitem (hequal ▸ hother)
      rw [eraseDups_concat_of_notMem hnew, eraseDups_concat_of_notMem hitem, hbefore,
        List.map_append, List.map_singleton]

/-- More items leave the same behind lists that leave the same. -/
theorem eraseDups_append_congr {items others : List α} (more : List α)
    (hsame : items.eraseDups = others.eraseDups) :
    (items ++ more).eraseDups = (others ++ more).eraseDups := by
  have hmem : ∀ item, item ∈ items ↔ item ∈ others := by
    intro item
    rw [← List.mem_eraseDups, hsame, List.mem_eraseDups]
  have hmore : more.removeAll items = more.removeAll others :=
    List.filter_congr fun item _ => by simp [hmem]
  rw [List.eraseDups_append, List.eraseDups_append, hsame, hmore]

/-- Duplicates in a part may be erased before those in the whole. -/
theorem eraseDups_append_eraseDups (before items : List α) :
    (before ++ items.eraseDups).eraseDups = (before ++ items).eraseDups := by
  induction items using List.reverseRecOn with
  | nil => rfl
  | append_singleton items item ih =>
    rw [← List.append_assoc before items]
    by_cases hitem : item ∈ items
    · rw [eraseDups_concat_of_mem hitem, ih,
        eraseDups_concat_of_mem (List.mem_append_right before hitem)]
    · rw [eraseDups_concat_of_notMem hitem, ← List.append_assoc]
      exact eraseDups_append_congr [item] ih

end

/-! ## Items with keys -/

section

variable {α β : Type} [BEq β] {key : α → β}

/-- What holds of a list if it holds without the first item and all with its key,
holds of every list. -/
theorem induction_on_keys (key : α → β) {motive : List α → Prop} (items : List α)
    (nil : motive [])
    (cons : ∀ item items, motive (items.filter fun other => (key other == key item) = false) →
      motive (item :: items)) :
    motive items := by
  induction hlength : items.length using Nat.strongRecOn generalizing items with
  | ind length ih =>
    cases items with
    | nil => exact nil
    | cons item items =>
      refine cons item items (ih _ ?_ _ rfl)
      rw [← hlength]
      exact Nat.lt_succ_of_le (List.length_filter_le _ _)

/-- Erasing items with the key of an earlier one leaves each key once. -/
theorem map_eraseDupsBy (items : List α) :
    (items.eraseDupsBy fun first second => key first == key second).map key =
      (items.map key).eraseDups := by
  induction items using induction_on_keys key with
  | nil => rfl
  | cons item items ih =>
    have hfilter : (items.filter fun other => (key other == key item) = false).map key =
        (items.map key).filter fun value => !value == key item := by
      simp [List.filter_map, Function.comp_def]
    rw [List.eraseDupsBy_cons, List.map_cons, ih, List.map_cons, List.eraseDups_cons, hfilter]

/-- Of the items with one key the first is kept. -/
theorem find?_of_mem_eraseDupsBy [LawfulBEq β] {items : List α} {item : α}
    (hitem : item ∈ items.eraseDupsBy fun first second => key first == key second) :
    items.find? (fun other => key other == key item) = some item := by
  induction items using induction_on_keys key with
  | nil => cases hitem
  | cons first items ih =>
    rw [List.eraseDupsBy_cons, List.mem_cons] at hitem
    rcases hitem with rfl | hitem
    · simp
    · have hfound := ih hitem
      have hother : key item ≠ key first := by
        have hmem := (List.mem_filter.1 (List.mem_of_find?_eq_some hfound)).2
        simpa using hmem
      rw [List.find?_cons_of_neg (by simpa using hother.symm)]
      rw [List.find?_filter] at hfound
      rw [← hfound]
      congr 1
      funext other
      by_cases hsame : key other = key item
      · simp [hsame, hother]
      · simp [hsame]

end

end ClassStub
