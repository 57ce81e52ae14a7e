import ClassStub.Text.Modified
import Mathlib

/-!
# Forms of units

In modified UTF-8 a unit is written in one, two or three bytes (`UnitForm`).  Bytes
are well formed exactly if they split into such forms
(`ModifiedUtf8.units?_eq_some_iff`).  A unit can be written longer than needed; what
is written back has the shortest form of each unit, so bytes come back unchanged
exactly if they are all shortest (`ModifiedUtf8.encodeUnits_eq_iff`).
-/

namespace ClassStub

/-! ## Forms -/

/-- A way to write a unit: the bits that are spread over its bytes.  One byte is no
form of NUL, but two and three bytes may hold any bits that fit. -/
inductive UnitForm where
  | one (bits : Fin 0x80) (nonzero : bits ≠ 0)
  | two (high : Fin 0x20) (low : Fin 0x40)
  | three (high : Fin 0x10) (middle low : Fin 0x40)

namespace UnitForm

/-- The bytes `0xxxxxxx`, `110xxxxx 10xxxxxx` and `1110xxxx 10xxxxxx 10xxxxxx`. -/
def bytes : UnitForm → List UInt8
  | one bits _ => [UInt8.ofNat bits]
  | two high low => [UInt8.ofNat (0xC0 + high), UInt8.ofNat (0x80 + low)]
  | three high middle low =>
    [UInt8.ofNat (0xE0 + high), UInt8.ofNat (0x80 + middle), UInt8.ofNat (0x80 + low)]

/-- The unit whose bits are those of all bytes, one behind the other. -/
def unit : UnitForm → UInt16
  | one bits _ => UInt16.ofNat bits
  | two high low => UInt16.ofNat (high * 0x40 + low)
  | three high middle low => UInt16.ofNat (high * 0x1000 + middle * 0x40 + low)

/-- No form of the same unit has fewer bytes. -/
def Shortest (form : UnitForm) : Prop :=
  ∀ other : UnitForm, other.unit = form.unit → form.bytes.length ≤ other.bytes.length

theorem toNat_unit_one (bits : Fin 0x80) (nonzero : bits ≠ 0) :
    (one bits nonzero).unit.toNat = bits := by
  rw [unit, UInt16.toNat_ofNat']
  omega

/-- A form of two bytes holds eleven bits. -/
theorem toNat_unit_two (high : Fin 0x20) (low : Fin 0x40) :
    (two high low).unit.toNat = high * 0x40 + low := by
  rw [unit, UInt16.toNat_ofNat']
  omega

/-- A form of three bytes holds sixteen bits. -/
theorem toNat_unit_three (high : Fin 0x10) (middle low : Fin 0x40) :
    (three high middle low).unit.toNat = high * 0x1000 + middle * 0x40 + low := by
  rw [unit, UInt16.toNat_ofNat']
  omega

/-- No byte of a form is zero or above the first byte of three. -/
theorem byte_bounds (form : UnitForm) {byte : UInt8} (hbyte : byte ∈ form.bytes) :
    byte.toNat ≠ 0 ∧ byte.toNat < 0xF0 := by
  cases form with
  | one bits nonzero =>
    have hbits : bits.val ≠ 0 := Fin.val_ne_zero_iff.2 nonzero
    rw [bytes, List.mem_singleton] at hbyte
    rw [hbyte, UInt8.toNat_ofNat']
    omega
  | two high low =>
    simp only [bytes, List.mem_cons, List.not_mem_nil, or_false] at hbyte
    rcases hbyte with rfl | rfl
    · rw [UInt8.toNat_ofNat']
      omega
    · rw [UInt8.toNat_ofNat']
      omega
  | three high middle low =>
    simp only [bytes, List.mem_cons, List.not_mem_nil, or_false] at hbyte
    rcases hbyte with rfl | rfl | rfl
    · rw [UInt8.toNat_ofNat']
      omega
    · rw [UInt8.toNat_ofNat']
      omega
    · rw [UInt8.toNat_ofNat']
      omega

/-- There are no more forms than bytes. -/
theorem length_le_flatMap (forms : List UnitForm) :
    forms.length ≤ (forms.flatMap bytes).length := by
  induction forms with
  | nil => exact Nat.le_refl 0
  | cons form forms ih =>
    have hform : 0 < form.bytes.length := by
      cases form <;> exact Nat.succ_pos _
    rw [List.flatMap_cons, List.length_append, List.length_cons]
    omega

end UnitForm

namespace ModifiedUtf8

open UnitForm

/-! ## Splitting bytes into forms -/

theorem isContinuation_bits (bits : Fin 0x40) : isContinuation (UInt8.ofNat (0x80 + bits)) := by
  rw [isContinuation, UInt8.toNat_ofNat', Bool.and_eq_true, decide_eq_true_eq, decide_eq_true_eq]
  omega

/-- A byte that goes on with a form holds six bits. -/
theorem payload_bits (bits : Fin 0x40) : payload 0x40 (UInt8.ofNat (0x80 + bits)) = bits := by
  rw [payload, UInt8.toNat_ofNat']
  omega

/-- A form in front of bytes is read first. -/
theorem units?_bytes_append (form : UnitForm) (rest : List UInt8) :
    units? (form.bytes ++ rest) = (units? rest).map (form.unit :: ·) := by
  cases form with
  | one bits nonzero =>
    have hbits : bits.val ≠ 0 := Fin.val_ne_zero_iff.2 nonzero
    have hbyte : (UInt8.ofNat bits).toNat = bits := by
      rw [UInt8.toNat_ofNat']
      omega
    rw [UnitForm.bytes, List.cons_append, List.nil_append, units?.eq_def]
    simp only [hbyte, bits.isLt, hbits, ↓reduceIte]
    rfl
  | two high low =>
    have hfirst : (UInt8.ofNat (0xC0 + high)).toNat = 0xC0 + high := by
      rw [UInt8.toNat_ofNat']
      omega
    have hhigh : payload 0x20 (UInt8.ofNat (0xC0 + high)) = high := by
      rw [payload, hfirst]
      omega
    simp only [UnitForm.bytes, List.cons_append, List.nil_append, units?, isContinuation_bits,
      payload_bits, hfirst, hhigh, ↓reduceIte]
    rw [if_neg (by omega), if_pos (by omega)]
    rfl
  | three high middle low =>
    have hfirst : (UInt8.ofNat (0xE0 + high)).toNat = 0xE0 + high := by
      rw [UInt8.toNat_ofNat']
      omega
    have hhigh : payload 0x10 (UInt8.ofNat (0xE0 + high)) = high := by
      rw [payload, hfirst]
      omega
    simp only [UnitForm.bytes, List.cons_append, List.nil_append, units?, isContinuation_bits,
      payload_bits, hfirst, hhigh, Bool.and_self, ↓reduceIte]
    rw [if_neg (by omega), if_neg (by omega), if_pos (by omega)]
    rfl

/-- Bytes that split into forms are read as their units. -/
theorem units?_flatMap_bytes (forms : List UnitForm) :
    units? (forms.flatMap UnitForm.bytes) = some (forms.map UnitForm.unit) := by
  induction forms with
  | nil => rfl
  | cons form forms ih =>
    rw [List.flatMap_cons, units?_bytes_append, ih]
    rfl

/-- A continuation byte is given by its payload. -/
theorem exists_bits {byte : UInt8} (hcontinues : isContinuation byte) :
    ∃ bits : Fin 0x40, UInt8.ofNat (0x80 + bits) = byte ∧ payload 0x40 byte = bits := by
  simp only [isContinuation, Bool.and_eq_true, decide_eq_true_eq] at hcontinues
  refine ⟨⟨payload 0x40 byte, Nat.mod_lt _ (Nat.succ_pos _)⟩, ?_, rfl⟩
  have hbyte : 0x80 + payload 0x40 byte = byte.toNat := by
    rw [payload]
    omega
  rw [hbyte, UInt8.ofNat_toNat]

/-- What is read splits into forms of its units.  The induction is along the reader,
which accepts bytes in just three cases. -/
theorem exists_forms {bytes : List UInt8} {units : List UInt16}
    (hunits : units? bytes = some units) :
    ∃ forms : List UnitForm, forms.flatMap UnitForm.bytes = bytes ∧
      forms.map UnitForm.unit = units := by
  -- The first byte tells how many belong to a form; all other cases are refused.
  fun_induction units? bytes generalizing units with
  | case1 =>
    cases hunits
    exact ⟨[], rfl, rfl⟩
  | case3 first rest hsmall hnonzero ih =>
    obtain ⟨more, hmore, rfl⟩ := Option.map_eq_some_iff.1 hunits
    obtain ⟨forms, rfl, rfl⟩ := ih hmore
    have hbits : (⟨first.toNat, hsmall⟩ : Fin 0x80) ≠ 0 := fun hzero =>
      hnonzero (Fin.val_eq_of_eq hzero)
    refine ⟨.one ⟨first.toNat, hsmall⟩ hbits :: forms, ?_, rfl⟩
    rw [List.flatMap_cons, UnitForm.bytes, UInt8.ofNat_toNat]
    rfl
  | case4 first _ hfirst second rest hsecond ih =>
    obtain ⟨more, hmore, rfl⟩ := Option.map_eq_some_iff.1 hunits
    obtain ⟨forms, rfl, rfl⟩ := ih hmore
    obtain ⟨low, rfl, hlow⟩ := exists_bits hsecond
    have hlead : 0xC0 + payload 0x20 first = first.toNat := by
      rw [payload]
      omega
    refine ⟨.two ⟨payload 0x20 first, Nat.mod_lt _ (Nat.succ_pos _)⟩ low :: forms, ?_, ?_⟩
    · rw [List.flatMap_cons, UnitForm.bytes, hlead, UInt8.ofNat_toNat]
      rfl
    · rw [List.map_cons, UnitForm.unit, hlow]
  | case7 first _ _ hfirst second third rest hcontinue ih =>
    obtain ⟨more, hmore, rfl⟩ := Option.map_eq_some_iff.1 hunits
    obtain ⟨forms, rfl, rfl⟩ := ih hmore
    obtain ⟨hsecond, hthird⟩ := Bool.and_eq_true_iff.1 hcontinue
    obtain ⟨middle, rfl, hmiddle⟩ := exists_bits hsecond
    obtain ⟨low, rfl, hlow⟩ := exists_bits hthird
    have hlead : 0xE0 + payload 0x10 first = first.toNat := by
      rw [payload]
      omega
    refine ⟨.three ⟨payload 0x10 first, Nat.mod_lt _ (Nat.succ_pos _)⟩ middle low :: forms, ?_, ?_⟩
    · rw [List.flatMap_cons, UnitForm.bytes, hlead, UInt8.ofNat_toNat]
      rfl
    · rw [List.map_cons, UnitForm.unit, hmiddle, hlow]
  | _ => cases hunits

/-! ## Shortest forms -/

/-- A unit is written as its form is, or shorter. -/
theorem encodeUnit_unit (form : UnitForm) :
    encodeUnit form.unit = form.bytes ∨ (encodeUnit form.unit).length < form.bytes.length := by
  cases form with
  | one bits nonzero =>
    have hbits : bits.val ≠ 0 := Fin.val_ne_zero_iff.2 nonzero
    left
    simp only [encodeUnit, toNat_unit_one]
    rw [if_pos (by omega)]
    rfl
  | two high low =>
    by_cases hshort : 0 < high.val * 0x40 + low ∧ high.val * 0x40 + low < 0x80
    · right
      simp only [encodeUnit, toNat_unit_two]
      rw [if_pos hshort]
      exact Nat.lt_succ_self 1
    · left
      have hhigh : (high.val * 0x40 + low) / 0x40 = high := by omega
      have hlow : (high.val * 0x40 + low) % 0x40 = low := by omega
      simp only [encodeUnit, toNat_unit_two, hhigh, hlow]
      rw [if_neg hshort, if_pos (by omega)]
      rfl
  | three high middle low =>
    by_cases hlong : 0x800 ≤ high.val * 0x1000 + middle.val * 0x40 + low
    · left
      have hhigh : (high.val * 0x1000 + middle.val * 0x40 + low) / 0x1000 = high := by omega
      have hmiddle : (high.val * 0x1000 + middle.val * 0x40 + low) / 0x40 % 0x40 = middle := by
        omega
      have hlow : (high.val * 0x1000 + middle.val * 0x40 + low) % 0x40 = low := by omega
      simp only [encodeUnit, toNat_unit_three, hhigh, hmiddle, hlow]
      rw [if_neg (by omega), if_neg (by omega)]
      rfl
    · right
      simp only [encodeUnit, toNat_unit_three]
      rw [if_pos (by omega : high.val * 0x1000 + middle.val * 0x40 + low < 0x800)]
      split
      · exact Nat.lt_add_of_pos_right Nat.two_pos
      · exact Nat.lt_succ_self 2

/-- No form of a unit is shorter than that which is written. -/
theorem length_encodeUnit_le (form : UnitForm) :
    (encodeUnit form.unit).length ≤ form.bytes.length := by
  rcases encodeUnit_unit form with hsame | hshorter
  · exact Nat.le_of_eq (congrArg List.length hsame)
  · exact Nat.le_of_lt hshorter

/-- What is written for a unit is one of its forms. -/
theorem exists_form (unit : UInt16) :
    ∃ form : UnitForm, form.unit = unit ∧ form.bytes = encodeUnit unit := by
  have hunits : units? (encodeUnit unit) = some [unit] := by
    rw [← List.append_nil (encodeUnit unit), units?_encodeUnit_append]
    rfl
  obtain ⟨forms, hbytes, hforms⟩ := exists_forms hunits
  obtain ⟨form, hform, hunit⟩ := List.map_eq_singleton_iff.1 hforms
  rw [hform, List.flatMap_singleton] at hbytes
  exact ⟨form, hunit, hbytes⟩

/-- The shortest form of a unit is what is written for it. -/
theorem shortest_iff (form : UnitForm) : form.Shortest ↔ encodeUnit form.unit = form.bytes := by
  constructor
  · intro hshortest
    obtain ⟨written, hunit, hbytes⟩ := exists_form form.unit
    have hlength := hshortest written hunit
    rw [hbytes] at hlength
    exact (encodeUnit_unit form).resolve_right (Nat.not_lt.2 hlength)
  · intro hwritten other hunit
    rw [← hwritten, ← hunit]
    exact length_encodeUnit_le other

/-- NUL is written in two bytes, although one would have room for its bits. -/
theorem shortest_nul_iff (form : UnitForm) :
    form.unit = 0 ∧ form.Shortest ↔ form.bytes = [0xC0, 0x80] := by
  have hnul : encodeUnit 0 = [0xC0, 0x80] := rfl
  rw [shortest_iff, ← hnul]
  constructor
  · intro hboth
    rw [← hboth.2, hboth.1]
  · intro hbytes
    have hunits : units? form.bytes = some [form.unit] := by
      rw [← List.append_nil form.bytes, units?_bytes_append]
      rfl
    have hunit : some [form.unit] = some [0] := by
      rw [← hunits, hbytes]
      rfl
    have hzero : form.unit = 0 := List.head_eq_of_cons_eq (Option.some.inj hunit)
    exact ⟨hzero, by rw [hzero, hbytes]⟩

/-- No forms of units are shorter than those which are written. -/
theorem length_encodeUnits_le (forms : List UnitForm) :
    (encodeUnits (forms.map UnitForm.unit)).length ≤ (forms.flatMap UnitForm.bytes).length := by
  induction forms with
  | nil => exact Nat.le_refl 0
  | cons form forms ih =>
    rw [encodeUnits] at ih
    rw [List.map_cons, encodeUnits, List.flatMap_cons, List.flatMap_cons, List.length_append,
      List.length_append]
    exact Nat.add_le_add (length_encodeUnit_le form) ih

/-- Forms come back unchanged from their units exactly if all are shortest: a longer
one makes the bytes fewer, and no other form makes up for it. -/
theorem encodeUnits_eq_iff (forms : List UnitForm) :
    encodeUnits (forms.map UnitForm.unit) = forms.flatMap UnitForm.bytes ↔
      ∀ form ∈ forms, form.Shortest := by
  induction forms with
  | nil => simp [encodeUnits]
  | cons form forms ih =>
    have hmore := length_encodeUnits_le forms
    rw [encodeUnits] at ih hmore
    rw [List.forall_mem_cons, shortest_iff, ← ih, List.map_cons, encodeUnits, List.flatMap_cons,
      List.flatMap_cons]
    constructor
    · intro hsame
      have hlengths := congrArg List.length hsame
      rw [List.length_append, List.length_append] at hlengths
      have hfirst : (encodeUnit form.unit).length = form.bytes.length :=
        Nat.le_antisymm (length_encodeUnit_le form) (by omega)
      exact List.append_inj hsame hfirst
    · intro hboth
      rw [hboth.1, hboth.2]

/-- Bytes are well formed exactly if they split into forms, of their units. -/
theorem units?_eq_some_iff {bytes : List UInt8} {units : List UInt16} :
    units? bytes = some units ↔ ∃ forms : List UnitForm,
      forms.flatMap UnitForm.bytes = bytes ∧ forms.map UnitForm.unit = units := by
  constructor
  · exact exists_forms
  · intro hforms
    obtain ⟨forms, rfl, rfl⟩ := hforms
    exact units?_flatMap_bytes forms

/-- The bytes of a text are all shortest forms, so none is zero or from `0xF0` on. -/
theorem byte_bounds_encode (text : String) {byte : UInt8} (hbyte : byte ∈ encode text) :
    byte.toNat ≠ 0 ∧ byte.toNat < 0xF0 := by
  obtain ⟨unit, _, hunit⟩ := List.mem_flatMap.1 hbyte
  obtain ⟨form, _, hform⟩ := exists_form unit
  rw [← hform] at hunit
  exact form.byte_bounds hunit

end ModifiedUtf8

end ClassStub
