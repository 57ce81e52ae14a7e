import ClassStub.Proofs.Codec.Interning
import ClassStub.Proofs.Text.Surrogates
import ClassStub.Proofs.Text.UnitForms

/-!
# Texts and their constants

A text constant is made from any bytes that split into forms of units, and keeps
them.  What is read from it is fixed by its units: it is readable unless a
surrogate stands alone (`JavaText.StandsFor`).  A text comes back from its own bytes
(`ModifiedUtf8.writtenExactly`), but bytes come back from their text only where all
their forms are shortest (`ModifiedUtf8.readExactly`).
-/

namespace ClassStub

/-! ## Constants -/

namespace JavaText

/-- Bytes make a text exactly if they divide into forms of units. -/
theorem ofBytes?_isSome_iff {bytes : List UInt8} :
    (ofBytes? bytes).isSome ↔
      ∃ forms : List UnitForm, forms.flatMap UnitForm.bytes = bytes := by
  have hwellFormed : (ofBytes? bytes).isSome = (ModifiedUtf8.units? bytes).isSome := by
    unfold ofBytes?
    split
    case isTrue wellFormed => exact wellFormed.symm
    case isFalse hmalformed => exact (Bool.eq_false_of_not_eq_true hmalformed).symm
  rw [hwellFormed, Option.isSome_iff_exists]
  simp only [ModifiedUtf8.units?_eq_some_iff]
  constructor
  · intro hunits
    obtain ⟨_, forms, hbytes, _⟩ := hunits
    exact ⟨forms, hbytes⟩
  · intro hforms
    obtain ⟨forms, hbytes⟩ := hforms
    exact ⟨forms.map UnitForm.unit, forms, hbytes, rfl⟩

/-- A text keeps the bytes that it was made of. -/
theorem bytes_of_ofBytes? {bytes : List UInt8} {text : JavaText}
    (htext : ofBytes? bytes = some text) : text.bytes = bytes := by
  unfold ofBytes? at htext
  split at htext
  · cases htext
    rfl
  · cases htext

/-- The bytes of a constant are those from which it was made. -/
theorem ofBytes?_bytes (text : JavaText) : ofBytes? text.bytes = some text := by
  rw [ofBytes?, dif_pos text.wellFormed]

/-- A text constant whose bytes split into the given forms, and what is read from
it. -/
structure StandsFor (text : JavaText) (forms : List UnitForm) : Prop where
  bytes_eq : text.bytes = forms.flatMap UnitForm.bytes
  units_eq : text.units = forms.map UnitForm.unit
  readable : ∀ value : String, text.toString? = some value →
    Utf16.encode value.toList = text.units
  unreadable : text.toString? = none ↔ ∃ place, Utf16.loneAt text.units place
  replaced : Utf16.encode text.toReadable.toList = Utf16.mended text.units

/-- A text without lone surrogates has the units of its characters. -/
theorem encode_of_toString? {text : JavaText} {value : String}
    (hvalue : text.toString? = some value) : Utf16.encode value.toList = text.units := by
  obtain ⟨chars, hchars, rfl⟩ := Option.map_eq_some_iff.1 hvalue
  rw [String.toList_ofList]
  exact Utf16.encode_of_text? hchars

/-- A text stands for the units of its forms. -/
theorem standsFor {text : JavaText} {forms : List UnitForm}
    (hbytes : text.bytes = forms.flatMap UnitForm.bytes) : text.StandsFor forms where
  bytes_eq := hbytes
  units_eq := by
    have hunits := ModifiedUtf8.units?_flatMap_bytes forms
    rw [← hbytes] at hunits
    simp only [units, hunits, Option.get_some]
  readable _ := encode_of_toString?
  unreadable := by
    rw [toString?, Option.map_eq_none_iff]
    exact Utf16.text?_eq_none_iff
  replaced := by
    rw [toReadable, String.toList_ofList]
    exact Utf16.encode_lossyText text.units

end JavaText

/-! ## Texts -/

namespace ModifiedUtf8

/-- Bytes are decoded as the text that they make. -/
theorem decode?_eq_bind (bytes : List UInt8) :
    decode? bytes = (JavaText.ofBytes? bytes).bind JavaText.toString? := by
  unfold JavaText.ofBytes?
  split
  case isTrue wellFormed =>
    obtain ⟨units, hunits⟩ := Option.isSome_iff_exists.1 wellFormed
    simp only [decode?, JavaText.toString?, JavaText.units, hunits, Option.bind_some,
      Option.get_some]
  case isFalse hmalformed =>
    rw [decode?, Option.not_isSome_iff_eq_none.1 hmalformed]
    rfl

/-- The bytes of a text are within bounds, and both the text and its constant are
read back from them. -/
structure WrittenExactly (text : String) : Prop where
  decoded : decode? (encode text) = some text
  bounded : ∀ byte ∈ encode text, byte ≠ 0 ∧ byte < 0xF0
  constant : JavaText.ofBytes? (encode text) = some (.ofString text)
  readable : (JavaText.ofString text).toString? = some text

/-- Bytes are accepted for their forms, stand for the units of these, and come back
from their text if all forms are shortest. -/
structure ReadExactly (bytes : List UInt8) : Prop where
  accepted : (JavaText.ofBytes? bytes).isSome ↔
    ∃ forms : List UnitForm, forms.flatMap UnitForm.bytes = bytes
  constant : ∀ text : JavaText, JavaText.ofBytes? bytes = some text → text.bytes = bytes ∧
    ∀ forms : List UnitForm, forms.flatMap UnitForm.bytes = bytes → text.StandsFor forms
  rewritten : ∀ text : String, decode? bytes = some text →
    (∃ forms : List UnitForm, forms.flatMap UnitForm.bytes = bytes) ∧
      ∀ forms : List UnitForm, forms.flatMap UnitForm.bytes = bytes →
        (encode text = bytes ↔ ∀ form ∈ forms, form.Shortest)

/-- Every string is written exactly. -/
theorem writtenExactly (text : String) : WrittenExactly text where
  decoded := by
    have hconstant := JavaText.ofBytes?_bytes (.ofString text)
    rw [JavaText.ofString] at hconstant
    rw [decode?_eq_bind, hconstant]
    exact JavaText.toString?_ofString text
  bounded byte hbyte := by
    obtain ⟨hnonzero, hbelow⟩ := byte_bounds_encode text hbyte
    exact ⟨fun hzero => hnonzero (congrArg UInt8.toNat hzero), UInt8.lt_iff_toNat_lt.2 hbelow⟩
  constant := JavaText.ofBytes?_bytes (.ofString text)
  readable := JavaText.toString?_ofString text

/-- All bytes are read exactly. -/
theorem readExactly (bytes : List UInt8) : ReadExactly bytes where
  accepted := JavaText.ofBytes?_isSome_iff
  constant text htext := by
    have hbytes := JavaText.bytes_of_ofBytes? htext
    exact ⟨hbytes, fun forms hforms => JavaText.standsFor (hbytes.trans hforms.symm)⟩
  rewritten value hvalue := by
    rw [decode?_eq_bind] at hvalue
    obtain ⟨text, htext, hvalue⟩ := Option.bind_eq_some_iff.1 hvalue
    have hbytes := JavaText.bytes_of_ofBytes? htext
    have hsplits := JavaText.ofBytes?_isSome_iff.1 (Option.isSome_of_mem htext)
    apply And.intro hsplits
    intro forms hforms
    have hstands : text.StandsFor forms := JavaText.standsFor (hbytes.trans hforms.symm)
    rw [encode, hstands.readable value hvalue, hstands.units_eq, ← hforms]
    exact encodeUnits_eq_iff forms

/-- **Modified UTF-8.**  Texts survive writing, bytes survive reading, and a text that
was read is written in the same bytes exactly if these had no form to shorten. -/
theorem written_and_read_exactly :
    (∀ text : String, WrittenExactly text) ∧ (∀ bytes : List UInt8, ReadExactly bytes) ∧
      ∀ form : UnitForm, form.unit = 0 ∧ form.Shortest ↔ form.bytes = [0xC0, 0x80] :=
  ⟨writtenExactly, readExactly, shortest_nul_iff⟩

/-- A letter in two bytes is read, but is not in its shortest form. -/
theorem written_and_read_exactly_long_letter :
    decode? [0xC1, 0x81] = some "A" ∧
      ∃ forms : List UnitForm, forms.flatMap UnitForm.bytes = [0xC1, 0x81] ∧
        ¬∀ form ∈ forms, form.Shortest := by
  have hread : decode? [0xC1, 0x81] = some "A" := by cbv
  obtain ⟨hsplits, hshortest⟩ :=
    (written_and_read_exactly.2.1 [0xC1, 0x81]).rewritten "A" hread
  obtain ⟨forms, hforms⟩ := hsplits
  have hwritten : encode "A" = [0x41] := by cbv
  have hlonger : encode "A" ≠ [0xC1, 0x81] := by
    rw [hwritten]
    decide
  exact ⟨hread, forms, hforms, fun hall => hlonger ((hshortest forms hforms).2 hall)⟩

end ModifiedUtf8

end ClassStub
