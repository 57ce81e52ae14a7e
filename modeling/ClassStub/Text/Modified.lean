import ClassStub.Text.Utf16

/-!
# Modified UTF-8

The text form of class data writes each UTF-16 unit on its own: units `0x01` to
`0x7F` as one byte, NUL and the units up to `0x7FF` as two, all others as three.
Neither a zero byte nor a byte from `0xF0` on ever occurs.  Reading accepts any
sequence of well-formed units, also surrogates that stand alone and units
written longer than needed.

Text constants are therefore kept as their bytes (`JavaText`): equal bytes are
the same constant, and the characters are derived from them.
-/

namespace ClassStub

namespace ModifiedUtf8

/-- The bytes of one unit, in the shortest form; NUL takes two bytes. -/
def encodeUnit (unit : UInt16) : List UInt8 :=
  let value := unit.toNat
  if 0 < value ∧ value < 0x80 then
    [UInt8.ofNat value]
  else if value < 0x800 then
    [UInt8.ofNat (0xC0 + value / 0x40), UInt8.ofNat (0x80 + value % 0x40)]
  else
    [UInt8.ofNat (0xE0 + value / 0x1000), UInt8.ofNat (0x80 + value / 0x40 % 0x40),
      UInt8.ofNat (0x80 + value % 0x40)]

def encodeUnits (units : List UInt16) : List UInt8 :=
  units.flatMap encodeUnit

def encode (text : String) : List UInt8 :=
  encodeUnits (Utf16.encode text.toList)

/-- Continuation bytes have the form `10xxxxxx`. -/
def isContinuation (byte : UInt8) : Bool :=
  0x80 ≤ byte.toNat && byte.toNat < 0xC0

/-- The payload of a byte below its leading bits, which has `size` possible
values. -/
def payload (size : Nat) (byte : UInt8) : Nat :=
  byte.toNat % size

/-- The units that bytes stand for, absent where the bytes are malformed. -/
def units? : List UInt8 → Option (List UInt16)
  | [] => some []
  | first :: rest =>
    if first.toNat < 0x80 then
      if first.toNat = 0 then none
      else (units? rest).map (UInt16.ofNat first.toNat :: ·)
    else if 0xC0 ≤ first.toNat ∧ first.toNat < 0xE0 then
      match rest with
      | second :: rest =>
        if isContinuation second then
          (units? rest).map
            (UInt16.ofNat (payload 0x20 first * 0x40 + payload 0x40 second) :: ·)
        else none
      | [] => none
    else if 0xE0 ≤ first.toNat ∧ first.toNat < 0xF0 then
      match rest with
      | second :: third :: rest =>
        if isContinuation second && isContinuation third then
          (units? rest).map
            (UInt16.ofNat
              (payload 0x10 first * 0x1000 + payload 0x40 second * 0x40 + payload 0x40 third) :: ·)
        else none
      | _ => none
    else none

/-- The text that bytes stand for, absent where the bytes are malformed or a
surrogate stands alone. -/
def decode? (bytes : List UInt8) : Option String :=
  ((units? bytes).bind Utf16.text?).map String.ofList

/-- A unit in front of well-formed bytes is read first. -/
theorem units?_encodeUnit_append (unit : UInt16) (rest : List UInt8) :
    units? (encodeUnit unit ++ rest) = (units? rest).map (unit :: ·) := by
  have hunit : unit.toNat < 0x10000 := unit.toNat_lt
  unfold encodeUnit
  simp only
  split
  case isTrue hone =>
    have hbyte : (UInt8.ofNat unit.toNat).toNat = unit.toNat := by
      rw [UInt8.toNat_ofNat']
      omega
    rw [List.cons_append, List.nil_append, units?.eq_def]
    simp only [hbyte, UInt16.ofNat_toNat]
    rw [if_pos hone.2, if_neg (by omega)]
  case isFalse hnotOne =>
    have hlast : (UInt8.ofNat (0x80 + unit.toNat % 0x40)).toNat = 0x80 + unit.toNat % 0x40 := by
      rw [UInt8.toNat_ofNat']
      omega
    split
    case isTrue htwo =>
      have hfirst : (UInt8.ofNat (0xC0 + unit.toNat / 0x40)).toNat =
          0xC0 + unit.toNat / 0x40 := by
        rw [UInt8.toNat_ofNat']
        omega
      have hvalue : (0xC0 + unit.toNat / 0x40) % 0x20 * 0x40 +
          (0x80 + unit.toNat % 0x40) % 0x40 = unit.toNat := by
        omega
      simp only [List.cons_append, List.nil_append, units?, isContinuation, payload, hfirst, hlast,
        hvalue, UInt16.ofNat_toNat]
      rw [if_neg (by omega), if_pos (by omega), if_pos]
      simp
      omega
    case isFalse hnotTwo =>
      have hfirst : (UInt8.ofNat (0xE0 + unit.toNat / 0x1000)).toNat =
          0xE0 + unit.toNat / 0x1000 := by
        rw [UInt8.toNat_ofNat']
        omega
      have hsecond : (UInt8.ofNat (0x80 + unit.toNat / 0x40 % 0x40)).toNat =
          0x80 + unit.toNat / 0x40 % 0x40 := by
        rw [UInt8.toNat_ofNat']
        omega
      have hvalue : (0xE0 + unit.toNat / 0x1000) % 0x10 * 0x1000 +
          (0x80 + unit.toNat / 0x40 % 0x40) % 0x40 * 0x40 +
          (0x80 + unit.toNat % 0x40) % 0x40 = unit.toNat := by
        omega
      simp only [List.cons_append, List.nil_append, units?, isContinuation, payload, hfirst,
        hsecond, hlast, hvalue, UInt16.ofNat_toNat]
      rw [if_neg (by omega), if_neg (by omega), if_pos (by omega), if_pos]
      simp
      omega

/-- Reading written units gives them back. -/
theorem units?_encodeUnits (units : List UInt16) : units? (encodeUnits units) = some units := by
  induction units with
  | nil => rfl
  | cons unit units ih =>
    rw [encodeUnits, List.flatMap_cons, units?_encodeUnit_append]
    rw [encodeUnits] at ih
    simp [ih]

end ModifiedUtf8

/-- A text constant: bytes that are well-formed modified UTF-8. -/
structure JavaText where
  bytes : List UInt8
  wellFormed : (ModifiedUtf8.units? bytes).isSome
  deriving DecidableEq

namespace JavaText

instance : Hashable JavaText where
  hash text := hash text.bytes

/-- Texts are ordered as their bytes are. -/
instance : Ord JavaText where
  compare first second := compareOn bytes first second

/-- The text constant with the given bytes, absent where they are malformed. -/
def ofBytes? (bytes : List UInt8) : Option JavaText :=
  if wellFormed : (ModifiedUtf8.units? bytes).isSome then
    some { bytes, wellFormed }
  else
    none

/-- The text constant that stands for a text. -/
def ofString (text : String) : JavaText where
  bytes := ModifiedUtf8.encode text
  wellFormed := by simp [ModifiedUtf8.encode, ModifiedUtf8.units?_encodeUnits]

/-- The UTF-16 units of a text constant. -/
def units (text : JavaText) : List UInt16 :=
  (ModifiedUtf8.units? text.bytes).get text.wellFormed

/-- The characters of a text constant, absent if a surrogate stands alone. -/
def toString? (text : JavaText) : Option String :=
  (Utf16.text? text.units).map String.ofList

/-- The characters of a text constant, each lone surrogate replaced. -/
def toReadable (text : JavaText) : String :=
  String.ofList (Utf16.lossyText text.units)

end JavaText

end ClassStub
