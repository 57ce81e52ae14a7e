/-!
# UTF-16 units

A character of the basic plane is one 16-bit unit, any other character a high
surrogate followed by a low one.  A sequence of units may also hold surrogates
that stand alone; reading keeps their places as missing characters, so a text
is fully readable exactly when no place is missing.  Reading undoes writing
(`decode_encode`).
-/

namespace ClassStub.Utf16

/-- The units of one character: itself, or a high and a low surrogate. -/
def ofChar (char : Char) : List UInt16 :=
  if char.toNat < 0x10000 then
    [UInt16.ofNat char.toNat]
  else
    [UInt16.ofNat (0xD800 + (char.toNat - 0x10000) / 0x400),
      UInt16.ofNat (0xDC00 + (char.toNat - 0x10000) % 0x400)]

def encode (text : List Char) : List UInt16 :=
  text.flatMap ofChar

/-- High surrogates open a pair. -/
def isHigh (unit : UInt16) : Bool :=
  0xD800 ≤ unit.toNat && unit.toNat < 0xDC00

/-- Low surrogates close a pair. -/
def isLow (unit : UInt16) : Bool :=
  0xDC00 ≤ unit.toNat && unit.toNat < 0xE000

/-- The character of a unit that stands alone, absent for a surrogate. -/
def alone (unit : UInt16) : Option Char :=
  if isHigh unit || isLow unit then none else some (Char.ofNat unit.toNat)

/-- The character that a surrogate pair stands for. -/
def paired (high low : UInt16) : Char :=
  Char.ofNat (0x10000 + (high.toNat - 0xD800) * 0x400 + (low.toNat - 0xDC00))

/-- The characters of a sequence of units, with a missing character for each
surrogate outside a pair. -/
def decode : List UInt16 → List (Option Char)
  | [] => []
  | [unit] => [alone unit]
  | high :: low :: rest =>
    if isHigh high && isLow low then
      some (paired high low) :: decode rest
    else
      alone high :: decode (low :: rest)

/-- The text of a sequence of units, absent if a surrogate stands alone. -/
def text? (units : List UInt16) : Option (List Char) :=
  (decode units).mapM id

/-- The text of a sequence of units, with the replacement character in place of
each surrogate that stands alone. -/
def lossyText (units : List UInt16) : List Char :=
  (decode units).map fun char => char.getD '\uFFFD'

private theorem decode_ofChar_append (char : Char) (rest : List UInt16) :
    decode (ofChar char ++ rest) = some char :: decode rest := by
  have hvalid : char.toNat < 0xD800 ∨ 0xDFFF < char.toNat ∧ char.toNat < 0x110000 := char.valid
  unfold ofChar
  split
  case isTrue hbasic =>
    have hunit : (UInt16.ofNat char.toNat).toNat = char.toNat := by
      rw [UInt16.toNat_ofNat']
      omega
    have halone : alone (UInt16.ofNat char.toNat) = some char := by
      simp only [alone, isHigh, isLow, hunit, Char.ofNat_toNat]
      rw [if_neg]
      simp
      omega
    have hnotHigh : isHigh (UInt16.ofNat char.toNat) = false := by
      simp only [isHigh, hunit]
      simp
      omega
    cases rest with
    | nil => simp [decode, halone]
    | cons next rest => simp [decode, hnotHigh, halone]
  case isFalse hbeyond =>
    have hhigh : (UInt16.ofNat (0xD800 + (char.toNat - 0x10000) / 0x400)).toNat =
        0xD800 + (char.toNat - 0x10000) / 0x400 := by
      rw [UInt16.toNat_ofNat']
      omega
    have hlow : (UInt16.ofNat (0xDC00 + (char.toNat - 0x10000) % 0x400)).toNat =
        0xDC00 + (char.toNat - 0x10000) % 0x400 := by
      rw [UInt16.toNat_ofNat']
      omega
    have hpair : 0x10000 + (0xD800 + (char.toNat - 0x10000) / 0x400 - 0xD800) * 0x400 +
        (0xDC00 + (char.toNat - 0x10000) % 0x400 - 0xDC00) = char.toNat := by
      omega
    simp only [List.cons_append, List.nil_append, decode, isHigh, isLow, paired, hhigh, hlow,
      hpair, Char.ofNat_toNat]
    rw [if_pos]
    simp
    omega

/-- Reading the units of a text gives its characters, none missing. -/
theorem decode_encode (text : List Char) : decode (encode text) = text.map some := by
  induction text with
  | nil => rfl
  | cons char text ih =>
    simpa [encode, decode_ofChar_append] using ih

theorem mapM_id_eq_some_iff {α : Type} {items : List (Option α)} {values : List α} :
    items.mapM id = some values ↔ items = values.map some := by
  induction items generalizing values with
  | nil => cases values <;> simp
  | cons item items ih =>
    simp only [List.mapM_cons, id_eq, Option.bind_eq_bind, Option.bind_eq_some_iff, ih,
      Option.pure_def, Option.some.injEq]
    constructor
    · intro hitems
      obtain ⟨value, rfl, more, rfl, rfl⟩ := hitems
      rfl
    · intro hitems
      cases values with
      | nil => cases hitems
      | cons value values =>
        obtain ⟨rfl, rfl⟩ := List.cons.inj hitems
        exact ⟨value, rfl, values, rfl, rfl⟩

theorem text?_eq_some_iff {units : List UInt16} {text : List Char} :
    text? units = some text ↔ decode units = text.map some :=
  mapM_id_eq_some_iff

end ClassStub.Utf16
