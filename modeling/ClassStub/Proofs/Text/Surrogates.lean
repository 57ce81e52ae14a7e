import ClassStub.Text.Utf16
import Mathlib

/-!
# Lone surrogates

Whether a surrogate stands alone is a matter of its neighbours: a high one needs a
low one behind it, a low one a high one in front of it (`Utf16.loneAt`).  Reading
takes pairs from the front and never looks back, but it misses a character exactly
where a surrogate stands alone (`Utf16.text?_eq_none_iff`), and its replacement
characters stand at just these places (`Utf16.encode_lossyText`).
-/

namespace ClassStub.Utf16

/-! ## Neighbours -/

/-- The unit in front of a place, where an earlier unit may stand in front of all. -/
def unitBefore (earlier : Option UInt16) (units : List UInt16) : Nat → Option UInt16
  | 0 => earlier
  | place + 1 => units[place]?

/-- A surrogate whose neighbour on the other side of the pair is missing. -/
def isLone (earlier : Option UInt16) (unit : UInt16) (later : Option UInt16) : Bool :=
  isHigh unit && !later.any isLow || isLow unit && !earlier.any isHigh

/-- Whether a surrogate stands alone at a place of units that follow an earlier
one. -/
def loneFrom (earlier : Option UInt16) (units : List UInt16) (place : Nat) : Bool :=
  units[place]?.any fun unit => isLone (unitBefore earlier units place) unit units[place + 1]?

/-- Whether a surrogate stands alone at a place. -/
def loneAt (units : List UInt16) (place : Nat) : Bool :=
  loneFrom none units place

/-- The units with the replacement character in each place where a surrogate stands
alone. -/
def mendedFrom (earlier : Option UInt16) (units : List UInt16) : List UInt16 :=
  units.mapIdx fun place unit => if loneFrom earlier units place then 0xFFFD else unit

/-- Units with a replacement in each place of a lone surrogate. -/
def mended (units : List UInt16) : List UInt16 :=
  mendedFrom none units

variable {earlier : Option UInt16} {unit : UInt16} {units : List UInt16}

theorem loneFrom_zero :
    loneFrom earlier (unit :: units) 0 = isLone earlier unit units.head? := by
  rw [List.head?_eq_getElem?]
  rfl

/-- A place behind the first unit is one of the units behind it. -/
theorem loneFrom_succ (place : Nat) :
    loneFrom earlier (unit :: units) (place + 1) = loneFrom (some unit) units place := by
  cases place <;> rfl

/-- A lone surrogate is the first unit or one of those behind it. -/
theorem exists_loneFrom_cons :
    (∃ place, loneFrom earlier (unit :: units) place) ↔
      isLone earlier unit units.head? ∨ ∃ place, loneFrom (some unit) units place := by
  rw [← loneFrom_zero]
  constructor
  · intro hlone
    obtain ⟨place, hplace⟩ := hlone
    cases place with
    | zero => exact .inl hplace
    | succ place => exact .inr ⟨place, by rwa [← loneFrom_succ]⟩
  · intro hlone
    rcases hlone with hfirst | ⟨place, hplace⟩
    · exact ⟨0, hfirst⟩
    · exact ⟨place + 1, by rwa [loneFrom_succ]⟩

/-- Each unit is replaced if it is lone between its neighbours. -/
theorem mendedFrom_cons :
    mendedFrom earlier (unit :: units) =
      (if isLone earlier unit units.head? then 0xFFFD else unit) ::
        mendedFrom (some unit) units := by
  simp only [mendedFrom, List.mapIdx_cons, loneFrom_zero, loneFrom_succ]

/-- Nothing is replaced where no surrogate is lone. -/
theorem mended_eq_self (hnone : ¬∃ place, loneAt units place) : mended units = units := by
  apply List.ext_getElem?
  intro place
  have hplace : loneFrom none units place = false :=
    Bool.eq_false_iff.2 fun hlone => hnone ⟨place, hlone⟩
  rw [mended, mendedFrom, List.getElem?_mapIdx]
  simp [hplace]

/-! ## Characters of units -/

/-- Numbers that are no surrogates are those of characters. -/
theorem toNat_ofNat_char {value : Nat} (hbasic : value < 0xD800 ∨ 0xE000 ≤ value)
    (hsmall : value < 0x110000) : (Char.ofNat value).toNat = value := by
  rw [Char.toNat_ofNat, if_pos]
  simp only [Nat.isValidChar]
  omega

/-- A pair is the two units of its character. -/
theorem ofChar_paired {high low : UInt16} (hhigh : isHigh high) (hlow : isLow low) :
    ofChar (paired high low) = [high, low] := by
  simp only [isHigh, isLow, Bool.and_eq_true, decide_eq_true_eq] at hhigh hlow
  have hvalue : (paired high low).toNat =
      0x10000 + (high.toNat - 0xD800) * 0x400 + (low.toNat - 0xDC00) :=
    toNat_ofNat_char (.inr (by omega)) (by omega)
  have hhighBack : 0xD800 + (0x10000 + (high.toNat - 0xD800) * 0x400 + (low.toNat - 0xDC00) -
      0x10000) / 0x400 = high.toNat := by
    omega
  have hlowBack : 0xDC00 + (0x10000 + (high.toNat - 0xD800) * 0x400 + (low.toNat - 0xDC00) -
      0x10000) % 0x400 = low.toNat := by
    omega
  rw [ofChar, hvalue, if_neg (by omega), hhighBack, hlowBack, UInt16.ofNat_toNat,
    UInt16.ofNat_toNat]

/-- A unit outside a pair is its character's only one, or is replaced. -/
theorem ofChar_alone (unit : UInt16) :
    ofChar ((alone unit).getD '\uFFFD') = [if isHigh unit || isLow unit then 0xFFFD else unit] := by
  cases hsurrogate : isHigh unit || isLow unit with
  | true =>
    rw [alone, hsurrogate]
    rfl
  | false =>
    have hunit := unit.toNat_lt
    have hbasic := hsurrogate
    simp only [isHigh, isLow, Bool.or_eq_false_iff, Bool.and_eq_false_iff, decide_eq_false_iff_not]
      at hbasic
    have hvalue : (Char.ofNat unit.toNat).toNat = unit.toNat :=
      toNat_ofNat_char (by omega) (by omega)
    rw [alone, hsurrogate, if_neg Bool.false_ne_true, if_neg Bool.false_ne_true, Option.getD_some,
      ofChar, hvalue, if_pos hunit, UInt16.ofNat_toNat]

/-- A unit is a character of its own unless it is a surrogate. -/
theorem alone_eq_none_iff : alone unit = none ↔ isHigh unit || isLow unit := by
  unfold alone
  split
  case isTrue hsurrogate => exact iff_of_true rfl hsurrogate
  case isFalse hcharacter => exact iff_of_false (Option.some_ne_none _) hcharacter

/-- A unit is not both surrogates. -/
theorem not_isLow_of_isHigh (hhigh : isHigh unit) : isLow unit = false := by
  simp only [isHigh, Bool.and_eq_true, decide_eq_true_eq] at hhigh
  simp only [isLow, Bool.and_eq_false_iff, decide_eq_false_iff_not]
  omega

theorem not_isHigh_of_isLow (hlow : isLow unit) : isHigh unit = false := by
  cases hhigh : isHigh unit with
  | false => rfl
  | true => rw [not_isLow_of_isHigh hhigh] at hlow; cases hlow

/-! ## Reading -/

/-- An earlier unit and those behind it that are not the halves of a pair. -/
def Apart (earlier : Option UInt16) (units : List UInt16) : Prop :=
  earlier.any isHigh → ¬units.head?.any isLow

/-- Outside a pair, every surrogate stands alone. -/
theorem isLone_eq (hapart : Apart earlier (unit :: units))
    (hunpaired : Apart (some unit) units) :
    isLone earlier unit units.head? = (isHigh unit || isLow unit) := by
  simp only [Apart, Option.any_some, List.head?_cons] at hapart hunpaired
  unfold isLone
  cases hhigh : isHigh unit with
  | true => simp [hunpaired hhigh, not_isLow_of_isHigh hhigh]
  | false =>
    cases hlow : isLow unit with
    | true =>
      have hbefore : earlier.any isHigh = false :=
        Bool.eq_false_iff.2 fun hbefore => hapart hbefore hlow
      simp [hbefore]
    | false => rfl

/-- A unit outside a pair is read as one character, or as none where it stands
alone. -/
theorem read_alone (hapart : Apart earlier (unit :: units)) (hunpaired : Apart (some unit) units) :
    ofChar ((alone unit).getD '\uFFFD') =
        [if isLone earlier unit units.head? then 0xFFFD else unit] ∧
      (alone unit = none ↔ isLone earlier unit units.head?) := by
  rw [isLone_eq hapart hunpaired]
  exact ⟨ofChar_alone unit, alone_eq_none_iff⟩

/-- A character that was read is kept, and a lone surrogate replaced. -/
theorem encode_lossyText_of_decode {read : Option Char} {rest : List UInt16}
    (hread : decode units = read :: decode rest) :
    encode (lossyText units) = ofChar (read.getD '\uFFFD') ++ encode (lossyText rest) := by
  rw [lossyText, hread, List.map_cons, encode, List.flatMap_cons]
  rfl

/-- Reading replaces and misses just the surrogates that stand alone.  The induction
is along the reading, which goes on behind a pair or behind one unit. -/
theorem encode_lossyText_from (hapart : Apart earlier units) :
    encode (lossyText units) = mendedFrom earlier units ∧
      (none ∈ decode units ↔ ∃ place, loneFrom earlier units place) := by
  induction units using decode.induct generalizing earlier with
  | case1 => simp [decode, lossyText, encode, mendedFrom, loneFrom]
  | case2 unit =>
    have hunpaired : Apart (some unit) [] := by simp [Apart]
    obtain ⟨hchar, hnone⟩ := read_alone hapart hunpaired
    have hread : decode [unit] = alone unit :: decode [] := rfl
    constructor
    · rw [mendedFrom_cons, encode_lossyText_of_decode hread, hchar]
      rfl
    · rw [exists_loneFrom_cons, hread, ← hnone]
      simp [decode, loneFrom, eq_comm]
  | case3 high low rest hpair ih =>
    obtain ⟨hhigh, hlow⟩ := Bool.and_eq_true_iff.1 hpair
    -- Neither half of a pair is alone, and behind a low half nothing is paired with it.
    have hbehind : Apart (some low) rest := by
      intro hhighToo
      rw [Option.any_some, not_isHigh_of_isLow hlow] at hhighToo
      cases hhighToo
    obtain ⟨hmended, hlone⟩ := ih hbehind
    have hread : decode (high :: low :: rest) = some (paired high low) :: decode rest := by
      rw [decode, if_pos hpair]
    have hfirst : isLone earlier high (low :: rest).head? = false := by
      simp [isLone, hlow, not_isLow_of_isHigh hhigh]
    have hsecond : isLone (some high) low rest.head? = false := by
      simp [isLone, hhigh, not_isHigh_of_isLow hlow]
    constructor
    · rw [mendedFrom_cons, mendedFrom_cons, encode_lossyText_of_decode hread, Option.getD_some,
        ofChar_paired hhigh hlow, hfirst, hsecond, hmended]
      rfl
    · rw [exists_loneFrom_cons, exists_loneFrom_cons, hread, hfirst, hsecond, ← hlone]
      simp
  | case4 high low rest hpair ih =>
    -- The second unit is read again, and may start a pair that the first one is not part of.
    have hunpaired : Apart (some high) (low :: rest) := by
      simpa [Apart] using hpair
    obtain ⟨hchar, hnone⟩ := read_alone hapart hunpaired
    obtain ⟨hmended, hlone⟩ := ih hunpaired
    have hread : decode (high :: low :: rest) = alone high :: decode (low :: rest) := by
      rw [decode, if_neg hpair]
    constructor
    · rw [mendedFrom_cons, encode_lossyText_of_decode hread, hchar, hmended]
      rfl
    · rw [exists_loneFrom_cons, hread, List.mem_cons, ← hnone, ← hlone, eq_comm]

/-- **Replacement.**  The text that is always readable has one replacement character
for each surrogate that stands alone, and all other units as they were. -/
theorem encode_lossyText (units : List UInt16) : encode (lossyText units) = mended units :=
  (encode_lossyText_from (by simp [Apart])).1

/-- A high surrogate in front of a letter is replaced, and the pair behind it is kept. -/
example : encode (lossyText [0xD83D, 0x41, 0xD83D, 0xDE00]) = [0xFFFD, 0x41, 0xD83D, 0xDE00] := by
  cbv

/-- A text is fully readable unless a surrogate stands alone. -/
theorem text?_eq_none_iff : text? units = none ↔ ∃ place, loneAt units place := by
  have hmissing : none ∈ decode units ↔ ∃ place, loneAt units place :=
    (encode_lossyText_from (by simp [Apart])).2
  rw [← hmissing]
  constructor
  · intro hnone
    by_contra hall
    have hread : decode units = (lossyText units).map some := by
      rw [lossyText, List.map_map]
      apply (List.map_id _).symm.trans
      apply List.map_congr_left
      intro read hread
      cases read with
      | none => exact absurd hread hall
      | some char => rfl
    rw [text?_eq_some_iff.2 hread] at hnone
    cases hnone
  · intro hlone
    cases htext : text? units with
    | none => rfl
    | some text =>
      rw [text?_eq_some_iff.1 htext] at hlone
      simp at hlone

/-- What is fully readable has the units of its text. -/
theorem encode_of_text? {text : List Char} (htext : text? units = some text) :
    encode text = units := by
  have hread := text?_eq_some_iff.1 htext
  have hlossy : lossyText units = text := by
    rw [lossyText, hread, List.map_map]
    simp
  have hnone : ¬∃ place, loneAt units place := by
    rw [← text?_eq_none_iff, htext]
    exact Option.some_ne_none text
  rw [← hlossy, encode_lossyText, mended_eq_self hnone]

end ClassStub.Utf16
