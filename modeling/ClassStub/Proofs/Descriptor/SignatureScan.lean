import ClassStub.Descriptor.Signature
import ClassStub.Proofs.Descriptor.ByteScan

/-!
# Scanning signatures byte by byte

A scanner of signatures that sees bytes and remembers an offset, which it moves
forward one byte at a time.  It collects the classes of a text without building a
tree.  Nothing but the text bounds its recursion, and its loops run until they meet
a closing byte, which a malformed text may not hold.  So it is given as what it does
within each depth of recursion, loops included, where it may not have ended yet; it
ends if it does so within every depth from some on (`Scan.Ends`).  What a loop
repeats either fails or passes over a byte, so every loop ends, whatever the text
and wherever the scanner stands (`SignatureScanner.typesEnd`,
`SignatureScanner.endsFrom_upTo`).

A slice that starts or ends within a character is a fault of its own
(`ScanFault.severed`); that there is none takes the characters of the text.
-/

namespace ClassStub

/-- Where a scanner stands in a text, and the classes that it has met. -/
structure ScanState where
  offset : Nat
  classes : List String

/-- Why a scan is given up. -/
inductive ScanFault where
  /-- The text is malformed at an offset. -/
  | malformed (offset : Nat)
  /-- A slice of the text does not start and end between two characters. -/
  | severed (range : ByteRange)

/-- What a part of a scan does within a depth.  It may change the state also where it
is given up, and it may not have ended yet. -/
abbrev Scan (α : Type) := ExceptT ScanFault (StateT ScanState Option) α

namespace Scan

variable {α β : Type}

/-- How a scan ends and in which state, if it has ended. -/
def runFrom (scan : Scan α) (before : ScanState) : Option (Except ScanFault α × ScanState) :=
  (ExceptT.run scan).run before

/-- Two parts end as the second one does, from where the first one has ended. -/
theorem runFrom_bind (first : Scan α) (next : α → Scan β) (before : ScanState) :
    runFrom (first >>= next) before =
      match runFrom first before with
      | none => none
      | some (.ok value, after) => runFrom (next value) after
      | some (.error fault, after) => some (.error fault, after) := by
  change Option.bind (runFrom first before) _ = _
  rcases runFrom first before with _ | ⟨_ | _, _⟩ <;> rfl

/-- Not to have ended within the depth. -/
def unfinished : Scan α := fun _ => none

/-- A scan that starts in a state ends: so it does within every depth from some on. -/
def Ends (scan : Nat → Scan α) (before : ScanState) (outcome : Except ScanFault α)
    (after : ScanState) : Prop :=
  ∃ bound, ∀ depth, bound ≤ depth → runFrom (scan depth) before = some (outcome, after)

section

variable {scan first : Nat → Scan α} {next : Nat → α → Scan β}
  {before middle after last : ScanState} {outcome other : Except ScanFault α}

/-- A scan ends in one way only. -/
theorem Ends.unique (hends : Ends scan before outcome after)
    (hother : Ends scan before other last) : outcome = other ∧ after = last := by
  obtain ⟨bound, hends⟩ := hends
  obtain ⟨limit, hother⟩ := hother
  have hsame := (hends (max bound limit) (Nat.le_max_left _ _)).symm.trans
    (hother (max bound limit) (Nat.le_max_right _ _))
  rwa [Option.some_inj, Prod.mk.injEq] at hsame

/-- What ends within every depth ends. -/
theorem ends_of_forall (hscan : ∀ depth, runFrom (scan depth) before = some (outcome, after)) :
    Ends scan before outcome after :=
  ⟨0, fun depth _ => hscan depth⟩

/-- A call takes one more depth than what it does. -/
theorem Ends.deeper (hscan : Ends (fun depth => scan (depth + 1)) before outcome after) :
    Ends scan before outcome after := by
  obtain ⟨bound, hscan⟩ := hscan
  refine ⟨bound + 1, fun depth hdepth => ?_⟩
  obtain ⟨more, rfl⟩ := Nat.exists_eq_add_of_le hdepth
  rw [Nat.add_right_comm]
  exact hscan (bound + more) (Nat.le_add_right _ _)

/-- If both parts end, one behind the other does. -/
theorem Ends.bind {value : α} {outcome : Except ScanFault β}
    (hfirst : Ends first before (.ok value) middle)
    (hnext : Ends (fun depth => next depth value) middle outcome after) :
    Ends (fun depth => first depth >>= next depth) before outcome after := by
  obtain ⟨bound, hfirst⟩ := hfirst
  obtain ⟨limit, hnext⟩ := hnext
  refine ⟨max bound limit, fun depth hdepth => ?_⟩
  rw [runFrom_bind, hfirst depth (Nat.le_trans (Nat.le_max_left _ _) hdepth)]
  exact hnext depth (Nat.le_trans (Nat.le_max_right _ _) hdepth)

/-- A first part that is given up ends the scan. -/
theorem Ends.bind_error {fault : ScanFault} (hfirst : Ends first before (.error fault) after) :
    Ends (fun depth => first depth >>= next depth) before (.error fault) after := by
  obtain ⟨bound, hfirst⟩ := hfirst
  refine ⟨bound, fun depth hdepth => ?_⟩
  rw [runFrom_bind, hfirst depth hdepth]

end

end Scan

namespace SignatureScanner

variable (text : String)

/-! ## The scanner -/

/-- The byte at an offset, if this is inside the text. -/
def byteAt (offset : Nat) : Option UInt8 :=
  text.toByteArray.data.toList[offset]?

/-- The byte ahead. -/
def peek : Scan (Option UInt8) := do
  return byteAt text (← get).offset

variable {text} in
/-- Looking at the byte ahead changes nothing. -/
theorem runFrom_peek_bind {α : Type} (next : Option UInt8 → Scan α) (before : ScanState) :
    (peek text >>= next).runFrom before = (next (byteAt text before.offset)).runFrom before := rfl

/-- Moves on by one byte. -/
def advance : Scan Unit :=
  modify fun state => { state with offset := state.offset + 1 }

/-- Gives up where the scanner stands. -/
def fail {α : Type} : Scan α := do
  throw (.malformed (← get).offset)

/-- Moves on by the byte of a character, and fails at any other. -/
def expect (letter : Char) : Scan Unit := do
  if (← peek text) = some letter.toUInt8 then advance else fail

/-- The part of the text in a range. -/
def slice (range : ByteRange) : Scan String :=
  if range.start ≤ range.stop ∧ String.Pos.Raw.isValid text ⟨range.start⟩ ∧
      String.Pos.Raw.isValid text ⟨range.stop⟩ then
    return String.Pos.Raw.extract text ⟨range.start⟩ ⟨range.stop⟩
  else
    throw (.severed range)

/-- The characters that structure a signature. -/
def delimiters : List Char := ['<', '>', ';', ':', '.']

/-- Moves to the first of the given stops, and fails at any other delimiter. -/
def skipName (stops : List Char) : Nat → Scan Unit
  | 0 => Scan.unfinished
  | depth + 1 => do
    match ← peek text with
    | none => return
    | some byte =>
      if byte ∈ stops.map Char.toUInt8 then
        return
      else if byte ∈ delimiters.map Char.toUInt8 then
        fail
      else
        advance
        skipName stops depth

/-- Scans an identifier, which is not empty and does not go up to the end. -/
def identifier (stops : List Char) (depth : Nat) : Scan String := do
  let start := (← get).offset
  skipName text stops depth
  let stop := (← get).offset
  if stop = start ∨ (← peek text) = none then
    fail
  else
    slice text { start, stop }

/-- Scans an identifier and the character that closes it. -/
def closedIdentifier (stop : Char) (depth : Nat) : Scan Unit := do
  let _ ← identifier text [stop] depth
  expect text stop

/-- The classes that have been met, with one that is met now. -/
def meet (classes : List String) (name : String) : List String :=
  if name ∈ classes then classes else classes ++ [name]

/-- Scans the name of an outer class. -/
def outerName (depth : Nat) : Scan Unit := do
  let name ← identifier text SignatureReader.classNameStops depth
  modify fun state => { state with classes := meet state.classes name }

mutual

/-- Scans a type. -/
def javaType : Nat → Scan Unit
  | 0 => Scan.unfinished
  | depth + 1 => do
    let ahead ← peek text
    if Primitive.all.any fun type => some type.letter.toUInt8 == ahead then
      advance
    else
      referenceType depth

def referenceType : Nat → Scan Unit
  | 0 => Scan.unfinished
  | depth + 1 => do
    let ahead ← peek text
    if ahead = some 'L'.toUInt8 then
      classType depth
    else if ahead = some 'T'.toUInt8 then
      advance
      closedIdentifier text ';' depth
    else if ahead = some '['.toUInt8 then
      advance
      javaType depth
    else
      fail

/-- Scans a class with its type arguments and member classes. -/
def classType : Nat → Scan Unit
  | 0 => Scan.unfinished
  | depth + 1 => do
    expect text 'L'
    outerName text depth
    classTail depth

/-- Scans what follows the outer name of a class type, up to its `;`. -/
def classTail : Nat → Scan Unit
  | 0 => Scan.unfinished
  | depth + 1 => do
    let ahead ← peek text
    if ahead = some '<'.toUInt8 then
      typeArguments depth
      classTail depth
    else if ahead = some '.'.toUInt8 then
      advance
      let _ ← identifier text SignatureReader.classNameStops depth
      classTail depth
    else if ahead = some ';'.toUInt8 then
      advance
    else
      fail

/-- Scans type arguments in their brackets, which are not empty. -/
def typeArguments : Nat → Scan Unit
  | 0 => Scan.unfinished
  | depth + 1 => do
    expect text '<'
    if (← peek text) = some '>'.toUInt8 then
      fail
    else
      argumentList depth

/-- Scans type arguments up to the closing bracket. -/
def argumentList : Nat → Scan Unit
  | 0 => Scan.unfinished
  | depth + 1 => do
    let ahead ← peek text
    if ahead = some '>'.toUInt8 then
      advance
    else if ahead = some '*'.toUInt8 then
      advance
      argumentList depth
    else if ahead = some '+'.toUInt8 ∨ ahead = some '-'.toUInt8 then
      advance
      referenceType depth
      argumentList depth
    else
      referenceType depth
      argumentList depth

end

/-- Scans items as long as the byte ahead tells to. -/
def repeatWhile (continues : Option UInt8 → Bool) (item : Nat → Scan Unit) : Nat → Scan Unit
  | 0 => Scan.unfinished
  | depth + 1 => do
    if continues (← peek text) then
      item depth
      repeatWhile continues item depth
    else
      return

/-- Scans reference types that each follow the same mark. -/
def marked (mark : Char) : Nat → Scan Unit :=
  repeatWhile text (fun ahead => ahead == some mark.toUInt8) fun depth => do
    advance
    referenceType text depth

/-- Scans items up to a closing character. -/
def upTo (closing : Char) (item : Nat → Scan Unit) : Nat → Scan Unit
  | 0 => Scan.unfinished
  | depth + 1 => do
    if (← peek text) = some closing.toUInt8 then
      advance
    else
      item depth
      upTo closing item depth

/-- Scans the class bound of a type parameter, if there is one. -/
def classBound (depth : Nat) : Scan Unit := do
  let ahead ← peek text
  if ['L', 'T', '['].any fun letter => ahead == some letter.toUInt8 then
    referenceType text depth
  else
    return

/-- Scans a type parameter with its bounds. -/
def typeParameter (depth : Nat) : Scan Unit := do
  closedIdentifier text ':' depth
  classBound text depth
  marked text ':' depth

/-- Scans type parameters in their brackets. -/
def typeParameters (depth : Nat) : Scan Unit := do
  expect text '<'
  upTo text '>' (typeParameter text) depth

def result (depth : Nat) : Scan Unit := do
  if (← peek text) = some 'V'.toUInt8 then advance else javaType text depth

/-- Scans what follows the type parameters: a method, or types up to the end. -/
def body (depth : Nat) : Scan Unit := do
  let ahead ← peek text
  if ahead = some '('.toUInt8 then
    advance
    upTo text ')' (javaType text) depth
    result text depth
    marked text '^' depth
  else if ahead = none then
    fail
  else
    repeatWhile text Option.isSome (javaType text) depth

/-- Scans type parameters, if there are any. -/
def header (depth : Nat) : Scan Unit := do
  if (← peek text) = some '<'.toUInt8 then typeParameters text depth else return

/-- Scans a signature or a descriptor. -/
def declaration (depth : Nat) : Scan Unit := do
  header text depth
  body text depth

/-- Scans a whole text for the classes that it refers to. -/
def scan (depth : Nat) : Scan (List String) := do
  declaration text depth
  let last ← get
  if last.offset = text.utf8ByteSize then return last.classes else fail

/-! ## Progress -/

/-- How far a scan got: never backwards, never beyond the end of the text unless it
started there, and over so many bytes if it succeeded. -/
structure Progress {α : Type} (least : Nat) (before : ScanState) (outcome : Except ScanFault α)
    (after : ScanState) : Prop where
  forward : before.offset ≤ after.offset
  within : after.offset ≤ max before.offset text.utf8ByteSize
  passed : ∀ value, outcome = .ok value → before.offset + least ≤ after.offset

/-- A scan that starts in a state ends, and makes progress if it succeeds. -/
def EndsFrom {α : Type} (least : Nat) (scan : Nat → Scan α) (before : ScanState) : Prop :=
  ∃ outcome after, Scan.Ends scan before outcome after ∧ Progress text least before outcome after

section

variable {text} {α β : Type} {least : Nat} {before : ScanState}

/-- Where a byte is, the text has not ended. -/
theorem lt_of_byteAt {offset : Nat} {byte : UInt8} (hbyte : byteAt text offset = some byte) :
    offset < text.utf8ByteSize := by
  obtain ⟨hlt, -⟩ := List.getElem?_eq_some_iff.1 hbyte
  rwa [← encoded_toList, length_encoded, utf8Length_toList] at hlt

theorem endsFrom_pure (value : α) : EndsFrom text 0 (fun _ => pure value) before :=
  ⟨.ok value, before, Scan.ends_of_forall fun _ => rfl,
    Nat.le_refl _, Nat.le_max_left _ _, fun _ _ => Nat.le_refl _⟩

theorem endsFrom_throw (fault : ScanFault) :
    EndsFrom text least (fun _ => (throw fault : Scan α)) before :=
  ⟨.error fault, before, Scan.ends_of_forall fun _ => rfl,
    Nat.le_refl _, Nat.le_max_left _ _, fun _ hvalue => nomatch hvalue⟩

theorem endsFrom_fail : EndsFrom text least (fun _ => (fail : Scan α)) before :=
  ⟨.error _, before, Scan.ends_of_forall fun _ => rfl,
    Nat.le_refl _, Nat.le_max_left _ _, fun _ hvalue => nomatch hvalue⟩

/-- Remembering something leaves the scan where it is. -/
theorem endsFrom_modify {change : ScanState → ScanState}
    (hchange : (change before).offset = before.offset) :
    EndsFrom text 0 (fun _ => (modify change : Scan Unit)) before :=
  ⟨.ok (), change before, Scan.ends_of_forall fun _ => rfl, Nat.le_of_eq hchange.symm,
    hchange ▸ Nat.le_max_left _ _, fun _ _ => Nat.le_of_eq hchange.symm⟩

/-- Before the end of a text, moving on by a byte is progress. -/
theorem endsFrom_advance (hbefore : before.offset < text.utf8ByteSize) :
    EndsFrom text 1 (fun _ => advance) before :=
  ⟨.ok (), { before with offset := before.offset + 1 }, Scan.ends_of_forall fun _ => rfl,
    Nat.le_succ _, Nat.le_trans hbefore (Nat.le_max_right _ _), fun _ _ => Nat.le_refl _⟩

/-- What depends on the state ends if it does so in the given one. -/
theorem EndsFrom.get {next : Nat → ScanState → Scan β}
    (hnext : EndsFrom text least (fun depth => next depth before) before) :
    EndsFrom text least (fun depth => get >>= next depth) before :=
  hnext

/-- What depends on the byte ahead ends if it does so for the given one. -/
theorem EndsFrom.peek {next : Nat → Option UInt8 → Scan β}
    (hnext : EndsFrom text least (fun depth => next depth (byteAt text before.offset)) before) :
    EndsFrom text least (fun depth => peek text >>= next depth) before :=
  hnext

/-- A case distinction ends if each of its branches does. -/
theorem EndsFrom.ite {condition : Prop} [Decidable condition] {first second : Nat → Scan α}
    (hfirst : condition → EndsFrom text least first before)
    (hsecond : ¬condition → EndsFrom text least second before) :
    EndsFrom text least (fun depth => if condition then first depth else second depth) before := by
  by_cases hcondition : condition
  · simpa only [if_pos hcondition] using hfirst hcondition
  · simpa only [if_neg hcondition] using hsecond hcondition

/-- A call takes one more depth than what it does. -/
theorem EndsFrom.deeper {scan : Nat → Scan α}
    (hscan : EndsFrom text least (fun depth => scan (depth + 1)) before) :
    EndsFrom text least scan before := by
  obtain ⟨outcome, after, hends, hprogress⟩ := hscan
  exact ⟨outcome, after, hends.deeper, hprogress⟩

/-- What the first of two parts lacks in progress, the second has to make. -/
theorem EndsFrom.bind {total : Nat} {first : Nat → Scan α} {next : Nat → α → Scan β}
    (hfirst : EndsFrom text least first before)
    (hnext : ∀ value after, before.offset + least ≤ after.offset →
      after.offset ≤ max before.offset text.utf8ByteSize →
      EndsFrom text (before.offset + total - after.offset) (fun depth => next depth value) after) :
    EndsFrom text total (fun depth => first depth >>= next depth) before := by
  obtain ⟨outcome, middle, hends, hmiddle⟩ := hfirst
  have hforward := hmiddle.forward
  cases outcome with
  | error fault =>
    exact ⟨.error fault, middle, hends.bind_error, hforward, hmiddle.within,
      fun _ hvalue => nomatch hvalue⟩
  | ok value =>
    obtain ⟨outcome, after, hafter, hlast⟩ :=
      hnext value middle (hmiddle.passed value rfl) hmiddle.within
    refine ⟨outcome, after, hends.bind hafter, Nat.le_trans hforward hlast.forward, ?_,
      fun value hvalue => ?_⟩
    · exact Nat.le_trans hlast.within (Nat.max_le.2 ⟨hmiddle.within, Nat.le_max_right _ _⟩)
    · have hpassed := hlast.passed value hvalue
      omega

/-- What makes progress also ends without asking for any. -/
theorem EndsFrom.weaken {scan : Nat → Scan α} (hscan : EndsFrom text least scan before) :
    EndsFrom text 0 scan before := by
  obtain ⟨outcome, after, hends, hprogress⟩ := hscan
  exact ⟨outcome, after, hends, hprogress.forward, hprogress.within, fun _ _ => hprogress.forward⟩

/-- Where the first of two parts makes the progress, the second may make none. -/
theorem EndsFrom.andThen {first : Nat → Scan α} {next : Nat → α → Scan β}
    (hfirst : EndsFrom text least first before)
    (hnext : ∀ value after, before.offset + least ≤ after.offset →
      after.offset ≤ max before.offset text.utf8ByteSize →
      EndsFrom text 0 (fun depth => next depth value) after) :
    EndsFrom text least (fun depth => first depth >>= next depth) before := by
  refine hfirst.bind fun value after hpassed hwithin => ?_
  rw [Nat.sub_eq_zero_of_le hpassed]
  exact hnext value after hpassed hwithin

end

/-- An expected character is progress. -/
theorem endsFrom_expect (letter : Char) (before : ScanState) :
    EndsFrom text 1 (fun _ => expect text letter) before := by
  simp only [expect]
  refine EndsFrom.peek (EndsFrom.ite (fun hahead => ?_) fun _ => endsFrom_fail)
  exact endsFrom_advance (lt_of_byteAt hahead)

/-! ### Identifiers -/

/-- A name ends at the end of the text at last. -/
theorem endsFrom_skipName (stops : List Char) (before : ScanState) :
    EndsFrom text 0 (skipName text stops) before := by
  induction hroom : text.utf8ByteSize - before.offset using Nat.strongRecOn generalizing before with
  | ind room ih =>
    refine EndsFrom.deeper ?_
    simp only [skipName]
    refine EndsFrom.peek ?_
    cases hbyte : byteAt text before.offset with
    | none => exact endsFrom_pure ()
    | some byte =>
      have hbefore := lt_of_byteAt hbyte
      refine EndsFrom.ite (fun _ => endsFrom_pure ()) fun _ => ?_
      refine EndsFrom.ite (fun _ => endsFrom_fail) fun _ => ?_
      refine EndsFrom.weaken ((endsFrom_advance hbefore).andThen fun _ after hafter _ => ?_)
      exact ih _ (by omega) after rfl

/-- A slice is cut out without moving. -/
theorem endsFrom_slice (range : ByteRange) (before : ScanState) :
    EndsFrom text 0 (fun _ => slice text range) before := by
  simp only [slice]
  exact EndsFrom.ite (fun _ => endsFrom_pure _) fun _ => endsFrom_throw _

/-- An identifier is not empty, so it is passed over where it is found. -/
theorem endsFrom_identifier (stops : List Char) (before : ScanState) :
    EndsFrom text 1 (identifier text stops) before := by
  unfold identifier
  refine EndsFrom.get ((endsFrom_skipName text stops before).bind fun _ middle hmiddle _ => ?_)
  refine EndsFrom.get (EndsFrom.peek (EndsFrom.ite (fun _ => endsFrom_fail) fun hfound => ?_))
  have hmoved : middle.offset ≠ before.offset := fun hsame => hfound (.inl hsame)
  rw [Nat.sub_eq_zero_of_le (by omega)]
  exact endsFrom_slice text _ middle

/-- An identifier with its stop is progress. -/
theorem endsFrom_closedIdentifier (stop : Char) (before : ScanState) :
    EndsFrom text 1 (closedIdentifier text stop) before :=
  (endsFrom_identifier text _ before).andThen fun _ after _ _ =>
    (endsFrom_expect text stop after).weaken

theorem endsFrom_outerName (before : ScanState) : EndsFrom text 1 (outerName text) before :=
  (endsFrom_identifier text _ before).andThen fun _ _ _ _ => endsFrom_modify rfl

/-! ### Types -/

/-- Whatever is part of a type passes over a byte where it succeeds. -/
structure TypesEnd (before : ScanState) : Prop where
  javaType : EndsFrom text 1 (javaType text) before
  referenceType : EndsFrom text 1 (referenceType text) before
  classType : EndsFrom text 1 (classType text) before
  classTail : EndsFrom text 1 (classTail text) before
  typeArguments : EndsFrom text 1 (typeArguments text) before
  argumentList : EndsFrom text 1 (argumentList text) before

section

/- Two parts that call each other without passing over a byte between them are
taken in the order in which they do; the others are known further on. -/
variable {text} {before : ScanState}
  (further : ∀ after : ScanState, before.offset < after.offset →
    after.offset ≤ max before.offset text.utf8ByteSize → TypesEnd text after)
include further

theorem endsFrom_classType : EndsFrom text 1 (classType text) before := by
  refine EndsFrom.deeper ?_
  simp only [classType]
  refine (endsFrom_expect text 'L' before).andThen fun _ after hafter hwithin => ?_
  refine (endsFrom_outerName text after).weaken.andThen fun _ last hlast hlastWithin => ?_
  exact (further last (by omega) (by omega)).classTail.weaken

theorem endsFrom_typeArguments : EndsFrom text 1 (typeArguments text) before := by
  refine EndsFrom.deeper ?_
  simp only [typeArguments]
  refine (endsFrom_expect text '<' before).andThen fun _ after hafter hwithin => EndsFrom.peek ?_
  refine EndsFrom.ite (fun _ => endsFrom_fail) fun _ => ?_
  exact (further after hafter hwithin).argumentList.weaken

theorem endsFrom_classTail : EndsFrom text 1 (classTail text) before := by
  refine EndsFrom.deeper ?_
  simp only [classTail]
  refine EndsFrom.peek (EndsFrom.ite (fun _ => ?arguments) fun _ => ?_)
  case arguments =>
    refine (endsFrom_typeArguments further).andThen fun _ after hafter hwithin => ?_
    exact (further after hafter hwithin).classTail.weaken
  refine EndsFrom.ite (fun hdot => ?inner) fun _ => ?_
  case inner =>
    refine (endsFrom_advance (lt_of_byteAt hdot)).andThen fun _ after hafter hwithin => ?_
    refine (endsFrom_identifier text _ after).weaken.andThen fun _ last hlast hlastWithin => ?_
    exact (further last (by omega) (by omega)).classTail.weaken
  exact EndsFrom.ite (fun hclose => endsFrom_advance (lt_of_byteAt hclose)) fun _ => endsFrom_fail

/-- A reference type ends, with progress. -/
theorem endsFrom_referenceType : EndsFrom text 1 (referenceType text) before := by
  refine EndsFrom.deeper ?_
  simp only [referenceType]
  refine EndsFrom.peek (EndsFrom.ite (fun _ => endsFrom_classType further) fun _ => ?_)
  refine EndsFrom.ite (fun hvariable => ?typeVariable) fun _ => ?_
  case typeVariable =>
    refine (endsFrom_advance (lt_of_byteAt hvariable)).andThen fun _ after _ _ => ?_
    exact (endsFrom_closedIdentifier text ';' after).weaken
  refine EndsFrom.ite (fun harray => ?array) fun _ => endsFrom_fail
  case array =>
    refine (endsFrom_advance (lt_of_byteAt harray)).andThen fun _ after hafter hwithin => ?_
    exact (further after hafter hwithin).javaType.weaken

theorem endsFrom_javaType : EndsFrom text 1 (javaType text) before := by
  refine EndsFrom.deeper ?_
  simp only [javaType]
  refine EndsFrom.peek (EndsFrom.ite (fun hprimitive => ?_) fun _ => endsFrom_referenceType further)
  obtain ⟨type, -, htype⟩ := List.any_eq_true.1 hprimitive
  exact endsFrom_advance (lt_of_byteAt (eq_of_beq htype).symm)

/-- A list of type arguments ends, with progress. -/
theorem endsFrom_argumentList : EndsFrom text 1 (argumentList text) before := by
  refine EndsFrom.deeper ?_
  simp only [argumentList]
  refine EndsFrom.peek ?_
  refine EndsFrom.ite (fun hclose => endsFrom_advance (lt_of_byteAt hclose)) fun _ => ?_
  refine EndsFrom.ite (fun hwildcard => ?wildcard) fun _ => ?_
  case wildcard =>
    refine (endsFrom_advance (lt_of_byteAt hwildcard)).andThen fun _ after hafter hwithin => ?_
    exact (further after hafter hwithin).argumentList.weaken
  refine EndsFrom.ite (fun hbounded => ?bounded) fun _ => ?exact
  case bounded =>
    have hbefore : before.offset < text.utf8ByteSize :=
      hbounded.elim lt_of_byteAt lt_of_byteAt
    refine (endsFrom_advance hbefore).andThen fun _ after hafter hwithin => ?_
    have htype := (further after hafter hwithin).referenceType
    refine htype.weaken.andThen fun _ last hlast hlastWithin => ?_
    exact (further last (by omega) (by omega)).argumentList.weaken
  case exact =>
    refine (endsFrom_referenceType further).andThen fun _ after hafter hwithin => ?_
    exact (further after hafter hwithin).argumentList.weaken

end

/-- Types are scanned to an end, however deep they are nested. -/
theorem typesEnd (before : ScanState) : TypesEnd text before := by
  induction hroom : text.utf8ByteSize - before.offset using Nat.strongRecOn generalizing before with
  | ind room ih =>
    have further (after : ScanState) (hafter : before.offset < after.offset)
        (hwithin : after.offset ≤ max before.offset text.utf8ByteSize) : TypesEnd text after :=
      ih _ (by omega) after rfl
    exact {
      javaType := endsFrom_javaType further
      referenceType := endsFrom_referenceType further
      classType := endsFrom_classType further
      classTail := endsFrom_classTail further
      typeArguments := endsFrom_typeArguments further
      argumentList := endsFrom_argumentList further }

/-! ### Declarations -/

section

variable {text} {item : Nat → Scan Unit}

/-- A loop ends if each of its items makes progress. -/
theorem endsFrom_repeatWhile {continues : Option UInt8 → Bool}
    (hitem : ∀ before, continues (byteAt text before.offset) → EndsFrom text 1 item before)
    (before : ScanState) : EndsFrom text 0 (repeatWhile text continues item) before := by
  induction hroom : text.utf8ByteSize - before.offset using Nat.strongRecOn generalizing before with
  | ind room ih =>
    refine EndsFrom.deeper ?_
    simp only [repeatWhile]
    refine EndsFrom.peek (EndsFrom.ite (fun hcontinues => ?_) fun _ => endsFrom_pure ())
    refine EndsFrom.weaken ((hitem before hcontinues).andThen fun _ after hafter hwithin => ?_)
    exact ih _ (by omega) after rfl

/-- At the end of the text, where no closing byte can follow, an item fails. -/
theorem endsFrom_upTo (hitem : ∀ before, EndsFrom text 1 item before) (closing : Char)
    (before : ScanState) : EndsFrom text 1 (upTo text closing item) before := by
  induction hroom : text.utf8ByteSize - before.offset using Nat.strongRecOn generalizing before with
  | ind room ih =>
    refine EndsFrom.deeper ?_
    simp only [upTo]
    refine EndsFrom.peek ?_
    refine EndsFrom.ite (fun hclose => endsFrom_advance (lt_of_byteAt hclose)) fun _ => ?_
    refine (hitem before).andThen fun _ after hafter hwithin => ?_
    exact (ih _ (by omega) after rfl).weaken

end

/-- Types behind marks end, since every mark is progress. -/
theorem endsFrom_marked (mark : Char) (before : ScanState) :
    EndsFrom text 0 (marked text mark) before := by
  refine endsFrom_repeatWhile (fun before hmark => ?_) before
  refine (endsFrom_advance (lt_of_byteAt (eq_of_beq hmark))).andThen fun _ after _ _ => ?_
  exact (typesEnd text after).referenceType.weaken

/-- A type parameter ends, with progress. -/
theorem endsFrom_typeParameter (before : ScanState) :
    EndsFrom text 1 (typeParameter text) before := by
  unfold typeParameter
  refine (endsFrom_closedIdentifier text ':' before).andThen fun _ after _ _ => ?_
  refine EndsFrom.andThen ?_ fun _ after _ _ => endsFrom_marked text ':' after
  refine EndsFrom.peek (EndsFrom.ite (fun _ => ?_) fun _ => endsFrom_pure ())
  exact (typesEnd text after).referenceType.weaken

theorem endsFrom_typeParameters (before : ScanState) :
    EndsFrom text 1 (typeParameters text) before := by
  refine (endsFrom_expect text '<' before).andThen fun _ after _ _ => ?_
  exact (endsFrom_upTo (endsFrom_typeParameter text) '>' after).weaken

end SignatureScanner
end ClassStub
