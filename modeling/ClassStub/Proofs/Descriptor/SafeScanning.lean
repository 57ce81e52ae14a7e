import ClassStub.Proofs.Descriptor.ScanAgreement

/-!
# Scanning is safe on malformed texts

Whatever the text, a scan of it ends, and so does every call that it makes on the
way: a call that succeeds has passed over at least one byte, and no call leads
beyond the end of the text.  From between two characters a call leads to between
two characters, cuts no character in two, and fails where it stands.  So the
offset that is reported for a malformed text is one between two of its characters
(`SignatureScanner.scansSafely`).
-/

namespace ClassStub

open SignatureScanner

/-- A call of one of the parts of a scan that call each other. -/
inductive ScanCall where
  | typeParameters
  | javaType
  | referenceType
  | classType
  | typeArguments
  | identifier (stops : List Char) (delimiting : stops ⊆ delimiters)

/-- The scan that a call starts. -/
def ScanCall.scan (text : String) : ScanCall → Nat → Scan Unit
  | typeParameters => SignatureScanner.typeParameters text
  | javaType => SignatureScanner.javaType text
  | referenceType => SignatureScanner.referenceType text
  | classType => SignatureScanner.classType text
  | typeArguments => SignatureScanner.typeArguments text
  | identifier stops _ => fun depth => do
    let _ ← SignatureScanner.identifier text stops depth

/-- The scanner stands between two characters of a text, and so not beyond its end. -/
structure ScanState.OnBoundary (text : String) (state : ScanState) : Prop where
  within : state.offset ≤ text.utf8ByteSize
  valid : String.Pos.Raw.IsValid text ⟨state.offset⟩

/-- What scanning guarantees for a text, however malformed it is. -/
structure ScansSafely (text : String) : Prop where
  /-- Wherever a call is made, it ends, and it makes progress if it succeeds. -/
  progress : ∀ (call : ScanCall) (before : ScanState), EndsFrom text 1 (call.scan text) before
  /-- From between two characters a call leads to between two characters, and the
  only way in which it fails is that the text is malformed there: no slice cuts a
  character in two. -/
  boundaries : ∀ (call : ScanCall) (before after : ScanState) (outcome : Except ScanFault Unit),
    before.OnBoundary text → Scan.Ends (call.scan text) before outcome after →
    after.OnBoundary text ∧ ∀ fault, outcome = .error fault → fault = .malformed after.offset
  /-- The whole scan ends between two characters, with the classes that the text
  refers to or the offset that is reported for it. -/
  whole : ∃ after, after.OnBoundary text ∧
    Scan.Ends (scan text) { offset := 0, classes := [] }
      ((distinctOuterClasses text).mapError fun error => .malformed error.offset) after ∧
    ∀ error, distinctOuterClasses text = .error error → error.offset = after.offset

namespace SignatureScanner

variable {text : String} {chars : List Char}

/-- In front of characters that end a text, a scan stands between two characters. -/
theorem onBoundary_inFront (hchars : chars <:+ text.toList) (classes : List String) :
    (inFront text chars classes).OnBoundary text := by
  obtain ⟨before, htext⟩ := hchars
  have hvalid := isValid_utf8Length htext.symm
  rw [inFront_offset htext.symm]
  exact ⟨hvalid.le_rawEndPos, hvalid⟩

/-- A scan that stands between two characters is in front of those that end the
text. -/
theorem exists_inFront {state : ScanState} (hstate : state.OnBoundary text) :
    ∃ chars, chars <:+ text.toList ∧ state = inFront text chars state.classes := by
  obtain ⟨before, after, rfl, hoffset⟩ := String.Pos.Raw.isValid_iff_exists_append.1 hstate.valid
  refine ⟨after.toList, ⟨before.toList, String.toList_append.symm⟩, ?_⟩
  have hsize : state.offset = before.utf8ByteSize := congrArg String.Pos.Raw.byteIdx hoffset
  rw [inFront_offset String.toList_append, utf8Length_toList, ← hsize]

/-- What goes as a reader does leads from boundary to boundary. -/
theorem Follows.onBoundary {α β : Type} {scan : Nat → Scan β} {classes : List String}
    {gives : α → β × List String} {read : Except (List Char) (α × List Char)}
    (hchars : chars <:+ text.toList) (hscan : Follows text scan chars classes gives read)
    {after : ScanState} {outcome : Except ScanFault β}
    (hends : Scan.Ends scan (inFront text chars classes) outcome after) :
    after.OnBoundary text ∧ ∀ fault, outcome = .error fault → fault = .malformed after.offset := by
  rcases read with stopped | ⟨value, rest⟩
  case error =>
    obtain ⟨hstopped, met, hfail⟩ := hscan
    obtain ⟨rfl, rfl⟩ := hfail.unique hends
    refine ⟨onBoundary_inFront (hstopped.trans hchars) met, fun fault hfault => ?_⟩
    cases hfault
    rfl
  case ok =>
    obtain ⟨hrest, hpass⟩ := hscan
    obtain ⟨rfl, rfl⟩ := hpass.unique hends
    exact ⟨onBoundary_inFront (hrest.trans hchars) _, fun fault hfault => nomatch hfault⟩

/-- Where another letter is ahead than the expected one, a scan fails at once. -/
theorem follows_expect_of_ne {α β : Type} {letter : Char} (hletter : letter.utf8Size = 1)
    (hchars : chars <:+ text.toList) (hahead : chars.head? ≠ some letter)
    (next : Nat → Unit → Scan β) (classes : List String) (gives : α → β × List String) :
    Follows text (fun depth => expect text letter >>= next depth) chars classes gives
      (.error chars) := by
  have hfail : (expect text letter).runFrom (inFront text chars classes) =
      some (.error (.malformed (inFront text chars classes).offset),
        inFront text chars classes) := by
    rw [expect, runFrom_peek_bind, byteAt_inFront hchars,
      if_neg ((head?_encoded hletter chars).not.2 hahead)]
    rfl
  exact ⟨List.suffix_rfl, classes, Scan.Ends.bind_error (Scan.ends_of_forall fun _ => hfail)⟩

/-- Every call goes as some reader does. -/
theorem exists_follows (call : ScanCall) (hchars : chars <:+ text.toList) (classes : List String) :
    ∃ (α : Type) (gives : α → Unit × List String) (read : Except (List Char) (α × List Char)),
      Follows text (call.scan text) chars classes gives read := by
  have hfuel := Nat.le_refl (2 * text.toList.length + 2)
  cases call with
  | typeParameters =>
    -- Where another character is ahead, nothing is read, and the scan fails in place.
    by_cases hahead : chars.head? = some '<'
    · obtain ⟨rest, hopen⟩ := List.head?_eq_some_iff.1 hahead
      exact ⟨_, _, _, follows_typeParameters hfuel hchars classes hopen⟩
    · exact ⟨Unit, fun _ => ((), classes), _, follows_expect_of_ne rfl hchars hahead _ classes _⟩
  | javaType => exact ⟨_, _, _, follows_anyType hfuel hchars classes⟩
  | referenceType => exact ⟨_, _, _, follows_reference hfuel hchars classes⟩
  | classType =>
    by_cases hahead : chars.head? = some 'L'
    · obtain ⟨rest, rfl⟩ := List.head?_eq_some_iff.1 hahead
      have hlength := hchars.length_le
      rw [List.length_cons] at hlength
      have htail (behind : List Char) (classes : List String) (hbehind : behind <:+ rest) :=
        have hshorter := hbehind.length_le
        follows_classTail (2 * text.toList.length + 1)
          (hbehind.trans (suffix_of_cons hchars)) (by omega) classes
      exact ⟨_, _, _, follows_classType hchars classes htail⟩
    · refine ⟨Unit, fun _ => ((), classes), .error chars, Follows.deeper ?_⟩
      simp only [ScanCall.scan, SignatureScanner.classType]
      exact follows_expect_of_ne rfl hchars hahead _ classes _
  | typeArguments =>
    by_cases hahead : chars.head? = some '<'
    · obtain ⟨rest, rfl⟩ := List.head?_eq_some_iff.1 hahead
      have hlength := hchars.length_le
      rw [List.length_cons] at hlength
      have harguments := follows_argumentList (2 * text.toList.length + 2)
        (suffix_of_cons hchars) (by omega) classes
      exact ⟨_, _, _, follows_typeArguments hchars harguments⟩
    · refine ⟨Unit, fun _ => ((), classes), .error chars, Follows.deeper ?_⟩
      simp only [ScanCall.scan, SignatureScanner.typeArguments]
      exact follows_expect_of_ne rfl hchars hahead _ classes _
  | identifier stops delimiting =>
    refine ⟨String, fun _ => ((), classes), SignatureReader.identifier stops chars >>= .ok, ?_⟩
    refine (follows_identifier classes hchars delimiting).bind fun name rest _ _ => ?_
    exact ⟨List.suffix_rfl, Scan.ends_of_forall fun _ => rfl⟩

/-- Every call ends and moves on if it succeeds. -/
theorem endsFrom_call (text : String) (call : ScanCall) (before : ScanState) :
    EndsFrom text 1 (call.scan text) before := by
  cases call with
  | typeParameters => exact endsFrom_typeParameters text before
  | javaType => exact (typesEnd text before).javaType
  | referenceType => exact (typesEnd text before).referenceType
  | classType => exact (typesEnd text before).classType
  | typeArguments => exact (typesEnd text before).typeArguments
  | identifier stops delimiting =>
    exact (endsFrom_identifier text stops before).andThen fun _ _ _ _ => endsFrom_pure ()

/-- **Scanning is safe.** -/
theorem scansSafely (text : String) : ScansSafely text where
  progress := endsFrom_call text
  boundaries := by
    intro call before after outcome hbefore hends
    obtain ⟨chars, hchars, hfront⟩ := exists_inFront hbefore
    obtain ⟨α, gives, read, hfollows⟩ := exists_follows call hchars before.classes
    rw [hfront] at hends
    exact hfollows.onBoundary hchars hends
  whole := by
    obtain ⟨rest, classes, hrest, hscan, herror⟩ := scan_eq text
    exact ⟨inFront text rest classes, onBoundary_inFront hrest classes, hscan, herror⟩

end SignatureScanner

end ClassStub
