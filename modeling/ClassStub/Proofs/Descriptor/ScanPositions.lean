import ClassStub.Proofs.Descriptor.SignatureScan
import ClassStub.Proofs.Descriptor.TypeReading

/-!
# The positions of a scan

A scanner of bytes stands in front of the characters that a reader has left
(`SignatureScanner.inFront`).  It goes as the reader does if it comes to stand in
front of what the reader leaves, or fails in front of it (`Follows`); that this
composes is all that a scan in several steps needs.  What is left is an end of the
text, so the scanner never stands within a character.

Names are where bytes and characters differ: a scanner passes over the bytes of a
character one by one.  None of them is a delimiter, so it stops where a name ends,
and what it cuts out is the name (`follows_identifier`).
-/

namespace ClassStub

namespace SignatureScanner

open SignatureReader (isNameChar)
open Grammar (NameChars identifier_append)

/-- The state in front of the characters at the end of a text. -/
def inFront (text : String) (chars : List Char) (classes : List String) : ScanState where
  offset := utf8Length text.toList - utf8Length chars
  classes

/-- From `chars` on, having met `classes`, a scan goes as a reader does: what it
`gives` for what is read are a value and the classes that have been met then. -/
def Follows {α β : Type} (text : String) (scan : Nat → Scan β) (chars : List Char)
    (classes : List String) (gives : α → β × List String) :
    Except (List Char) (α × List Char) → Prop
  | .ok (value, rest) => rest <:+ chars ∧
    Scan.Ends scan (inFront text chars classes) (.ok (gives value).1)
      (inFront text rest (gives value).2)
  | .error rest => rest <:+ chars ∧ ∃ met,
    Scan.Ends scan (inFront text chars classes)
      (.error (.malformed (inFront text rest met).offset)) (inFront text rest met)

section

variable {α β γ δ : Type} {text : String} {chars rest : List Char} {classes : List String}
  {gives : α → β × List String} {read : Except (List Char) (α × List Char)}

/-! ## Offsets -/

theorem suffix_of_cons {letter : Char} (hchars : letter :: rest <:+ chars) : rest <:+ chars :=
  (List.suffix_cons letter rest).trans hchars

/-- A state in front of characters is behind the bytes of those before them. -/
theorem inFront_offset {before : List Char} (htext : text.toList = before ++ rest)
    (classes : List String) :
    inFront text rest classes = { offset := utf8Length before, classes } := by
  rw [inFront, htext, utf8Length_append, Nat.add_sub_cancel]

/-- The end of a text is in front of no characters. -/
theorem inFront_offset_eq_iff (hrest : rest <:+ text.toList) (classes : List String) :
    (inFront text rest classes).offset = text.utf8ByteSize ↔ rest = [] := by
  obtain ⟨before, htext⟩ := hrest
  have hsize : utf8Length before + utf8Length rest = text.utf8ByteSize := by
    rw [← utf8Length_append, htext, utf8Length_toList]
  rw [inFront_offset htext.symm]
  constructor
  · intro hend
    by_contra hmore
    have hpositive := utf8Length_pos hmore
    simp only at hend
    omega
  · rintro rfl
    exact hsize

/-- The byte ahead is the first byte of the characters ahead. -/
theorem byteAt_inFront (hchars : chars <:+ text.toList) (classes : List String) :
    byteAt text (inFront text chars classes).offset = (encoded chars).head? := by
  obtain ⟨before, htext⟩ := hchars
  rw [inFront_offset htext.symm, byteAt, ← encoded_toList, ← htext, ← drop_encoded before chars,
    List.head?_drop]

/-- Looking at the byte ahead changes nothing. -/
theorem ends_peek {next : Nat → Option UInt8 → Scan β} {before after : ScanState}
    {outcome : Except ScanFault β}
    (hnext : Scan.Ends (fun depth => next depth (byteAt text before.offset)) before outcome
      after) :
    Scan.Ends (fun depth => peek text >>= next depth) before outcome after :=
  hnext

/-- A character of one byte is passed over by its byte. -/
theorem runFrom_advance {letter : Char} (hletter : letter.utf8Size = 1)
    (hchars : letter :: rest <:+ text.toList) (classes : List String) :
    advance.runFrom (inFront text (letter :: rest) classes) =
      some (.ok (), inFront text rest classes) := by
  obtain ⟨before, htext⟩ := hchars
  have hrest : text.toList = before ++ [letter] ++ rest := by
    rw [List.append_assoc, List.singleton_append, htext]
  rw [inFront_offset htext.symm, inFront_offset hrest, utf8Length_append]
  simp only [utf8Length, hletter]
  rfl

/-- An expected character is passed over by its byte. -/
theorem runFrom_expect {letter : Char} (hletter : letter.utf8Size = 1)
    (hchars : letter :: rest <:+ text.toList) (classes : List String) :
    (expect text letter).runFrom (inFront text (letter :: rest) classes) =
      some (.ok (), inFront text rest classes) := by
  have hahead := (head?_encoded hletter (letter :: rest)).2 List.head?_cons
  rw [expect, runFrom_peek_bind, byteAt_inFront hchars, if_pos hahead]
  exact runFrom_advance hletter hchars classes

/-! ## Parts of a scan -/

/-- A scan is given up where a reader stops. -/
theorem follows_fail : Follows text (fun _ => fail) chars classes gives (.error chars) :=
  ⟨List.suffix_rfl, classes, Scan.ends_of_forall fun _ => rfl⟩

theorem follows_advance {letter : Char} (hletter : letter.utf8Size = 1)
    (hchars : letter :: rest <:+ text.toList) {gives : α → Unit × List String} {value : α}
    (hvalue : gives value = ((), classes)) :
    Follows text (fun _ => advance) (letter :: rest) classes gives (.ok (value, rest)) := by
  refine ⟨List.suffix_cons letter rest, Scan.ends_of_forall fun _ => ?_⟩
  rw [hvalue]
  exact runFrom_advance hletter hchars classes

/-- What happens before something else changes nothing but where that starts. -/
theorem Follows.step {scan other : Nat → Scan β} {met : List String}
    (hother : Follows text other rest met gives read) (hrest : rest <:+ chars)
    (hends : ∀ outcome after, Scan.Ends other (inFront text rest met) outcome after →
      Scan.Ends scan (inFront text chars classes) outcome after) :
    Follows text scan chars classes gives read := by
  rcases read with stopped | ⟨value, behind⟩
  case error =>
    obtain ⟨hstopped, classes', hfail⟩ := hother
    exact ⟨hstopped.trans hrest, classes', hends _ _ hfail⟩
  case ok =>
    obtain ⟨hbehind, hpass⟩ := hother
    exact ⟨hbehind.trans hrest, hends _ _ hpass⟩

/-- A call takes one more depth than what it does. -/
theorem Follows.deeper {scan : Nat → Scan β}
    (hscan : Follows text (fun depth => scan (depth + 1)) chars classes gives read) :
    Follows text scan chars classes gives read :=
  hscan.step List.suffix_rfl fun _ _ hends => hends.deeper

/-- What depends on the byte ahead depends on the character ahead. -/
theorem Follows.peek {next : Nat → Option UInt8 → Scan β} (hchars : chars <:+ text.toList)
    (hnext : Follows text (fun depth => next depth (encoded chars).head?) chars classes gives
      read) :
    Follows text (fun depth => peek text >>= next depth) chars classes gives read := by
  rw [← byteAt_inFront hchars classes] at hnext
  exact hnext.step List.suffix_rfl fun _ _ => ends_peek

/-- A case distinction follows a reader if each of its branches does. -/
theorem Follows.ite {condition : Prop} [Decidable condition] {first second : Nat → Scan β}
    (hfirst : condition → Follows text first chars classes gives read)
    (hsecond : ¬condition → Follows text second chars classes gives read) :
    Follows text (fun depth => if condition then first depth else second depth) chars classes
      gives read := by
  by_cases hcondition : condition
  · simpa only [if_pos hcondition] using hfirst hcondition
  · simpa only [if_neg hcondition] using hsecond hcondition

/-- One part behind another is scanned as it is read if both parts are. -/
theorem Follows.bind {first : Nat → Scan β} {next : Nat → β → Scan δ} {met : γ → δ × List String}
    {further : α × List Char → Except (List Char) (γ × List Char)}
    (hfirst : Follows text first chars classes gives read)
    (hnext : ∀ value rest, read = .ok (value, rest) → rest <:+ chars →
      Follows text (fun depth => next depth (gives value).1) rest (gives value).2 met
        (further (value, rest))) :
    Follows text (fun depth => first depth >>= next depth) chars classes met
      (read >>= further) := by
  rcases read with stopped | ⟨value, rest⟩
  case error =>
    obtain ⟨hstopped, classes', hends⟩ := hfirst
    exact ⟨hstopped, classes', hends.bind_error⟩
  case ok =>
    obtain ⟨hrest, hends⟩ := hfirst
    exact (hnext value rest rfl hrest).step hrest fun _ _ hafter => hends.bind hafter

/-- What makes progress leaves fewer characters. -/
theorem Follows.shorter {scan : Nat → Scan β} {value : α}
    (hscan : Follows text scan chars classes gives (.ok (value, rest)))
    (hprogress : EndsFrom text 1 scan (inFront text chars classes)) :
    rest.length < chars.length := by
  obtain ⟨hrest, hends⟩ := hscan
  obtain ⟨outcome, after, hother, hprogress⟩ := hprogress
  obtain ⟨rfl, rfl⟩ := hends.unique hother
  have hpassed := hprogress.passed _ rfl
  refine Nat.lt_of_le_of_ne hrest.length_le fun hlength => ?_
  rw [hrest.eq_of_length hlength] at hpassed
  exact absurd hpassed (Nat.not_succ_le_self _)

/-- What is made of a value meets what the value does. -/
theorem Follows.map {scan : Nat → Scan β} {make : α → γ} {met : γ → β × List String}
    (hscan : Follows text scan chars classes gives read)
    (hmet : ∀ value, met (make value) = gives value) :
    Follows text scan chars classes met
      (read >>= fun (value, rest) => pure (make value, rest)) := by
  rcases read with stopped | ⟨value, rest⟩
  case error => exact hscan
  case ok =>
    change _ ∧ _
    rw [hmet]
    exact hscan

/-- A scan goes on behind a character that it passes over. -/
theorem Follows.advance {letter : Char} (hletter : letter.utf8Size = 1)
    (hchars : letter :: rest <:+ text.toList) {next : Nat → Unit → Scan β}
    (hnext : Follows text (fun depth => next depth ()) rest classes gives read) :
    Follows text (fun depth => advance >>= next depth) (letter :: rest) classes gives read := by
  refine hnext.step (List.suffix_cons letter rest) fun _ _ hends => Scan.Ends.bind ?_ hends
  exact Scan.ends_of_forall fun _ => runFrom_advance hletter hchars classes

theorem Follows.expect {letter : Char} (hletter : letter.utf8Size = 1)
    (hchars : letter :: rest <:+ text.toList) {next : Nat → Unit → Scan β}
    (hnext : Follows text (fun depth => next depth ()) rest classes gives read) :
    Follows text (fun depth => expect text letter >>= next depth) (letter :: rest) classes gives
      read := by
  refine hnext.step (List.suffix_cons letter rest) fun _ _ hends => Scan.Ends.bind ?_ hends
  exact Scan.ends_of_forall fun _ => runFrom_expect hletter hchars classes

end

/-! ## Identifiers -/

/-- Bytes that are no delimiters are passed over, one after the other. -/
theorem skipName_append (text : String) {stops : List Char} (hstops : stops ⊆ delimiters)
    (bytes more : List UInt8) (hbytes : ∀ byte ∈ bytes, byte ∉ delimiters.map Char.toUInt8)
    {offset : Nat} (hdrop : text.toByteArray.data.toList.drop offset = bytes ++ more)
    {classes : List String} {outcome : Except ScanFault Unit} {after : ScanState}
    (hbehind : Scan.Ends (skipName text stops) { offset := offset + bytes.length, classes }
      outcome after) :
    Scan.Ends (skipName text stops) { offset, classes } outcome after := by
  induction bytes generalizing offset with
  | nil => exact hbehind
  | cons byte bytes ih =>
    have hbyte : byteAt text offset = some byte := by
      rw [byteAt, ← List.head?_drop, hdrop, List.cons_append, List.head?_cons]
    have hplain : byte ∉ delimiters.map Char.toUInt8 := hbytes byte List.mem_cons_self
    have hpasses : byte ∉ stops.map Char.toUInt8 := fun hstop =>
      hplain (List.map_subset Char.toUInt8 hstops hstop)
    have hmore : text.toByteArray.data.toList.drop (offset + 1) = bytes ++ more := by
      rw [← List.tail_drop, hdrop, List.cons_append, List.tail_cons]
    have hnext : Scan.Ends (skipName text stops) { offset := offset + 1, classes } outcome
        after := by
      refine ih (fun byte hmem => hbytes byte (List.mem_cons_of_mem _ hmem)) hmore ?_
      rwa [Nat.add_assoc, Nat.add_comm 1, ← List.length_cons]
    refine Scan.Ends.deeper ?_
    simp only [skipName]
    refine ends_peek ?_
    simp only [hbyte, if_neg hpasses, if_neg hplain]
    exact Scan.Ends.bind (Scan.ends_of_forall fun _ => rfl) hnext

/-- The characters that stand in no name are the delimiters. -/
theorem isNameChar_iff (char : Char) : isNameChar char ↔ char ∉ delimiters := by
  simp [isNameChar, delimiters, and_assoc]

/-- Every delimiter has one byte. -/
theorem utf8Size_delimiter {letter : Char} (hletter : letter ∈ delimiters) :
    letter.utf8Size = 1 := by
  simp only [delimiters, List.mem_cons, List.not_mem_nil, or_false] at hletter
  rcases hletter with rfl | rfl | rfl | rfl | rfl <;> rfl

/-- The first byte of a character tells whether it is one of some delimiters. -/
theorem exists_head?_encoded (char : Char) (rest : List Char) :
    ∃ byte, (encoded (char :: rest)).head? = some byte ∧
      ∀ letters ⊆ delimiters, byte ∈ letters.map Char.toUInt8 ↔ char ∈ letters := by
  obtain ⟨byte, more, hbytes, hfirst⟩ := exists_first_byte char rest
  refine ⟨byte, hbytes ▸ List.head?_cons, fun letters hletters => ?_⟩
  rw [List.mem_map]
  constructor
  · rintro ⟨letter, hletter, hsame⟩
    rwa [(hfirst letter (utf8Size_delimiter (hletters hletter))).1 hsame.symm]
  · intro hchar
    exact ⟨char, hchar, ((hfirst char (utf8Size_delimiter (hletters hchar))).2 rfl).symm⟩

/-- The delimiters are single bytes, which are part of no other character. -/
theorem not_delimiter_of_mem_encoded {name : List Char} (hname : ∀ char ∈ name, isNameChar char)
    {byte : UInt8} (hbyte : byte ∈ encoded name) : byte ∉ delimiters.map Char.toUInt8 := by
  intro hdelimiter
  obtain ⟨letter, hletter, rfl⟩ := List.mem_map.1 hdelimiter
  refine not_mem_encoded (utf8Size_delimiter hletter) (fun hmem => ?_) hbyte
  exact (isNameChar_iff letter).1 (hname letter hmem) hletter

/-- The offset behind whole characters is a position of the text. -/
theorem isValid_utf8Length {text : String} {before after : List Char}
    (htext : text.toList = before ++ after) :
    String.Pos.Raw.IsValid text ⟨utf8Length before⟩ := by
  refine String.Pos.Raw.isValid_iff_exists_append.2
    ⟨String.ofList before, String.ofList after, ?_, ?_⟩
  · rw [← String.ofList_append, ← htext, String.ofList_toList]
  · have hsize : utf8Length before = (String.ofList before).utf8ByteSize := by
      rw [← utf8Length_toList, String.toList_ofList]
    rw [hsize]
    rfl

theorem utf8Length_eq_utf8Len (chars : List Char) : utf8Length chars = String.utf8Len chars := by
  induction chars with
  | nil => rfl
  | cons char chars ih => rw [utf8Length, String.utf8Len, ih, Nat.add_comm]

/-- A slice from one such offset to another has the characters in between. -/
theorem runFrom_slice {text : String} {before name after : List Char}
    (htext : text.toList = before ++ name ++ after) (state : ScanState) :
    (slice text { start := utf8Length before, stop := utf8Length (before ++ name) }).runFrom state =
      some (.ok (String.ofList name), state) := by
  have hstart : text.toList = before ++ (name ++ after) := by rw [htext, List.append_assoc]
  have hextract := String.extract_of_valid before name after
  rw [← htext, String.ofList_toList, ← utf8Length_eq_utf8Len, ← utf8Length_eq_utf8Len,
    ← utf8Length_append] at hextract
  rw [slice, if_pos, hextract]
  · rfl
  · refine ⟨?_, String.Pos.Raw.isValid_eq_true_iff.2 (isValid_utf8Length hstart),
      String.Pos.Raw.isValid_eq_true_iff.2 (isValid_utf8Length htext)⟩
    simp only [utf8Length_append, Nat.le_add_right]

section

variable {text : String} {stops name rest : List Char} (classes : List String)

/-- The characters of a name are passed over byte by byte. -/
theorem skipName_name (hat : name ++ rest <:+ text.toList) (hstops : stops ⊆ delimiters)
    (hname : ∀ char ∈ name, isNameChar char) {outcome : Except ScanFault Unit} {after : ScanState}
    (hbehind : Scan.Ends (skipName text stops) (inFront text rest classes) outcome after) :
    Scan.Ends (skipName text stops) (inFront text (name ++ rest) classes) outcome after := by
  obtain ⟨before, htext⟩ := hat
  have hrest : text.toList = before ++ name ++ rest := by rw [List.append_assoc, htext]
  have hdrop : text.toByteArray.data.toList.drop (utf8Length before) =
      encoded name ++ encoded rest := by
    rw [← encoded_toList, ← htext, drop_encoded, encoded_append]
  rw [inFront_offset hrest, utf8Length_append, ← length_encoded name] at hbehind
  rw [inFront_offset htext.symm]
  exact skipName_append text hstops _ _ (fun _ => not_delimiter_of_mem_encoded hname) hdrop hbehind

/-- At the end of a text nothing is passed over. -/
theorem skipName_nil :
    Scan.Ends (skipName text stops) (inFront text [] classes) (.ok ())
      (inFront text [] classes) := by
  refine Scan.Ends.deeper ?_
  simp only [skipName]
  refine ends_peek ?_
  rw [byteAt_inFront List.nil_suffix]
  exact Scan.ends_of_forall fun _ => rfl

/-- A delimiter stops a name, and is a fault unless it may follow. -/
theorem skipName_delimiter {stop : Char} (hat : stop :: rest <:+ text.toList)
    (hstops : stops ⊆ delimiters) (hstop : stop ∈ delimiters) :
    Scan.Ends (skipName text stops) (inFront text (stop :: rest) classes)
      (if stop ∈ stops then .ok ()
        else .error (.malformed (inFront text (stop :: rest) classes).offset))
      (inFront text (stop :: rest) classes) := by
  obtain ⟨byte, hbyte, hmem⟩ := exists_head?_encoded stop rest
  have hdelimiter := (hmem delimiters (List.Subset.refl delimiters)).2 hstop
  refine Scan.Ends.deeper ?_
  simp only [skipName]
  refine ends_peek ?_
  rw [byteAt_inFront hat, hbyte]
  simp only [hmem stops hstops, if_pos hdelimiter]
  split
  all_goals exact Scan.ends_of_forall fun _ => rfl

/-- An identifier is cut out from where the scan stood to where it stands. -/
theorem identifier_of_skipName {before after last : ScanState} {outcome : Except ScanFault String}
    (hskip : Scan.Ends (skipName text stops) before (.ok ()) after)
    (hcut : (if after.offset = before.offset ∨ byteAt text after.offset = none then fail
        else slice text { start := before.offset, stop := after.offset } : Scan String).runFrom
        after = some (outcome, last)) :
    Scan.Ends (identifier text stops) before outcome last :=
  Scan.Ends.bind (Scan.ends_of_forall fun _ => rfl)
    (hskip.bind (Scan.ends_of_forall fun _ => hcut))

/-- A name in front of one of the stops is cut out between two characters. -/
theorem identifier_found (hname : NameChars name) {stop : Char}
    (hat : name ++ stop :: rest <:+ text.toList) (hstops : stops ⊆ delimiters)
    (hstop : stop ∈ stops) :
    Scan.Ends (identifier text stops) (inFront text (name ++ stop :: rest) classes)
      (.ok (String.ofList name)) (inFront text (stop :: rest) classes) := by
  have hrest : stop :: rest <:+ text.toList := (List.suffix_append name _).trans hat
  have hend := skipName_delimiter classes hrest hstops (hstops hstop)
  rw [if_pos hstop] at hend
  have hskip := skipName_name classes hat hstops hname.2 hend
  obtain ⟨byte, hbyte, -⟩ := exists_head?_encoded stop rest
  have hahead : byteAt text (inFront text (stop :: rest) classes).offset ≠ none := by
    rw [byteAt_inFront hrest, hbyte]
    exact Option.some_ne_none byte
  obtain ⟨before, htext⟩ := hat
  have hwhole : text.toList = before ++ name ++ stop :: rest := by rw [List.append_assoc, htext]
  have hmoved : utf8Length (before ++ name) ≠ utf8Length before := by
    rw [utf8Length_append]
    exact (Nat.lt_add_of_pos_right (utf8Length_pos hname.1)).ne'
  rw [inFront_offset htext.symm, inFront_offset hwhole] at hskip ⊢
  rw [inFront_offset hwhole] at hahead
  refine identifier_of_skipName hskip ?_
  rw [if_neg (not_or.2 ⟨hmoved, hahead⟩)]
  exact runFrom_slice hwhole _

/-- Without a name, or with another delimiter behind it than one of the stops, a
scan for an identifier fails where the name ends. -/
theorem identifier_missing (hname : ∀ char ∈ name, isNameChar char)
    (hat : name ++ rest <:+ text.toList) (hstops : stops ⊆ delimiters)
    (hrest : ∀ stop ∈ rest.head?, stop ∈ delimiters)
    (hfails : name = [] ∨ ∀ stop ∈ rest.head?, stop ∉ stops) :
    Scan.Ends (identifier text stops) (inFront text (name ++ rest) classes)
      (.error (.malformed (inFront text rest classes).offset)) (inFront text rest classes) := by
  have hbehind : rest <:+ text.toList := (List.suffix_append name rest).trans hat
  cases rest with
  | nil =>
    refine identifier_of_skipName (skipName_name classes hat hstops hname (skipName_nil classes)) ?_
    rw [byteAt_inFront hbehind, if_pos (.inr rfl)]
    rfl
  | cons stop rest =>
    have hend := skipName_delimiter classes hbehind hstops (hrest stop List.head?_cons)
    by_cases hmem : stop ∈ stops
    case neg =>
      rw [if_neg hmem] at hend
      have hskip := skipName_name classes hat hstops hname hend
      exact Scan.Ends.bind (Scan.ends_of_forall fun _ => rfl) hskip.bind_error
    case pos =>
      obtain rfl := hfails.resolve_right fun hother => hother stop List.head?_cons hmem
      rw [if_pos hmem] at hend
      refine identifier_of_skipName hend ?_
      rw [List.nil_append, if_pos (.inl rfl)]
      rfl

/-- Nor is an identifier read there. -/
theorem identifier_eq_error (hname : ∀ char ∈ name, isNameChar char)
    (hrest : ∀ stop ∈ rest.head?, isNameChar stop = false)
    (hfails : name = [] ∨ ∀ stop ∈ rest.head?, stop ∉ stops) :
    SignatureReader.identifier stops (name ++ rest) = .error rest := by
  cases rest with
  | nil =>
    have hdrop : (name ++ []).dropWhile isNameChar = [] := by
      rw [List.dropWhile_append_of_pos hname, List.dropWhile_nil]
    simp only [SignatureReader.identifier, hdrop]
  | cons stop rest =>
    have hstop := hrest stop List.head?_cons
    have htake : (name ++ stop :: rest).takeWhile isNameChar = name := by
      rw [List.takeWhile_append_of_pos hname, List.takeWhile_cons_of_neg (by simp [hstop]),
        List.append_nil]
    have hdrop : (name ++ stop :: rest).dropWhile isNameChar = stop :: rest := by
      rw [List.dropWhile_append_of_pos hname, List.dropWhile_cons_of_neg (by simp [hstop])]
    have hnone : (name.isEmpty || !stops.contains stop) = true := by
      simpa using hfails
    simp only [SignatureReader.identifier, htake, hdrop, hnone, ↓reduceIte]

/-- Characters start with a name, which goes up to a delimiter or to the end. -/
theorem exists_name (chars : List Char) :
    ∃ name rest, chars = name ++ rest ∧ (∀ char ∈ name, isNameChar char) ∧
      ∀ stop ∈ rest.head?, isNameChar stop = false := by
  refine ⟨chars.takeWhile isNameChar, chars.dropWhile isNameChar,
    List.takeWhile_append_dropWhile.symm, fun char hchar => List.mem_takeWhile_imp hchar, ?_⟩
  intro stop hstop
  have hhead := List.head?_dropWhile_not isNameChar chars
  rw [hstop] at hhead
  simpa using hhead

/-- An identifier is scanned as it is read. -/
theorem follows_identifier {chars : List Char} (hchars : chars <:+ text.toList)
    (hstops : stops ⊆ delimiters) :
    Follows text (identifier text stops) chars classes (fun name => (name, classes))
      (SignatureReader.identifier stops chars) := by
  obtain ⟨name, rest, rfl, hname, hrest⟩ := exists_name chars
  have hsuffix : rest <:+ name ++ rest := List.suffix_append name rest
  by_cases hfails : name = [] ∨ ∀ stop ∈ rest.head?, stop ∉ stops
  case pos =>
    have hdelimiters : ∀ stop ∈ rest.head?, stop ∈ delimiters := by
      intro stop hstop
      rw [← not_not (a := stop ∈ delimiters), ← isNameChar_iff, hrest stop hstop]
      exact Bool.false_ne_true
    rw [identifier_eq_error hname hrest hfails]
    exact ⟨hsuffix, classes, identifier_missing classes hname hchars hstops hdelimiters hfails⟩
  case neg =>
    push Not at hfails
    obtain ⟨hnonempty, stop, hhead, hstop⟩ := hfails
    obtain ⟨more, rfl⟩ := List.head?_eq_some_iff.1 hhead
    rw [identifier_append ⟨hnonempty, hname⟩ (hrest stop hhead) hstop]
    exact ⟨hsuffix, identifier_found classes ⟨hnonempty, hname⟩ hchars hstops hstop⟩

end

end SignatureScanner
end ClassStub
