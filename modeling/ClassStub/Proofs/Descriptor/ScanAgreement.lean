import ClassStub.Proofs.Descriptor.ScanPositions
import ClassStub.Proofs.Order.FirstOccurrences

/-!
# Scanning signatures is reading them

Part by part the scanner goes as the reader of the same part does: for types by
induction on the depth that the reader is given, which twice the length of what it
reads suffices for, and for lists on the number of items.  The classes that a scan
has met behind a part are those it had met before and then the outer classes of
the part, each once.  So a scan of a whole text gives its distinct outer classes,
or fails at the offset that is reported for it (`SignatureScanner.scan_eq`).
-/

namespace ClassStub

namespace SignatureReader

/-- Reads the class bound of a type parameter, if there is one. -/
def classBound (fuel : Nat) : SignatureReader (Option SignatureType) := fun chars =>
  if chars.head?.any fun char => char = 'L' || char = 'T' || char = '[' then
    referenceWithin fuel chars >>= fun (bound, rest) => return (some bound, rest)
  else
    return (none, chars)

/-- A type parameter is read step by step. -/
theorem typeParameter_eq (fuel : Nat) (chars : List Char) :
    typeParameter fuel chars =
      closedIdentifier ':' chars >>= fun (name, rest) =>
        classBound fuel rest >>= fun (classBound, rest) =>
          marked ':' fuel rest >>= fun (interfaceBounds, rest) =>
            return ({ name, classBound, interfaceBounds }, rest) := by
  rw [typeParameter]
  refine bind_congr fun ⟨name, rest⟩ => ?_
  simp only [classBound]
  split
  case isTrue => simp only [bind_assoc, pure_bind]
  case isFalse => rfl

/-- Reads a signature, whatever follows it. -/
def declaration (fuel : Nat) : SignatureReader Signature := fun chars =>
  typeParameters fuel chars >>= fun (typeParameters, rest) =>
    body fuel rest >>= fun (body, rest) => return ({ typeParameters, body }, rest)

/-- A signature is a declaration with nothing behind it. -/
theorem signatureWithin_eq (fuel : Nat) (chars : List Char) :
    signatureWithin fuel chars =
      declaration fuel chars >>= fun (signature, rest) =>
        if rest.isEmpty then return signature else throw rest := by
  simp only [signatureWithin, declaration, bind_assoc, pure_bind]

end SignatureReader

namespace SignatureScanner

open Grammar (referenceWithin_array)
open SignatureReader (referenceWithin tailWithin argumentsWithin anyType classNameStops
  primitive? many)

/-- What a scan gives that meets some classes. -/
def meets (classes outer : List String) : Unit × List String :=
  ((), outer.foldl meet classes)

/-- Classes that are met one after the other are met in two parts. -/
theorem meets_append (classes first second : List String) :
    meets classes (first ++ second) = meets (meets classes first).2 second := by
  rw [meets, List.foldl_append]
  rfl

variable {text : String}

/-! ## What readers do -/

section

variable {chars : List Char}

/-- Behind an identifier is the character that stopped it. -/
theorem head?_of_identifier {stop : Char} {name : String} {rest : List Char}
    (hread : SignatureReader.identifier [stop] chars = .ok (name, rest)) :
    rest.head? = some stop := by
  unfold SignatureReader.identifier at hread
  simp only at hread
  split at hread
  case h_1 => cases hread
  case h_2 found more hrest =>
    split at hread
    case isTrue => cases hread
    case isFalse hfound =>
      cases hread
      have hsame : found = stop := by
        rw [Bool.or_eq_true, not_or, Bool.not_eq_true', Bool.not_eq_false] at hfound
        simpa using hfound.2
      rw [hrest, hsame, List.head?_cons]

/-- The byte ahead tells whether a primitive type is ahead. -/
theorem any_letter_head? (chars : List Char) :
    (Primitive.all.any fun type => some type.letter.toUInt8 == (encoded chars).head?) =
      (primitive? chars).isSome := by
  cases chars with
  | nil => rfl
  | cons char rest =>
    obtain ⟨byte, more, hbytes, hfirst⟩ := exists_first_byte char rest
    rw [hbytes]
    exact Primitive.any_letter_iff char hfirst

/-- There is no byte ahead exactly at the end of the text. -/
theorem head?_encoded_eq_none_iff (chars : List Char) :
    (encoded chars).head? = none ↔ chars = [] := by
  cases chars with
  | nil => exact iff_of_true rfl rfl
  | cons char rest =>
    obtain ⟨byte, hbyte, -⟩ := exists_head?_encoded char rest
    simp [hbyte]

/-- There is a byte ahead exactly where there is a character. -/
theorem isSome_head?_encoded (chars : List Char) :
    (encoded chars).head?.isSome = !chars.isEmpty := by
  rw [Bool.eq_iff_iff, Option.isSome_iff_ne_none, Ne, head?_encoded_eq_none_iff]
  simp

/-- What does not open with a parenthesis is read as types up to the end. -/
theorem body_eq {fuel : Nat} (hopen : chars.head? ≠ some '(') :
    SignatureReader.body fuel chars =
      if chars = [] then
        .error chars
      else
        many (fun chars => !chars.isEmpty) (anyType fuel) fuel chars >>= fun (types, rest) =>
          return (.types types, rest) := by
  unfold SignatureReader.body
  split
  case h_1 => rfl
  case h_2 => exact absurd List.head?_cons hopen
  case h_3 hempty _ => rw [if_neg hempty]

/-- Other characters start no reference type. -/
theorem referenceWithin_eq_error {fuel : Nat} (hclass : chars.head? ≠ some 'L')
    (hvariable : chars.head? ≠ some 'T') (harray : chars.head? ≠ some '[') :
    referenceWithin (fuel + 1) chars = .error chars := by
  unfold referenceWithin
  split
  case h_1 => exact absurd List.head?_cons hclass
  case h_2 => exact absurd List.head?_cons hvariable
  case h_3 => exact absurd List.head?_cons harray
  case h_4 => rfl

/-- Type arguments are read unless the brackets are empty. -/
theorem tailWithin_applied (fuel : Nat) (rest : List Char) :
    tailWithin (fuel + 1) ('<' :: rest) =
      (if rest.head? = some '>' then .error rest else argumentsWithin fuel rest) >>=
        fun (arguments, rest) => tailWithin fuel rest >>= fun (tail, rest) =>
          return (.applied arguments tail, rest) := by
  rw [tailWithin]
  split <;> rfl

/-- A type that follows no mark is an argument by itself. -/
theorem argumentsWithin_plain {fuel : Nat} (hclose : chars.head? ≠ some '>')
    (hwildcard : chars.head? ≠ some '*')
    (hbounded : ¬(chars.head? = some '+' ∨ chars.head? = some '-')) :
    argumentsWithin (fuel + 1) chars =
      referenceWithin fuel chars >>= fun (type, rest) =>
        argumentsWithin fuel rest >>= fun (more, rest) =>
          return (.typed .exactly type more, rest) := by
  rw [argumentsWithin]
  · rintro rest rfl
    exact hclose List.head?_cons
  · rintro rest rfl
    exact hwildcard List.head?_cons
  · rintro rest rfl
    exact hbounded (.inl List.head?_cons)
  · rintro rest rfl
    exact hbounded (.inr List.head?_cons)

/-- Other characters do not go on with a class type. -/
theorem tailWithin_eq_error {fuel : Nat} (happlied : chars.head? ≠ some '<')
    (hinner : chars.head? ≠ some '.') (hclose : chars.head? ≠ some ';') :
    tailWithin (fuel + 1) chars = .error chars := by
  unfold tailWithin
  split
  case h_1 => exact absurd List.head?_cons hclose
  case h_2 => exact absurd List.head?_cons hinner
  case h_3 => exact absurd List.head?_cons happlied
  case h_4 => rfl

end

section

variable {chars : List Char} (hchars : chars <:+ text.toList) (classes : List String)
include hchars

/-- The name of an outer class is met where it is read. -/
theorem follows_outerName :
    Follows text (outerName text) chars classes (fun name => meets classes [name])
      (SignatureReader.identifier classNameStops chars) := by
  have hstops : classNameStops ⊆ delimiters := by decide
  rw [← bind_pure (SignatureReader.identifier classNameStops chars)]
  refine (follows_identifier classes hchars hstops).bind fun name rest _ hrest => ?_
  exact ⟨List.suffix_rfl, Scan.ends_of_forall fun _ => rfl⟩

/-- An identifier is scanned with its stop where it is read so. -/
theorem follows_closedIdentifier {stop : Char} (hstop : stop ∈ delimiters) :
    Follows text (closedIdentifier text stop) chars classes (fun _ => ((), classes))
      (SignatureReader.closedIdentifier stop chars) := by
  have hstops : [stop] ⊆ delimiters := List.cons_subset.2 ⟨hstop, List.nil_subset _⟩
  refine (follows_identifier classes hchars hstops).bind fun name rest hread hrest => ?_
  obtain ⟨more, rfl⟩ := List.head?_eq_some_iff.1 (head?_of_identifier hread)
  refine ⟨List.suffix_cons stop more, Scan.ends_of_forall fun _ => ?_⟩
  exact runFrom_expect (utf8Size_delimiter hstop) (hrest.trans hchars) classes

/-- A type is scanned as it is read if that is so for reference types. -/
theorem follows_javaType {fuel : Nat}
    (hreference : Follows text (referenceType text) chars classes
      (fun type => meets classes type.outerClasses) (referenceWithin fuel chars)) :
    Follows text (javaType text) chars classes (fun type => meets classes type.outerClasses)
      (anyType fuel chars) := by
  refine Follows.deeper ?_
  simp only [javaType]
  refine Follows.peek hchars ?_
  rw [any_letter_head?]
  cases hprimitive : primitive? chars with
  | none =>
    simp only [Option.isSome_none, Bool.false_eq_true, ↓reduceIte, anyType, hprimitive]
    exact hreference
  | some type =>
    obtain ⟨letter, hhead, hletter⟩ := Option.bind_eq_some_iff.1 hprimitive
    obtain rfl := Primitive.letter_of_ofLetter? hletter
    obtain ⟨rest, rfl⟩ := List.head?_eq_some_iff.1 hhead
    simp only [Option.isSome_some, ↓reduceIte, anyType, hprimitive]
    have hsize : type.letter.utf8Size = 1 := by cases type <;> rfl
    exact follows_advance hsize hchars rfl

end

/-- Class types go as what follows the outer name. -/
theorem follows_classType {rest : List Char} (hchars : 'L' :: rest <:+ text.toList)
    (classes : List String) {fuel : Nat}
    (htail : ∀ behind classes, behind <:+ rest → Follows text (classTail text) behind classes
      (fun tail => meets classes tail.outerClasses) (tailWithin fuel behind)) :
    Follows text (classType text) ('L' :: rest) classes
      (fun type => meets classes type.outerClasses) (referenceWithin (fuel + 1) ('L' :: rest)) := by
  rw [referenceWithin]
  refine Follows.deeper ?_
  simp only [classType]
  refine Follows.expect rfl hchars ?_
  refine (follows_outerName (suffix_of_cons hchars) classes).bind fun outer behind _ hbehind => ?_
  exact (htail behind _ hbehind).map fun _ => rfl

/-- Type arguments go as what follows their opening bracket. -/
theorem follows_typeArguments {rest : List Char} (hchars : '<' :: rest <:+ text.toList)
    {classes : List String} {gives : TypeArguments → Unit × List String} {fuel : Nat}
    (harguments : Follows text (argumentList text) rest classes gives (argumentsWithin fuel rest)) :
    Follows text (typeArguments text) ('<' :: rest) classes gives
      (if rest.head? = some '>' then .error rest else argumentsWithin fuel rest) := by
  have hrest : rest <:+ text.toList := suffix_of_cons hchars
  refine Follows.deeper ?_
  simp only [typeArguments]
  refine Follows.expect rfl hchars (Follows.peek hrest ?_)
  simp (disch := decide) only [head?_encoded]
  refine Follows.ite (fun hclose => ?_) fun hclose => ?_
  · rw [if_pos hclose]
    exact follows_fail
  · rw [if_neg hclose]
    exact harguments

mutual

/-- A reference type is scanned as it is read. -/
theorem follows_referenceType (fuel : Nat) {chars : List Char} (hchars : chars <:+ text.toList)
    (hfuel : 2 * chars.length + 1 ≤ fuel) (classes : List String) :
    Follows text (referenceType text) chars classes (fun type => meets classes type.outerClasses)
      (referenceWithin fuel chars) := by
  cases fuel with
  | zero => omega
  | succ fuel =>
    refine Follows.deeper ?_
    simp only [referenceType]
    refine Follows.peek hchars ?_
    simp (disch := decide) only [head?_encoded]
    refine Follows.ite (fun hclass => ?classType) fun hclass => ?_
    case classType =>
      obtain ⟨rest, rfl⟩ := List.head?_eq_some_iff.1 hclass
      have hrest : rest <:+ text.toList := suffix_of_cons hchars
      rw [List.length_cons] at hfuel
      refine follows_classType hchars classes fun behind classes hbehind => ?_
      have hlength := hbehind.length_le
      exact follows_classTail fuel (hbehind.trans hrest) (by omega) classes
    refine Follows.ite (fun hvariable => ?typeVariable) fun hvariable => ?_
    case typeVariable =>
      obtain ⟨rest, rfl⟩ := List.head?_eq_some_iff.1 hvariable
      rw [referenceWithin]
      refine Follows.advance rfl hchars ?_
      have hrest : rest <:+ text.toList := suffix_of_cons hchars
      exact (follows_closedIdentifier hrest classes (by decide)).map fun _ => rfl
    refine Follows.ite (fun harray => ?array) fun harray => ?_
    case array =>
      obtain ⟨rest, rfl⟩ := List.head?_eq_some_iff.1 harray
      have hrest : rest <:+ text.toList := suffix_of_cons hchars
      rw [List.length_cons] at hfuel
      rw [referenceWithin_array]
      refine Follows.advance rfl hchars ?_
      have helement := follows_referenceType fuel hrest (by omega) classes
      exact (follows_javaType hrest classes helement).map fun _ => rfl
    rw [referenceWithin_eq_error hclass hvariable harray]
    exact follows_fail

/-- What follows an outer name is scanned as it is read. -/
theorem follows_classTail (fuel : Nat) {chars : List Char} (hchars : chars <:+ text.toList)
    (hfuel : 2 * chars.length + 1 ≤ fuel) (classes : List String) :
    Follows text (classTail text) chars classes (fun tail => meets classes tail.outerClasses)
      (tailWithin fuel chars) := by
  cases fuel with
  | zero => omega
  | succ fuel =>
    refine Follows.deeper ?_
    simp only [classTail]
    refine Follows.peek hchars ?_
    simp (disch := decide) only [head?_encoded]
    refine Follows.ite (fun happlied => ?applied) fun happlied => ?_
    case applied =>
      obtain ⟨rest, rfl⟩ := List.head?_eq_some_iff.1 happlied
      have hrest : rest <:+ text.toList := suffix_of_cons hchars
      rw [List.length_cons] at hfuel
      have harguments := follows_argumentList fuel hrest (by omega) classes
      rw [tailWithin_applied]
      have hlist := follows_typeArguments hchars harguments
      refine hlist.bind fun arguments behind hread hbehind => ?_
      have hlength := (hread ▸ hlist).shorter (typesEnd text _).typeArguments
      rw [List.length_cons] at hlength
      exact (follows_classTail fuel (hbehind.trans hchars) (by omega) _).map fun _ =>
        meets_append classes _ _
    refine Follows.ite (fun hinner => ?inner) fun hinner => ?_
    case inner =>
      obtain ⟨rest, rfl⟩ := List.head?_eq_some_iff.1 hinner
      have hrest : rest <:+ text.toList := suffix_of_cons hchars
      rw [List.length_cons] at hfuel
      rw [tailWithin]
      refine Follows.advance rfl hchars ?_
      refine (follows_identifier classes hrest (by decide)).bind fun name behind _ hbehind => ?_
      have hlength := hbehind.length_le
      exact (follows_classTail fuel (hbehind.trans hrest) (by omega) classes).map fun _ => rfl
    refine Follows.ite (fun hclose => ?close) fun hclose => ?_
    case close =>
      obtain ⟨rest, rfl⟩ := List.head?_eq_some_iff.1 hclose
      rw [tailWithin]
      exact follows_advance rfl hchars rfl
    rw [tailWithin_eq_error happlied hinner hclose]
    exact follows_fail

/-- Type arguments are scanned as they are read. -/
theorem follows_argumentList (fuel : Nat) {chars : List Char} (hchars : chars <:+ text.toList)
    (hfuel : 2 * chars.length + 2 ≤ fuel) (classes : List String) :
    Follows text (argumentList text) chars classes
      (fun arguments => meets classes arguments.outerClasses) (argumentsWithin fuel chars) := by
  cases fuel with
  | zero => omega
  | succ fuel =>
    -- A type is progress, with a mark or without one, so less fuel suffices behind it.
    have htyped (variance : Variance) {after : List Char} (hafter : after <:+ chars) :
        Follows text (fun depth => referenceType text depth >>= fun _ => argumentList text depth)
          after classes (fun arguments : TypeArguments => meets classes arguments.outerClasses)
          (referenceWithin fuel after >>= fun (type, rest) =>
            argumentsWithin fuel rest >>= fun (more, rest) =>
              return (.typed variance type more, rest)) := by
      have hlength := hafter.length_le
      have htype := follows_referenceType fuel (hafter.trans hchars) (by omega) classes
      refine htype.bind fun type behind hread hbehind => ?_
      have hshorter := (hread ▸ htype).shorter (typesEnd text _).referenceType
      have hat := hbehind.trans (hafter.trans hchars)
      exact (follows_argumentList fuel hat (by omega) _).map fun _ => meets_append classes _ _
    refine Follows.deeper ?_
    simp only [argumentList]
    refine Follows.peek hchars ?_
    simp (disch := decide) only [head?_encoded]
    refine Follows.ite (fun hclose => ?close) fun hclose => ?_
    case close =>
      obtain ⟨rest, rfl⟩ := List.head?_eq_some_iff.1 hclose
      rw [argumentsWithin]
      exact follows_advance rfl hchars rfl
    refine Follows.ite (fun hwildcard => ?wildcard) fun hwildcard => ?_
    case wildcard =>
      obtain ⟨rest, rfl⟩ := List.head?_eq_some_iff.1 hwildcard
      have hrest : rest <:+ text.toList := suffix_of_cons hchars
      rw [List.length_cons] at hfuel
      rw [argumentsWithin]
      refine Follows.advance rfl hchars ?_
      exact (follows_argumentList fuel hrest (by omega) classes).map fun _ => rfl
    refine Follows.ite (fun hbounded => ?bounded) fun hbounded => ?_
    case bounded =>
      rcases hbounded with hmark | hmark
      all_goals
        obtain ⟨rest, rfl⟩ := List.head?_eq_some_iff.1 hmark
        rw [argumentsWithin]
        exact Follows.advance rfl hchars (htyped _ (List.suffix_cons _ rest))
    rw [argumentsWithin_plain hclose hwildcard hbounded]
    exact htyped .exactly List.suffix_rfl

end

/-! ## Loops -/

section

variable {α : Type} {item : Nat → Scan Unit} {readItem : SignatureReader α}
  {outer : α → List String}

/-- A loop is scanned as it is read if its items are. -/
theorem follows_repeatWhile {continues : Option UInt8 → Bool} {goesOn : List Char → Bool}
    (hcontinues : ∀ chars, continues (encoded chars).head? = goesOn chars)
    (hends : ∀ before, continues (byteAt text before.offset) → EndsFrom text 1 item before)
    (hitem : ∀ chars classes, chars <:+ text.toList → goesOn chars →
      Follows text item chars classes (fun value => meets classes (outer value)) (readItem chars))
    (fuel : Nat) {chars : List Char} (hchars : chars <:+ text.toList)
    (hfuel : chars.length < fuel) (classes : List String) :
    Follows text (repeatWhile text continues item) chars classes
      (fun values => meets classes (values.flatMap outer)) (many goesOn readItem fuel chars) := by
  induction fuel generalizing chars classes with
  | zero => omega
  | succ fuel ih =>
    refine Follows.deeper ?_
    simp only [repeatWhile]
    refine Follows.peek hchars ?_
    rw [hcontinues, many]
    refine Follows.ite (fun hmore => ?more) fun hend => ?done
    case more =>
      rw [if_pos hmore]
      have hfirst := hitem chars classes hchars hmore
      have hprogress : EndsFrom text 1 item (inFront text chars classes) := by
        refine hends _ ?_
        rw [byteAt_inFront hchars, hcontinues, hmore]
      refine hfirst.bind fun first rest hread hrest => ?_
      have hshorter := (hread ▸ hfirst).shorter hprogress
      exact (ih (hrest.trans hchars) (by omega) _).map fun _ => meets_append classes _ _
    case done =>
      rw [if_neg hend]
      exact ⟨List.suffix_rfl, Scan.ends_of_forall fun _ => rfl⟩

/-- Reading up to a closing character, item by item. -/
theorem upTo_succ (closing : Char) (fuel : Nat) (chars : List Char) :
    SignatureReader.upTo closing readItem (fuel + 1) chars =
      if chars.head? = some closing then
        .ok ([], chars.drop 1)
      else
        readItem chars >>= fun (first, rest) =>
          SignatureReader.upTo closing readItem fuel rest >>= fun (others, rest) =>
            return (first :: others, rest) := by
  simp only [SignatureReader.upTo, many]
  by_cases hclose : chars.head? = some closing
  · simp [hclose]
    rfl
  · simp [hclose]

/-- Items up to a closing character are scanned as they are read. -/
theorem follows_upTo {closing : Char} (hclosing : closing.utf8Size = 1)
    (hends : ∀ before, EndsFrom text 1 item before)
    (hitem : ∀ chars classes, chars <:+ text.toList →
      Follows text item chars classes (fun value => meets classes (outer value)) (readItem chars))
    (fuel : Nat) {chars : List Char} (hchars : chars <:+ text.toList)
    (hfuel : chars.length < fuel) (classes : List String) :
    Follows text (upTo text closing item) chars classes
      (fun values => meets classes (values.flatMap outer))
      (SignatureReader.upTo closing readItem fuel chars) := by
  induction fuel generalizing chars classes with
  | zero => omega
  | succ fuel ih =>
    refine Follows.deeper ?_
    simp only [upTo]
    refine Follows.peek hchars ?_
    rw [upTo_succ]
    simp only [head?_encoded hclosing]
    refine Follows.ite (fun hclose => ?close) fun hclose => ?more
    case close =>
      rw [if_pos hclose]
      obtain ⟨rest, rfl⟩ := List.head?_eq_some_iff.1 hclose
      exact follows_advance hclosing hchars rfl
    case more =>
      rw [if_neg hclose]
      have hfirst := hitem chars classes hchars
      refine hfirst.bind fun first rest hread hrest => ?_
      have hshorter := (hread ▸ hfirst).shorter (hends _)
      exact (ih (hrest.trans hchars) (by omega) _).map fun _ => meets_append classes _ _

end

/-! ## Declarations -/

section

variable {fuel : Nat} (hfuel : 2 * text.toList.length + 2 ≤ fuel) {chars : List Char}
  (hchars : chars <:+ text.toList) (classes : List String)
include hfuel hchars

/-- At the depth for the whole text, a reference type is scanned as it is read. -/
theorem follows_reference :
    Follows text (referenceType text) chars classes (fun type => meets classes type.outerClasses)
      (referenceWithin fuel chars) := by
  have hlength := hchars.length_le
  exact follows_referenceType fuel hchars (by omega) classes

theorem follows_anyType :
    Follows text (javaType text) chars classes (fun type => meets classes type.outerClasses)
      (anyType fuel chars) :=
  follows_javaType hchars classes (follows_reference hfuel hchars classes)

theorem follows_marked {mark : Char} (hmark : mark.utf8Size = 1) :
    Follows text (marked text mark) chars classes
      (fun types => meets classes (types.flatMap SignatureType.outerClasses))
      (SignatureReader.marked mark fuel chars) := by
  have hlength := hchars.length_le
  refine follows_repeatWhile (fun chars => ?_) (fun before hahead => ?_)
    (fun chars classes hchars hhead => ?_) fuel hchars (by omega) classes
  · rw [Bool.eq_iff_iff, beq_iff_eq, decide_eq_true_eq, head?_encoded hmark]
  · refine (endsFrom_advance (lt_of_byteAt (eq_of_beq hahead))).andThen fun _ after _ _ => ?_
    exact (typesEnd text after).referenceType.weaken
  · obtain ⟨rest, rfl⟩ := List.head?_eq_some_iff.1 (of_decide_eq_true hhead)
    have hrest : rest <:+ text.toList := suffix_of_cons hchars
    exact Follows.advance hmark hchars (follows_reference hfuel hrest classes)

/-- A class bound is scanned as it is read, also if there is none. -/
theorem follows_classBound :
    Follows text (classBound text) chars classes
      (fun bound => meets classes ((bound.map SignatureType.outerClasses).getD []))
      (SignatureReader.classBound fuel chars) := by
  have hahead : (['L', 'T', '['].any fun letter => (encoded chars).head? == some letter.toUInt8) =
      chars.head?.any fun char => char = 'L' || char = 'T' || char = '[' := by
    rw [Bool.eq_iff_iff]
    simp (disch := decide) only [List.any_cons, List.any_nil, Bool.or_false, Bool.or_eq_true,
      beq_iff_eq, head?_encoded]
    cases chars <;> simp [or_assoc]
  unfold classBound SignatureReader.classBound
  refine Follows.peek hchars ?_
  rw [hahead]
  refine Follows.ite (fun hbound => ?_) fun hbound => ?_
  · rw [if_pos hbound]
    exact (follows_reference hfuel hchars classes).map fun _ => rfl
  · rw [if_neg hbound]
    exact ⟨List.suffix_rfl, Scan.ends_of_forall fun _ => rfl⟩

/-- A type parameter is scanned as it is read. -/
theorem follows_typeParameter :
    Follows text (typeParameter text) chars classes
      (fun parameter => meets classes parameter.outerClasses)
      (SignatureReader.typeParameter fuel chars) := by
  rw [SignatureReader.typeParameter_eq]
  unfold typeParameter
  refine (follows_closedIdentifier hchars classes (by decide)).bind fun name behind _ hbehind => ?_
  have hrest := hbehind.trans hchars
  refine (follows_classBound hfuel hrest classes).bind fun bound last _ hlast => ?_
  exact (follows_marked hfuel (hlast.trans hrest) _ rfl).map fun _ => meets_append classes _ _

/-- Type parameters go as what follows their opening bracket. -/
theorem follows_typeParameters {rest : List Char} (hopen : chars = '<' :: rest) :
    Follows text (typeParameters text) chars classes
      (fun parameters => meets classes (parameters.flatMap TypeParameter.outerClasses))
      (SignatureReader.upTo '>' (SignatureReader.typeParameter fuel) fuel rest) := by
  subst hopen
  have hrest : rest <:+ text.toList := suffix_of_cons hchars
  have hlength := hrest.length_le
  unfold typeParameters
  refine Follows.expect rfl hchars ?_
  exact follows_upTo rfl (endsFrom_typeParameter text)
    (fun chars classes hchars => follows_typeParameter hfuel hchars classes) fuel hrest (by omega)
    classes

/-- Type parameters are scanned as they are read, also if there are none. -/
theorem follows_header :
    Follows text (header text) chars classes
      (fun parameters => meets classes
        ((parameters.map (List.flatMap TypeParameter.outerClasses)).getD []))
      (SignatureReader.typeParameters fuel chars) := by
  unfold header
  refine Follows.peek hchars ?_
  simp (disch := decide) only [head?_encoded]
  refine Follows.ite (fun hopen => ?_) fun hopen => ?_
  · obtain ⟨rest, rfl⟩ := List.head?_eq_some_iff.1 hopen
    exact (follows_typeParameters hfuel hchars classes rfl).map fun _ => rfl
  · have hread : SignatureReader.typeParameters fuel chars = .ok (none, chars) := by
      unfold SignatureReader.typeParameters
      split
      case h_1 => exact absurd List.head?_cons hopen
      case h_2 => rfl
    rw [hread]
    exact ⟨List.suffix_rfl, Scan.ends_of_forall fun _ => rfl⟩

theorem follows_result :
    Follows text (result text) chars classes
      (fun type => meets classes ((type.map SignatureType.outerClasses).getD []))
      (SignatureReader.result fuel chars) := by
  unfold result
  refine Follows.peek hchars ?_
  simp (disch := decide) only [head?_encoded]
  refine Follows.ite (fun hvoid => ?_) fun hvoid => ?_
  · obtain ⟨rest, rfl⟩ := List.head?_eq_some_iff.1 hvoid
    exact follows_advance rfl hchars rfl
  · have hread : SignatureReader.result fuel chars =
        anyType fuel chars >>= fun (type, rest) => return (some type, rest) := by
      unfold SignatureReader.result
      split
      case h_1 => exact absurd List.head?_cons hvoid
      case h_2 => rfl
    rw [hread]
    exact (follows_anyType hfuel hchars classes).map fun _ => rfl

/-- Types or a method are scanned as they are read. -/
theorem follows_body :
    Follows text (body text) chars classes (fun body => meets classes body.outerClasses)
      (SignatureReader.body fuel chars) := by
  have hlength := hchars.length_le
  unfold body
  refine Follows.peek hchars ?_
  simp (disch := decide) only [head?_encoded, head?_encoded_eq_none_iff]
  refine Follows.ite (fun hopen => ?method) fun hopen => ?_
  case method =>
    obtain ⟨rest, rfl⟩ := List.head?_eq_some_iff.1 hopen
    have hrest : rest <:+ text.toList := suffix_of_cons hchars
    rw [List.length_cons] at hlength
    rw [SignatureReader.body]
    refine Follows.advance rfl hchars ?_
    have hparameters := follows_upTo (show Char.utf8Size ')' = 1 from rfl)
      (fun before => (typesEnd text before).javaType)
      (fun chars classes hchars => follows_anyType hfuel hchars classes) fuel hrest (by omega)
      classes
    refine hparameters.bind fun parameters behind _ hbehind => ?_
    have hat := hbehind.trans hrest
    refine (follows_result hfuel hat _).bind fun type last _ hlast => ?_
    refine (follows_marked hfuel (hlast.trans hat) _ rfl).map fun thrown => ?_
    rw [SignatureBody.outerClasses, meets_append, meets_append]
  rw [body_eq hopen]
  refine Follows.ite (fun hempty => ?_) fun hempty => ?_
  · rw [if_pos hempty]
    exact follows_fail
  · rw [if_neg hempty]
    have htypes := follows_repeatWhile isSome_head?_encoded
      (fun before _ => (typesEnd text before).javaType)
      (fun chars classes hchars _ => follows_anyType hfuel hchars classes) fuel hchars (by omega)
      classes
    exact htypes.map fun _ => rfl

end

/-! ## Whole signatures -/

/-- A signature is scanned as it is read, up to whatever may be behind it. -/
theorem follows_declaration {fuel : Nat} (hfuel : 2 * text.toList.length + 2 ≤ fuel)
    {chars : List Char} (hchars : chars <:+ text.toList) (classes : List String) :
    Follows text (declaration text) chars classes
      (fun signature => meets classes signature.outerClasses)
      (SignatureReader.declaration fuel chars) := by
  refine (follows_header hfuel hchars classes).bind fun parameters rest _ hrest => ?_
  exact (follows_body hfuel (hrest.trans hchars) _).map fun _ => meets_append classes _ _

/-- Meeting classes one after the other keeps each where it came up first. -/
theorem foldl_meet (kept names : List String) :
    names.foldl meet kept.eraseDups = (kept ++ names).eraseDups := by
  induction names generalizing kept with
  | nil => rw [List.append_nil, List.foldl_nil]
  | cons name names ih =>
    have hmeet : meet kept.eraseDups name = (kept ++ [name]).eraseDups := by
      by_cases hname : name ∈ kept
      · rw [meet, if_pos (List.mem_eraseDups.2 hname), eraseDups_concat_of_mem hname]
      · rw [meet, if_neg (hname ∘ List.mem_eraseDups.1), eraseDups_concat_of_notMem hname]
    rw [List.foldl_cons, hmeet, ih, List.append_assoc, List.singleton_append]

theorem scan_of_declaration {before after last : ScanState}
    {outcome : Except ScanFault (List String)}
    (hends : Scan.Ends (declaration text) before (.ok ()) after)
    (hlast : (if after.offset = text.utf8ByteSize then pure after.classes else fail :
        Scan (List String)).runFrom after = some (outcome, last)) :
    Scan.Ends (scan text) before outcome last :=
  hends.bind (Scan.ends_of_forall fun _ => hlast)

/-- The classes of a text come from the declaration that it starts with. -/
theorem distinctOuterClasses_eq (text : String) :
    distinctOuterClasses text =
      match SignatureReader.declaration (2 * text.toList.length + 2) text.toList with
      | .error rest => .error (.atRest text rest)
      | .ok (signature, rest) =>
        if rest = [] then
          .ok signature.outerClasses.eraseDups
        else
          .error (.atRest text rest) := by
  rw [distinctOuterClasses, Signature.parse, SignatureReader.signature,
    SignatureReader.signatureWithin_eq]
  rcases SignatureReader.declaration _ text.toList with rest | ⟨signature, _ | ⟨char, rest⟩⟩ <;> rfl

/-- **Scanning bytes is reading characters.** A scan of a whole text ends with the
distinct outer classes of the signature that is read, or where reading fails. -/
theorem scan_eq (text : String) :
    ∃ rest classes, rest <:+ text.toList ∧
      Scan.Ends (scan text) { offset := 0, classes := [] }
        ((distinctOuterClasses text).mapError fun error => .malformed error.offset)
        (inFront text rest classes) ∧
      ∀ error, distinctOuterClasses text = .error error →
        error.offset = (inFront text rest classes).offset := by
  have hstart : inFront text text.toList [] = { offset := 0, classes := [] } := by
    rw [inFront, Nat.sub_self]
  have hfollows :=
    follows_declaration (Nat.le_refl (2 * text.toList.length + 2)) List.suffix_rfl []
  rw [distinctOuterClasses_eq, ← hstart]
  rcases hread : SignatureReader.declaration _ text.toList with stopped | ⟨signature, rest⟩ <;>
    rw [hread] at hfollows
  case error =>
    obtain ⟨hstopped, classes, hends⟩ := hfollows
    refine ⟨stopped, classes, hstopped, hends.bind_error, fun error herror => ?_⟩
    cases herror
    rfl
  case ok =>
    obtain ⟨hrest, hends⟩ := hfollows
    refine ⟨rest, signature.outerClasses.foldl meet [], hrest, ?_⟩
    by_cases hempty : rest = []
    case pos =>
      simp only [if_pos hempty]
      refine ⟨scan_of_declaration hends ?_, fun error herror => by cases herror⟩
      rw [if_pos ((inFront_offset_eq_iff hrest _).2 hempty),
        ← List.nil_append signature.outerClasses, ← foldl_meet]
      rfl
    case neg =>
      simp only [if_neg hempty]
      refine ⟨scan_of_declaration hends ?_, fun error herror => ?_⟩
      · rw [if_neg ((inFront_offset_eq_iff hrest _).not.2 hempty)]
        rfl
      · cases herror
        rfl

end SignatureScanner
end ClassStub
