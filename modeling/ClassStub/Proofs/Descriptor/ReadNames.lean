import ClassStub.ClassName
import ClassStub.Proofs.Codec.Interning
import ClassStub.Descriptor.Signature

/-!
# The names that are read

The classes that a signature is read to refer to have names without the characters
that structure signatures (`Signature.readable_of_parse`): where one comes up, a name
ends.  Names without dots stay apart in dotted form (`ClassName.toBinary_inj`), so
among the classes of one signature nothing is the same in dotted form that was not
the same before.
-/

namespace ClassStub

/-- Names that hold no dot. -/
def Dotless (names : List String) : Prop :=
  ∀ name ∈ names, '.' ∉ name.toList

/-- Names that signatures can be read to hold. -/
def Readable (names : List String) : Prop :=
  ∀ name ∈ names, ∀ char ∈ name.toList, SignatureReader.isNameChar char

/-- A dot ends a name, so it is in none. -/
theorem Readable.dotless {names : List String} (hnames : Readable names) : Dotless names :=
  fun name hname hdot => absurd (hnames name hname '.' hdot) (by decide)

namespace ClassName

/-- The slashed form of a name in dotted form. -/
def toSlashed (binary : String) : String :=
  binary.map fun char => if char = '.' then '/' else char

/-- The slashed form comes back if it held no dot. -/
theorem toSlashed_toBinary {name : String} (hname : '.' ∉ name.toList) :
    toSlashed (toBinary name) = name := by
  rw [← String.toList_inj, toSlashed, toBinary, String.toList_map, String.toList_map, List.map_map]
  refine (List.map_congr_left fun char hchar => ?_).trans (List.map_id name.toList)
  have hdot : char ≠ '.' := fun hsame => hname (hsame ▸ hchar)
  by_cases hslash : char = '/'
  · simp [hslash]
  · simp [hslash, hdot]

/-- Names without dots stay apart in dotted form. -/
theorem toBinary_inj {first second : String} (hfirst : '.' ∉ first.toList)
    (hsecond : '.' ∉ second.toList) (hsame : toBinary first = toBinary second) :
    first = second := by
  rw [← toSlashed_toBinary hfirst, hsame, toSlashed_toBinary hsecond]

end ClassName

/-! ## Names -/

namespace SignatureReader

/-- Whatever a reader reads has a property. -/
def Gives {α : Type} (reader : SignatureReader α) (property : α → Prop) : Prop :=
  ∀ chars value rest, reader chars = .ok (value, rest) → property value

/-- An identifier is read up to the first character that structures signatures. -/
theorem gives_identifier (stops : List Char) :
    Gives (identifier stops) fun name => ∀ char ∈ name.toList, isNameChar char := by
  intro chars name rest hread
  unfold identifier at hread
  simp only at hread
  split at hread
  case h_1 => cases hread
  case h_2 =>
    split at hread
    case isTrue => cases hread
    case isFalse =>
      cases hread
      rw [String.toList_ofList]
      exact List.all_eq_true.1 List.all_takeWhile

/-! ## Types -/

mutual

/-- The outer classes of a type that is read have names of identifiers. -/
theorem gives_referenceWithin (fuel : Nat) :
    Gives (referenceWithin fuel) fun type => Readable type.outerClasses := by
  intro chars type rest hread
  cases fuel with
  | zero => cases hread
  | succ fuel =>
    unfold referenceWithin at hread
    split at hread
    case h_1 after =>
      simp only [bind_eq_ok] at hread
      obtain ⟨⟨outer, behind⟩, houter, ⟨tail, last⟩, htail, hsame⟩ := hread
      cases hsame
      have hinner := gives_tailWithin fuel _ _ _ htail
      exact List.forall_mem_cons.2 ⟨gives_identifier _ _ _ _ houter, hinner⟩
    case h_2 after =>
      obtain ⟨⟨name, behind⟩, _, hsame⟩ := bind_eq_ok.1 hread
      cases hsame
      exact List.forall_mem_nil _
    case h_3 after =>
      split at hread
      case h_1 =>
        cases hread
        exact List.forall_mem_nil _
      case h_2 =>
        obtain ⟨⟨element, behind⟩, helement, hsame⟩ := bind_eq_ok.1 hread
        cases hsame
        have hinner : Readable element.outerClasses := gives_referenceWithin fuel _ _ _ helement
        exact hinner
    case h_4 => cases hread

/-- What follows the outer name of a class refers to readable names. -/
theorem gives_tailWithin (fuel : Nat) :
    Gives (tailWithin fuel) fun tail => Readable tail.outerClasses := by
  intro chars tail rest hread
  cases fuel with
  | zero => cases hread
  | succ fuel =>
    unfold tailWithin at hread
    split at hread
    case h_1 after =>
      cases hread
      exact List.forall_mem_nil _
    case h_2 after =>
      simp only [bind_eq_ok] at hread
      obtain ⟨_, _, ⟨inner, last⟩, hinner, hsame⟩ := hread
      cases hsame
      have hmore : Readable inner.outerClasses := gives_tailWithin fuel _ _ _ hinner
      exact hmore
    case h_3 after =>
      split at hread
      case isTrue => cases hread
      case isFalse =>
        simp only [bind_eq_ok] at hread
        obtain ⟨⟨arguments, behind⟩, harguments, ⟨inner, last⟩, hinner, hsame⟩ := hread
        cases hsame
        have happlied := gives_argumentsWithin fuel _ _ _ harguments
        have hmore := gives_tailWithin fuel _ _ _ hinner
        exact List.forall_mem_append.2 ⟨happlied, hmore⟩
    case h_4 => cases hread

/-- Type arguments refer to readable names. -/
theorem gives_argumentsWithin (fuel : Nat) :
    Gives (argumentsWithin fuel) fun arguments => Readable arguments.outerClasses := by
  intro chars arguments rest hread
  cases fuel with
  | zero => cases hread
  | succ fuel =>
    have htyped : ∀ variance after, (do
        let (type, rest) ← referenceWithin fuel after
        let (more, rest) ← argumentsWithin fuel rest
        return (TypeArguments.typed variance type more, rest)) = .ok (arguments, rest) →
        Readable arguments.outerClasses := by
      intro variance after hafter
      simp only [bind_eq_ok] at hafter
      obtain ⟨⟨type, behind⟩, htype, ⟨more, last⟩, hmore, hsame⟩ := hafter
      cases hsame
      have hfirst := gives_referenceWithin fuel _ _ _ htype
      have hothers := gives_argumentsWithin fuel _ _ _ hmore
      exact List.forall_mem_append.2 ⟨hfirst, hothers⟩
    unfold argumentsWithin at hread
    split at hread
    case h_1 after =>
      cases hread
      exact List.forall_mem_nil _
    case h_2 after =>
      obtain ⟨⟨more, behind⟩, hmore, hsame⟩ := bind_eq_ok.1 hread
      cases hsame
      have hothers : Readable more.outerClasses := gives_argumentsWithin fuel _ _ _ hmore
      exact hothers
    case h_3 after => exact htyped _ _ hread
    case h_4 after => exact htyped _ _ hread
    case h_5 => exact htyped _ _ hread

end

/-- A type refers to readable names. -/
theorem gives_anyType (fuel : Nat) :
    Gives (anyType fuel) fun type => Readable type.outerClasses := by
  intro chars type rest hread
  unfold anyType at hread
  split at hread
  case h_1 =>
    cases hread
    exact List.forall_mem_nil _
  case h_2 => exact gives_referenceWithin fuel _ _ _ hread

/-! ## Signatures -/

section

variable {α : Type} {item : SignatureReader α} {property : α → Prop}

/-- What every item has, all items that are read have. -/
theorem gives_many (hitem : Gives item property) (continues : List Char → Bool) (fuel : Nat) :
    Gives (many continues item fuel) fun items => ∀ one ∈ items, property one := by
  induction fuel with
  | zero =>
    intro chars items rest hread
    cases hread
  | succ fuel ih =>
    intro chars items rest hread
    unfold many at hread
    split at hread
    case isTrue =>
      simp only [bind_eq_ok] at hread
      obtain ⟨⟨first, behind⟩, hfirst, ⟨more, last⟩, hmore, hsame⟩ := hread
      cases hsame
      exact List.forall_mem_cons.2 ⟨hitem _ _ _ hfirst, ih _ _ _ hmore⟩
    case isFalse =>
      cases hread
      exact List.forall_mem_nil _

theorem gives_upTo (hitem : Gives item property) (closing : Char) (fuel : Nat) :
    Gives (upTo closing item fuel) fun items => ∀ one ∈ items, property one := by
  intro chars items rest hread
  obtain ⟨⟨found, behind⟩, hfound, hsame⟩ := bind_eq_ok.1 hread
  cases hsame
  exact gives_many hitem _ fuel _ _ _ hfound

end

/-- Types behind marks refer to readable names. -/
theorem gives_marked (mark : Char) (fuel : Nat) :
    Gives (marked mark fuel) fun types => ∀ type ∈ types, Readable type.outerClasses := by
  refine gives_many (fun chars type rest hread => ?_) _ fuel
  exact gives_referenceWithin fuel _ _ _ hread

/-- The bounds of a type parameter refer to readable names. -/
theorem gives_typeParameter (fuel : Nat) :
    Gives (typeParameter fuel) fun parameter => Readable parameter.outerClasses := by
  intro chars parameter rest hread
  obtain ⟨⟨name, behind⟩, _, hread⟩ := bind_eq_ok.1 hread
  dsimp only at hread
  split at hread
  case isTrue =>
    simp only [bind_eq_ok] at hread
    obtain ⟨⟨bound, after⟩, hbound, _, hfound, ⟨bounds, last⟩, hbounds, hsame⟩ := hread
    cases hfound
    cases hsame
    have hclass := gives_referenceWithin fuel _ _ _ hbound
    have hinterfaces := List.forall_mem_flatMap.2 (gives_marked ':' fuel _ _ _ hbounds)
    exact List.forall_mem_append.2 ⟨hclass, hinterfaces⟩
  case isFalse =>
    simp only [bind_eq_ok] at hread
    obtain ⟨_, hfound, ⟨bounds, last⟩, hbounds, hsame⟩ := hread
    cases hfound
    cases hsame
    have hinterfaces := List.forall_mem_flatMap.2 (gives_marked ':' fuel _ _ _ hbounds)
    exact List.forall_mem_append.2 ⟨List.forall_mem_nil _, hinterfaces⟩

theorem gives_typeParameters (fuel : Nat) :
    Gives (typeParameters fuel) fun parameters =>
      Readable ((parameters.map (List.flatMap TypeParameter.outerClasses)).getD []) := by
  intro chars parameters rest hread
  unfold typeParameters at hread
  split at hread
  case h_1 after =>
    obtain ⟨⟨found, behind⟩, hfound, hsame⟩ := bind_eq_ok.1 hread
    cases hsame
    exact List.forall_mem_flatMap.2 (gives_upTo (gives_typeParameter fuel) '>' fuel _ _ _ hfound)
  case h_2 =>
    cases hread
    exact List.forall_mem_nil _

/-- A result refers to readable names. -/
theorem gives_result (fuel : Nat) :
    Gives (result fuel) fun type => Readable ((type.map SignatureType.outerClasses).getD []) := by
  intro chars type rest hread
  unfold result at hread
  split at hread
  case h_1 after =>
    cases hread
    exact List.forall_mem_nil _
  case h_2 =>
    obtain ⟨⟨found, behind⟩, hfound, hsame⟩ := bind_eq_ok.1 hread
    cases hsame
    exact gives_anyType fuel _ _ _ hfound

/-- What follows the type parameters refers to readable names. -/
theorem gives_body (fuel : Nat) : Gives (body fuel) fun body => Readable body.outerClasses := by
  intro chars found rest hread
  unfold body at hread
  split at hread
  case h_1 => cases hread
  case h_2 after =>
    simp only [bind_eq_ok] at hread
    obtain ⟨⟨parameters, _⟩, hparameters, ⟨type, _⟩, htype, ⟨thrown, _⟩, hthrown, hsame⟩ := hread
    cases hsame
    have hfirst := gives_upTo (gives_anyType fuel) ')' fuel _ _ _ hparameters
    have hlast := gives_marked '^' fuel _ _ _ hthrown
    exact List.forall_mem_append.2 ⟨List.forall_mem_append.2
      ⟨List.forall_mem_flatMap.2 hfirst, gives_result fuel _ _ _ htype⟩,
      List.forall_mem_flatMap.2 hlast⟩
  case h_3 =>
    obtain ⟨⟨types, behind⟩, htypes, hsame⟩ := bind_eq_ok.1 hread
    cases hsame
    exact List.forall_mem_flatMap.2 (gives_many (gives_anyType fuel) _ fuel _ _ _ htypes)

end SignatureReader

open SignatureReader

/-- The classes that a text refers to as a signature have names that hold none of the
characters which structure signatures. -/
theorem Signature.readable_of_parse {text : String} {tree : Signature}
    (htree : Signature.parse text = .ok tree) : Readable tree.outerClasses := by
  rw [Signature.parse, mapError_eq_ok, signature, signatureWithin] at htree
  simp only [bind_eq_ok] at htree
  obtain ⟨⟨parameters, behind⟩, hparameters, ⟨found, last⟩, hbody, hend⟩ := htree
  split at hend
  case isTrue =>
    cases hend
    exact List.forall_mem_append.2
      ⟨gives_typeParameters _ _ _ _ hparameters, gives_body _ _ _ _ hbody⟩
  case isFalse => cases hend

/-- The names in a signature that is read hold no dots. -/
theorem Signature.dotless_of_parse {text : String} {tree : Signature}
    (htree : Signature.parse text = .ok tree) : Dotless tree.outerClasses :=
  (Signature.readable_of_parse htree).dotless

end ClassStub
