import ClassStub.Descriptor.Source
import ClassStub.Proofs.Descriptor.ByteScan

/-!
# Splitting method descriptors

A method descriptor splits into the descriptors of its parameter types and of its
result.  What a text may split into is said without reading it (`SplitsAs`): the
parts are field types, spelled one after the other between the parentheses.
Reading finds the only way to split a text (`MethodDescriptor.split_eq_ok_iff`).
The parts lie between characters wherever bytes are counted, rendering a method
never fails on them, and they determine the slots that the parameters take
(`MethodDescriptor.splits_faithfully`).
-/

namespace ClassStub

/-! ## Texts -/

/-- Any number of `[`, and then the letter of a primitive type, or `L`, a name that
is not empty and holds no `;`, and `;`. -/
def IsFieldType (text : String) : Prop :=
  ∃ (dimensions : Nat) (element : List Char),
    text.toList = List.replicate dimensions '[' ++ element ∧
      ((∃ letter ∈ ['B', 'C', 'D', 'F', 'I', 'J', 'S', 'Z'], element = [letter]) ∨
        ∃ name, name ≠ [] ∧ ';' ∉ name ∧ element = 'L' :: name ++ [';'])

/-- A type is written as a text exactly if it has the characters of the text. -/
theorem FieldType.descriptor_eq_iff {type : FieldType} {text : String} :
    type.descriptor = text ↔ type.chars = text.toList := by
  rw [← String.toList_inj, descriptor, String.toList_ofList]

/-- What a type is written as is the descriptor of a type. -/
theorem FieldType.isFieldType_descriptor (type : FieldType) : IsFieldType type.descriptor := by
  unfold IsFieldType
  rw [descriptor, String.toList_ofList]
  induction type with
  | primitive type =>
    refine ⟨0, [type.letter], rfl, .inl ⟨type.letter, ?_, rfl⟩⟩
    cases type <;> decide
  | object name =>
    exact ⟨0, _, rfl, .inr ⟨name.text.toList, name.nonempty, name.delimited, rfl⟩⟩
  | array element ih =>
    obtain ⟨dimensions, base, hchars, hbase⟩ := ih
    refine ⟨dimensions + 1, base, ?_, hbase⟩
    rw [chars, hchars, List.replicate_succ, List.cons_append]

/-- Two slots are taken by the types with the letters of a long and a double. -/
theorem FieldType.slots_eq (type : FieldType) :
    type.slots = 1 + if type.descriptor = "J" ∨ type.descriptor = "D" then 1 else 0 := by
  simp only [FieldType.descriptor_eq_iff]
  cases type with
  | primitive type => cases type <;> rfl
  | object name => simp [FieldType.slots, FieldType.chars]
  | array element => simp [FieldType.slots, FieldType.chars]

/-- Every text of the form is the descriptor of a field type. -/
theorem IsFieldType.exists_type {text : String} (htext : IsFieldType text) :
    ∃ type : FieldType, type.descriptor = text := by
  obtain ⟨dimensions, element, hchars, helement⟩ := htext
  suffices hdimensions : ∃ type : FieldType,
      type.chars = List.replicate dimensions '[' ++ element by
    obtain ⟨type, htype⟩ := hdimensions
    exact ⟨type, FieldType.descriptor_eq_iff.2 (htype.trans hchars.symm)⟩
  clear hchars
  induction dimensions with
  | zero =>
    rcases helement with ⟨letter, hletter, rfl⟩ | ⟨name, hname, hclear, rfl⟩
    · have hletters : ['B', 'C', 'D', 'F', 'I', 'J', 'S', 'Z'] =
          Primitive.all.map Primitive.letter := rfl
      rw [hletters] at hletter
      obtain ⟨type, _, rfl⟩ := List.mem_map.1 hletter
      exact ⟨.primitive type, rfl⟩
    · refine ⟨.object { text := String.ofList name, nonempty := ?_, delimited := ?_ }, ?_⟩
      · simpa using hname
      · simpa using hclear
      · simp [FieldType.chars]
  | succ dimensions ih =>
    obtain ⟨type, htype⟩ := ih
    exact ⟨.array type, by rw [FieldType.chars, htype, List.replicate_succ, List.cons_append]⟩

/-- A text is made of parameter types between parentheses and a result. -/
structure SplitsAs (text : String) (parameters : List String) (result : String) : Prop where
  spelled : text = "(" ++ String.join parameters ++ ")" ++ result
  parameters : ∀ parameter ∈ parameters, IsFieldType parameter
  result : result = "V" ∨ IsFieldType result

namespace MethodDescriptor

/-! ## Splitting -/

/-- The descriptors of the parameter types and of the result. -/
def parts (type : MethodDescriptor) : List String × String :=
  (type.parameters.map FieldType.descriptor, type.resultDescriptor)

/-- The parts of the method descriptor that a text spells. -/
def split (text : String) : Except DescriptorError (List String × String) :=
  parts <$> parse text

/-- A written descriptor splits into its parts. -/
theorem splitsAs_parts (type : MethodDescriptor) :
    SplitsAs (String.ofList type.chars) type.parts.1 type.parts.2 where
  spelled := by
    have hjoin : (String.join (type.parameters.map FieldType.descriptor)).toList =
        type.parameters.flatMap FieldType.chars := by
      rw [String.toList_join, List.flatMap_map]
      simp only [FieldType.descriptor, String.toList_ofList]
    rw [← String.toList_inj]
    simp [parts, hjoin, resultDescriptor, chars]
  parameters := by
    intro parameter hparameter
    obtain ⟨type, _, rfl⟩ := List.mem_map.1 hparameter
    exact type.isFieldType_descriptor
  result := by
    cases hresult : type.result with
    | none => exact .inl (by rw [parts, resultDescriptor, hresult]; rfl)
    | some result =>
      refine .inr ?_
      rw [parts, resultDescriptor, hresult]
      exact result.isFieldType_descriptor

/-- What a text splits into are the parts of a descriptor. -/
theorem exists_parts_eq {text : String} {parameters : List String} {result : String}
    (hsplits : SplitsAs text parameters result) :
    ∃ type : MethodDescriptor, type.parts = (parameters, result) ∧
      text = String.ofList type.chars := by
  have hparameters : parameters ∈ Set.range (List.map FieldType.descriptor) := by
    rw [Set.range_list_map]
    exact fun parameter hparameter => (hsplits.parameters parameter hparameter).exists_type
  obtain ⟨types, rfl⟩ := hparameters
  have hresult : ∃ type : Option FieldType, String.ofList (resultChars type) = result := by
    rcases hsplits.result with rfl | htype
    · exact ⟨none, rfl⟩
    · obtain ⟨type, rfl⟩ := htype.exists_type
      exact ⟨some type, rfl⟩
  obtain ⟨resultType, rfl⟩ := hresult
  let type : MethodDescriptor := { parameters := types, result := resultType }
  exact ⟨type, rfl, hsplits.spelled.trans type.splitsAs_parts.spelled.symm⟩

/-- A text is parsed exactly as the descriptor that is written so. -/
theorem parse_eq_ok_iff {text : String} {type : MethodDescriptor} :
    parse text = .ok type ↔ text = String.ofList type.chars := by
  constructor
  · intro htype
    rw [parse, mapError_eq_ok] at htype
    rw [← chars_of_read htype, String.ofList_toList]
  · rintro rfl
    exact type.parse_chars

/-- A text splits into what is read and into nothing else. -/
theorem split_eq_ok_iff {text : String} {parameters : List String} {result : String} :
    split text = .ok (parameters, result) ↔ SplitsAs text parameters result := by
  have hsplit : split text = .ok (parameters, result) ↔
      ∃ type, parse text = .ok type ∧ type.parts = (parameters, result) := by
    unfold split
    cases parse text with
    | error cause => simp
    | ok type => simp
  rw [hsplit]
  constructor
  · rintro ⟨type, htype, hparts⟩
    have hsplits := type.splitsAs_parts
    rwa [hparts, ← parse_eq_ok_iff.1 htype] at hsplits
  · intro hsplits
    obtain ⟨type, hparts, htext⟩ := exists_parts_eq hsplits
    exact ⟨type, parse_eq_ok_iff.2 htext, hparts⟩

/-! ## Rendering -/

/-- The text of a result type in source code. -/
theorem sourceTypeName_resultDescriptor (type : MethodDescriptor) :
    sourceTypeName type.resultDescriptor = .ok type.resultName := by
  unfold resultDescriptor resultName
  cases type.result with
  | none => rfl
  | some result => exact sourceTypeName_descriptor result

/-- The parts of a descriptor have the source names of its types. -/
theorem mapM_sourceTypeName (types : List FieldType) :
    (types.map FieldType.descriptor).mapM sourceTypeName =
      .ok (types.map FieldType.sourceName) := by
  induction types with
  | nil => rfl
  | cons type types ih =>
    rw [List.map_cons, List.mapM_cons, sourceTypeName_descriptor, ih]
    rfl

/-- A method is rendered from the parts of its descriptor, each spelled as source
code spells it; no part fails. -/
theorem sourceMethod_eq_split (flags : AccessFlags) (name text : String) :
    sourceMethod flags name text = do
      let (parameters, result) ← split text
      let names ← parameters.mapM sourceTypeName
      let resultName ← sourceTypeName result
      return withModifiers (flags.modifiers .methodDeclaration)
        (resultName ++ " " ++ name ++ "(" ++ ", ".intercalate names ++ ")") := by
  unfold sourceMethod split
  cases parse text with
  | error cause => rfl
  | ok type =>
    have hnames := mapM_sourceTypeName type.parameters
    have hresult := type.sourceTypeName_resultDescriptor
    simp only [parts, Functor.map, Except.map, Bind.bind, Except.bind, hnames, hresult]

/-! ## Slots -/

/-- A part stands for two slots if it is `J` or `D`, and for one otherwise. -/
def slotsOfParts (parameters : List String) : Nat :=
  parameters.length + parameters.countP fun parameter => parameter = "J" ∨ parameter = "D"

/-- The slots of a descriptor are those of its parts. -/
theorem argumentSlots_eq (type : MethodDescriptor) :
    type.argumentSlots = slotsOfParts type.parts.1 := by
  obtain ⟨parameters, result⟩ := type
  unfold slotsOfParts parts
  induction parameters with
  | nil => rfl
  | cons parameter parameters ih =>
    rw [argumentSlots_cons, ih, FieldType.slots_eq]
    simp only [List.map_cons, List.length_cons, List.countP_cons, decide_eq_true_eq]
    omega

/-! ## Offsets -/

/-- The ranges of a method descriptor hold its parts. -/
theorem ranges_cut (type : MethodDescriptor) :
    List.Forall₂ (fun range part => range.Cuts (String.ofList type.chars) part)
        type.ranges.1 type.parts.1 ∧
      type.ranges.2.Cuts (String.ofList type.chars) type.parts.2 := by
  have hspelled := type.splitsAs_parts.spelled
  constructor
  · have hcut := ByteRange.cuts_consecutive "(" (")" ++ type.parts.2) type.parts.1
    have hchars : type.parts.1.map String.toList = type.parameters.map FieldType.chars := by
      simp [parts, FieldType.descriptor]
    rwa [hchars, ← String.append_assoc, ← hspelled] at hcut
  · have hcut := ByteRange.cuts_append (String.ofList (parameterChars type.parameters))
      type.parts.2 ""
    have htext : String.ofList (parameterChars type.parameters) ++ type.parts.2 =
        String.ofList type.chars := by
      rw [chars_eq, String.ofList_append]
      rfl
    rw [← String.utf8ByteSize_append, String.append_empty, htext, ← utf8Length_toList,
      ← utf8Length_toList, String.toList_ofList, String.toList_ofList] at hcut
    exact hcut

/-- A scan of the bytes of a text fails where reading the text does, and otherwise
cuts the text into the parts it splits into. -/
theorem descriptorRanges_split (text : String) :
    match split text with
    | .error cause =>
      cause.text = text ∧
        descriptorRanges text.toByteArray.data.toList = .error cause.offset
    | .ok (parameters, result) =>
      ∃ ranges last, descriptorRanges text.toByteArray.data.toList = .ok (ranges, last) ∧
        List.Forall₂ (fun range part => range.Cuts text part) ranges parameters ∧
        last.Cuts text result := by
  rw [← encoded_toList, descriptorRanges_encoded, split]
  cases hread : read text.toList with
  | error rest =>
    have hparse : parse text = .error (DescriptorError.atRest text rest) := by
      rw [parse, hread]
      rfl
    rw [hparse]
    exact ⟨rfl, rfl⟩
  | ok type =>
    have hparse : parse text = .ok type := by
      rw [parse, hread]
      rfl
    obtain ⟨hparameters, hresult⟩ := type.ranges_cut
    rw [← parse_eq_ok_iff.1 hparse] at hparameters hresult
    rw [hparse]
    exact ⟨type.ranges.1, type.ranges.2, rfl, hparameters, hresult⟩

/-- What holds of splitting a text as a method descriptor. -/
structure SplitsFaithfully (text : String) : Prop where
  /-- The text splits into parameters and a result exactly if it is made of them. -/
  split_iff : ∀ parameters result,
    split text = .ok (parameters, result) ↔ SplitsAs text parameters result
  /-- There is one way at most. -/
  unique : ∀ parameters result others other, SplitsAs text parameters result →
    SplitsAs text others other → parameters = others ∧ result = other
  /-- The bytes are cut between characters, into the same parts. -/
  ranges : match split text with
    | .error cause =>
      cause.text = text ∧
        descriptorRanges text.toByteArray.data.toList = .error cause.offset
    | .ok (parameters, result) =>
      ∃ ranges last, descriptorRanges text.toByteArray.data.toList = .ok (ranges, last) ∧
        List.Forall₂ (fun range part => range.Cuts text part) ranges parameters ∧
        last.Cuts text result
  /-- A method is rendered exactly if its descriptor splits. -/
  rendered : ∀ flags name,
    (∃ declaration, sourceMethod flags name text = .ok declaration) ↔
      ∃ parameters result, split text = .ok (parameters, result)
  /-- The parameters that are read take one slot each, and another one if they are
  `J` or `D`. -/
  counted : ∀ type, parse text = .ok type → type.argumentSlots = slotsOfParts type.parts.1
  /-- A call without a receiver pops one slot for each parameter and another one for
  each that is `J` or `D`, as long as a word counts them. -/
  slots : ∀ parameters result, SplitsAs text parameters result →
    slotsOfParts parameters ≤ maxWord → ∀ method : MemberRef, method.descriptor = text →
      (·.popped) <$> Instruction.callEffect method 0 = .ok (slotsOfParts parameters)

/-- A method has a declaration in source form exactly if its descriptor splits. -/
theorem sourceMethod_eq_ok_iff (flags : AccessFlags) (name text : String) :
    (∃ declaration, sourceMethod flags name text = .ok declaration) ↔
      ∃ parameters result, split text = .ok (parameters, result) := by
  constructor
  · rintro ⟨declaration, hmethod⟩
    rw [sourceMethod_eq_split, bind_eq_ok] at hmethod
    obtain ⟨⟨parameters, result⟩, hsplit, _⟩ := hmethod
    exact ⟨parameters, result, hsplit⟩
  · rintro ⟨parameters, result, hsplit⟩
    obtain ⟨type, hparts, _⟩ := exists_parts_eq (split_eq_ok_iff.1 hsplit)
    obtain ⟨rfl, rfl⟩ := Prod.mk.inj hparts
    rw [sourceMethod_eq_split, hsplit]
    simp only [Bind.bind, Except.bind, mapM_sourceTypeName, sourceTypeName_resultDescriptor]
    exact ⟨_, rfl⟩

/-- A call without a receiver pops the slots of the parts. -/
theorem callEffect_popped {text : String} {parameters : List String} {result : String}
    (hsplits : SplitsAs text parameters result) (hslots : slotsOfParts parameters ≤ maxWord)
    {method : MemberRef} (hmethod : method.descriptor = text) :
    (·.popped) <$> Instruction.callEffect method 0 = .ok (slotsOfParts parameters) := by
  obtain ⟨type, hparts, htext⟩ := exists_parts_eq hsplits
  have hcount : type.argumentSlots = slotsOfParts parameters := by
    rw [argumentSlots_eq, hparts]
  have hfits : ¬maxWord < type.argumentSlots := by
    rw [hcount]
    exact Nat.not_lt.2 hslots
  simp only [Instruction.callEffect, hmethod, parse_eq_ok_iff.2 htext, Except.mapError, Bind.bind,
    Except.bind, Nat.add_zero, hfits, ↓reduceIte]
  rw [← hcount]
  rfl

/-- **Every text splits as a method descriptor in one way at most.** The parts are
found where there are any; they lie between characters, have names in source code
and tell the slots that the parameters take. -/
theorem splits_faithfully (text : String) : SplitsFaithfully text where
  split_iff parameters result := split_eq_ok_iff
  unique parameters result others other hfirst hsecond := by
    have hsame := (split_eq_ok_iff.2 hfirst).symm.trans (split_eq_ok_iff.2 hsecond)
    exact Prod.mk.inj (Except.ok.inj hsame)
  ranges := descriptorRanges_split text
  rendered flags name := sourceMethod_eq_ok_iff flags name text
  counted type _ := type.argumentSlots_eq
  slots parameters result hsplits hslots method hmethod :=
    callEffect_popped hsplits hslots hmethod

/-- Class names may hold parentheses, brackets, letters of primitive types and
characters of several bytes. -/
def sampleText : String := "([JLp/(é)[D;DLT;)[Lq/)V;"

/-- The sample splits into four parameters and a result, which take five slots. -/
theorem splits_faithfully_sampleText :
    split sampleText = .ok (["[J", "Lp/(é)[D;", "D", "LT;"], "[Lq/)V;") ∧
      (·.popped) <$> Instruction.callEffect
        { owner := "A", name := "f", descriptor := sampleText } 0 =
          .ok 5 := by
  have hsplits : SplitsAs sampleText ["[J", "Lp/(é)[D;", "D", "LT;"] "[Lq/)V;" := by
    refine ⟨by decide, ?_, .inr ⟨1, "Lq/)V;".toList, rfl, .inr ⟨"q/)V".toList, by decide⟩⟩⟩
    simp only [List.forall_mem_cons]
    refine ⟨⟨1, ['J'], rfl, .inl ⟨'J', by decide, rfl⟩⟩,
      ⟨0, _, rfl, .inr ⟨"p/(é)[D".toList, by decide⟩⟩, ⟨0, _, rfl, .inl ⟨'D', by decide, rfl⟩⟩,
      ⟨0, _, rfl, .inr ⟨['T'], by decide⟩⟩, List.forall_mem_nil _⟩
  have hsample := splits_faithfully sampleText
  exact ⟨(hsample.split_iff _ _).2 hsplits,
    hsample.slots _ _ hsplits (by decide) _ rfl⟩

end MethodDescriptor

end ClassStub
