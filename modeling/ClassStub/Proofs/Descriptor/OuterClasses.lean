import ClassStub.Proofs.Descriptor.TypeReading

/-!
# The classes that signatures refer to

Lists of written items are read item by item (`Grammar.many_append`), and so are
type parameters, parameter types, bounds and thrown types.  A raw descriptor is
spelled like a signature without type variables and type arguments.  Hence every
signature and descriptor is read, and the classes that it refers to are the outer
classes that it names, each once (`Grammar.Written.distinctOuterClasses_text`).
-/

namespace ClassStub.Grammar

open SignatureReader

/-! ## Lists -/

section Lists

variable {α β : Type} (chars : α → List Char) {tree : α → β} {item : SignatureReader β}

/-- The spelling of one item is no longer than that of all items. -/
theorem length_le_flatMap {items : List α} {one : α} (h : one ∈ items) :
    (chars one).length ≤ (items.flatMap chars).length :=
  (List.sublist_flatten_of_mem (List.mem_map_of_mem h)).length_le

/-- If every item has a spelling, there are no more items than characters. -/
theorem length_le_length_flatMap (hchars : ∀ one, chars one ≠ []) (items : List α) :
    items.length ≤ (items.flatMap chars).length := by
  induction items with
  | nil => exact Nat.le_refl 0
  | cons first more ih =>
    have hfirst := List.length_pos_iff.2 (hchars first)
    rw [List.length_cons, List.flatMap_cons, List.length_append]
    omega

variable {chars} (follows : List Char → Prop) (continues : List Char → Bool)

/-- Written items are read up to a text that does not continue them, where an
item may depend on what follows it. -/
theorem many_append {items : List α}
    (hitem : ∀ one ∈ items, ∀ after, follows after →
      continues (chars one ++ after) = true ∧ item (chars one ++ after) = .ok (tree one, after))
    (hfollows : ∀ one after, follows (chars one ++ after)) {rest : List Char}
    (hrest : follows rest) (hstop : continues rest = false) (fuel : Nat)
    (hfuel : items.length < fuel) :
    many continues item fuel (items.flatMap chars ++ rest) = .ok (items.map tree, rest) := by
  induction items generalizing fuel with
  | nil =>
    obtain ⟨depth, rfl⟩ : ∃ depth, fuel = depth + 1 := ⟨fuel - 1, by grind⟩
    rw [List.flatMap_nil, List.nil_append, many, if_neg (by simp [hstop])]
    rfl
  | cons first more ih =>
    rw [List.length_cons] at hfuel
    obtain ⟨depth, rfl⟩ : ∃ depth, fuel = depth + 1 := ⟨fuel - 1, by omega⟩
    have hafter : follows (more.flatMap chars ++ rest) := by
      cases more with
      | nil => exact hrest
      | cons next more =>
        rw [List.flatMap_cons, List.append_assoc]
        exact hfollows next _
    obtain ⟨hcontinues, hfirst⟩ := hitem first List.mem_cons_self _ hafter
    have hmore := ih (fun one hone => hitem one (List.mem_cons_of_mem first hone)) depth (by omega)
    rw [List.flatMap_cons, List.append_assoc, many, if_pos hcontinues]
    simp only [Bind.bind, Except.bind, hfirst, hmore]
    rfl

/-- Written items are read up to the character that closes them. -/
theorem upTo_append {closing : Char} {items : List α}
    (hitem : ∀ one ∈ items, ∀ after, follows after →
      (chars one ++ after).head? ≠ some closing ∧
        item (chars one ++ after) = .ok (tree one, after))
    (hfollows : ∀ one after, follows (chars one ++ after)) {rest : List Char}
    (hrest : follows (closing :: rest)) (fuel : Nat) (hfuel : items.length < fuel) :
    upTo closing item fuel (items.flatMap chars ++ closing :: rest) =
      .ok (items.map tree, rest) := by
  have hmany := many_append follows (fun chars => chars.head? ≠ some closing)
    (fun one hone after hafter => (hitem one hone after hafter).imp_left decide_eq_true)
    hfollows hrest (by simp) fuel hfuel
  rw [upTo, hmany]
  rfl

end Lists

theorem ReferenceType.markedChars_ne_nil (mark : Char) (type : ReferenceType) :
    type.markedChars mark ≠ [] :=
  List.cons_ne_nil mark type.chars

/-- Every type is written with a character at least. -/
theorem JavaType.chars_ne_nil (type : JavaType) : type.chars ≠ [] := by
  obtain ⟨head, more, hchars, _⟩ := type.exists_head
  simp [hchars]

/-- Written types behind marks are read up to another character. -/
theorem marked_append {mark : Char} (types : List ReferenceType) {rest : List Char}
    (hrest : rest.head? ≠ some mark) (fuel : Nat)
    (hfuel : 2 * (types.flatMap (ReferenceType.markedChars mark)).length < fuel) :
    marked mark fuel (types.flatMap (ReferenceType.markedChars mark) ++ rest) =
      .ok (types.map ReferenceType.tree, rest) := by
  have hlength := length_le_length_flatMap _ (ReferenceType.markedChars_ne_nil mark) types
  refine many_append (fun _ => True) _ (fun type htype after _ => ?_) (fun _ _ => trivial) trivial
    (by simpa using hrest) fuel (by omega)
  have htext := length_le_flatMap (ReferenceType.markedChars mark) htype
  simp only [ReferenceType.markedChars, List.length_cons] at htext
  exact ⟨by simp [ReferenceType.markedChars], type.reads fuel after (by omega)⟩

/-! ## Declarations -/

/-- The class bound as it is read, if there is one. -/
def Bounds.classTree : Bounds → Option SignatureType
  | .ofClass bound _ => some bound.tree
  | .ofInterfaces _ _ => none

/-- The interface bounds as they are read. -/
def Bounds.interfaceTrees : Bounds → List SignatureType
  | .ofClass _ interfaces => interfaces.map ReferenceType.tree
  | .ofInterfaces first more => (first :: more).map ReferenceType.tree

/-- A type parameter as it is read. -/
def TypeParameter.tree (parameter : TypeParameter) : ClassStub.TypeParameter where
  name := String.ofList parameter.name.chars
  classBound := parameter.bounds.classTree
  interfaceBounds := parameter.bounds.interfaceTrees

/-- Types as they are read name the classes that they name as they are written. -/
theorem flatMap_outerClasses_tree (types : List ReferenceType) :
    (types.map ReferenceType.tree).flatMap SignatureType.outerClasses =
      types.flatMap ReferenceType.classes := by
  simp only [List.flatMap_map, ReferenceType.outerClasses_tree]

/-- A type parameter as it is read names the classes of its bounds. -/
theorem TypeParameter.outerClasses_tree (parameter : TypeParameter) :
    parameter.tree.outerClasses = parameter.classes := by
  obtain ⟨name, bounds⟩ := parameter
  cases bounds with
  | ofClass bound interfaces =>
    simp only [TypeParameter.tree, ClassStub.TypeParameter.outerClasses, Bounds.classTree,
      Bounds.interfaceTrees, Option.map_some, Option.getD_some, bound.outerClasses_tree,
      flatMap_outerClasses_tree]
    rfl
  | ofInterfaces first more =>
    simp only [TypeParameter.tree, ClassStub.TypeParameter.outerClasses, Bounds.classTree,
      Bounds.interfaceTrees, Option.map_none, Option.getD_none, List.nil_append,
      flatMap_outerClasses_tree]
    rfl

/-- A written type parameter is read up to a character that does not add a bound. -/
theorem TypeParameter.reads (parameter : TypeParameter) (fuel : Nat) {rest : List Char}
    (hrest : rest.head? ≠ some ':') (hfuel : 2 * parameter.chars.length < fuel) :
    typeParameter fuel (parameter.chars ++ rest) = .ok (parameter.tree, rest) := by
  obtain ⟨name, bounds⟩ := parameter
  simp only [TypeParameter.chars, List.length_append, List.length_cons] at hfuel
  rw [TypeParameter.chars, List.append_assoc, List.cons_append, typeParameter,
    closedIdentifier_append name.nameChars rfl]
  cases bounds with
  | ofClass bound interfaces =>
    simp only [Bounds.chars, List.length_append] at hfuel
    have hbound := bound.reads fuel (interfaces.flatMap (ReferenceType.markedChars ':') ++ rest)
      (by omega)
    have hinterfaces := marked_append interfaces hrest fuel (by omega)
    obtain ⟨head, more, hchars, hhead⟩ := bound.exists_head
    have hstarts : (bound.chars ++ (interfaces.flatMap (ReferenceType.markedChars ':') ++
        rest)).head?.any (fun char => char = 'L' || char = 'T' || char = '[') = true := by
      rw [hchars]
      simpa [or_assoc] using hhead
    simp only [Bounds.chars, List.append_assoc, Bind.bind, Except.bind, Pure.pure, Except.pure,
      hstarts, ↓reduceIte, hbound, hinterfaces]
    rfl
  | ofInterfaces first more =>
    simp only [Bounds.chars] at hfuel
    have hinterfaces := marked_append (first :: more) hrest fuel (by omega)
    have hstarts : ((first :: more).flatMap (ReferenceType.markedChars ':') ++
        rest).head?.any (fun char => char = 'L' || char = 'T' || char = '[') = false := rfl
    simp only [Bounds.chars, Bind.bind, Except.bind, Pure.pure, Except.pure, hstarts,
      Bool.false_eq_true, ↓reduceIte, hinterfaces]
    rfl

/-- What declared type parameters are read as. -/
def declared (parameters : List TypeParameter) : Option (List ClassStub.TypeParameter) :=
  if parameters = [] then none else some (parameters.map TypeParameter.tree)

/-- A type parameter begins with a character of its name. -/
theorem TypeParameter.exists_head (parameter : TypeParameter) :
    ∃ head more, parameter.chars = head :: more ∧ head ≠ '>' ∧ head ≠ ':' := by
  obtain ⟨⟨chars, hnonempty, hplain⟩, bounds⟩ := parameter
  obtain ⟨head, more, rfl⟩ := List.exists_cons_of_ne_nil hnonempty
  have hhead := hplain head List.mem_cons_self
  refine ⟨head, _, rfl, ?_, ?_⟩ <;> rintro rfl <;> exact hhead (by decide)

theorem TypeParameter.chars_ne_nil (parameter : TypeParameter) : parameter.chars ≠ [] := by
  obtain ⟨head, more, hchars, _⟩ := parameter.exists_head
  simp [hchars]

/-- Written type parameters are read with their brackets, or as none without them.
-/
theorem typeParameters_bracketed (parameters : List TypeParameter) (fuel : Nat) {rest : List Char}
    (hrest : rest.head? ≠ some '<')
    (hfuel : 2 * (parameters.flatMap TypeParameter.chars).length < fuel) :
    typeParameters fuel (bracketed (parameters.flatMap TypeParameter.chars) ++ rest) =
      .ok (declared parameters, rest) := by
  by_cases hnone : parameters = []
  · subst hnone
    rw [bracketed, List.flatMap_nil, if_pos rfl, List.nil_append, typeParameters]
    · rfl
    · rintro after rfl
      exact hrest rfl
  · obtain ⟨first, more, rfl⟩ := List.exists_cons_of_ne_nil hnone
    have hlength := length_le_length_flatMap _ TypeParameter.chars_ne_nil (first :: more)
    have hread : upTo '>' (typeParameter fuel) fuel
        ((first :: more).flatMap TypeParameter.chars ++ '>' :: rest) =
          .ok ((first :: more).map TypeParameter.tree, rest) := by
      refine upTo_append (fun after => after.head? ≠ some ':') (fun one hone after hafter => ?_)
        (fun one after => ?_) (by simp) fuel (by omega)
      · obtain ⟨head, others, hchars, hhead, -⟩ := one.exists_head
        have hlength := length_le_flatMap TypeParameter.chars hone
        exact ⟨by simp [hchars, hhead], one.reads fuel hafter (by omega)⟩
      · obtain ⟨head, others, hchars, -, hhead⟩ := one.exists_head
        simp [hchars, hhead]
    rw [bracketed, if_neg (by simp [first.chars_ne_nil]), List.cons_append, List.cons_append,
      List.append_assoc, List.singleton_append, typeParameters, hread]
    rfl

/-! ## Signatures -/

/-- Brackets do not make a text shorter. -/
theorem length_le_bracketed (inside : List Char) : inside.length ≤ (bracketed inside).length := by
  rw [bracketed]
  split
  · simp_all
  · rw [List.length_append, List.length_cons]
    omega

theorem many_types (types : List JavaType) (fuel : Nat)
    (hfuel : 2 * (types.flatMap JavaType.chars).length < fuel) :
    many (fun chars => !chars.isEmpty) (anyType fuel) fuel (types.flatMap JavaType.chars) =
      .ok (types.map JavaType.tree, []) := by
  have hlength := length_le_length_flatMap _ JavaType.chars_ne_nil types
  have hmany : many (fun chars => !chars.isEmpty) (anyType fuel) fuel
      (types.flatMap JavaType.chars ++ []) = .ok (types.map JavaType.tree, []) := by
    refine many_append (fun _ => True) _ (fun type htype after _ => ?_) (fun _ _ => trivial)
      trivial rfl fuel (by omega)
    have htext := length_le_flatMap JavaType.chars htype
    exact ⟨by simp [type.chars_ne_nil], type.reads fuel after (by omega)⟩
  rwa [List.append_nil] at hmany

theorem parameters_append (types : List JavaType) (fuel : Nat) (rest : List Char)
    (hfuel : 2 * (types.flatMap JavaType.chars).length < fuel) :
    upTo ')' (anyType fuel) fuel (types.flatMap JavaType.chars ++ ')' :: rest) =
      .ok (types.map JavaType.tree, rest) := by
  have hlength := length_le_length_flatMap _ JavaType.chars_ne_nil types
  refine upTo_append (fun _ => True) (fun type htype after _ => ?_) (fun _ _ => trivial) trivial
    fuel (by omega)
  have htext := length_le_flatMap JavaType.chars htype
  obtain ⟨head, more, hchars, hhead⟩ := type.exists_head
  refine ⟨?_, type.reads fuel after (by omega)⟩
  rw [hchars, List.cons_append, List.head?_cons]
  grind

/-- A written result is read, whatever follows it. -/
theorem result_append (returned : Option JavaType) (fuel : Nat) (rest : List Char)
    (hfuel : 2 * (resultChars JavaType.chars returned).length ≤ fuel) :
    result fuel (resultChars JavaType.chars returned ++ rest) =
      .ok (returned.map JavaType.tree, rest) := by
  cases returned with
  | none => rfl
  | some type =>
    have hread := type.reads fuel rest hfuel
    obtain ⟨head, more, hchars, hhead⟩ := type.exists_head
    rw [hchars, List.cons_append] at hread
    rw [resultChars, hchars, List.cons_append, result, hread]
    · rfl
    · rintro after hafter
      exact hhead (by simp [(List.cons.inj hafter).1])

/-- Types one behind the other are read as such. -/
theorem body_types {types : List JavaType} (htypes : types ≠ []) (fuel : Nat)
    (hfuel : 2 * (types.flatMap JavaType.chars).length < fuel) :
    body fuel (types.flatMap JavaType.chars) = .ok (.types (types.map JavaType.tree), []) := by
  have hmany := many_types types fuel hfuel
  obtain ⟨first, more, rfl⟩ := List.exists_cons_of_ne_nil htypes
  obtain ⟨head, after, hchars, hhead⟩ := first.exists_head
  rw [List.flatMap_cons, hchars, List.cons_append] at hmany ⊢
  rw [body, hmany]
  · rfl
  · simp
  · rintro others hothers
    exact hhead (by simp [(List.cons.inj hothers).1])

/-- What a method is read as. -/
def MethodSignature.tree (signature : MethodSignature) : SignatureBody :=
  .method (signature.parameters.map JavaType.tree) (signature.result.map JavaType.tree)
    ((signature.thrown.map Thrown.toType).map ReferenceType.tree)

/-- A method is read with its parameters, result and thrown types. -/
theorem body_method (signature : MethodSignature) (fuel : Nat)
    (hfuel : 2 * signature.bodyChars.length < fuel) :
    body fuel signature.bodyChars = .ok (signature.tree, []) := by
  simp only [MethodSignature.bodyChars, List.length_append, List.length_cons] at hfuel
  have hparameters := parameters_append signature.parameters fuel
    (resultChars JavaType.chars signature.result ++
      (signature.thrown.map Thrown.toType).flatMap (ReferenceType.markedChars '^')) (by omega)
  have hresult := result_append signature.result fuel
    ((signature.thrown.map Thrown.toType).flatMap (ReferenceType.markedChars '^')) (by omega)
  have hnone : ([] : List Char).head? ≠ some '^' := by simp
  have hthrown := marked_append (signature.thrown.map Thrown.toType) hnone fuel (by omega)
  rw [List.append_nil] at hthrown
  simp only [MethodSignature.bodyChars, List.append_assoc, List.cons_append, body, Bind.bind,
    Except.bind, hparameters, hresult, hthrown]
  rfl

/-- What declared type parameters and a text behind them are read as. -/
theorem parse_bracketed (parameters : List TypeParameter) {text : List Char}
    {form : SignatureBody} (hstart : text.head? ≠ some '<')
    (hbody : ∀ fuel, 2 * text.length < fuel → body fuel text = .ok (form, [])) :
    Signature.parse (String.ofList (bracketed (parameters.flatMap TypeParameter.chars) ++ text)) =
      .ok { typeParameters := declared parameters, body := form } := by
  have hinside := length_le_bracketed (parameters.flatMap TypeParameter.chars)
  generalize hdepth : 2 * (bracketed (parameters.flatMap TypeParameter.chars) ++
    text).length + 2 = depth
  rw [List.length_append] at hdepth
  have hparameters := typeParameters_bracketed parameters depth hstart (by omega)
  rw [Signature.parse, String.toList_ofList, signature, List.length_append, hdepth,
    signatureWithin, hparameters]
  simp only [Bind.bind, Except.bind, hbody depth (by omega)]
  rfl

/-- A signature of types is read as a whole. -/
theorem parse_types (parameters : List TypeParameter) {types : List JavaType}
    (htypes : types ≠ []) :
    Signature.parse (String.ofList (bracketed (parameters.flatMap TypeParameter.chars) ++
        types.flatMap JavaType.chars)) =
      .ok { typeParameters := declared parameters, body := .types (types.map JavaType.tree) } := by
  refine parse_bracketed parameters ?_ (body_types htypes)
  obtain ⟨first, more, rfl⟩ := List.exists_cons_of_ne_nil htypes
  obtain ⟨head, after, hchars, hhead⟩ := first.exists_head
  rw [List.flatMap_cons, hchars, List.cons_append, List.head?_cons]
  grind

/-- A signature of a method is read as a whole. -/
theorem parse_method (signature : MethodSignature) :
    Signature.parse (String.ofList
        (bracketed (signature.typeParameters.flatMap TypeParameter.chars) ++ signature.bodyChars)) =
      .ok { typeParameters := declared signature.typeParameters, body := signature.tree } :=
  parse_bracketed signature.typeParameters (by simp [MethodSignature.bodyChars])
    (body_method signature)

/-! ## Raw descriptors -/

/-- A raw type as a type of signatures, with the same spelling. -/
def RawType.type : RawType → JavaType
  | .primitive type => .primitive type
  | .object outer => .reference (.classType (.mk outer .none .none))
  | .array element => .reference (.array element.type)

/-- A raw type is spelled like the type without type arguments. -/
theorem RawType.chars_type (type : RawType) : type.type.chars = type.chars := by
  induction type with
  | primitive type => rfl
  | object outer =>
    simp [RawType.type, RawType.chars, JavaType.chars, ReferenceType.chars, ClassType.chars,
      Arguments.chars, Members.chars, bracketed]
  | array element ih =>
    rw [RawType.type, RawType.chars, JavaType.chars, ReferenceType.chars, ih]

/-- A raw type names the same classes as that type. -/
theorem RawType.classes_type (type : RawType) : type.type.classes = type.classes := by
  induction type with
  | primitive type => rfl
  | object outer =>
    simp [RawType.type, RawType.classes, JavaType.classes, ReferenceType.classes,
      ClassType.classes, Arguments.classes, Members.classes]
  | array element ih =>
    rw [RawType.type, RawType.classes, JavaType.classes, ReferenceType.classes, ih]

/-! ## Signatures and descriptors -/

/-- Declared type parameters name the classes of their bounds. -/
theorem outerClasses_declared (parameters : List TypeParameter) :
    ((declared parameters).map (List.flatMap ClassStub.TypeParameter.outerClasses)).getD [] =
      parameters.flatMap TypeParameter.classes := by
  by_cases hnone : parameters = []
  · simp [declared, hnone]
  · simp [declared, hnone, List.flatMap_map, TypeParameter.outerClasses_tree]

/-- A signature of types refers to the classes that its parts name. -/
theorem distinctOuterClasses_types (parameters : List TypeParameter) {types : List JavaType}
    (htypes : types ≠ []) :
    distinctOuterClasses (String.ofList
        (bracketed (parameters.flatMap TypeParameter.chars) ++ types.flatMap JavaType.chars)) =
      .ok (parameters.flatMap TypeParameter.classes ++
        types.flatMap JavaType.classes).eraseDups := by
  have hclasses : ({ typeParameters := declared parameters
                     body := .types (types.map JavaType.tree) } : Signature).outerClasses =
      parameters.flatMap TypeParameter.classes ++ types.flatMap JavaType.classes := by
    simp only [Signature.outerClasses, SignatureBody.outerClasses, outerClasses_declared,
      List.flatMap_map, JavaType.outerClasses_tree]
  rw [distinctOuterClasses, parse_types parameters htypes, ← hclasses]
  rfl

/-- A signature of a method refers to the classes that its parts name. -/
theorem distinctOuterClasses_method (signature : MethodSignature) :
    distinctOuterClasses (Written.methodSignature signature).text =
      .ok (Written.methodSignature signature).classes.eraseDups := by
  have hresult : ((signature.result.map JavaType.tree).map SignatureType.outerClasses).getD [] =
      resultClasses JavaType.classes signature.result := by
    cases signature.result with
    | none => rfl
    | some type => exact type.outerClasses_tree
  have hclasses : ({ typeParameters := declared signature.typeParameters
                     body := signature.tree } : Signature).outerClasses =
      (Written.methodSignature signature).classes := by
    simp only [Signature.outerClasses, MethodSignature.tree, SignatureBody.outerClasses,
      outerClasses_declared, hresult, List.flatMap_map, JavaType.outerClasses_tree,
      ReferenceType.outerClasses_tree, Written.classes, List.append_assoc]
  rw [distinctOuterClasses, Written.text, Written.chars, parse_method signature, ← hclasses]
  rfl

/-- A method descriptor is a method signature without type parameters and
without thrown types. -/
def rawMethod (parameters : List RawType) (result : Option RawType) : MethodSignature where
  typeParameters := []
  parameters := parameters.map RawType.type
  result := result.map RawType.type
  thrown := []

/-- The descriptor of a method is spelled like a signature of raw types. -/
theorem text_rawMethod (parameters : List RawType) (result : Option RawType) :
    (Written.methodSignature (rawMethod parameters result)).text =
      (Written.methodDescriptor parameters result).text := by
  cases result <;>
    simp [Written.text, Written.chars, rawMethod, MethodSignature.bodyChars, bracketed,
      resultChars, List.flatMap_map, RawType.chars_type]

/-- The descriptor of a method names the classes of that signature. -/
theorem classes_rawMethod (parameters : List RawType) (result : Option RawType) :
    (Written.methodSignature (rawMethod parameters result)).classes =
      (Written.methodDescriptor parameters result).classes := by
  cases result <;>
    simp [Written.classes, rawMethod, resultClasses, List.flatMap_map, RawType.classes_type]

/-- A signature or descriptor of the grammar refers to the outer classes that it
names, each once, in the order of their first appearance. -/
theorem Written.distinctOuterClasses_text (written : Written) :
    distinctOuterClasses written.text = .ok written.classes.eraseDups := by
  cases written with
  | classSignature signature =>
    have hread := distinctOuterClasses_types signature.typeParameters
      (List.cons_ne_nil (.reference (.classType signature.superclass))
        (signature.superinterfaces.map fun type => .reference (.classType type)))
    simpa only [text, chars, classes, List.flatMap_cons, List.flatMap_map, JavaType.chars,
      JavaType.classes, ReferenceType.chars, ReferenceType.classes, List.append_assoc] using hread
  | methodSignature signature => exact distinctOuterClasses_method signature
  | fieldSignature type =>
    have hread := distinctOuterClasses_types [] (List.cons_ne_nil (.reference type) [])
    simpa [text, chars, classes, bracketed, JavaType.chars, JavaType.classes] using hread
  | methodDescriptor parameters result =>
    rw [← text_rawMethod, ← classes_rawMethod]
    exact distinctOuterClasses_method (rawMethod parameters result)
  | fieldDescriptor type =>
    have hread := distinctOuterClasses_types [] (List.cons_ne_nil type.type [])
    simpa [text, chars, classes, bracketed, type.chars_type, type.classes_type] using hread

end ClassStub.Grammar
