import ClassStub.ClassFile.Equality
import ClassStub.Proofs.Codec.Layout

/-!
# Editing tables of attributes

A place knows a few names of attributes.  Those with another name are passed over
by their lengths, and those with different known names set different parts of a
declaration.  Hence a class stays the same when an attribute with an unknown name
is inserted into one of its tables, and when a table is reordered whose known
names are distinct (`ClassFile.decode_edited`).  This goes for the tables of the
class, of its fields and methods, and of their code.
-/

namespace ClassStub

open Decoder

/-! ## Names that a place knows -/

namespace Attribute

/-- The names of the attributes that any declaration can have. -/
def declarationNames : List String :=
  ["Signature", "Deprecated", "RuntimeVisibleAnnotations", "RuntimeInvisibleAnnotations"]

/-- The names that are known in the table of a class. -/
def classNames : List String :=
  "InnerClasses" :: declarationNames

/-- The names that are known in the table of a field. -/
def fieldNames : List String :=
  "ConstantValue" :: declarationNames

/-- The names that are known in the table of a method. -/
def methodNames : List String :=
  "Code" :: "Exceptions" :: "RuntimeVisibleParameterAnnotations" ::
    "RuntimeInvisibleParameterAnnotations" :: "AnnotationDefault" :: declarationNames

/-- A place recognises exactly the given names, and an attribute that it decodes
has the name by which it was recognised. -/
structure Recognises (recognise : Recognition Attribute) (names : List String) : Prop where
  known : ∀ name ∈ names, (recognise name).isSome
  mem : ∀ name decoder, recognise name = some decoder → name ∈ names
  named : ∀ name decoder, recognise name = some decoder →
    decoder.Gives fun item => item.name = name

/-- Any declaration reads the attributes with names of its own. -/
theorem recognises_ofDeclaration (pool : Pool) :
    Recognises (ofDeclaration pool) declarationNames where
  known := by
    simp only [declarationNames, List.forall_mem_cons]
    exact ⟨rfl, rfl, rfl, rfl, List.forall_mem_nil _⟩
  mem := by
    intro name decoder hknown
    unfold ofDeclaration at hknown
    split at hknown
    · simp [declarationNames]
    · simp [declarationNames]
    · simp [declarationNames]
    · simp [declarationNames]
    · cases hknown
  named := by
    intro name decoder hknown
    unfold ofDeclaration at hknown
    split at hknown
    · cases hknown
      exact Gives.bind_any fun _ => Gives.bind_any fun _ => Gives.pure rfl
    · cases hknown
      exact Gives.pure rfl
    · cases hknown
      exact Gives.bind_any fun _ => Gives.pure rfl
    · cases hknown
      exact Gives.bind_any fun _ => Gives.pure rfl
    · cases hknown

/-- A class reads the attributes that it knows by their names. -/
theorem recognises_ofClass (pool : Pool) : Recognises (ofClass pool) classNames where
  known := by
    refine List.forall_mem_cons.2 ⟨rfl, fun name hname => ?_⟩
    have hdeclared := (recognises_ofDeclaration pool).known name hname
    rwa [ofClass_eq_ofDeclaration pool name hdeclared]
  mem := by
    intro name decoder hknown
    unfold ofClass at hknown
    split at hknown
    · exact List.mem_cons_self
    · exact List.mem_cons_of_mem _ ((recognises_ofDeclaration pool).mem _ decoder hknown)
  named := by
    intro name decoder hknown
    unfold ofClass at hknown
    split at hknown
    · cases hknown
      exact Gives.bind_any fun _ => Gives.bind_any fun _ => Gives.pure rfl
    · exact (recognises_ofDeclaration pool).named _ decoder hknown

theorem recognises_ofField (pool : Pool) (descriptor : String) :
    Recognises (ofField pool descriptor) fieldNames where
  known := by
    refine List.forall_mem_cons.2 ⟨rfl, fun name hname => ?_⟩
    have hdeclared := (recognises_ofDeclaration pool).known name hname
    rwa [ofField_eq_ofDeclaration pool descriptor name hdeclared]
  mem := by
    intro name decoder hknown
    unfold ofField at hknown
    split at hknown
    · exact List.mem_cons_self
    · exact List.mem_cons_of_mem _ ((recognises_ofDeclaration pool).mem _ decoder hknown)
  named := by
    intro name decoder hknown
    unfold ofField at hknown
    split at hknown
    · cases hknown
      exact Gives.bind_any fun _ => Gives.bind_any fun _ => Gives.pure rfl
    · exact (recognises_ofDeclaration pool).named _ decoder hknown

theorem recognises_ofMethod (pool : Pool) : Recognises (ofMethod pool) methodNames where
  known := by
    simp only [methodNames, List.forall_mem_cons]
    refine ⟨rfl, rfl, rfl, rfl, rfl, fun name hname => ?_⟩
    have hdeclared := (recognises_ofDeclaration pool).known name hname
    rwa [ofMethod_eq_ofDeclaration pool name hdeclared]
  mem := by
    intro name decoder hknown
    unfold ofMethod at hknown
    split at hknown
    · simp [methodNames]
    · simp [methodNames]
    · simp [methodNames]
    · simp [methodNames]
    · simp [methodNames]
    · have hdeclared := (recognises_ofDeclaration pool).mem _ decoder hknown
      simp [methodNames, hdeclared]
  named := by
    intro name decoder hknown
    unfold ofMethod at hknown
    split at hknown
    · cases hknown
      exact Gives.bind_any fun _ => Gives.pure rfl
    · cases hknown
      exact Gives.bind_any fun _ => Gives.pure rfl
    · cases hknown
      exact Gives.bind_any fun _ => Gives.pure rfl
    · cases hknown
      exact Gives.bind_any fun _ => Gives.pure rfl
    · cases hknown
      exact Gives.bind_any fun _ => Gives.pure rfl
    · exact (recognises_ofDeclaration pool).named _ decoder hknown

/-- An attribute with another name is not read. -/
theorem Recognises.eq_none {recognise : Recognition Attribute} {names : List String}
    (hplace : Recognises recognise names) {name : String} (hname : name ∉ names) :
    recognise name = none := by
  cases hknown : recognise name with
  | none => rfl
  | some decoder => exact absurd (hplace.mem name decoder hknown) hname

/-! ## Attributes with different names -/

/-- A declaration takes attributes with different names in any order. -/
def Commutes {β : Type} (withAttribute : β → Attribute → β) : Prop :=
  ∀ base first second, first.name ≠ second.name →
    withAttribute (withAttribute base first) second =
      withAttribute (withAttribute base second) first

/-- A field takes attributes with different names in either order. -/
theorem commutes_field : Commutes Field.withAttribute := by
  intro base first second hne
  rcases first with _ | _ | ⟨_ | _, _⟩ | ⟨_ | _, _⟩ | _ | _ | _ | _ | _ <;>
    rcases second with _ | _ | ⟨_ | _, _⟩ | ⟨_ | _, _⟩ | _ | _ | _ | _ | _ <;>
      first | rfl | exact absurd rfl hne

theorem commutes_method : Commutes Method.withAttribute := by
  intro base first second hne
  rcases first with _ | _ | ⟨_ | _, _⟩ | ⟨_ | _, _⟩ | _ | _ | _ | _ | _ <;>
    rcases second with _ | _ | ⟨_ | _, _⟩ | ⟨_ | _, _⟩ | _ | _ | _ | _ | _ <;>
      first | rfl | exact absurd rfl hne

/-- A class takes attributes with different names in either order. -/
theorem commutes_class : Commutes ClassFile.withAttribute := by
  intro base first second hne
  rcases first with _ | _ | ⟨_ | _, _⟩ | ⟨_ | _, _⟩ | _ | _ | _ | _ | _ <;>
    rcases second with _ | _ | ⟨_ | _, _⟩ | ⟨_ | _, _⟩ | _ | _ | _ | _ | _ <;>
      first | rfl | exact absurd rfl hne

/-- Reordered attributes with distinct names make the same declaration. -/
theorem Commutes.foldl_eq {β : Type} {withAttribute : β → Attribute → β}
    (hcommutes : Commutes withAttribute) {items others : List Attribute}
    (hperm : items.Perm others) (hdistinct : (items.map name).Nodup) (base : β) :
    items.foldl withAttribute base = others.foldl withAttribute base := by
  induction hperm generalizing base with
  | nil => rfl
  | cons item _ ih => exact ih (List.nodup_cons.1 hdistinct).2 (withAttribute base item)
  | swap first second items =>
    have hne : second.name ≠ first.name := by
      intro hsame
      apply (List.nodup_cons.1 hdistinct).1
      rw [hsame]
      exact List.mem_cons_self
    rw [List.foldl_cons, List.foldl_cons, hcommutes base second first hne]
    rfl
  | trans hfirst hsecond ihFirst ihSecond =>
    have hnames := (hfirst.map name).nodup hdistinct
    rw [ihFirst hdistinct base, ihSecond hnames base]

end Attribute

/-! ## Edits of a table -/

/-- The same function yields the values of reordered parts in the new order. -/
theorem mapM_perm {α β : Type} {f : α → Option β} {parts others : List α}
    (hperm : parts.Perm others) {values : List β} (hvalues : parts.mapM f = some values) :
    ∃ moved, others.mapM f = some moved ∧ values.Perm moved := by
  induction hperm generalizing values with
  | nil => exact ⟨values, hvalues, .refl values⟩
  | cons part _ ih =>
    obtain ⟨value, rest, hvalue, hrest, rfl⟩ := mapM_cons_eq_some_iff.1 hvalues
    obtain ⟨moved, hmoved, hrestPerm⟩ := ih hrest
    exact ⟨value :: moved, mapM_cons_eq_some_iff.2 ⟨value, moved, hvalue, hmoved, rfl⟩,
      hrestPerm.cons value⟩
  | swap first second parts =>
    obtain ⟨two, _, htwo, hmore, rfl⟩ := mapM_cons_eq_some_iff.1 hvalues
    obtain ⟨one, rest, hone, hrest, rfl⟩ := mapM_cons_eq_some_iff.1 hmore
    have hmoved := mapM_cons_eq_some_iff.2 ⟨two, rest, htwo, hrest, rfl⟩
    exact ⟨one :: two :: rest, mapM_cons_eq_some_iff.2 ⟨one, _, hone, hmoved, rfl⟩,
      .swap one two rest⟩
  | trans _ _ ihFirst ihSecond =>
    obtain ⟨between, hbetween, hfirst⟩ := ihFirst hvalues
    obtain ⟨moved, hmoved, hsecond⟩ := ihSecond hbetween
    exact ⟨moved, hmoved, hfirst.trans hsecond⟩

namespace AttributeLayout

/-- The name of an attribute, if it is one of the given names. -/
def nameAmong (pool : Pool) (names : List String) (entry : AttributeLayout) : Option String :=
  (pool.utf8 entry.name).toOption.filter (· ∈ names)

/-- What may be done to a table in a place that knows the given names. -/
inductive TableEdit (pool : Pool) (names : List String) :
    (table edited : List AttributeLayout) → Prop
  | insert {before after : List AttributeLayout} {entry : AttributeLayout} {name : String}
      (hname : pool.utf8 entry.name = .ok name) (hunknown : name ∉ names) :
      TableEdit pool names (before ++ after) (before ++ entry :: after)
  | reorder {table edited : List AttributeLayout} (hperm : table.Perm edited)
      (hdistinct : (table.filterMap (nameAmong pool names)).Nodup) :
      TableEdit pool names table edited

variable {α : Type} {pool : Pool}

/-- An attribute whose name the place does not recognise is passed over. -/
theorem tableMeaning_insert {recognise : Attribute.Recognition α} {entry : AttributeLayout}
    {name : String} (hname : pool.utf8 entry.name = .ok name) (hunknown : recognise name = none)
    (before after : List AttributeLayout) :
    tableMeaning pool recognise (before ++ entry :: after) =
      tableMeaning pool recognise (before ++ after) := by
  have hentry : entry.meaning pool recognise = some none := by
    simp only [meaning, hname, Except.toOption, Option.bind_some, hunknown]
  simp only [tableMeaning, List.mapM_append, List.mapM_cons, hentry]
  cases before.mapM (meaning pool recognise) with
  | none => rfl
  | some first =>
    cases after.mapM (meaning pool recognise) with
    | none => rfl
    | some last => simp

/-- The items of a reordered table are reordered alike. -/
theorem tableMeaning_perm {recognise : Attribute.Recognition α}
    {table edited : List AttributeLayout} (hperm : table.Perm edited) {items : List α}
    (hitems : tableMeaning pool recognise table = some items) :
    ∃ moved, tableMeaning pool recognise edited = some moved ∧ items.Perm moved := by
  rw [tableMeaning, Option.map_eq_some_iff] at hitems
  obtain ⟨values, hvalues, rfl⟩ := hitems
  obtain ⟨moved, hmoved, hvaluesPerm⟩ := mapM_perm hperm hvalues
  refine ⟨moved.filterMap id, ?_, hvaluesPerm.filterMap id⟩
  rw [tableMeaning, hmoved]
  rfl

/-- An attribute is read as an item with its own name, if that is a known one. -/
theorem name_of_meaning {recognise : Attribute.Recognition Attribute} {names : List String}
    (hplace : Attribute.Recognises recognise names) {entry : AttributeLayout}
    {value : Option Attribute} (hvalue : entry.meaning pool recognise = some value) :
    value.map Attribute.name = entry.nameAmong pool names := by
  rw [meaning, Option.bind_eq_some_iff] at hvalue
  obtain ⟨name, hname, hvalue⟩ := hvalue
  rw [nameAmong, hname]
  cases hknown : recognise name with
  | none =>
    rw [hknown] at hvalue
    cases hvalue
    have hunknown : name ∉ names := by
      intro hmem
      have hsome := hplace.known name hmem
      rw [hknown] at hsome
      cases hsome
    simp [Option.filter, hunknown]
  | some decoder =>
    rw [hknown] at hvalue
    obtain ⟨item, hitem, rfl⟩ := Option.map_eq_some_iff.1 hvalue
    obtain ⟨after, hrun, _⟩ := fill_eq_some_iff.1 hitem
    have hsame : item.name = name := hplace.named name decoder hknown _ item after hrun
    have hmem : name ∈ names := hplace.mem name decoder hknown
    simp [Option.filter, hsame, hmem]

/-- The attributes of a table have the known names of the table. -/
theorem names_of_tableMeaning {recognise : Attribute.Recognition Attribute} {names : List String}
    (hplace : Attribute.Recognises recognise names) {table : List AttributeLayout}
    {items : List Attribute} (hitems : tableMeaning pool recognise table = some items) :
    items.map Attribute.name = table.filterMap (nameAmong pool names) := by
  rw [tableMeaning, Option.map_eq_some_iff] at hitems
  obtain ⟨values, hvalues, rfl⟩ := hitems
  induction table generalizing values with
  | nil =>
    cases hvalues
    rfl
  | cons entry table ih =>
    simp only [List.mapM_cons, Option.bind_eq_bind, Option.bind_eq_some_iff] at hvalues
    obtain ⟨value, hvalue, more, hmore, hsame⟩ := hvalues
    cases hsame
    have hname := name_of_meaning hplace hvalue
    have hnames := ih more hmore
    cases value with
    | none => rw [List.filterMap_cons_none hname.symm, ← hnames, List.filterMap_cons_none rfl]
    | some item =>
      have hkept : id (some item) = some item := rfl
      rw [List.filterMap_cons_some hname.symm, ← hnames, List.filterMap_cons_some hkept,
        List.map_cons]

/-- An edited table makes the same declaration. -/
theorem TableEdit.exists_foldl_eq {β : Type} {withAttribute : β → Attribute → β}
    (hcommutes : Attribute.Commutes withAttribute)
    {recognise : Attribute.Recognition Attribute} {names : List String}
    (hplace : Attribute.Recognises recognise names) {table edited : List AttributeLayout}
    (hedit : TableEdit pool names table edited) {items : List Attribute}
    (hitems : tableMeaning pool recognise table = some items) :
    ∃ others, tableMeaning pool recognise edited = some others ∧
      ∀ base, items.foldl withAttribute base = others.foldl withAttribute base := by
  cases hedit with
  | insert hname hunknown =>
    refine ⟨items, ?_, fun _ => rfl⟩
    rwa [tableMeaning_insert hname (hplace.eq_none hunknown)]
  | reorder hperm hdistinct =>
    obtain ⟨others, hothers, hitemsPerm⟩ := tableMeaning_perm hperm hitems
    rw [← names_of_tableMeaning hplace hitems] at hdistinct
    exact ⟨others, hothers, hcommutes.foldl_eq hitemsPerm hdistinct⟩

end AttributeLayout

open AttributeLayout (TableEdit)

/-! ## Edits of a part -/

/-- A member with another table of attributes. -/
def MemberLayout.withAttributes (layout : MemberLayout) (table : List AttributeLayout) :
    MemberLayout :=
  { layout with attributes := table }

def CodeLayout.withAttributes (layout : CodeLayout) (table : List AttributeLayout) : CodeLayout :=
  { layout with attributes := table }

/-- The attribute of a method that frames its code. -/
def CodeLayout.entry (layout : CodeLayout) (name : UInt16) : AttributeLayout where
  name := name
  body := layout.bytes

/-- No attribute of code is read, so an edit leaves its meaning as it is. -/
theorem CodeLayout.meaning_edited {pool : Pool} {layout : CodeLayout}
    {table : List AttributeLayout} (hedit : TableEdit pool [] layout.attributes table)
    {code : CodeBytes} (hcode : layout.meaning pool = some code) :
    (layout.withAttributes table).meaning pool = some code := by
  obtain ⟨items, hitems, rfl⟩ := Option.map_eq_some_iff.1 hcode
  generalize hattributes : layout.attributes = attributes at hedit hitems
  cases hedit with
  | insert hname _ =>
    rw [← AttributeLayout.tableMeaning_insert hname rfl] at hitems
    rw [CodeLayout.meaning, CodeLayout.withAttributes, hitems]
    rfl
  | reorder hperm _ =>
    obtain ⟨moved, hmoved, _⟩ := AttributeLayout.tableMeaning_perm hperm hitems
    rw [CodeLayout.meaning, CodeLayout.withAttributes, hmoved]
    rfl

/-- What frames the code of a method means the code. -/
theorem CodeLayout.meaning_entry {pool : Pool} {name : UInt16} (hname : pool.utf8 name = .ok "Code")
    {layout : CodeLayout} (hfits : layout.Fits) :
    (layout.entry name).meaning pool (Attribute.ofMethod pool) =
      (layout.meaning pool).map fun code => some (Attribute.code code) := by
  have hfill := ((CodeLayout.denotes pool hfits).map Attribute.code).fill_eq
  rw [AttributeLayout.meaning, CodeLayout.entry, hname]
  change (Decoder.fill (do return Attribute.code (← Attribute.decodeCode pool)) layout.bytes).map
    some = _
  rw [hfill, Option.map_map]
  rfl

/-- An edited table leaves the meaning of its field as it is. -/
theorem MemberLayout.field_edited {pool : Pool} {layout : MemberLayout}
    {table : List AttributeLayout}
    (hedit : TableEdit pool Attribute.fieldNames layout.attributes table) {field : Field}
    (hfield : layout.field pool = some field) :
    (layout.withAttributes table).field pool = some field := by
  simp only [MemberLayout.field, Option.bind_eq_some_iff, Option.map_eq_some_iff] at hfield ⊢
  obtain ⟨name, hname, descriptor, hdescriptor, items, hitems, rfl⟩ := hfield
  obtain ⟨others, hothers, hsame⟩ := hedit.exists_foldl_eq Attribute.commutes_field
    (Attribute.recognises_ofField pool descriptor) hitems
  exact ⟨name, hname, descriptor, hdescriptor, others, hothers, (hsame _).symm⟩

theorem MemberLayout.method_edited {pool : Pool} {layout : MemberLayout}
    {table : List AttributeLayout}
    (hedit : TableEdit pool Attribute.methodNames layout.attributes table) {method : Method}
    (hmethod : layout.method pool = some method) :
    (layout.withAttributes table).method pool = some method := by
  simp only [MemberLayout.method, Option.bind_eq_some_iff, Option.map_eq_some_iff] at hmethod ⊢
  obtain ⟨name, hname, descriptor, hdescriptor, items, hitems, rfl⟩ := hmethod
  obtain ⟨others, hothers, hsame⟩ := hedit.exists_foldl_eq Attribute.commutes_method
    (Attribute.recognises_ofMethod pool) hitems
  exact ⟨name, hname, descriptor, hdescriptor, others, hothers, (hsame _).symm⟩

/-- Parts can be exchanged that have the same value. -/
theorem mapM_exchange {α β : Type} {f : α → Option β} {part edited : α}
    (hpart : ∀ value, f part = some value → f edited = some value) {before after : List α}
    {values : List β} (hvalues : (before ++ part :: after).mapM f = some values) :
    (before ++ edited :: after).mapM f = some values := by
  simp only [List.mapM_append, List.mapM_cons, Option.bind_eq_bind, Option.bind_eq_some_iff]
    at hvalues ⊢
  obtain ⟨first, hfirst, last, ⟨value, hvalue, more⟩, hsame⟩ := hvalues
  exact ⟨first, hfirst, last, ⟨value, hpart value hvalue, more⟩, hsame⟩

/-- Where all parts have a value, each one has. -/
theorem exists_of_mapM {α β : Type} {f : α → Option β} {parts : List α} {values : List β}
    (hvalues : parts.mapM f = some values) {part : α} (hmem : part ∈ parts) :
    ∃ value, f part = some value := by
  obtain ⟨before, after, rfl⟩ := List.append_of_mem hmem
  simp only [List.mapM_append, List.mapM_cons, Option.bind_eq_bind, Option.bind_eq_some_iff]
    at hvalues
  obtain ⟨_, _, _, ⟨value, hvalue, _⟩, _⟩ := hvalues
  exact ⟨value, hvalue⟩

/-- A method stays the same if the table of its code is edited. -/
theorem MemberLayout.method_edited_code {pool : Pool} {layout : MemberLayout}
    {front back : List AttributeLayout} {name : UInt16} {code : CodeLayout}
    (hattributes : layout.attributes = front ++ code.entry name :: back)
    (hname : pool.utf8 name = .ok "Code") (hcode : code.Fits) {table : List AttributeLayout}
    (hedit : TableEdit pool [] code.attributes table) (hfits : (code.withAttributes table).Fits)
    {method : Method} (hmethod : layout.method pool = some method) :
    (layout.withAttributes (front ++ (code.withAttributes table).entry name :: back)).method pool =
      some method := by
  simp only [MemberLayout.method, Option.bind_eq_some_iff, Option.map_eq_some_iff] at hmethod ⊢
  obtain ⟨methodName, hmethodName, descriptor, hdescriptor, items, hitems, rfl⟩ := hmethod
  refine ⟨methodName, hmethodName, descriptor, hdescriptor, items, ?_, rfl⟩
  rw [hattributes, AttributeLayout.tableMeaning, Option.map_eq_some_iff] at hitems
  obtain ⟨values, hvalues, rfl⟩ := hitems
  have hentry : ∀ value, (code.entry name).meaning pool (Attribute.ofMethod pool) = some value →
      ((code.withAttributes table).entry name).meaning pool (Attribute.ofMethod pool) =
        some value := by
    intro value hvalue
    rw [CodeLayout.meaning_entry hname hcode] at hvalue
    obtain ⟨bytes, hbytes, rfl⟩ := Option.map_eq_some_iff.1 hvalue
    rw [CodeLayout.meaning_entry hname hfits, CodeLayout.meaning_edited hedit hbytes]
    rfl
  rw [AttributeLayout.tableMeaning, MemberLayout.withAttributes, mapM_exchange hentry hvalues]
  rfl

/-! ## Edits of a class -/

namespace ClassLayout

/-- What may be done to one of the tables of a class. -/
inductive Edit (pool : Pool) : (layout edited : ClassLayout) → Prop
  | ofClass {layout : ClassLayout} {table : List AttributeLayout}
      (hedit : TableEdit pool Attribute.classNames layout.attributes table) :
      Edit pool layout { layout with attributes := table }
  | ofField {layout : ClassLayout} {before after : List MemberLayout} {field : MemberLayout}
      {table : List AttributeLayout} (hfields : layout.fields = before ++ field :: after)
      (hedit : TableEdit pool Attribute.fieldNames field.attributes table) :
      Edit pool layout { layout with fields := before ++ field.withAttributes table :: after }
  | ofMethod {layout : ClassLayout} {before after : List MemberLayout} {method : MemberLayout}
      {table : List AttributeLayout} (hmethods : layout.methods = before ++ method :: after)
      (hedit : TableEdit pool Attribute.methodNames method.attributes table) :
      Edit pool layout { layout with methods := before ++ method.withAttributes table :: after }
  /-- The attribute that frames the code is framed again. -/
  | ofCode {layout : ClassLayout} {before after : List MemberLayout} {method : MemberLayout}
      {front back table : List AttributeLayout} {name : UInt16} {code : CodeLayout}
      (hmethods : layout.methods = before ++ method :: after)
      (hattributes : method.attributes = front ++ code.entry name :: back)
      (hname : pool.utf8 name = .ok "Code") (hcode : code.Fits)
      (hedit : TableEdit pool [] code.attributes table)
      (hfits : (code.withAttributes table).Fits) :
      Edit pool layout { layout with
        methods := before ++
          method.withAttributes (front ++ (code.withAttributes table).entry name :: back) ::
            after }

/-- An edit leaves what is before the tables as it is. -/
theorem Edit.front_eq {pool : Pool} {layout edited : ClassLayout}
    (hedit : Edit pool layout edited) : edited.front = layout.front := by
  cases hedit <;> rfl

/-- An edited class means the same. -/
theorem meaning_edited {header : ClassHeader} {pool : Pool} {layout edited : ClassLayout}
    (hedit : Edit pool layout edited) {file : ClassFile}
    (hfile : layout.meaning header pool = some file) :
    edited.meaning header pool = some file := by
  simp only [meaning, Option.bind_eq_some_iff, Option.map_eq_some_iff] at hfile ⊢
  obtain ⟨fields, hfields, methods, hmethods, items, hitems, rfl⟩ := hfile
  cases hedit with
  | ofClass hedit =>
    obtain ⟨others, hothers, hsame⟩ := hedit.exists_foldl_eq Attribute.commutes_class
      (Attribute.recognises_ofClass pool) hitems
    exact ⟨fields, hfields, methods, hmethods, others, hothers, (hsame _).symm⟩
  | ofField hlayout hedit =>
    rw [hlayout] at hfields
    have hedited := mapM_exchange (fun _ => MemberLayout.field_edited hedit) hfields
    exact ⟨fields, hedited, methods, hmethods, items, hitems, rfl⟩
  | ofMethod hlayout hedit =>
    rw [hlayout] at hmethods
    have hedited := mapM_exchange (fun _ => MemberLayout.method_edited hedit) hmethods
    exact ⟨fields, hfields, methods, hedited, items, hitems, rfl⟩
  | ofCode hlayout hattributes hname hcode hedit hfits =>
    rw [hlayout] at hmethods
    have hedited := mapM_exchange (fun _ hmethod =>
      MemberLayout.method_edited_code hattributes hname hcode hedit hfits hmethod) hmethods
    exact ⟨fields, hfields, methods, hedited, items, hitems, rfl⟩

/-- Every code attribute of a method that decodes has a layout. -/
theorem exists_code {header : ClassHeader} {pool : Pool} {layout : ClassLayout} {file : ClassFile}
    (hfile : layout.meaning header pool = some file) {method : MemberLayout}
    (hmethod : method ∈ layout.methods) {entry : AttributeLayout}
    (hentry : entry ∈ method.attributes) (hname : pool.utf8 entry.name = .ok "Code") :
    ∃ code : CodeLayout, code.Fits ∧ entry = code.entry entry.name := by
  simp only [meaning, Option.bind_eq_some_iff] at hfile
  obtain ⟨_, _, methods, hmethods, _⟩ := hfile
  obtain ⟨_, hvalue⟩ := exists_of_mapM hmethods hmethod
  simp only [MemberLayout.method, Option.bind_eq_some_iff, Option.map_eq_some_iff,
    AttributeLayout.tableMeaning] at hvalue
  obtain ⟨_, _, _, _, _, ⟨values, hvalues, _⟩, _⟩ := hvalue
  obtain ⟨_, hmeaning⟩ := exists_of_mapM hvalues hentry
  rw [AttributeLayout.meaning, hname] at hmeaning
  obtain ⟨item, hfill, _⟩ := Option.map_eq_some_iff.1 hmeaning
  have hframe : Consumes (do return Attribute.code (← Attribute.decodeCode pool)) fun _ used =>
      ∃ code : CodeLayout, code.Fits ∧ code.bytes = used :=
    Consumes.bind ((CodeLayout.consumes_decodeCode pool).mono fun _ used hcode =>
      Consumes.pure (by rwa [List.append_nil]))
  obtain ⟨code, hfits, hbytes⟩ := hframe.of_fill hfill
  exact ⟨code, hfits, congrArg (AttributeLayout.mk entry.name) hbytes.symm⟩

end ClassLayout

/-- **Edits of attribute tables that leave a class as it is.** The bytes of a
class divide into its tables and those of its members and their code.  Inserting
an attribute with a name that the place does not know, whatever its body is, or
reordering a table whose known names are distinct, does not change the class that
they decode to, as long as all counts and lengths fit. -/
theorem ClassFile.decode_edited (bytes : List UInt8) (file : ClassFile)
    (hdecode : decode bytes = .ok file) :
    (∃ layout, ClassLayout.Describes layout bytes file) ∧
      ∀ layout, ClassLayout.Describes layout bytes file →
        (∀ method ∈ layout.methods, ∀ entry ∈ method.attributes,
          file.pool.utf8 entry.name = .ok "Code" →
            ∃ code : CodeLayout, code.Fits ∧ entry = code.entry entry.name) ∧
        ∀ edited, ClassLayout.Edit file.pool layout edited → edited.Fits →
          decode edited.bytes = .ok file := by
  refine ⟨ClassLayout.exists_of_decode hdecode, fun layout hlayout => ?_⟩
  have hmeaning : layout.meaning file.header file.pool = some file := by
    rw [← ClassLayout.decode_bytes_iff hlayout.fits hlayout.front, hlayout.bytes_eq, hdecode]
  constructor
  · intro method hmethod entry hentry hname
    exact ClassLayout.exists_code hmeaning hmethod hentry hname
  · intro edited hedit hfits
    have hfront := hlayout.front
    rw [← hedit.front_eq] at hfront
    exact (ClassLayout.decode_bytes_iff hfits hfront file).2
      (ClassLayout.meaning_edited hedit hmeaning)

namespace ClassLayout

/-- The code of a method that returns. -/
def sampleCode : CodeLayout where
  maxStack := 0
  maxLocals := 1
  code := [0xb1]
  handlerCount := 0
  handlers := []
  attributes := []

/-- The method of the sample, with the code as its one attribute. -/
def sampleMethod : MemberLayout where
  flags := 0x0001
  name := 5
  descriptor := 6
  attributes := [sampleCode.entry 3]

/-- The class `A`, which is deprecated and has a signature, with a method `m`. -/
def sampleFramed : ClassLayout where
  front :=
    [0xca, 0xfe, 0xba, 0xbe, 0x00, 0x00, 0x00, 0x34, 0x00, 0x09, 0x01, 0x00, 0x01, 0x41, 0x07,
      0x00, 0x01, 0x01, 0x00, 0x04, 0x43, 0x6f, 0x64, 0x65, 0x01, 0x00, 0x01, 0x58, 0x01, 0x00,
      0x01, 0x6d, 0x01, 0x00, 0x03, 0x28, 0x29, 0x56, 0x01, 0x00, 0x0a, 0x44, 0x65, 0x70, 0x72,
      0x65, 0x63, 0x61, 0x74, 0x65, 0x64, 0x01, 0x00, 0x09, 0x53, 0x69, 0x67, 0x6e, 0x61, 0x74,
      0x75, 0x72, 0x65, 0x00, 0x21, 0x00, 0x02, 0x00, 0x00, 0x00, 0x00]
  fields := []
  methods := [sampleMethod]
  attributes := [{ name := 7, body := [] }, { name := 8, body := [0x00, 0x01] }]

/-- The class that the bytes of the sample decode to. -/
def sampleFramedFile : ClassFile where
  header := { version := ⟨52, 0⟩, flags := 0x0021, name := "A", superName := none,
              interfaces := [] }
  signature := some "A"
  deprecated := true
  fields := []
  methods := [{ flags := 0x0001, name := "m", descriptor := "()V",
                code := some { maxStack := 0, maxLocals := 1, code := [0xb1] } }]
  pool := ⟨#[.unusable, .utf8 (.ofString "A"), .classRef 1, .utf8 (.ofString "Code"),
    .utf8 (.ofString "X"), .utf8 (.ofString "m"), .utf8 (.ofString "()V"),
    .utf8 (.ofString "Deprecated"), .utf8 (.ofString "Signature")]⟩

theorem decode_sampleFramed : ClassFile.decode sampleFramed.bytes = .ok sampleFramedFile := by
  decide +kernel

/-- The sample divides its own bytes. -/
theorem describes_sampleFramed : sampleFramed.Describes sampleFramed.bytes sampleFramedFile where
  fits := by decide
  bytes_eq := rfl
  front := by
    have hfill : ClassHeader.decodeWithPool.fill sampleFramed.front =
        some (sampleFramedFile.header, sampleFramedFile.pool) := by decide +kernel
    exact (ClassHeader.selfDelimiting_decodeWithPool.of_fill hfill).1

/-- An attribute with the name `X`. -/
def sampleNote : AttributeLayout where
  name := 4
  body := [0x01, 0x02, 0x03]

/-- The sample with the note in the code of its method. -/
def sampleNoted : ClassLayout :=
  { sampleFramed with
    methods := [sampleMethod.withAttributes [(sampleCode.withAttributes [sampleNote]).entry 3]] }

/-- The sample with its own attributes in the other order. -/
def sampleSwapped : ClassLayout :=
  { sampleFramed with
    attributes := [{ name := 8, body := [0x00, 0x01] }, { name := 7, body := [] }] }

/-- The note is inserted with a name that code does not know. -/
theorem edit_sampleNoted : Edit sampleFramedFile.pool sampleFramed sampleNoted := by
  have hmethods : sampleFramed.methods = [] ++ sampleMethod :: [] := rfl
  have hattributes : sampleMethod.attributes = [] ++ sampleCode.entry 3 :: [] := rfl
  have hname : sampleFramedFile.pool.utf8 3 = .ok "Code" := by decide +kernel
  have hnote : sampleFramedFile.pool.utf8 sampleNote.name = .ok "X" := by decide +kernel
  have hedit : TableEdit sampleFramedFile.pool [] ([] ++ []) ([] ++ sampleNote :: []) :=
    .insert hnote List.not_mem_nil
  exact .ofCode hmethods hattributes hname (by decide) hedit (by decide)

/-- The two attributes of the class have different names. -/
theorem edit_sampleSwapped : Edit sampleFramedFile.pool sampleFramed sampleSwapped :=
  .ofClass (.reorder (.swap _ _ _) (by decide +kernel))

end ClassLayout

/-- The note does not change the class, and neither does the other order. -/
theorem ClassFile.decode_edited_sampleFramed :
    ClassFile.decode ClassLayout.sampleFramed.bytes = .ok ClassLayout.sampleFramedFile ∧
      ClassFile.decode ClassLayout.sampleNoted.bytes = .ok ClassLayout.sampleFramedFile ∧
      ClassFile.decode ClassLayout.sampleSwapped.bytes = .ok ClassLayout.sampleFramedFile := by
  obtain ⟨_, hedited⟩ := ClassFile.decode_edited _ _ ClassLayout.decode_sampleFramed
  obtain ⟨_, hsame⟩ := hedited _ ClassLayout.describes_sampleFramed
  exact ⟨ClassLayout.decode_sampleFramed, hsame _ ClassLayout.edit_sampleNoted (by decide),
    hsame _ ClassLayout.edit_sampleSwapped (by decide)⟩

end ClassStub
