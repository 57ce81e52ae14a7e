import ClassStub.Proofs.Codec.Denotation
import ClassStub.Proofs.Text.UnitForms

/-!
# Lengths of decoded texts

The length of a text in a pool is a 16-bit word, and a text has no more
characters than bytes.  So no text of a decoded class has more characters than a
word counts, neither the descriptor of a method (`ClassFile.textsFit_of_decode`)
nor that of a member to which its code refers (`Pool.TextsFit.length_member`).
-/

namespace ClassStub

open Decoder

/-! ## Characters and bytes -/

/-- Every unit takes a byte at least. -/
theorem ModifiedUtf8.length_of_units? {bytes : List UInt8} {units : List UInt16}
    (hunits : units? bytes = some units) : units.length ≤ bytes.length := by
  obtain ⟨forms, rfl, rfl⟩ := exists_forms hunits
  rw [List.length_map]
  exact UnitForm.length_le_flatMap forms

/-- Every character takes a unit at least. -/
theorem Utf16.length_decode (units : List UInt16) : (decode units).length ≤ units.length := by
  fun_induction decode units with
  | case1 => exact Nat.le_refl 0
  | case2 unit => exact Nat.le_refl 1
  | case3 high low rest _ ih =>
    simp only [List.length_cons]
    omega
  | case4 high low rest _ ih =>
    simp only [List.length_cons] at ih ⊢
    omega

/-- As many values are obtained as there are parts. -/
theorem length_of_mapM {α β : Type} {f : α → Option β} {parts : List α} {values : List β}
    (hvalues : parts.mapM f = some values) : values.length = parts.length := by
  induction parts generalizing values with
  | nil =>
    cases hvalues
    rfl
  | cons part parts ih =>
    obtain ⟨_, more, _, hmore, rfl⟩ := mapM_cons_eq_some_iff.1 hvalues
    rw [List.length_cons, List.length_cons, ih hmore]

/-- A text has no more characters than bytes. -/
theorem JavaText.length_of_toString? {text : JavaText} {string : String}
    (hstring : text.toString? = some string) : string.length ≤ text.bytes.length := by
  obtain ⟨chars, hchars, rfl⟩ := Option.map_eq_some_iff.1 hstring
  have hunits := ModifiedUtf8.length_of_units? (Option.some_get text.wellFormed).symm
  have hdecoded := Utf16.length_decode text.units
  rw [String.length_ofList, length_of_mapM hchars]
  exact Nat.le_trans hdecoded hunits

/-- An ASCII text without NUL has as many bytes as characters. -/
theorem JavaText.length_ofString_ascii {chars : List Char}
    (hascii : ∀ char ∈ chars, 0 < char.toNat ∧ char.toNat < 0x80) :
    (JavaText.ofString (String.ofList chars)).bytes.length = chars.length := by
  change (ModifiedUtf8.encodeUnits (Utf16.encode (String.ofList chars).toList)).length = _
  rw [String.toList_ofList]
  induction chars with
  | nil => rfl
  | cons char chars ih =>
    obtain ⟨⟨hpositive, hsmall⟩, hmore⟩ := List.forall_mem_cons.1 hascii
    have hunit : Utf16.ofChar char = [UInt16.ofNat char.toNat] := by
      rw [Utf16.ofChar, if_pos (by omega)]
    have hvalue : (UInt16.ofNat char.toNat).toNat = char.toNat := by
      rw [UInt16.toNat_ofNat']
      omega
    have hbyte : (ModifiedUtf8.encodeUnit (UInt16.ofNat char.toNat)).length = 1 := by
      simp only [ModifiedUtf8.encodeUnit, hvalue, hpositive, hsmall, and_self, ↓reduceIte,
        List.length_singleton]
    have hrest := ih hmore
    rw [ModifiedUtf8.encodeUnits, Utf16.encode] at hrest ⊢
    rw [List.flatMap_cons, hunit, List.singleton_append, List.flatMap_cons, List.length_append,
      hbyte, hrest, List.length_cons, Nat.add_comm]

/-! ## Pools -/

/-- A text constant whose length fits a word. -/
def Constant.TextFits (constant : Constant) : Prop :=
  ∀ text, constant = .utf8 text → text.bytes.length ≤ maxWord

/-- A text that is read has a length that a word can tell. -/
theorem gives_text : Gives (liftM Reader.text) fun text => text.bytes.length ≤ maxWord := by
  rw [Reader.text, liftM_bind]
  refine Gives.bind_any fun length => ?_
  rw [liftM_bind]
  refine Gives.bind_any fun cursor => ?_
  rw [liftM_bind]
  have hbytes : Gives (liftM (Reader.take length.toNat)) fun bytes => bytes.length ≤ maxWord := by
    intro cursor bytes after hrun
    obtain ⟨used, _, _, rfl, hlength⟩ := consumes_take length.toNat cursor bytes after hrun
    rw [hlength]
    exact Nat.le_of_lt_succ length.toNat_lt
  refine hbytes.bind fun bytes hlength => ?_
  unfold JavaText.ofBytes?
  by_cases hformed : (ModifiedUtf8.units? bytes).isSome
  · rw [dif_pos hformed]
    exact Gives.pure hlength
  · rw [dif_neg hformed]
    exact Gives.throw

/-- Every other kind of entry holds no text. -/
theorem Constant.gives_decode (index : Nat) : (Constant.decode index).Gives TextFits := by
  refine Gives.bind_any fun tag => ?_
  split
  · refine gives_text.bind fun text htext => Gives.pure fun other hother => ?_
    cases hother
    exact htext
  all_goals first
    | exact Gives.throw
    | exact Gives.bind_any fun _ => Gives.pure (by simp [TextFits])
    | exact Gives.bind_any fun _ => Gives.bind_any fun _ => Gives.pure (by simp [TextFits])

namespace Pool

/-- Slots that are read hold no texts but those whose length a word can tell. -/
theorem gives_slotsFrom (declared : UInt16) (index left : Nat) :
    (slotsFrom declared index left).Gives fun slots => ∀ slot ∈ slots, slot.TextFits := by
  induction left using Nat.strongRecOn generalizing index with
  | ind left ih =>
    cases left with
    | zero => exact Gives.pure (List.forall_mem_nil _)
    | succ left =>
      rw [slotsFrom]
      refine (Constant.gives_decode index).bind fun constant hconstant => ?_
      cases constant.isWide with
      | true =>
        cases left with
        | zero => exact Gives.throw
        | succ left =>
          refine (ih left (by omega) (index + 2)).bind fun slots hslots => Gives.pure ?_
          have hunusable : Constant.TextFits .unusable := by simp [Constant.TextFits]
          exact List.forall_mem_cons.2 ⟨hconstant, List.forall_mem_cons.2 ⟨hunusable, hslots⟩⟩
      | false =>
        refine (ih left (by omega) (index + 1)).bind fun slots hslots => Gives.pure ?_
        exact List.forall_mem_cons.2 ⟨hconstant, hslots⟩

/-- The texts of a pool have lengths that fit a word. -/
def TextsFit (pool : Pool) : Prop :=
  ∀ slot ∈ pool.slots.toList, slot.TextFits

/-- The texts of a pool that is read have lengths that a word can tell. -/
theorem gives_decode : Pool.decode.Gives TextsFit := by
  refine Gives.bind_any fun declared => ?_
  split
  · exact Gives.throw
  · refine (gives_slotsFrom declared 1 _).bind fun slots hslots => Gives.pure ?_
    have hunusable : Constant.TextFits .unusable := by simp [Constant.TextFits]
    exact List.forall_mem_cons.2 ⟨hunusable, hslots⟩

/-- An entry that is looked up is one of the slots. -/
theorem mem_of_entry {pool : Pool} {index : UInt16} {constant : Constant}
    (hentry : pool.entry index = .ok constant) : constant ∈ pool.slots.toList := by
  unfold entry at hentry
  split at hentry
  case h_1 => cases hentry
  case h_2 => cases hentry
  case h_3 found _ hfound =>
    cases hentry
    exact Array.mem_toList_iff.2 (Array.mem_of_getElem? hfound)

/-- A name has no more characters than a word can tell. -/
theorem TextsFit.length_utf8 {pool : Pool} (hfit : pool.TextsFit) {index : UInt16} {text : String}
    (htext : pool.utf8 index = .ok text) : text.length ≤ maxWord := by
  simp only [utf8, javaText, bind_eq_ok] at htext
  obtain ⟨found, ⟨constant, hentry, hfound⟩, hstring⟩ := htext
  have hconstant : constant = .utf8 found := by
    cases constant <;> cases hfound
    rfl
  have hlength := hfit constant (mem_of_entry hentry) found hconstant
  cases hknown : found.toString? with
  | none =>
    rw [hknown] at hstring
    cases hstring
  | some string =>
    rw [hknown] at hstring
    cases hstring
    exact Nat.le_trans (JavaText.length_of_toString? hknown) hlength

/-- The descriptor of a member is a text of the pool. -/
theorem TextsFit.length_member {pool : Pool} (hfit : pool.TextsFit) {index : UInt16}
    {reference : MemberRef} (hreference : pool.member index = .ok reference) :
    reference.descriptor.length ≤ maxWord := by
  have hresolved : ∀ {owner nameAndType ofInterface},
      pool.resolveMember owner nameAndType ofInterface = .ok reference →
        reference.descriptor.length ≤ maxWord := by
    intro owner nameAndType ofInterface hmember
    simp only [resolveMember, bind_eq_ok] at hmember
    obtain ⟨⟨name, descriptor⟩, hpair, _, _, hsame⟩ := hmember
    cases hsame
    simp only [Pool.nameAndType, bind_eq_ok] at hpair
    obtain ⟨constant, _, hpair⟩ := hpair
    cases constant with
    | nameAndType nameIndex descriptorIndex =>
      simp only [bind_eq_ok] at hpair
      obtain ⟨_, _, _, hdescriptor, hsame⟩ := hpair
      cases hsame
      exact hfit.length_utf8 hdescriptor
    | _ => cases hpair
  simp only [member, bind_eq_ok] at hreference
  obtain ⟨constant, _, hreference⟩ := hreference
  cases constant with
  | fieldRef owner nameAndType => exact hresolved hreference
  | methodRef owner nameAndType => exact hresolved hreference
  | interfaceMethodRef owner nameAndType => exact hresolved hreference
  | _ => cases hreference

end Pool

/-! ## Classes -/

/-- An attribute leaves the descriptor of a method as it is. -/
theorem Method.descriptor_withAttribute (method : Method) (item : Attribute) :
    (method.withAttribute item).descriptor = method.descriptor := by
  cases item with
  | annotations visible table => cases visible <;> rfl
  | parameterAnnotations visible tables => cases visible <;> rfl
  | _ => rfl

theorem Method.descriptor_foldl (method : Method) (items : List Attribute) :
    (items.foldl withAttribute method).descriptor = method.descriptor := by
  induction items generalizing method with
  | nil => rfl
  | cons item items ih => rw [List.foldl_cons, ih, descriptor_withAttribute]

/-- The descriptor of a method is a text of the pool. -/
theorem Method.gives_descriptor {pool : Pool} (hfit : pool.TextsFit) :
    (Method.decode pool).Gives fun method => method.descriptor.length ≤ maxWord := by
  refine Gives.bind_any fun flags => Gives.bind_any fun nameIndex => Gives.bind_any fun name => ?_
  refine Gives.bind_any fun descriptorIndex => ?_
  refine (Gives.lift fun _ => hfit.length_utf8).bind fun descriptor hlength => ?_
  refine Gives.bind_any fun items => Gives.pure ?_
  rwa [descriptor_foldl]

/-- All texts of a pool that is read with a header have a length. -/
theorem ClassHeader.gives_pool : decodeWithPool.Gives fun result => result.2.TextsFit := by
  refine Gives.bind_any fun magic => ?_
  split
  · exact Gives.throw
  refine Gives.bind_any fun minor => Gives.bind_any fun major => ?_
  split
  · exact Gives.throw
  refine Pool.gives_decode.bind fun pool hpool => Gives.bind_any fun flags => ?_
  refine Gives.bind_any fun nameIndex => Gives.bind_any fun name => ?_
  refine Gives.bind_any fun superIndex => Gives.bind_any fun superName => ?_
  exact Gives.bind_any fun interfaces => Gives.pure hpool

namespace ClassFile

/-- The texts of a class have lengths that fit a word, and so do the descriptors
of its methods. -/
structure TextsFit (file : ClassFile) : Prop where
  pool : file.pool.TextsFit
  descriptor : ∀ method ∈ file.methods, method.descriptor.length ≤ maxWord

/-- An attribute changes no text of the pool and no descriptor. -/
theorem TextsFit.withAttribute {file : ClassFile} (hfile : file.TextsFit) (item : Attribute) :
    (file.withAttribute item).TextsFit := by
  cases item with
  | annotations visible table => cases visible <;> exact ⟨hfile.pool, hfile.descriptor⟩
  | _ => exact ⟨hfile.pool, hfile.descriptor⟩

theorem TextsFit.foldl {file : ClassFile} (hfile : file.TextsFit) (items : List Attribute) :
    (items.foldl ClassFile.withAttribute file).TextsFit := by
  induction items generalizing file with
  | nil => exact hfile
  | cons item items ih => exact ih (hfile.withAttribute item)

/-- All texts of a class that is read have a length that a word can tell. -/
theorem gives_textsFit : contents.Gives TextsFit := by
  refine ClassHeader.gives_pool.bind fun ⟨header, pool⟩ hpool => ?_
  refine Gives.bind_any fun fieldCount => Gives.bind_any fun fields => ?_
  refine Gives.bind_any fun methodCount => ?_
  refine ((Method.gives_descriptor hpool).repeated _).bind fun methods hmethods => ?_
  refine Gives.bind_any fun items => Gives.pure (TextsFit.foldl ?_ items)
  exact ⟨hpool, hmethods⟩

/-- All texts of a class that decodes have a length that a word can tell. -/
theorem textsFit_of_decode {bytes : List UInt8} {file : ClassFile}
    (hdecode : decode bytes = .ok file) : file.TextsFit :=
  gives_textsFit _ _ _ (decode_eq_ok_iff.1 hdecode 0 [])

end ClassFile

end ClassStub
