import ClassStub.Proofs.Codec.Draft

/-!
# What decoded classes are like

Whatever was decoded can be framed again: its version is supported, and its
annotations are no longer than the frames that they were read from
(`ClassFile.gives_fits`).  The header of a decoded class is what decoding the
header alone yields (`ClassHeader.decode_of_decode`).
-/

namespace ClassStub

open Decoder

namespace Decoder

variable {α β : Type}

/-- Whatever a decoder yields has a property. -/
def Gives (decoder : Decoder α) (property : α → Prop) : Prop :=
  ∀ (cursor : Cursor) (value : α) (after : Cursor), decoder cursor = .ok value after →
    property value

theorem Gives.pure {value : α} {property : α → Prop} (h : property value) :
    Gives (pure value) property := by
  intro cursor result after hrun
  cases hrun
  exact h

theorem Gives.throw {cause : FormatError} {property : α → Prop} :
    Gives (throw cause) property := by
  intro cursor value after hrun
  cases hrun

/-- A step that only looks something up gives what is found. -/
theorem Gives.lift {result : Except FormatError α} {property : α → Prop}
    (hproperty : ∀ value, result = .ok value → property value) :
    Gives (liftM result) property := by
  cases result with
  | error cause => exact Gives.throw
  | ok value => exact Gives.pure (hproperty value rfl)

theorem gives_any (decoder : Decoder α) : decoder.Gives fun _ => True :=
  fun _ _ _ _ => trivial

/-- Two decoders give what the second one does, knowing what the first one gives. -/
theorem Gives.bind {first : Decoder α} {next : α → Decoder β} {property : α → Prop}
    {result : β → Prop} (hfirst : first.Gives property)
    (hnext : ∀ value, property value → (next value).Gives result) :
    (first >>= next).Gives result := by
  intro cursor value after hrun
  obtain ⟨middle, between, hstep, hlast⟩ := exists_between hrun
  exact hnext middle (hfirst cursor middle between hstep) between value after hlast

/-- The last step alone decides. -/
theorem Gives.bind_any {first : Decoder α} {next : α → Decoder β} {result : β → Prop}
    (hnext : ∀ value, (next value).Gives result) : (first >>= next).Gives result :=
  (gives_any first).bind fun value _ => hnext value

/-- What every item has, all items have. -/
theorem Gives.repeated {item : Decoder α} {property : α → Prop} (hitem : item.Gives property)
    (count : Nat) : (repeated item count).Gives fun values => ∀ value ∈ values, property value := by
  induction count with
  | zero => exact Gives.pure (by simp)
  | succ count ih =>
    refine hitem.bind fun value hvalue => ?_
    refine ih.bind fun values hvalues => ?_
    exact Gives.pure (List.forall_mem_cons.2 ⟨hvalue, hvalues⟩)

end Decoder

/-! ## Attributes -/

namespace Attribute

/-- Whatever fills a frame with a 32-bit length fits into a frame. -/
def FitsFrame (decoder : Decoder Attribute) : Prop :=
  ∀ (body : List UInt8) (item : Attribute) (after : Cursor), body.length < UInt32.size →
    decoder (Cursor.ofBytes body) = .ok item after → after.remaining = 0 → item.Fits

/-- What fits wherever it is read fits into a frame. -/
theorem FitsFrame.of_gives {decoder : Decoder Attribute} (hgives : decoder.Gives Fits) :
    FitsFrame decoder :=
  fun body item after _ hrun _ => hgives (Cursor.ofBytes body) item after hrun

/-- What was read from a frame fits into one if its size tells the bytes that it
took. -/
theorem FitsFrame.of_consumes {α : Type} {decoder : Decoder α} {size : α → Nat} {f : α → Attribute}
    (hconsumes : decoder.Consumes fun value bytes => bytes.length = size value)
    (hfits : ∀ value, size value < UInt32.size → (f value).Fits) :
    FitsFrame (do return f (← decoder)) := by
  intro body item after hlength hrun hend
  obtain ⟨value, between, hvalue, hlast⟩ := exists_between hrun
  cases hlast
  obtain ⟨used, hused, _, hsize⟩ := hconsumes (Cursor.ofBytes body) value after hvalue
  have hnone : after.rest = [] := List.eq_nil_of_length_eq_zero hend
  have hbody : body = used := by
    rw [hnone, List.append_nil] at hused
    exact hused
  apply hfits value
  rw [← hsize, ← hbody]
  exact hlength

/-- An entry that a place recognises fills its frame. -/
theorem gives_decodeEntry {pool : Pool} {recognise : Recognition Attribute}
    (hframes : ∀ {name decoder}, recognise name = some decoder → FitsFrame decoder) :
    (decodeEntry pool recognise).Gives fun entry => ∀ item, entry = some item → item.Fits := by
  refine Gives.bind_any fun index => Gives.bind_any fun name => ?_
  refine Gives.bind_any fun length => ?_
  have hbody : Gives (liftM (Reader.take length.toNat)) fun body =>
      body.length < UInt32.size := by
    intro cursor body after hrun
    obtain ⟨used, _, _, rfl, hlength⟩ := consumes_take length.toNat cursor body after hrun
    rw [hlength]
    exact length.toNat_lt
  refine hbody.bind fun body hlength => ?_
  cases hknown : recognise name with
  | none => exact Gives.pure (by simp)
  | some decoder =>
    have hwithin : (Decoder.within body decoder).Gives fun result =>
        result.2 = 0 → result.1.Fits := by
      unfold Decoder.within
      cases hrun : decoder.run (Cursor.ofBytes body) with
      | error cause stopped => exact Gives.throw
      | ok item after =>
        exact Gives.pure fun hend => hframes hknown body item after hlength hrun hend
    refine hwithin.bind fun result hfits => ?_
    obtain ⟨item, unread⟩ := result
    by_cases hend : unread = 0
    · simp only [hend, ↓reduceIte]
      refine Gives.pure fun other hother => ?_
      cases hother
      exact hfits hend
    · simp only [hend, ↓reduceIte]
      exact Gives.throw

/-- All attributes of a table fit if those of each known name do. -/
theorem gives_decodeTable {pool : Pool} {recognise : Recognition Attribute}
    (hframes : ∀ {name decoder}, recognise name = some decoder → FitsFrame decoder) :
    (decodeTable pool recognise).Gives fun items => ∀ item ∈ items, item.Fits := by
  refine Gives.bind_any fun count => ?_
  refine ((gives_decodeEntry hframes).repeated count.toNat).bind fun entries hentries => ?_
  refine Gives.pure fun item hitem => ?_
  rw [List.mem_filterMap] at hitem
  rcases hitem with ⟨entry, hentry, hsome⟩
  exact hentries entry hentry item hsome

/-- What any declaration may hold fits into a frame after it was read from one. -/
theorem fitsFrame_ofDeclaration {pool : Pool} {name : String} {decoder : Decoder Attribute}
    (hknown : ofDeclaration pool name = some decoder) : FitsFrame decoder := by
  unfold ofDeclaration at hknown
  split at hknown
  · cases hknown
    exact FitsFrame.of_gives
      (Gives.bind_any fun _ => Gives.bind_any fun _ => Gives.pure trivial)
  · cases hknown
    exact FitsFrame.of_gives (Gives.pure trivial)
  · cases hknown
    have htable := Annotation.consumes_decodeTable pool
    exact FitsFrame.of_consumes htable fun _ hsize => hsize
  · cases hknown
    have htable := Annotation.consumes_decodeTable pool
    exact FitsFrame.of_consumes htable fun _ hsize => hsize
  · cases hknown

/-- What a class may hold fits into a frame after it was read from one. -/
theorem fitsFrame_ofClass {pool : Pool} {name : String} {decoder : Decoder Attribute}
    (hknown : ofClass pool name = some decoder) : FitsFrame decoder := by
  unfold ofClass at hknown
  split at hknown
  · cases hknown
    exact FitsFrame.of_gives
      (Gives.bind_any fun _ => Gives.bind_any fun _ => Gives.pure trivial)
  · exact fitsFrame_ofDeclaration hknown

theorem fitsFrame_ofField {pool : Pool} {descriptor name : String} {decoder : Decoder Attribute}
    (hknown : ofField pool descriptor name = some decoder) : FitsFrame decoder := by
  unfold ofField at hknown
  split at hknown
  · cases hknown
    exact FitsFrame.of_gives
      (Gives.bind_any fun _ => Gives.bind_any fun _ => Gives.pure trivial)
  · exact fitsFrame_ofDeclaration hknown

theorem fitsFrame_ofMethod {pool : Pool} {name : String} {decoder : Decoder Attribute}
    (hknown : ofMethod pool name = some decoder) : FitsFrame decoder := by
  unfold ofMethod at hknown
  split at hknown
  · cases hknown
    exact FitsFrame.of_gives (Gives.bind_any fun _ => Gives.pure trivial)
  · cases hknown
    exact FitsFrame.of_gives (Gives.bind_any fun _ => Gives.pure trivial)
  · cases hknown
    have htables := Annotation.consumes_decodeParameters pool
    exact FitsFrame.of_consumes htables fun _ hsize => hsize
  · cases hknown
    have htables := Annotation.consumes_decodeParameters pool
    exact FitsFrame.of_consumes htables fun _ hsize => hsize
  · cases hknown
    exact FitsFrame.of_consumes (ElementValue.consumes_decode pool) fun _ hsize => hsize
  · exact fitsFrame_ofDeclaration hknown

end Attribute

/-! ## Members -/

/-- A declaration keeps a property that holds without attributes and that no
attribute which fits can break. -/
theorem foldl_fits {α : Type} {withAttribute : α → Attribute → α} {property : α → Prop}
    (hstep : ∀ declared item, property declared → item.Fits →
      property (withAttribute declared item))
    {items : List Attribute} (hitems : ∀ item ∈ items, item.Fits) {base : α}
    (hbase : property base) : property (items.foldl withAttribute base) := by
  induction items generalizing base with
  | nil => exact hbase
  | cons item items ih =>
    have hfirst := hstep base item hbase (hitems item (List.mem_cons_self ..))
    exact ih (fun other hother => hitems other (List.mem_cons_of_mem item hother)) hfirst

theorem Annotation.tableSize_nil_lt : tableSize [] < UInt32.size := by
  decide

/-- A field still fits when it is given an attribute that does. -/
theorem Field.Fits.withAttribute {field : Field} {item : Attribute} (hfield : field.Fits)
    (hitem : item.Fits) : (field.withAttribute item).Fits := by
  cases item with
  | annotations visible table =>
    cases visible with
    | true => exact { hfield with visible := hitem }
    | false => exact { hfield with invisible := hitem }
  | signature _ => exact ⟨hfield.visible, hfield.invisible⟩
  | constantValue _ => exact ⟨hfield.visible, hfield.invisible⟩
  | deprecated => exact ⟨hfield.visible, hfield.invisible⟩
  | _ => exact hfield

theorem Field.gives_decode (pool : Pool) : (Field.decode pool).Gives Field.Fits := by
  refine Gives.bind_any fun flags => ?_
  refine Gives.bind_any fun nameIndex => Gives.bind_any fun name => ?_
  refine Gives.bind_any fun descriptorIndex => Gives.bind_any fun descriptor => ?_
  refine (Attribute.gives_decodeTable Attribute.fitsFrame_ofField).bind fun items hitems => ?_
  apply Gives.pure
  refine foldl_fits (fun _ _ => Field.Fits.withAttribute) hitems ?_
  have hempty := Annotation.tableSize_nil_lt
  exact ⟨hempty, hempty⟩

theorem Method.Fits.withAttribute {method : Method} {item : Attribute} (hmethod : method.Fits)
    (hitem : item.Fits) : (method.withAttribute item).Fits := by
  cases item with
  | annotations visible table =>
    cases visible with
    | true => exact { hmethod with visible := hitem }
    | false => exact { hmethod with invisible := hitem }
  | parameterAnnotations visible tables =>
    cases visible with
    | true =>
      refine { hmethod with visibleParameters := fun other hother => ?_ }
      cases hother
      exact hitem
    | false =>
      refine { hmethod with invisibleParameters := fun other hother => ?_ }
      cases hother
      exact hitem
  | annotationDefault value =>
    refine { hmethod with default := fun other hother => ?_ }
    cases hother
    exact hitem
  | signature _ => exact { hmethod with }
  | deprecated => exact { hmethod with }
  | code _ => exact { hmethod with }
  | exceptions _ => exact { hmethod with }
  | _ => exact hmethod

/-- Every method that was read can be written. -/
theorem Method.gives_decode (pool : Pool) : (Method.decode pool).Gives Method.Fits := by
  refine Gives.bind_any fun flags => ?_
  refine Gives.bind_any fun nameIndex => Gives.bind_any fun name => ?_
  refine Gives.bind_any fun descriptorIndex => Gives.bind_any fun descriptor => ?_
  refine (Attribute.gives_decodeTable Attribute.fitsFrame_ofMethod).bind fun items hitems => ?_
  apply Gives.pure
  refine foldl_fits (fun _ _ => Method.Fits.withAttribute) hitems ?_
  have hempty := Annotation.tableSize_nil_lt
  exact ⟨hempty, hempty, by simp, by simp, by simp⟩

/-! ## Classes -/

/-- A class that can be written again: its version is supported, and its
annotations and those of its members fit into frames. -/
structure ClassFile.Fits (file : ClassFile) : Prop where
  version : file.header.version.Supported
  visible : Annotation.tableSize file.visibleAnnotations < UInt32.size
  invisible : Annotation.tableSize file.invisibleAnnotations < UInt32.size
  fields : ∀ field ∈ file.fields, field.Fits
  methods : ∀ method ∈ file.methods, method.Fits

theorem ClassFile.Fits.withAttribute {file : ClassFile} {item : Attribute} (hfile : file.Fits)
    (hitem : item.Fits) : (file.withAttribute item).Fits := by
  cases item with
  | annotations visible table =>
    cases visible with
    | true => exact { hfile with visible := hitem }
    | false => exact { hfile with invisible := hitem }
  | signature _ => exact { hfile with }
  | deprecated => exact { hfile with }
  | innerClasses _ => exact { hfile with }
  | _ => exact hfile

theorem ClassFile.header_withAttribute (file : ClassFile) (item : Attribute) :
    (file.withAttribute item).header = file.header := by
  cases item with
  | annotations visible table => cases visible <;> rfl
  | _ => rfl

/-- Attributes leave the header as it is. -/
theorem ClassFile.header_foldl (file : ClassFile) (items : List Attribute) :
    (items.foldl withAttribute file).header = file.header := by
  induction items generalizing file with
  | nil => rfl
  | cons item items ih => rw [List.foldl_cons, ih, header_withAttribute]

/-- A header that was read has a version that is supported. -/
theorem ClassHeader.gives_decodeWithPool :
    decodeWithPool.Gives fun result => result.1.version.Supported := by
  refine Gives.bind_any fun magic => ?_
  split
  · exact Gives.throw
  refine Gives.bind_any fun minor => Gives.bind_any fun major => ?_
  by_cases hmajor : major.toNat < supportedVersions.1 ∨ supportedVersions.2 < major.toNat
  · rw [if_pos hmajor]
    exact Gives.throw
  · rw [if_neg hmajor]
    obtain ⟨hlow, hhigh⟩ := not_or.1 hmajor
    refine Gives.bind_any fun pool => Gives.bind_any fun flags => ?_
    refine Gives.bind_any fun nameIndex => Gives.bind_any fun name => ?_
    refine Gives.bind_any fun superIndex => Gives.bind_any fun superName => ?_
    refine Gives.bind_any fun interfaces => Gives.pure ?_
    exact ⟨Nat.not_lt.1 hlow, Nat.not_lt.1 hhigh⟩

/-- A decoded class can be written again. -/
theorem ClassFile.gives_fits : ClassFile.decoder.Gives ClassFile.Fits := by
  refine ClassHeader.gives_decodeWithPool.bind fun result hversion => ?_
  obtain ⟨header, pool⟩ := result
  refine Gives.bind_any fun fieldCount => ?_
  refine ((Field.gives_decode pool).repeated fieldCount.toNat).bind fun fields hfields => ?_
  refine Gives.bind_any fun methodCount => ?_
  refine ((Method.gives_decode pool).repeated methodCount.toNat).bind fun methods hmethods => ?_
  refine (Attribute.gives_decodeTable Attribute.fitsFrame_ofClass).bind fun items hitems => ?_
  have hfile : ClassFile.Fits (items.foldl withAttribute { header, fields, methods, pool }) := by
    refine foldl_fits (fun _ _ => ClassFile.Fits.withAttribute) hitems ?_
    exact ⟨hversion, Annotation.tableSize_nil_lt, Annotation.tableSize_nil_lt, hfields, hmethods⟩
  refine Gives.bind_any fun cursor => ?_
  by_cases hend : cursor.remaining = 0
  · simp only [hend, ↓reduceIte]
    exact Gives.pure hfile
  · simp only [hend, ↓reduceIte]
    exact Gives.throw

/-- Decoding runs a decoder from the start of the bytes. -/
theorem Decoder.run_of_decode {α : Type} {decoder : Decoder α} {bytes : List UInt8} {value : α}
    (hdecode : decoder.decode bytes = .ok value) :
    ∃ after, decoder (Cursor.ofBytes bytes) = .ok value after := by
  unfold Decoder.decode at hdecode
  cases hrun : decoder.run (Cursor.ofBytes bytes) with
  | error cause stopped => simp [hrun] at hdecode
  | ok result after =>
    rw [hrun] at hdecode
    cases hdecode
    exact ⟨after, hrun⟩

/-- Every class that was read can be written. -/
theorem ClassFile.fits_of_decode {bytes : List UInt8} {file : ClassFile}
    (hdecode : decode bytes = .ok file) : file.Fits := by
  obtain ⟨after, hrun⟩ := Decoder.run_of_decode hdecode
  exact gives_fits (Cursor.ofBytes bytes) file after hrun

/-- The header of a class needs no more than the bytes in front of its
members. -/
theorem ClassHeader.decode_of_decode {bytes : List UInt8} {file : ClassFile}
    (hdecode : ClassFile.decode bytes = .ok file) : decode bytes = .ok file.header := by
  obtain ⟨after, hrun⟩ := Decoder.run_of_decode hdecode
  obtain ⟨result, between, hheader, hrest⟩ := exists_between hrun
  obtain ⟨header, pool⟩ := result
  have hsame : Decoder.Gives (do
      let fieldCount ← Reader.u16
      let fields ← Decoder.repeated (Field.decode pool) fieldCount.toNat
      let methodCount ← Reader.u16
      let methods ← Decoder.repeated (Method.decode pool) methodCount.toNat
      let attributes ← Attribute.decodeTable pool (Attribute.ofClass pool)
      let trailing := (← get).remaining
      if trailing = 0 then
        return attributes.foldl ClassFile.withAttribute { header, fields, methods, pool }
      else
        throw (.trailingBytes trailing)) fun file => file.header = header := by
    refine Gives.bind_any fun fieldCount => Gives.bind_any fun fields => ?_
    refine Gives.bind_any fun methodCount => Gives.bind_any fun methods => ?_
    refine Gives.bind_any fun items => Gives.bind_any fun cursor => ?_
    by_cases hend : cursor.remaining = 0
    · simp only [hend, ↓reduceIte]
      exact Gives.pure (ClassFile.header_foldl _ items)
    · simp only [hend, ↓reduceIte]
      exact Gives.throw
  have hname : (Prod.fst <$> decodeWithPool) (Cursor.ofBytes bytes) = .ok header between := by
    simp only [Functor.map, EStateM.map, hheader]
  rw [hsame between file after hrest]
  simp only [decode, Decoder.decode, EStateM.run, hname]

/-- Bytes decode to a class if they do so up to the pool. -/
theorem ClassFile.exists_decode_eq {bytes : List UInt8} (expected : ClassFile)
    (hparts : (decode bytes).toOption.map
      (fun file => { file with pool := expected.pool }) = some expected) :
    ∃ pool, ClassFile.decode bytes = .ok { expected with pool } := by
  cases hfile : ClassFile.decode bytes with
  | error cause =>
    rw [hfile] at hparts
    cases hparts
  | ok file =>
    rw [hfile] at hparts
    refine ⟨file.pool, ?_⟩
    rw [← Option.some.inj hparts]

end ClassStub
