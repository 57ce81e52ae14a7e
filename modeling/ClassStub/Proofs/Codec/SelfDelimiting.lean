import ClassStub.ClassFile.Equality
import ClassStub.Proofs.Codec.Decoded

/-!
# The class format is self-delimiting

A decoder is self-delimiting if it depends on nothing but the bytes that it
consumes (`Decoder.SelfDelimiting`): it reads them as the same value wherever
they stand, and where they are cut short it reports the end of the bytes.  Words
and texts are read so, and steps in a row and items with a count keep it.  What a
frame holds is decoded from the frame alone, so tables of attributes are
self-delimiting whatever their attributes are.  Hence a class ends where its
bytes say, and its header does (`ClassFile.decode_self_delimiting`).
-/

namespace ClassStub

open Decoder

namespace Decoder

variable {α β : Type}

/-- Where some bytes are cut short, a decoder reports the end of the bytes. -/
def EndsEarly (decoder : Decoder α) (bytes : List UInt8) : Prop :=
  ∀ (position : Nat) (front : List UInt8), front <+: bytes → front ≠ bytes →
    ∃ stop after, decoder { position, rest := front } =
      .error (.unreadable (.unexpectedEnd stop)) after

/-- The bytes that a decoder consumed decide alone: it reads them as the same
value everywhere, and needs all of them. -/
def SelfDelimiting (decoder : Decoder α) : Prop :=
  decoder.Consumes fun value bytes => decoder.Reads bytes value ∧ decoder.EndsEarly bytes

/-! ## Being cut short -/

/-- No bytes cannot be cut short. -/
theorem endsEarly_nil (decoder : Decoder α) : decoder.EndsEarly [] :=
  fun _ _ hfront hshort => absurd (List.prefix_nil.1 hfront) hshort

/-- Two steps are cut short in the first one or in the second. -/
theorem EndsEarly.bind {first : Decoder α} {next : α → Decoder β} {bytes more : List UInt8}
    {value : α} (hfirst : first.EndsEarly bytes) (hread : first.Reads bytes value)
    (hnext : (next value).EndsEarly more) : (first >>= next).EndsEarly (bytes ++ more) := by
  intro position front hfront hshort
  have hbytes : bytes <+: bytes ++ more := List.prefix_append bytes more
  by_cases hlength : front.length < bytes.length
  · have hcut := List.prefix_of_prefix_length_le hfront hbytes (Nat.le_of_lt hlength)
    have hne : front ≠ bytes := fun hsame => Nat.ne_of_lt hlength (congrArg List.length hsame)
    obtain ⟨stop, after, hrun⟩ := hfirst position front hcut hne
    exact ⟨stop, after, by simp only [Bind.bind, EStateM.bind, hrun]⟩
  · obtain ⟨rest, rfl⟩ :=
      List.prefix_of_prefix_length_le hbytes hfront (Nat.not_lt.1 hlength)
    rw [hread.run_bind]
    exact hnext _ rest ((List.prefix_append_right_inj bytes).1 hfront)
      fun hsame => hshort (congrArg (bytes ++ ·) hsame)

/-- A last step that consumes nothing cannot be cut short. -/
theorem EndsEarly.bind_nil {first : Decoder α} {next : α → Decoder β} {bytes : List UInt8}
    {value : α} (hfirst : first.EndsEarly bytes) (hread : first.Reads bytes value) :
    (first >>= next).EndsEarly bytes := by
  have hends := hfirst.bind hread (endsEarly_nil (next value))
  rwa [List.append_nil] at hends

/-- Bytes that are taken cannot be taken from fewer. -/
theorem endsEarly_take (bytes : List UInt8) :
    EndsEarly (liftM (Reader.take bytes.length)) bytes := by
  intro position front hfront hshort
  have hlength : front.length < bytes.length :=
    Nat.lt_of_le_of_ne hfront.length_le fun hsame => hshort (hfront.eq_of_length hsame)
  have htaken : (front.take bytes.length).length < bytes.length := by
    rw [List.length_take]
    omega
  refine ⟨position, { position, rest := front }, ?_⟩
  change EStateM.adaptExcept FormatError.unreadable (Reader.take bytes.length) _ = _
  simp only [EStateM.adaptExcept, Reader.take, htaken, ↓reduceIte]

/-! ## Steps -/

theorem SelfDelimiting.pure (value : α) : SelfDelimiting (pure value) :=
  Consumes.pure ⟨Reads.pure value, endsEarly_nil _⟩

theorem SelfDelimiting.throw (cause : FormatError) : SelfDelimiting (throw cause : Decoder α) :=
  Consumes.throw

theorem SelfDelimiting.lift (result : Except FormatError α) : SelfDelimiting (liftM result) :=
  Consumes.lift fun _ hresult => ⟨Reads.lift hresult, endsEarly_nil _⟩

/-- Two decoders one behind the other are cut short in one of them. -/
theorem SelfDelimiting.bind {first : Decoder α} {next : α → Decoder β}
    (hfirst : first.SelfDelimiting) (hnext : ∀ value, (next value).SelfDelimiting) :
    (first >>= next).SelfDelimiting := by
  refine Consumes.bind (hfirst.mono ?_)
  rintro value bytes ⟨hread, hends⟩
  refine (hnext value).mono ?_
  rintro result more ⟨hmore, hendsMore⟩
  exact ⟨hread.bind hmore, hends.bind hread hendsMore⟩

theorem SelfDelimiting.map {first : Decoder α} (hfirst : first.SelfDelimiting) (f : α → β) :
    SelfDelimiting (do return f (← first)) :=
  hfirst.bind fun value => SelfDelimiting.pure (f value)

/-- A list of items is cut short in one of them. -/
theorem SelfDelimiting.repeated {item : Decoder α} (hitem : item.SelfDelimiting) (count : Nat) :
    (repeated item count).SelfDelimiting := by
  induction count with
  | zero => exact SelfDelimiting.pure []
  | succ count ih => exact hitem.bind fun value => ih.map (value :: ·)

/-- What a frame holds was decoded before; nothing more is consumed for it. -/
theorem selfDelimiting_within (framed : List UInt8) (decoder : Decoder α) :
    (within framed decoder).SelfDelimiting := by
  unfold within
  split
  · exact SelfDelimiting.pure _
  · exact SelfDelimiting.throw _

/-! ## Words and texts -/

/-- Bytes behind a known count end by that count. -/
theorem selfDelimiting_take (count : Nat) : SelfDelimiting (liftM (Reader.take count)) := by
  refine (consumes_take count).mono ?_
  rintro value bytes ⟨rfl, rfl⟩
  exact ⟨reads_take value, endsEarly_take value⟩

/-- A word ends by its width. -/
theorem selfDelimiting_word (width : Nat) (ofNat : Nat → α) :
    SelfDelimiting (liftM (do return ofNat (Bytes.ofBigEndian (← Reader.take width)) :
      Reader α)) := by
  rw [liftM_bind]
  exact (selfDelimiting_take width).map fun bytes => ofNat (Bytes.ofBigEndian bytes)

theorem selfDelimiting_u8 : SelfDelimiting (liftM Reader.u8) :=
  selfDelimiting_word 1 UInt8.ofNat

theorem selfDelimiting_u16 : SelfDelimiting (liftM Reader.u16) :=
  selfDelimiting_word 2 UInt16.ofNat

theorem selfDelimiting_u32 : SelfDelimiting (liftM Reader.u32) :=
  selfDelimiting_word 4 UInt32.ofNat

theorem selfDelimiting_i32 : SelfDelimiting (liftM Reader.i32) := by
  rw [Reader.i32, liftM_bind]
  exact selfDelimiting_u32.map UInt32.toInt32

theorem selfDelimiting_u64 : SelfDelimiting (liftM Reader.u64) := by
  rw [Reader.u64, liftM_bind]
  refine selfDelimiting_u32.bind fun high => ?_
  rw [liftM_bind]
  exact selfDelimiting_u32.map _

theorem selfDelimiting_i64 : SelfDelimiting (liftM Reader.i64) := by
  rw [Reader.i64, liftM_bind]
  exact selfDelimiting_u64.map UInt64.toInt64

/-- Looking where the cursor is does no harm if only errors depend on it. -/
theorem SelfDelimiting.get_bind {next : Cursor → Decoder α}
    (hnext : ∀ cursor, (next cursor).Consumes fun value bytes =>
      ∀ other, (next other).Reads bytes value ∧ (next other).EndsEarly bytes) :
    (get >>= next).SelfDelimiting := by
  refine Consumes.get_bind fun cursor => (hnext cursor).mono ?_
  intro value bytes hothers
  refine ⟨Reads.get_bind fun other => (hothers other).1, ?_⟩
  intro position front
  exact (hothers { position, rest := front }).2 position front

/-- A text ends by the length before it. -/
theorem selfDelimiting_text : SelfDelimiting (liftM Reader.text) := by
  rw [Reader.text, liftM_bind]
  refine selfDelimiting_u16.bind fun length => ?_
  rw [liftM_bind]
  refine SelfDelimiting.get_bind fun cursor => ?_
  rw [liftM_bind]
  refine Consumes.bind ((consumes_take _).mono ?_)
  rintro value bytes ⟨rfl, hlength⟩
  cases htext : JavaText.ofBytes? value with
  | none => exact Consumes.throw
  | some text =>
    refine Consumes.pure fun other => ?_
    rw [liftM_bind, List.append_nil, ← hlength]
    refine ⟨(reads_take value).bind_nil ?_, (endsEarly_take value).bind_nil (reads_take value)⟩
    simp only [htext]
    exact Reads.pure text

end Decoder

/-! ## The parts of a class -/

/-- A constant ends by what its tag stands for. -/
theorem Constant.selfDelimiting_decode (index : Nat) : (Constant.decode index).SelfDelimiting := by
  refine selfDelimiting_u8.bind fun tag => ?_
  have hpair : ∀ make : UInt16 → UInt16 → Constant,
      Decoder.SelfDelimiting (do return make (← Reader.u16) (← Reader.u16)) :=
    fun make => selfDelimiting_u16.bind fun first => selfDelimiting_u16.map (make first)
  split
  · exact selfDelimiting_text.map utf8
  · exact selfDelimiting_i32.map integer
  · exact selfDelimiting_u32.map float
  · exact selfDelimiting_i64.map long
  · exact selfDelimiting_u64.map double
  · exact selfDelimiting_u16.map classRef
  · exact selfDelimiting_u16.map string
  · exact hpair fieldRef
  · exact hpair methodRef
  · exact hpair interfaceMethodRef
  · exact hpair nameAndType
  · exact selfDelimiting_u8.bind fun kind => selfDelimiting_u16.map (methodHandle kind)
  · exact selfDelimiting_u16.map methodType
  · exact hpair dynamic
  · exact hpair invokeDynamic
  · exact selfDelimiting_u16.map moduleRef
  · exact selfDelimiting_u16.map packageRef
  · exact SelfDelimiting.throw _

/-- Each entry fills one slot or two, so the slots that are left decide how many
entries follow. -/
theorem Pool.selfDelimiting_slotsFrom (declared : UInt16) (index left : Nat) :
    (slotsFrom declared index left).SelfDelimiting := by
  induction left using Nat.strongRecOn generalizing index with
  | ind left ih =>
    cases left with
    | zero => exact SelfDelimiting.pure []
    | succ left =>
      rw [slotsFrom]
      refine (Constant.selfDelimiting_decode index).bind fun constant => ?_
      cases constant.isWide with
      | true =>
        cases left with
        | zero => exact SelfDelimiting.throw _
        | succ left => exact (ih left (by omega) (index + 2)).map (constant :: .unusable :: ·)
      | false => exact (ih left (by omega) (index + 1)).map (constant :: ·)

/-- A pool ends by the size before it. -/
theorem Pool.selfDelimiting_decode : Pool.decode.SelfDelimiting := by
  refine selfDelimiting_u16.bind fun declared => ?_
  split
  · exact SelfDelimiting.throw _
  · exact (selfDelimiting_slotsFrom declared 1 _).map _

namespace Attribute

variable {α : Type}

/-- An attribute ends by the length of its frame, whatever is in it. -/
theorem selfDelimiting_decodeEntry (pool : Pool) (recognise : Recognition α) :
    (decodeEntry pool recognise).SelfDelimiting := by
  refine selfDelimiting_u16.bind fun index => (SelfDelimiting.lift _).bind fun name => ?_
  refine selfDelimiting_u32.bind fun length => (selfDelimiting_take _).bind fun body => ?_
  split
  · exact SelfDelimiting.pure none
  · refine (selfDelimiting_within body _).bind fun ⟨value, unread⟩ => ?_
    by_cases hend : unread = 0
    · simp only [hend, ↓reduceIte]
      exact SelfDelimiting.pure (some value)
    · simp only [hend, ↓reduceIte]
      exact SelfDelimiting.throw _

/-- A table of attributes ends by its count. -/
theorem selfDelimiting_decodeTable (pool : Pool) (recognise : Recognition α) :
    (decodeTable pool recognise).SelfDelimiting :=
  selfDelimiting_u16.bind fun count =>
    ((selfDelimiting_decodeEntry pool recognise).repeated count.toNat).map (List.filterMap id)

theorem selfDelimiting_decodeClassNames (pool : Pool) :
    (decodeClassNames pool).SelfDelimiting := by
  refine selfDelimiting_u16.bind fun count => SelfDelimiting.repeated ?_ count.toNat
  exact selfDelimiting_u16.bind fun index => SelfDelimiting.lift (pool.className index)

end Attribute

/-- A field ends by its attributes. -/
theorem Field.selfDelimiting_decode (pool : Pool) : (Field.decode pool).SelfDelimiting := by
  refine selfDelimiting_u16.bind fun flags => ?_
  refine selfDelimiting_u16.bind fun nameIndex => (SelfDelimiting.lift _).bind fun name => ?_
  refine selfDelimiting_u16.bind fun typeIndex => (SelfDelimiting.lift _).bind fun descriptor => ?_
  exact (Attribute.selfDelimiting_decodeTable pool _).map _

/-- A method ends by its attributes. -/
theorem Method.selfDelimiting_decode (pool : Pool) : (Method.decode pool).SelfDelimiting := by
  refine selfDelimiting_u16.bind fun flags => ?_
  refine selfDelimiting_u16.bind fun nameIndex => (SelfDelimiting.lift _).bind fun name => ?_
  refine selfDelimiting_u16.bind fun typeIndex => (SelfDelimiting.lift _).bind fun descriptor => ?_
  exact (Attribute.selfDelimiting_decodeTable pool _).map _

/-! ## Headers -/

namespace ClassHeader

/-- A header ends by the table of its interfaces. -/
theorem selfDelimiting_decodeWithPool : decodeWithPool.SelfDelimiting := by
  refine selfDelimiting_u32.bind fun magic => ?_
  split
  · exact SelfDelimiting.throw _
  refine selfDelimiting_u16.bind fun minor => selfDelimiting_u16.bind fun major => ?_
  split
  · exact SelfDelimiting.throw _
  refine Pool.selfDelimiting_decode.bind fun pool => selfDelimiting_u16.bind fun flags => ?_
  refine selfDelimiting_u16.bind fun nameIndex => (SelfDelimiting.lift _).bind fun name => ?_
  refine selfDelimiting_u16.bind fun superIndex => (SelfDelimiting.lift _).bind fun superName => ?_
  exact (Attribute.selfDelimiting_decodeClassNames pool).map _

/-- A header decodes if it stands in front of anything. -/
theorem decode_eq_ok_iff {bytes : List UInt8} {header : ClassHeader} :
    decode bytes = .ok header ↔
      ∃ front rest pool, bytes = front ++ rest ∧ decodeWithPool.Reads front (header, pool) := by
  constructor
  · intro hdecode
    obtain ⟨after, hrun⟩ := Decoder.run_of_decode hdecode
    obtain ⟨⟨found, pool⟩, between, hfound, hlast⟩ := exists_between hrun
    cases hlast
    obtain ⟨front, hfront, _, hread, _⟩ := selfDelimiting_decodeWithPool _ _ _ hfound
    exact ⟨front, after.rest, pool, hfront, hread⟩
  · rintro ⟨front, rest, pool, rfl, hread⟩
    exact decode_eq_ok hread rest

end ClassHeader

/-! ## Classes -/

namespace ClassFile

/-- Decodes a class, whatever follows it. -/
def contents : Decoder ClassFile := do
  let (header, pool) ← ClassHeader.decodeWithPool
  let fieldCount ← Reader.u16
  let fields ← Decoder.repeated (Field.decode pool) fieldCount.toNat
  let methodCount ← Reader.u16
  let methods ← Decoder.repeated (Method.decode pool) methodCount.toNat
  let attributes ← Attribute.decodeTable pool (Attribute.ofClass pool)
  return attributes.foldl withAttribute { header, fields, methods, pool }

/-- A class is its contents, and nothing may follow them. -/
theorem decoder_eq : decoder = (do
    let file ← contents
    let trailing := (← get).remaining
    if trailing = 0 then
      return file
    else
      throw (.trailingBytes trailing)) := by
  simp only [decoder, contents, bind_assoc, pure_bind]

/-- A class ends by its attributes. -/
theorem selfDelimiting_contents : contents.SelfDelimiting := by
  refine ClassHeader.selfDelimiting_decodeWithPool.bind fun ⟨header, pool⟩ => ?_
  refine selfDelimiting_u16.bind fun fieldCount => ?_
  refine ((Field.selfDelimiting_decode pool).repeated _).bind fun fields => ?_
  refine selfDelimiting_u16.bind fun methodCount => ?_
  refine ((Method.selfDelimiting_decode pool).repeated _).bind fun methods => ?_
  exact (Attribute.selfDelimiting_decodeTable pool _).map _

/-- The bytes of a class followed by others. -/
theorem decode_append {bytes : List UInt8} {file : ClassFile}
    (hread : contents.Reads bytes file) (more : List UInt8) :
    decode (bytes ++ more) =
      if more = [] then .ok file else .error (.trailingBytes more.length) := by
  have hrun := hread.run_bind (fun file => do
    let trailing := (← get).remaining
    if trailing = 0 then
      return file
    else
      throw (.trailingBytes trailing)) 0 more
  rw [← decoder_eq, run_get_bind] at hrun
  simp only [decode, Decoder.decode, EStateM.run, Cursor.ofBytes, hrun]
  cases more with
  | nil => rfl
  | cons byte more => rfl

/-- A class decodes from exactly the bytes that its contents are read from. -/
theorem decode_eq_ok_iff {bytes : List UInt8} {file : ClassFile} :
    decode bytes = .ok file ↔ contents.Reads bytes file := by
  constructor
  · intro hdecode
    obtain ⟨after, hrun⟩ := Decoder.run_of_decode hdecode
    rw [decoder_eq] at hrun
    obtain ⟨found, between, hfound, hlast⟩ := exists_between hrun
    obtain ⟨used, hused, _, hread, _⟩ := selfDelimiting_contents _ _ _ hfound
    rw [run_get_bind] at hlast
    by_cases hend : between.remaining = 0
    · simp only [hend, ↓reduceIte] at hlast
      cases hlast
      have hnone : after.rest = [] := List.eq_nil_of_length_eq_zero hend
      rw [hnone, List.append_nil] at hused
      rwa [← hused] at hread
    · simp only [hend, ↓reduceIte] at hlast
      cases hlast
  · intro hread
    have hwhole := decode_append hread []
    rwa [List.append_nil, if_pos rfl] at hwhole

/-- Bytes that lack some of a class end too early. -/
theorem decode_endsEarly {bytes : List UInt8} {file : ClassFile}
    (hread : contents.Reads bytes file) {front : List UInt8} (hfront : front <+: bytes)
    (hshort : front ≠ bytes) :
    ∃ stop, decode front = .error (.unreadable (.unexpectedEnd stop)) := by
  have hwhole := hread 0 []
  rw [List.append_nil] at hwhole
  obtain ⟨used, hused, _, _, hends⟩ := selfDelimiting_contents _ _ _ hwhole
  obtain rfl : bytes = used := by simpa using hused
  obtain ⟨stop, after, hrun⟩ := hends 0 front hfront hshort
  refine ⟨stop, ?_⟩
  simp only [decode, Decoder.decode, EStateM.run, Cursor.ofBytes, decoder_eq, Bind.bind,
    EStateM.bind, hrun]

/-- **The class format is self-delimiting.** Bytes that lack some of a class end
too early, and those behind a class are trailing.  A header decodes whatever
follows it, and that of a class is the header of the class. -/
theorem decode_self_delimiting (bytes : List UInt8) :
    (∀ file, decode bytes = .ok file →
      (∀ front, front <+: bytes → front ≠ bytes →
        ∃ stop, decode front = .error (.unreadable (.unexpectedEnd stop))) ∧
      (∀ more, more ≠ [] → decode (bytes ++ more) = .error (.trailingBytes more.length)) ∧
      ClassHeader.decode bytes = .ok file.header) ∧
    ∀ header, ClassHeader.decode bytes = .ok header →
      ∀ more, ClassHeader.decode (bytes ++ more) = .ok header := by
  constructor
  · intro file hdecode
    have hread := decode_eq_ok_iff.1 hdecode
    refine ⟨fun front hfront hshort => decode_endsEarly hread hfront hshort, ?_,
      ClassHeader.decode_of_decode hdecode⟩
    intro more hmore
    rw [decode_append hread, if_neg hmore]
  · intro header hheader more
    obtain ⟨front, rest, pool, rfl, hread⟩ := ClassHeader.decode_eq_ok_iff.1 hheader
    rw [List.append_assoc]
    exact ClassHeader.decode_eq_ok hread (rest ++ more)

/-- The class `A`, which is deprecated. -/
def sampleDeprecated : List UInt8 :=
  [0xca, 0xfe, 0xba, 0xbe, 0x00, 0x00, 0x00, 0x34, 0x00, 0x04, 0x01, 0x00, 0x01, 0x41, 0x07,
    0x00, 0x01, 0x01, 0x00, 0x0a, 0x44, 0x65, 0x70, 0x72, 0x65, 0x63, 0x61, 0x74, 0x65, 0x64,
    0x00, 0x21, 0x00, 0x02, 0x00, 0x00, 0x00, 0x00, 0x00, 0x00, 0x00, 0x00, 0x00, 0x01, 0x00,
    0x03, 0x00, 0x00, 0x00, 0x00]

/-- What the bytes of the sample mean, but for the pool. -/
def sampleDeprecatedFile (pool : Pool) : ClassFile where
  header := { version := ⟨52, 0⟩, flags := 0x0021, name := "A", superName := none,
              interfaces := [] }
  deprecated := true
  fields := []
  methods := []
  pool := pool

theorem exists_decode_sampleDeprecated :
    ∃ pool, decode sampleDeprecated = .ok (sampleDeprecatedFile pool) :=
  exists_decode_eq (sampleDeprecatedFile ⟨#[]⟩) (by decide +kernel)

/-- The sample without its last byte, and with two more. -/
theorem decode_self_delimiting_sampleDeprecated :
    ∃ file, decode sampleDeprecated = .ok file ∧
      (∃ stop, decode sampleDeprecated.dropLast = .error (.unreadable (.unexpectedEnd stop))) ∧
      decode (sampleDeprecated ++ [0, 0]) = .error (.trailingBytes 2) ∧
      ClassHeader.decode sampleDeprecated = .ok file.header ∧
      ClassHeader.decode (sampleDeprecated ++ [0, 0]) = .ok file.header := by
  obtain ⟨pool, hdecode⟩ := exists_decode_sampleDeprecated
  obtain ⟨hclass, hheader⟩ := decode_self_delimiting sampleDeprecated
  obtain ⟨hshort, hlong, hsame⟩ := hclass _ hdecode
  exact ⟨sampleDeprecatedFile pool, hdecode, hshort _ (List.dropLast_prefix _) (by decide),
    hlong [0, 0] (List.cons_ne_nil _ _), hsame, hheader _ hsame [0, 0]⟩

end ClassFile

end ClassStub
