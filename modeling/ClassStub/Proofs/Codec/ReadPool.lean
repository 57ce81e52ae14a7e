import ClassStub.Proofs.Codec.Denotation
import ClassStub.Proofs.Codec.Stability

/-!
# Read pools

What a decoder of constants consumed is the written form of what it read
(`Constant.consumes_decode`), so a pool that was read has as many slots as its
size says, and behind the size stand its entries as they are written
(`Pool.consumes_decode`).  A builder that knows none of these entries interns
them all, each at the index that it had (`PoolBuilder.exists_mapM_intern`).  Hence
a pool without equal entries is written back byte for byte (`Pool.written_back`).
-/

namespace ClassStub

open Decoder

/-! ## What decoded constants consumed -/

/-- The halves of a word of eight bytes are its upper and its lower digits. -/
theorem Bytes.u64_halves (high low : UInt32) :
    Bytes.u64 (UInt64.ofNat (high.toNat * 0x100000000 + low.toNat)) =
      Bytes.u32 high ++ Bytes.u32 low := by
  have hhigh : high.toNat < 0x100000000 := high.toNat_lt
  have hlow : low.toNat < Bytes.weight 4 := low.toNat_lt
  have hvalue : (UInt64.ofNat (high.toNat * 0x100000000 + low.toNat)).toNat =
      high.toNat * Bytes.weight 4 + low.toNat := by
    rw [UInt64.toNat_ofNat_of_lt']
    · rfl
    · have hweight : Bytes.weight 4 = 0x100000000 := rfl
      rw [UInt64.size]
      omega
  rw [Bytes.u64, hvalue, Bytes.bigEndian_add 4 4, Bytes.bigEndian_add_mul,
    Nat.mul_comm, Nat.mul_add_div (Bytes.weight_pos 4), Nat.div_eq_of_lt hlow, Nat.add_zero]
  rfl

namespace Decoder

variable {β : Type}

/-- A word of one byte is read from this byte. -/
theorem consumes_u8_bytes :
    Consumes (liftM Reader.u8) fun value bytes => Bytes.u8 value = bytes := by
  have hword : Consumes (liftM Reader.u8) fun value bytes =>
      Bytes.bigEndian 1 value.toNat = bytes :=
    consumes_word_bytes fun _ hfits => UInt8.toNat_ofNat_of_lt' hfits
  refine hword.mono fun value bytes hbytes => ?_
  simpa [Bytes.bigEndian, Bytes.weight, Bytes.u8] using hbytes

/-- A decoder that starts with a byte consumed it. -/
theorem Consumes.u8_bind {next : UInt8 → Decoder β} {relation : β → List UInt8 → Prop}
    (hnext : ∀ value, (next value).Consumes fun result more =>
      relation result (Bytes.u8 value ++ more)) :
    (liftM Reader.u8 >>= next).Consumes relation :=
  Consumes.bind (consumes_u8_bytes.mono fun value _ hbytes => hbytes ▸ hnext value)

theorem consumes_u16_bytes :
    Consumes (liftM Reader.u16) fun value bytes => Bytes.u16 value = bytes :=
  consumes_word_bytes fun _ hfits => UInt16.toNat_ofNat_of_lt' hfits

theorem consumes_u32_bytes :
    Consumes (liftM Reader.u32) fun value bytes => Bytes.u32 value = bytes :=
  consumes_word_bytes fun _ hfits => UInt32.toNat_ofNat_of_lt' hfits

theorem consumes_i32_bytes :
    Consumes (liftM Reader.i32) fun value bytes => Bytes.i32 value = bytes := by
  rw [Reader.i32, liftM_bind]
  refine Consumes.u32_bind fun word => Consumes.pure ?_
  rw [Bytes.i32, UInt32.toUInt32_toInt32, List.append_nil]

theorem consumes_u64_bytes :
    Consumes (liftM Reader.u64) fun value bytes => Bytes.u64 value = bytes := by
  rw [Reader.u64, liftM_bind]
  refine Consumes.u32_bind fun high => ?_
  rw [liftM_bind]
  refine Consumes.u32_bind fun low => Consumes.pure ?_
  rw [Bytes.u64_halves, List.append_nil]

theorem consumes_i64_bytes :
    Consumes (liftM Reader.i64) fun value bytes => Bytes.i64 value = bytes := by
  rw [Reader.i64, liftM_bind]
  refine Consumes.bind (consumes_u64_bytes.mono fun word bytes hbytes => Consumes.pure ?_)
  rw [Bytes.i64, UInt64.toUInt64_toInt64, hbytes, List.append_nil]

/-- A text is read from its length and its bytes, whether these are the shortest
for it or not. -/
theorem consumes_text_bytes :
    Consumes (liftM Reader.text) fun text bytes => text.bytes.length ≤ maxWord ∧
      Bytes.u16 (UInt16.ofNat text.bytes.length) ++ text.bytes = bytes := by
  rw [Reader.text, liftM_bind]
  refine Consumes.u16_bind fun length => ?_
  rw [liftM_bind]
  refine Consumes.get_bind fun cursor => ?_
  rw [liftM_bind]
  refine Consumes.take_bind fun bytes hlength => ?_
  unfold JavaText.ofBytes?
  by_cases hformed : (ModifiedUtf8.units? bytes).isSome
  · rw [dif_pos hformed]
    apply Consumes.pure
    rw [hlength, UInt16.ofNat_toNat, List.append_nil]
    exact ⟨Nat.le_of_lt_succ length.toNat_lt, rfl⟩
  · rw [dif_neg hformed]
    exact Consumes.throw

end Decoder

namespace Constant

section Operands

variable {α β : Type} {first : Reader α} {second : Reader β} {writeFirst : α → List UInt8}
  {writeSecond : β → List UInt8} {tag : UInt8}

/-- A constant with one operand behind its tag. -/
theorem consumes_operand {make : α → Constant}
    (hfirst : Consumes (liftM first) fun value bytes => writeFirst value = bytes)
    (hencodable : ∀ value, (make value).Encodable)
    (hbytes : ∀ value, (make value).bytes = Bytes.u8 tag ++ writeFirst value) :
    Decoder.Consumes (do return make (← first)) fun constant bytes =>
      constant.Encodable ∧ constant.bytes = Bytes.u8 tag ++ bytes := by
  refine Consumes.bind (hfirst.mono fun value bytes hvalue => Consumes.pure ?_)
  rw [List.append_nil, ← hvalue]
  exact ⟨hencodable value, hbytes value⟩

/-- A constant with two operands behind its tag. -/
theorem consumes_operands {make : α → β → Constant}
    (hfirst : Consumes (liftM first) fun value bytes => writeFirst value = bytes)
    (hsecond : Consumes (liftM second) fun value bytes => writeSecond value = bytes)
    (hencodable : ∀ value other, (make value other).Encodable)
    (hbytes : ∀ value other,
      (make value other).bytes = Bytes.u8 tag ++ writeFirst value ++ writeSecond other) :
    Decoder.Consumes (do return make (← first) (← second)) fun constant bytes =>
      constant.Encodable ∧ constant.bytes = Bytes.u8 tag ++ bytes := by
  refine Consumes.bind (hfirst.mono fun value bytes hvalue => ?_)
  refine Consumes.bind (hsecond.mono fun other more hother => Consumes.pure ?_)
  rw [List.append_nil, ← hvalue, ← hother, ← List.append_assoc]
  exact ⟨hencodable value other, hbytes value other⟩

end Operands

/-- What is read as a constant is how the constant is written. -/
theorem consumes_decode (index : Nat) :
    (decode index).Consumes fun constant bytes =>
      constant.Encodable ∧ constant.bytes = bytes := by
  have hreference : ∀ (tag : UInt8) (make : UInt16 → Constant),
      (∀ value, (make value).Encodable) →
      (∀ value, (make value).bytes = Bytes.u8 tag ++ Bytes.u16 value) →
        Decoder.Consumes (do return make (← Reader.u16)) fun constant bytes =>
          constant.Encodable ∧ constant.bytes = Bytes.u8 tag ++ bytes :=
    fun _ _ => consumes_operand consumes_u16_bytes
  have hreferences : ∀ (tag : UInt8) (make : UInt16 → UInt16 → Constant),
      (∀ value other, (make value other).Encodable) →
      (∀ value other,
        (make value other).bytes = Bytes.u8 tag ++ Bytes.u16 value ++ Bytes.u16 other) →
        Decoder.Consumes (do return make (← Reader.u16) (← Reader.u16)) fun constant bytes =>
          constant.Encodable ∧ constant.bytes = Bytes.u8 tag ++ bytes :=
    fun _ _ => consumes_operands consumes_u16_bytes consumes_u16_bytes
  refine Consumes.u8_bind fun tag => ?_
  -- The cases are the tags, in their order, and every other byte.
  split
  · refine Consumes.bind (consumes_text_bytes.mono fun text bytes htext => Consumes.pure ?_)
    obtain ⟨hlength, rfl⟩ := htext
    rw [List.append_nil, ← List.append_assoc]
    exact ⟨hlength, rfl⟩
  · exact consumes_operand consumes_i32_bytes (fun _ => trivial) fun _ => rfl
  · exact consumes_operand consumes_u32_bytes (fun _ => trivial) fun _ => rfl
  · exact consumes_operand consumes_i64_bytes (fun _ => trivial) fun _ => rfl
  · exact consumes_operand consumes_u64_bytes (fun _ => trivial) fun _ => rfl
  · exact hreference 7 classRef (fun _ => trivial) fun _ => rfl
  · exact hreference 8 string (fun _ => trivial) fun _ => rfl
  · exact hreferences 9 fieldRef (fun _ _ => trivial) fun _ _ => rfl
  · exact hreferences 10 methodRef (fun _ _ => trivial) fun _ _ => rfl
  · exact hreferences 11 interfaceMethodRef (fun _ _ => trivial) fun _ _ => rfl
  · exact hreferences 12 nameAndType (fun _ _ => trivial) fun _ _ => rfl
  · exact consumes_operands consumes_u8_bytes consumes_u16_bytes (fun _ _ => trivial)
      fun _ _ => rfl
  · exact hreference 16 methodType (fun _ => trivial) fun _ => rfl
  · exact hreferences 17 dynamic (fun _ _ => trivial) fun _ _ => rfl
  · exact hreferences 18 invokeDynamic (fun _ _ => trivial) fun _ _ => rfl
  · exact hreference 19 moduleRef (fun _ => trivial) fun _ => rfl
  · exact hreference 20 packageRef (fun _ => trivial) fun _ => rfl
  · exact Consumes.throw

end Constant

/-! ## What decoded pools consumed -/

namespace Pool

/-- Slots and bytes of the same entries, all of which can be written. -/
def EntriesOf (slots : List Constant) (bytes : List UInt8) : Prop :=
  ∃ entries : List Constant, (∀ constant ∈ entries, constant.Encodable) ∧
    entries.flatMap Constant.slotList = slots ∧ entries.flatMap Constant.bytes = bytes

/-- One more entry before the others has its slots and bytes before theirs. -/
theorem EntriesOf.cons {constant : Constant} (hencodable : constant.Encodable)
    {slots : List Constant} {bytes : List UInt8} (hentries : EntriesOf slots bytes) :
    EntriesOf (constant.slotList ++ slots) (constant.bytes ++ bytes) := by
  obtain ⟨entries, hall, rfl, rfl⟩ := hentries
  exact ⟨constant :: entries, List.forall_mem_cons.2 ⟨hencodable, hall⟩, List.flatMap_cons,
    List.flatMap_cons⟩

/-- Slots that are read are those of entries which stand, as they are written, one
behind the other. -/
theorem consumes_slotsFrom (declared : UInt16) (index left : Nat) :
    (slotsFrom declared index left).Consumes fun slots bytes =>
      slots.length = left ∧ EntriesOf slots bytes := by
  induction left using Nat.strongRecOn generalizing index with
  | ind left ih =>
    cases left with
    | zero => exact Consumes.pure ⟨rfl, [], List.forall_mem_nil _, rfl, rfl⟩
    | succ left =>
      rw [slotsFrom]
      refine Consumes.bind ((Constant.consumes_decode index).mono fun constant bytes hread => ?_)
      obtain ⟨hencodable, rfl⟩ := hread
      cases hwide : constant.isWide with
      | true =>
        cases left with
        | zero => exact Consumes.throw
        | succ left =>
          have hslots : constant.slotList = [constant, .unusable] := if_pos hwide
          have hmore := ih left (by omega) (index + 2)
          refine Consumes.bind (hmore.mono fun slots more hread => Consumes.pure ?_)
          obtain ⟨hlength, hentries⟩ := hread
          have hall := hentries.cons hencodable
          rw [hslots] at hall
          rw [List.append_nil]
          exact ⟨congrArg (· + 2) hlength, hall⟩
      | false =>
        have hslots : constant.slotList = [constant] :=
          if_neg (Bool.eq_false_iff.1 hwide)
        have hmore := ih left (by omega) (index + 1)
        refine Consumes.bind (hmore.mono fun slots more hread => Consumes.pure ?_)
        obtain ⟨hlength, hentries⟩ := hread
        have hall := hentries.cons hencodable
        rw [hslots] at hall
        rw [List.append_nil]
        exact ⟨congrArg (· + 1) hlength, hall⟩

/-- A pool that stands for entries which can be written, together with bytes that
are its size and the written entries. -/
structure WrittenAs (pool : Pool) (entries : List Constant) (bytes : List UInt8) : Prop where
  encodable : ∀ constant ∈ entries, constant.Encodable
  slots_eq : pool.slots.toList = .unusable :: entries.flatMap Constant.slotList
  size_le : pool.size ≤ maxWord
  bytes_eq : bytes = Bytes.u16 (UInt16.ofNat pool.size) ++ entries.flatMap Constant.bytes

/-- What is read as a pool is how its entries are written. -/
theorem consumes_decode :
    Pool.decode.Consumes fun pool bytes => ∃ entries, pool.WrittenAs entries bytes := by
  refine Consumes.u16_bind fun declared => ?_
  by_cases hzero : declared = 0
  · simp only [hzero, ↓reduceIte]
    exact Consumes.throw
  · simp only [hzero, ↓reduceIte]
    have hslots := consumes_slotsFrom declared 1 (declared.toNat - 1)
    refine Consumes.bind (hslots.mono fun slots bytes hread => Consumes.pure ?_)
    obtain ⟨hlength, entries, hentries, rfl, rfl⟩ := hread
    have hpositive : declared.toNat ≠ 0 := fun hnone => hzero (UInt16.toNat.inj hnone)
    have hsize : (Constant.unusable :: entries.flatMap Constant.slotList).toArray.size =
        declared.toNat := by
      rw [List.size_toArray, List.length_cons, hlength]
      omega
    refine ⟨entries, hentries, rfl, ?_, ?_⟩
    · exact hsize.trans_le (Nat.le_of_lt_succ declared.toNat_lt)
    · rw [size, hsize, UInt16.ofNat_toNat, List.append_nil]

/-! ## Entries and their indices -/

/-- Constants with the indices that they have when the first one has the given
index. -/
def indexed (index : Nat) : List Constant → List (Nat × Constant)
  | [] => []
  | constant :: more => (index, constant) :: indexed (index + constant.slots) more

/-- Giving indices to entries leaves their order as it is. -/
theorem map_snd_indexed (index : Nat) (entries : List Constant) :
    (indexed index entries).map Prod.snd = entries := by
  induction entries generalizing index with
  | nil => rfl
  | cons constant more ih => rw [indexed, List.map_cons, ih]

/-- Of the slots of entries, the usable ones are the first ones of each. -/
theorem filter_zipIdx_slots {entries : List Constant}
    (hencodable : ∀ constant ∈ entries, constant.Encodable) (index : Nat) :
    (((entries.flatMap Constant.slotList).zipIdx index).map
        fun (constant, place) => (place, constant)).filter (fun entry => entry.2 ≠ .unusable) =
      indexed index entries := by
  induction entries generalizing index with
  | nil => rfl
  | cons constant more ih =>
    obtain ⟨hfirst, hmore⟩ := List.forall_mem_cons.1 hencodable
    have husable := hfirst.ne_unusable
    have hrest := ih hmore (index + constant.slots)
    cases hwide : constant.isWide with
    | true =>
      have hslots : constant.slots = 2 := by simp [Constant.slots, hwide]
      rw [hslots] at hrest
      simp [Constant.slotList, hwide, indexed, husable, hslots, ← hrest, Nat.add_assoc]
    | false =>
      have hslots : constant.slots = 1 := by simp [Constant.slots, hwide]
      rw [hslots] at hrest
      simp [Constant.slotList, hwide, indexed, husable, hslots, ← hrest]

/-- The entries of a pool that was read are those that were written, from index 1.
-/
theorem WrittenAs.entries_eq {pool : Pool} {entries : List Constant} {bytes : List UInt8}
    (hwritten : pool.WrittenAs entries bytes) : pool.entries = indexed 1 entries := by
  rw [Pool.entries, hwritten.slots_eq, ← filter_zipIdx_slots hwritten.encodable]
  simp [List.zipIdx_cons]

end Pool

/-! ## Interning what was read -/

namespace PoolBuilder

variable {builder : PoolBuilder}

/-- Entries that a builder does not know are interned one behind the other. -/
theorem exists_mapM_intern {entries : List Constant} (hexact : builder.Exact)
    (hencodable : ∀ constant ∈ entries, constant.Encodable)
    (hdistinct : (builder.entries.toList ++ entries).Nodup)
    (hroom : builder.next + (entries.flatMap Constant.slotList).length ≤ maxWord) :
    ∃ indices grown,
      (Pool.indexed builder.next entries).mapM (fun entry => intern entry.2) builder =
        .ok indices grown ∧
      indices.map UInt16.toNat = (Pool.indexed builder.next entries).map Prod.fst ∧
      grown.entries.toList = builder.entries.toList ++ entries ∧
      grown.next = builder.next + (entries.flatMap Constant.slotList).length := by
  induction entries generalizing builder with
  | nil => exact ⟨[], builder, rfl, rfl, (List.append_nil _).symm, rfl⟩
  | cons constant more ih =>
    obtain ⟨hfirst, hmore⟩ := List.forall_mem_cons.1 hencodable
    rw [List.flatMap_cons, List.length_append, Constant.length_slotList] at hroom
    -- The constant is new, so it gets the next index, and the others go on behind its slots.
    have hnew : builder.indices[constant]? = none := by
      have hfresh : constant ∉ builder.entries.toList := fun hknown =>
        List.disjoint_of_nodup_append hdistinct hknown List.mem_cons_self
      rw [hexact.mem_iff] at hfresh
      exact Option.eq_none_iff_forall_not_mem.2 fun index hindex => hfresh ⟨index, hindex⟩
    have hfits : builder.next + constant.slots ≤ maxWord := by omega
    have hentries : (builder.extend constant).entries.toList =
        builder.entries.toList ++ [constant] :=
      Array.toList_push
    have hnext : (builder.extend constant).next = builder.next + constant.slots := rfl
    have hrest : ((builder.extend constant).entries.toList ++ more).Nodup := by
      rw [hentries, List.append_assoc]
      exact hdistinct
    obtain ⟨indices, grown, hrun, hindices, hgrown, hcount⟩ :=
      ih (hexact.extend hfirst hfits hnew) hmore hrest (by omega)
    have hintern : intern constant builder =
        .ok (UInt16.ofNat builder.next) (builder.extend constant) := by
      rw [intern_of_new hnew, if_pos hfits]
    have hindex : (UInt16.ofNat builder.next).toNat = builder.next :=
      toNat_ofNat_count hexact.next_le
    rw [hnext] at hrun hindices hcount
    refine ⟨UInt16.ofNat builder.next :: indices, grown, ?_, ?_, ?_, ?_⟩
    · rw [Pool.indexed, List.mapM_cons, Encoder.run_bind hintern, Encoder.run_bind hrun]
      rfl
    · rw [Pool.indexed, List.map_cons, List.map_cons, hindex, hindices]
    · rw [hgrown, hentries, List.append_assoc, List.singleton_append]
    · rw [hcount, List.flatMap_cons, List.length_append, Constant.length_slotList, Nat.add_assoc]

end PoolBuilder

namespace Pool

variable {pool : Pool} {bytes rest : List UInt8} {position : Nat}

/-- **A pool is written back as it was read.**  If no two usable entries of a pool
are equal, interning them in their order in a new builder succeeds, gives each
of them the index that it had, and leaves a builder that writes the bytes which
the pool was read from. -/
theorem written_back
    (hdecode : Pool.decode { position, rest := bytes ++ rest } =
      .ok pool { position := position + bytes.length, rest })
    (hdistinct : (pool.entries.map Prod.snd).Nodup) :
    ∃ indices builder,
      pool.entries.mapM (fun entry => PoolBuilder.intern entry.2) {} = .ok indices builder ∧
        indices.map UInt16.toNat = pool.entries.map Prod.fst ∧ builder.bytes = bytes := by
  obtain ⟨used, hused, -, entries, hwritten⟩ := consumes_decode _ _ _ hdecode
  obtain rfl : bytes = used := List.append_cancel_right hused
  have hsize : pool.size = 1 + (entries.flatMap Constant.slotList).length := by
    rw [size, ← Array.length_toList, hwritten.slots_eq, List.length_cons, Nat.add_comm]
  rw [hwritten.entries_eq, map_snd_indexed] at hdistinct
  obtain ⟨indices, builder, hrun, hindices, hentries, hnext⟩ :=
    PoolBuilder.exists_mapM_intern PoolBuilder.exact_empty hwritten.encodable hdistinct
      (hsize ▸ hwritten.size_le)
  refine ⟨indices, builder, ?_, ?_, ?_⟩
  · rw [hwritten.entries_eq]
    exact hrun
  · rw [hwritten.entries_eq]
    exact hindices
  · have hcount : builder.next = pool.size := hnext.trans hsize.symm
    rw [PoolBuilder.bytes, hcount, hentries, hwritten.bytes_eq]
    rfl

/-- A lone surrogate, a letter that is written longer than needed, a number of 64
bits, and references. -/
def sample : Pool where
  slots := #[.unusable, .utf8 { bytes := [0xED, 0xA0, 0x80], wellFormed := by decide },
    .utf8 { bytes := [0xC1, 0x81], wellFormed := by decide }, .long (-1), .unusable, .string 1,
    .methodHandle 6 2]

/-- The sample as it is written: its size and its entries. -/
def sampleBytes : List UInt8 :=
  [0x00, 0x07, 0x01, 0x00, 0x03, 0xED, 0xA0, 0x80, 0x01, 0x00, 0x02, 0xC1, 0x81, 0x05, 0xFF, 0xFF,
    0xFF, 0xFF, 0xFF, 0xFF, 0xFF, 0xFF, 0x08, 0x00, 0x01, 0x0F, 0x06, 0x00, 0x02]

/-- The sample is read and written back. -/
theorem written_back_sample :
    Pool.decode { position := 0, rest := sampleBytes ++ [0xFF] } =
        .ok sample { position := 0 + sampleBytes.length, rest := [0xFF] } ∧
      (sample.entries.map Prod.snd).Nodup ∧ sample.entries.map Prod.fst = [1, 2, 3, 5, 6] ∧
        ∃ indices builder,
          sample.entries.mapM (fun entry => PoolBuilder.intern entry.2) {} =
              .ok indices builder ∧
            indices.map UInt16.toNat = sample.entries.map Prod.fst ∧
              builder.bytes = sampleBytes := by
  have hdecode : Pool.decode { position := 0, rest := sampleBytes ++ [0xFF] } =
      .ok sample { position := 0 + sampleBytes.length, rest := [0xFF] } := by
    cbv
  have hdistinct : (sample.entries.map Prod.snd).Nodup := by decide
  exact ⟨hdecode, hdistinct, by decide, written_back hdecode hdistinct⟩

end Pool

end ClassStub
