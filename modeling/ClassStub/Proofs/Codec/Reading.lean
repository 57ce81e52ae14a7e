import ClassStub.Decoder

/-!
# What decoders read

Two statements about a decoder carry the theory of the class format.
`Decoder.Reads` goes from bytes to values: wherever the bytes stand, the decoder
consumes exactly them and yields the value.  `Decoder.Consumes` goes back: what
the decoder yielded tells about the bytes that it consumed.  Both follow the
structure of decoders, so each decoder of the format gets its statement from
those of its parts.
-/

namespace ClassStub

/-- A sequence of two steps that succeeds stopped once in between. -/
theorem exists_between {ε σ α β : Type} {first : EStateM ε σ α} {next : α → EStateM ε σ β}
    {state after : σ} {result : β} (hrun : (first >>= next) state = .ok result after) :
    ∃ value between, first state = .ok value between ∧ next value between = .ok result after := by
  simp only [Bind.bind, EStateM.bind] at hrun
  cases hfirst : first state with
  | error cause stopped => simp [hfirst] at hrun
  | ok value between =>
    rw [hfirst] at hrun
    exact ⟨value, between, rfl, hrun⟩

/-- A sequence of two steps that fails fails in the first or in the second. -/
theorem error_of_bind {ε σ α β : Type} {first : EStateM ε σ α} {next : α → EStateM ε σ β}
    {state after : σ} {cause : ε} (hrun : (first >>= next) state = .error cause after) :
    first state = .error cause after ∨
      ∃ value between, first state = .ok value between ∧
        next value between = .error cause after := by
  simp only [Bind.bind, EStateM.bind] at hrun
  cases hfirst : first state with
  | error found stopped =>
    simp only [hfirst] at hrun
    cases hrun
    exact .inl rfl
  | ok value between =>
    rw [hfirst] at hrun
    exact .inr ⟨value, between, rfl, hrun⟩

namespace Decoder

variable {α β : Type}

/-! ## From bytes to values -/

/-- A decoder reads bytes as a value: in front of anything else it consumes
exactly these bytes and yields the value. -/
def Reads (decoder : Decoder α) (bytes : List UInt8) (value : α) : Prop :=
  ∀ (position : Nat) (rest : List UInt8),
    decoder { position, rest := bytes ++ rest } =
      .ok value { position := position + bytes.length, rest }

theorem Reads.pure (value : α) : Reads (pure value) [] value :=
  fun _ _ => rfl

/-- Two decoders one after the other read the bytes of both. -/
theorem Reads.bind {first : Decoder α} {next : α → Decoder β} {bytes more : List UInt8}
    {value : α} {result : β} (hfirst : first.Reads bytes value)
    (hnext : (next value).Reads more result) :
    (first >>= next).Reads (bytes ++ more) result := by
  intro position rest
  have hstep := hnext (position + bytes.length) rest
  simp only [Bind.bind, EStateM.bind, List.append_assoc, hfirst position (more ++ rest)]
  rw [hstep, List.length_append, Nat.add_assoc]

/-- The step behind one that reads starts where that one stopped. -/
theorem Reads.run_bind {first : Decoder α} {bytes : List UInt8} {value : α}
    (hfirst : first.Reads bytes value) (next : α → Decoder β) (position : Nat)
    (rest : List UInt8) :
    (first >>= next) { position, rest := bytes ++ rest } =
      next value { position := position + bytes.length, rest } := by
  simp only [Bind.bind, EStateM.bind, hfirst position rest]

/-- A decoder that ends with a step that reads nothing reads the same bytes. -/
theorem Reads.bind_nil {first : Decoder α} {next : α → Decoder β} {bytes : List UInt8}
    {value : α} {result : β} (hfirst : first.Reads bytes value)
    (hnext : (next value).Reads [] result) : (first >>= next).Reads bytes result := by
  have hread := hfirst.bind hnext
  rwa [List.append_nil] at hread

/-- Changing the value that is read leaves the bytes as they are. -/
theorem Reads.map {first : Decoder α} {bytes : List UInt8} {value : α}
    (hfirst : first.Reads bytes value) (f : α → β) :
    Reads (do return f (← first)) bytes (f value) :=
  hfirst.bind_nil (Reads.pure (f value))

/-- Looking at the cursor moves nothing. -/
theorem run_get_bind (next : Cursor → Decoder α) (cursor : Cursor) :
    (get >>= next) cursor = next cursor cursor :=
  rfl

/-- Looking where the cursor is reads nothing. -/
theorem Reads.get_bind {next : Cursor → Decoder α} {bytes : List UInt8} {value : α}
    (hnext : ∀ cursor, (next cursor).Reads bytes value) : (get >>= next).Reads bytes value :=
  fun position rest => hnext _ position rest

/-- A step that only looks something up reads nothing. -/
theorem Reads.lift {result : Except FormatError α} {value : α} (h : result = .ok value) :
    Reads (liftM result) [] value := by
  subst h
  intro position rest
  rfl

/-- As many bytes as are asked for are taken from the front. -/
theorem take_append (bytes rest : List UInt8) (position : Nat) :
    Reader.take bytes.length { position, rest := bytes ++ rest } =
      .ok bytes { position := position + bytes.length, rest } := by
  simp [Reader.take]

/-- Bytes are read as they are by taking as many. -/
theorem reads_take (bytes : List UInt8) : Reads (Reader.take bytes.length) bytes bytes := by
  intro position rest
  change EStateM.adaptExcept FormatError.unreadable (Reader.take bytes.length) _ = _
  rw [EStateM.adaptExcept, take_append]

/-- Skipping reads any bytes of that length. -/
theorem reads_skip (bytes : List UInt8) :
    Reads (liftM (Reader.skip bytes.length)) bytes () := by
  intro position rest
  change EStateM.adaptExcept FormatError.unreadable (Reader.take bytes.length >>= _) _ = _
  simp only [EStateM.adaptExcept, Bind.bind, EStateM.bind, take_append]
  rfl

/-- A word that is read in one piece: `width` bytes, taken as a number. -/
theorem reads_word (width : Nat) (ofNat : Nat → α) (value : Nat) :
    Reads (liftM (do return ofNat (Bytes.ofBigEndian (← Reader.take width)) : Reader α))
      (Bytes.bigEndian width value) (ofNat (value % Bytes.weight width)) := by
  intro position rest
  have htake := take_append (Bytes.bigEndian width value) rest position
  rw [Bytes.length_bigEndian] at htake
  change EStateM.adaptExcept FormatError.unreadable (Reader.take width >>= _) _ = _
  simp only [EStateM.adaptExcept, Bind.bind, EStateM.bind, htake, Pure.pure, EStateM.pure,
    Bytes.ofBigEndian_bigEndian, Bytes.length_bigEndian]

/-- A byte is read from its one byte. -/
theorem reads_u8 (value : UInt8) : Reads (liftM Reader.u8) (Bytes.u8 value) value := by
  have hbytes : Bytes.bigEndian 1 value.toNat = Bytes.u8 value := by
    simp [Bytes.bigEndian, Bytes.weight, Bytes.u8]
  have hvalue : value.toNat < Bytes.weight 1 := value.toNat_lt
  have hread := reads_word 1 UInt8.ofNat value.toNat
  rwa [Nat.mod_eq_of_lt hvalue, UInt8.ofNat_toNat, hbytes] at hread

theorem reads_u16 (value : UInt16) : Reads (liftM Reader.u16) (Bytes.u16 value) value := by
  have hvalue : value.toNat < Bytes.weight 2 := value.toNat_lt
  have hread := reads_word 2 UInt16.ofNat value.toNat
  rwa [Nat.mod_eq_of_lt hvalue, UInt16.ofNat_toNat] at hread

theorem reads_u32 (value : UInt32) : Reads (liftM Reader.u32) (Bytes.u32 value) value := by
  have hvalue : value.toNat < Bytes.weight 4 := value.toNat_lt
  have hread := reads_word 4 UInt32.ofNat value.toNat
  rwa [Nat.mod_eq_of_lt hvalue, UInt32.ofNat_toNat] at hread

/-- A reader in two steps is a decoder in two steps. -/
theorem liftM_bind (first : Reader α) (next : α → Reader β) :
    (liftM (first >>= next) : Decoder β) = liftM first >>= fun value => liftM (next value) := by
  funext cursor
  change EStateM.adaptExcept FormatError.unreadable (first >>= next) cursor = _
  simp only [EStateM.adaptExcept, Bind.bind, EStateM.bind, liftM, monadLift,
    MonadLift.monadLift]
  cases first cursor with
  | ok value after => rfl
  | error cause after => rfl

/-- A word of eight bytes is read from those of its halves. -/
theorem reads_u64 (value : UInt64) : Reads (liftM Reader.u64) (Bytes.u64 value) value := by
  have hvalue : value.toNat < 0x100000000 * 0x100000000 := value.toNat_lt
  have hhigh := reads_word 4 UInt32.ofNat (value.toNat / Bytes.weight 4)
  have hlow := reads_word 4 UInt32.ofNat value.toNat
  have hhalves :
      (UInt32.ofNat (value.toNat / Bytes.weight 4 % Bytes.weight 4)).toNat * 0x100000000 +
        (UInt32.ofNat (value.toNat % Bytes.weight 4)).toNat = value.toNat := by
    rw [UInt32.toNat_ofNat', UInt32.toNat_ofNat']
    simp only [Bytes.weight]
    omega
  have hread : Reads (liftM Reader.u64) (Bytes.u64 value)
      (UInt64.ofNat ((UInt32.ofNat (value.toNat / Bytes.weight 4 % Bytes.weight 4)).toNat *
        0x100000000 + (UInt32.ofNat (value.toNat % Bytes.weight 4)).toNat)) := by
    rw [Bytes.u64, Bytes.bigEndian_add 4 4, Reader.u64, liftM_bind]
    apply hhigh.bind
    rw [liftM_bind]
    exact hlow.map _
  rwa [hhalves, UInt64.ofNat_toNat] at hread

theorem reads_i32 (value : Int32) : Reads (liftM Reader.i32) (Bytes.i32 value) value := by
  have hread : Reads (liftM Reader.i32) (Bytes.i32 value) value.toUInt32.toInt32 := by
    rw [Reader.i32, liftM_bind]
    exact (reads_u32 _).map UInt32.toInt32
  rwa [Int32.toInt32_toUInt32] at hread

theorem reads_i64 (value : Int64) : Reads (liftM Reader.i64) (Bytes.i64 value) value := by
  have hread : Reads (liftM Reader.i64) (Bytes.i64 value) value.toUInt64.toInt64 := by
    rw [Reader.i64, liftM_bind]
    exact (reads_u64 _).map UInt64.toInt64
  rwa [Int64.toInt64_toUInt64] at hread

/-- The bytes of a text, with their length in front, read as the text. -/
theorem reads_text (text : JavaText) (hlength : text.bytes.length < Bytes.weight 2) :
    Reads (liftM Reader.text)
      (Bytes.u16 (UInt16.ofNat text.bytes.length) ++ text.bytes) text := by
  have hcount : (UInt16.ofNat text.bytes.length).toNat = text.bytes.length := by
    rw [UInt16.toNat_ofNat']
    exact Nat.mod_eq_of_lt hlength
  have hknown : JavaText.ofBytes? text.bytes = some text := by
    rw [JavaText.ofBytes?, dif_pos text.wellFormed]
  rw [Reader.text, liftM_bind]
  apply (reads_u16 _).bind
  intro position rest
  have htake := take_append text.bytes rest position
  change EStateM.adaptExcept FormatError.unreadable
    (Reader.take (UInt16.ofNat text.bytes.length).toNat >>= _) _ = _
  simp only [EStateM.adaptExcept, Bind.bind, EStateM.bind, hcount, htake, hknown]
  rfl

/-- An index is read and looked up, then something else is read. -/
theorem Reads.lookup {find : UInt16 → Except FormatError α}
    {index : UInt16} {value : α} {next : α → Decoder β} {more : List UInt8} {result : β}
    (h : find index = .ok value) (hnext : (next value).Reads more result) :
    Reads (do
      let index ← Reader.u16
      let value ← find index
      next value) (Bytes.u16 index ++ more) result :=
  (reads_u16 index).bind ((Reads.lift h).bind hnext)

/-- An index is read as what it leads to, made into something else. -/
theorem Reads.lookup_map {find : UInt16 → Except FormatError α}
    {index : UInt16} {value : α} (h : find index = .ok value) (f : α → β) :
    Reads (do return f (← find (← Reader.u16))) (Bytes.u16 index) (f value) :=
  (reads_u16 index).bind_nil ((Reads.lift h).map f)

/-- An index is read as what it leads to. -/
theorem Reads.lookup_only {find : UInt16 → Except FormatError α} {index : UInt16} {value : α}
    (h : find index = .ok value) :
    Reads (do find (← Reader.u16)) (Bytes.u16 index) value :=
  (reads_u16 index).bind_nil (Reads.lift h)

/-- A decoder that bounds its depth by the bytes ahead has at least those that
it reads. -/
theorem Reads.remaining {next : Nat → Decoder α} {bytes : List UInt8}
    {value : α} (h : ∀ depth, bytes.length ≤ depth → (next depth).Reads bytes value) :
    Reads (do next (← get).remaining) bytes value := by
  intro position rest
  exact h (bytes ++ rest).length (by simp) position rest

/-! ## Items with a count -/

theorem Reads.repeated_nil (item : Decoder α) : (repeated item 0).Reads [] [] :=
  Reads.pure []

/-- One more item is read in front of the others. -/
theorem Reads.repeated_cons {item : Decoder α} {count : Nat} {bytes more : List UInt8}
    {value : α} {values : List α} (hfirst : item.Reads bytes value)
    (hmore : (repeated item count).Reads more values) :
    (repeated item (count + 1)).Reads (bytes ++ more) (value :: values) :=
  hfirst.bind (hmore.map (value :: ·))

/-- Repetition goes on where it stopped. -/
theorem repeated_add (item : Decoder α) (first second : Nat) :
    repeated item (first + second) = (do
      let values ← repeated item first
      let more ← repeated item second
      return values ++ more) := by
  induction first with
  | zero => simp [repeated]
  | succ first ih =>
    rw [show first + 1 + second = first + second + 1 by omega]
    simp [repeated, ih]

/-- Items are read in two runs, one behind the other. -/
theorem Reads.repeated_append {item : Decoder α} {first second : Nat}
    {bytes more : List UInt8} {values others : List α}
    (hfirst : (repeated item first).Reads bytes values)
    (hsecond : (repeated item second).Reads more others) :
    (repeated item (first + second)).Reads (bytes ++ more) (values ++ others) := by
  rw [repeated_add]
  exact hfirst.bind (hsecond.map (values ++ ·))

/-- One more item is read behind the others. -/
theorem Reads.repeated_concat {item : Decoder α} {count : Nat} {bytes more : List UInt8}
    {values : List α} {value : α} (hfirst : (repeated item count).Reads bytes values)
    (hlast : item.Reads more value) :
    (repeated item (count + 1)).Reads (bytes ++ more) (values ++ [value]) := by
  have hsingle := Reads.repeated_cons hlast (Reads.repeated_nil item)
  rw [List.append_nil] at hsingle
  exact hfirst.repeated_append hsingle

/-! ## From values to bytes -/

/-- Whatever a decoder yields, the bytes that it consumed are related to it. -/
def Consumes (decoder : Decoder α) (relation : α → List UInt8 → Prop) : Prop :=
  ∀ (cursor : Cursor) (value : α) (after : Cursor), decoder cursor = .ok value after →
    ∃ used : List UInt8, cursor.rest = used ++ after.rest ∧
      after.position = cursor.position + used.length ∧ relation value used

theorem Consumes.pure {value : α} {relation : α → List UInt8 → Prop}
    (h : relation value []) : Consumes (pure value) relation := by
  intro cursor result after hrun
  cases hrun
  exact ⟨[], by simp, by simp, h⟩

/-- The bytes of two steps are those of the first and then those of the
second. -/
theorem Consumes.bind {first : Decoder α} {next : α → Decoder β}
    {relation : β → List UInt8 → Prop}
    (h : first.Consumes fun value bytes =>
      (next value).Consumes fun result more => relation result (bytes ++ more)) :
    (first >>= next).Consumes relation := by
  intro cursor result after hrun
  obtain ⟨value, between, hfirst, hlast⟩ := exists_between hrun
  obtain ⟨bytes, hbytes, hposition, hnext⟩ := h cursor value between hfirst
  obtain ⟨more, hmore, hend, hrelation⟩ := hnext between result after hlast
  refine ⟨bytes ++ more, ?_, ?_, hrelation⟩
  · rw [hbytes, hmore, List.append_assoc]
  · rw [hend, hposition, List.length_append, Nat.add_assoc]

/-- What is known of a decoder may be weakened. -/
theorem Consumes.mono {decoder : Decoder α} {relation weaker : α → List UInt8 → Prop}
    (h : decoder.Consumes relation)
    (himplies : ∀ value bytes, relation value bytes → weaker value bytes) :
    decoder.Consumes weaker := by
  intro cursor value after hrun
  obtain ⟨used, hused, hposition, hrelation⟩ := h cursor value after hrun
  exact ⟨used, hused, hposition, himplies value used hrelation⟩

/-- A decoder that fails consumes nothing that would have to be accounted for. -/
theorem Consumes.throw {cause : FormatError} {relation : α → List UInt8 → Prop} :
    Consumes (throw cause) relation := by
  intro cursor value after hrun
  cases hrun

/-- A step that only looks something up consumed nothing. -/
theorem Consumes.lift {result : Except FormatError α} {relation : α → List UInt8 → Prop}
    (h : ∀ value, result = .ok value → relation value []) :
    Consumes (liftM result) relation := by
  cases result with
  | error cause => exact Consumes.throw
  | ok value => exact Consumes.pure (h value rfl)

/-- Looking at the cursor consumes nothing. -/
theorem Consumes.get_bind {next : Cursor → Decoder α} {relation : α → List UInt8 → Prop}
    (hnext : ∀ cursor, (next cursor).Consumes relation) : (get >>= next).Consumes relation :=
  fun cursor value after hrun => hnext cursor cursor value after hrun

/-- What is taken are the bytes themselves. -/
theorem consumes_take (count : Nat) :
    Consumes (liftM (Reader.take count)) fun value bytes =>
      value = bytes ∧ bytes.length = count := by
  intro cursor value after hrun
  change EStateM.adaptExcept FormatError.unreadable (Reader.take count) cursor = _ at hrun
  by_cases hshort : (cursor.rest.take count).length < count
  · simp only [EStateM.adaptExcept, Reader.take, hshort, ↓reduceIte, reduceCtorEq] at hrun
  · simp only [EStateM.adaptExcept, Reader.take, hshort, ↓reduceIte] at hrun
    cases hrun
    have hlength : (cursor.rest.take count).length = count := by
      rw [List.length_take] at hshort ⊢
      omega
    exact ⟨cursor.rest.take count, (List.take_append_drop _ _).symm, by rw [hlength], rfl,
      hlength⟩

/-- A word takes as many bytes as it is wide. -/
theorem consumes_word (width : Nat) (ofNat : Nat → α) :
    Consumes (liftM (do return ofNat (Bytes.ofBigEndian (← Reader.take width)) : Reader α))
      fun _ bytes => bytes.length = width := by
  rw [liftM_bind]
  refine Consumes.bind ((consumes_take width).mono ?_)
  rintro value bytes ⟨_, hlength⟩
  exact Consumes.pure (by simpa using hlength)

theorem consumes_u8 : Consumes (liftM Reader.u8) fun _ bytes => bytes.length = 1 :=
  consumes_word 1 UInt8.ofNat

theorem consumes_u16 : Consumes (liftM Reader.u16) fun _ bytes => bytes.length = 2 :=
  consumes_word 2 UInt16.ofNat

/-- A decoder that starts with an index consumed two bytes for it. -/
theorem Consumes.lookup {find : UInt16 → Except FormatError α} {next : α → Decoder β}
    {relation : β → List UInt8 → Prop}
    (h : ∀ value bytes, bytes.length = 2 →
      (next value).Consumes fun result more => relation result (bytes ++ more)) :
    Consumes (do
      let index ← Reader.u16
      let value ← find index
      next value) relation := by
  refine Consumes.bind (consumes_u16.mono fun index bytes hlength => ?_)
  refine Consumes.bind (Consumes.lift fun value _ => ?_)
  simpa using h value bytes hlength

theorem Consumes.lookup_map {find : UInt16 → Except FormatError α} (f : α → β)
    {relation : β → List UInt8 → Prop}
    (h : ∀ value bytes, bytes.length = 2 → relation (f value) bytes) :
    Consumes (do return f (← find (← Reader.u16))) relation :=
  Consumes.lookup fun value bytes hlength => Consumes.pure (by
    rw [List.append_nil]
    exact h value bytes hlength)

/-- Repeated items satisfy what holds of no item and is kept by one item in
front. -/
theorem Consumes.repeated {item : Decoder α} {relation : α → List UInt8 → Prop}
    {total : List α → List UInt8 → Prop} (hitem : item.Consumes relation)
    (hnil : total [] [])
    (hcons : ∀ value bytes values more, relation value bytes → total values more →
      total (value :: values) (bytes ++ more)) (count : Nat) :
    (repeated item count).Consumes total := by
  induction count with
  | zero => exact Consumes.pure hnil
  | succ count ih =>
    refine Consumes.bind (hitem.mono ?_)
    intro value bytes hvalue
    refine Consumes.bind (ih.mono ?_)
    intro values more hvalues
    apply Consumes.pure
    rw [List.append_nil]
    exact hcons value bytes values more hvalue hvalues

end Decoder

end ClassStub
