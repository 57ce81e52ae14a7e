import ClassStub.Proofs.Codec.SelfDelimiting

/-!
# What bytes denote

On bytes that are all that a decoder needs it has an outcome: a value, or none if
it fails (`Decoder.Denotes`).  Outcomes follow the structure of decoders, as
readings do, but they say both what is read and what is refused.  Going back,
what a decoder consumed is told part by part: words are read from the bytes that
they are written as, and items with a count from as many parts.
-/

namespace ClassStub

open Decoder

namespace Decoder

variable {α β γ : Type}

/-! ## What bytes denote -/

/-- The outcome of a decoder on bytes: wherever they stand, it consumes exactly
them and yields a value, or it fails. -/
structure Denotes (decoder : Decoder α) (bytes : List UInt8) (outcome : Option α) : Prop where
  reads : ∀ value, outcome = some value → decoder.Reads bytes value
  fails : outcome = none → ∀ (position : Nat) (rest : List UInt8),
    ∃ cause after, decoder { position, rest := bytes ++ rest } = .error cause after

/-- What a decoder yields for a frame that it fills. -/
def fill (decoder : Decoder α) (body : List UInt8) : Option α :=
  match decoder.run (Cursor.ofBytes body) with
  | .ok value after => if after.remaining = 0 then some value else none
  | .error _ _ => none

/-- A decoder fills a frame if it leaves nothing of it. -/
theorem fill_eq_some_iff {decoder : Decoder α} {body : List UInt8} {value : α} :
    decoder.fill body = some value ↔
      ∃ after, decoder (Cursor.ofBytes body) = .ok value after ∧ after.remaining = 0 := by
  unfold fill EStateM.run
  cases decoder (Cursor.ofBytes body) with
  | error cause stopped => simp
  | ok found after =>
    by_cases hend : after.remaining = 0
    · simp [hend]
    · simp [hend]

/-- A decoder that fills a frame consumed all of it. -/
theorem Consumes.of_fill {decoder : Decoder α} {relation : α → List UInt8 → Prop}
    (hconsumes : decoder.Consumes relation) {body : List UInt8} {value : α}
    (hfill : decoder.fill body = some value) : relation value body := by
  obtain ⟨after, hrun, hend⟩ := fill_eq_some_iff.1 hfill
  obtain ⟨used, hused, _, hrelation⟩ := hconsumes _ _ _ hrun
  have hnone : after.rest = [] := List.eq_nil_of_length_eq_zero hend
  have hbody : body = used := by rwa [hnone, List.append_nil] at hused
  rwa [hbody]

/-- Bytes that are read as a value denote it. -/
theorem Denotes.of_reads {decoder : Decoder α} {bytes : List UInt8} {value : α}
    (hread : decoder.Reads bytes value) : decoder.Denotes bytes (some value) where
  reads := fun _ hsame => Option.some.inj hsame ▸ hread
  fails := fun hnone => absurd hnone (Option.some_ne_none value)

theorem Denotes.throw (cause : FormatError) : Denotes (throw cause : Decoder α) [] none where
  reads := fun _ hsome => absurd hsome.symm (Option.some_ne_none _)
  fails := fun _ _ _ => ⟨cause, _, rfl⟩

/-- A step that only looks something up denotes what is found. -/
theorem Denotes.lift (result : Except FormatError α) :
    Denotes (liftM result) [] result.toOption := by
  cases result with
  | ok value => exact Denotes.of_reads (Reads.lift rfl)
  | error cause => exact Denotes.throw cause

/-- The outcome of two steps is that of the second one if the first one has a
value. -/
theorem Denotes.bind {first : Decoder α} {next : α → Decoder β} {bytes more : List UInt8}
    {outcome : Option α} {result : α → Option β} (hfirst : first.Denotes bytes outcome)
    (hnext : ∀ value, outcome = some value → (next value).Denotes more (result value)) :
    (first >>= next).Denotes (bytes ++ more) (outcome.bind result) := by
  cases outcome with
  | none =>
    refine ⟨fun _ hsome => absurd hsome.symm (Option.some_ne_none _), fun _ position rest => ?_⟩
    obtain ⟨cause, after, hrun⟩ := hfirst.fails rfl position (more ++ rest)
    refine ⟨cause, after, ?_⟩
    simp only [Bind.bind, EStateM.bind, List.append_assoc, hrun]
  | some value =>
    have hread := hfirst.reads value rfl
    refine ⟨fun last hlast => hread.bind ((hnext value rfl).reads last hlast), ?_⟩
    intro hnone position rest
    rw [List.append_assoc, hread.run_bind]
    exact (hnext value rfl).fails hnone _ rest

/-- Behind bytes that are read, the outcome is that of the bytes that follow. -/
theorem Denotes.reads_bind {first : Decoder α} {next : α → Decoder β} {bytes more : List UInt8}
    {value : α} {outcome : Option β} (hfirst : first.Reads bytes value)
    (hnext : (next value).Denotes more outcome) :
    (first >>= next).Denotes (bytes ++ more) outcome := by
  have hsteps : (first >>= next).Denotes (bytes ++ more) ((some value).bind fun _ => outcome) :=
    (Denotes.of_reads hfirst).bind fun other hother => Option.some.inj hother ▸ hnext
  exact hsteps

theorem Denotes.reads_bind_nil {first : Decoder α} {next : α → Decoder β} {bytes : List UInt8}
    {value : α} {outcome : Option β} (hfirst : first.Reads bytes value)
    (hnext : (next value).Denotes [] outcome) : (first >>= next).Denotes bytes outcome := by
  have hsteps := Denotes.reads_bind hfirst hnext
  rwa [List.append_nil] at hsteps

/-- What is looked up decides about the outcome first. -/
theorem Denotes.lift_bind {found : Except FormatError α} {next : α → Decoder β}
    {bytes : List UInt8} {result : α → Option β}
    (hnext : ∀ value, found = .ok value → (next value).Denotes bytes (result value)) :
    (liftM found >>= next).Denotes bytes (found.toOption.bind result) := by
  refine (Denotes.lift found).bind fun value hvalue => hnext value ?_
  cases found with
  | ok other => rw [Option.some.inj hvalue]
  | error cause => cases hvalue

/-- Changing the value that is read changes the outcome alike. -/
theorem Denotes.map {first : Decoder α} {bytes : List UInt8} {outcome : Option α}
    (hfirst : first.Denotes bytes outcome) (f : α → β) :
    Denotes (do return f (← first)) bytes (outcome.map f) := by
  have hsteps := hfirst.bind fun value _ => Denotes.of_reads (Reads.pure (f value))
  rw [List.append_nil] at hsteps
  rw [Option.map_eq_bind]
  exact hsteps

/-- The parts of a list have values if the first one and all others have. -/
theorem mapM_cons_eq_some_iff {f : γ → Option α} {part : γ} {parts : List γ} {values : List α} :
    (part :: parts).mapM f = some values ↔
      ∃ value more, f part = some value ∧ parts.mapM f = some more ∧ values = value :: more := by
  simp only [List.mapM_cons, Option.bind_eq_bind, Option.bind_eq_some_iff]
  constructor
  · intro hvalues
    obtain ⟨value, hvalue, more, hmore, hsame⟩ := hvalues
    exact ⟨value, more, hvalue, hmore, (Option.some.inj hsame).symm⟩
  · intro hvalues
    obtain ⟨value, more, hvalue, hmore, rfl⟩ := hvalues
    exact ⟨value, hvalue, more, hmore, rfl⟩

/-- Items denote the list of their values, or nothing if one of them denotes
nothing. -/
theorem Denotes.repeated {item : Decoder α} {encode : γ → List UInt8} {meaning : γ → Option α}
    {parts : List γ} (hparts : ∀ part ∈ parts, item.Denotes (encode part) (meaning part)) :
    (repeated item parts.length).Denotes (parts.flatMap encode) (parts.mapM meaning) := by
  induction parts with
  | nil => exact Denotes.of_reads (Reads.repeated_nil item)
  | cons part parts ih =>
    obtain ⟨hpart, hmore⟩ := List.forall_mem_cons.1 hparts
    rw [List.flatMap_cons, List.mapM_cons]
    refine hpart.bind fun value _ => ?_
    have hvalues := (ih hmore).map (value :: ·)
    rwa [Option.map_eq_bind] at hvalues

/-- What a frame yields is what its bytes denote. -/
theorem Denotes.fill_eq {decoder : Decoder α} {body : List UInt8} {outcome : Option α}
    (hbody : decoder.Denotes body outcome) : decoder.fill body = outcome := by
  cases outcome with
  | none =>
    obtain ⟨cause, after, hrun⟩ := hbody.fails rfl 0 []
    rw [List.append_nil] at hrun
    simp only [fill, EStateM.run, Cursor.ofBytes, hrun]
  | some value =>
    have hrun := hbody.reads value rfl 0 []
    rw [List.append_nil] at hrun
    simp only [fill, EStateM.run, Cursor.ofBytes, hrun]
    rfl

/-- Bytes with an outcome are read as that outcome only. -/
theorem Denotes.reads_iff {decoder : Decoder α} {bytes : List UInt8} {outcome : Option α}
    (hbytes : decoder.Denotes bytes outcome) (value : α) :
    decoder.Reads bytes value ↔ outcome = some value := by
  refine ⟨fun hread => ?_, hbytes.reads value⟩
  cases outcome with
  | none =>
    obtain ⟨cause, after, hrun⟩ := hbytes.fails rfl 0 []
    rw [hread 0 []] at hrun
    cases hrun
  | some other =>
    have hrun := hbytes.reads other rfl 0 []
    rw [hread 0 []] at hrun
    cases hrun
    rfl

/-! ## Parts with a count -/

/-- Parts one behind the other, with their number in front. -/
def countedBytes (encode : γ → List UInt8) (parts : List γ) : List UInt8 :=
  Bytes.u16 (UInt16.ofNat parts.length) ++ parts.flatMap encode

/-- Parts that fit, and whose number does. -/
structure FitsCount (fits : γ → Prop) (parts : List γ) : Prop where
  count : parts.length ≤ maxWord
  parts : ∀ part ∈ parts, fits part

instance (fits : γ → Prop) [DecidablePred fits] (parts : List γ) :
    Decidable (FitsCount fits parts) :=
  decidable_of_iff (parts.length ≤ maxWord ∧ ∀ part ∈ parts, fits part)
    ⟨fun ⟨hcount, hparts⟩ => ⟨hcount, hparts⟩, fun ⟨hcount, hparts⟩ => ⟨hcount, hparts⟩⟩

/-- Items behind their count denote the list of their values. -/
theorem Denotes.counted_bind {item : Decoder α} {encode : γ → List UInt8}
    {meaning : γ → Option α} {parts : List γ} {next : List α → Decoder β} {more : List UInt8}
    {result : List α → Option β} (hcount : parts.length ≤ maxWord)
    (hparts : ∀ part ∈ parts, item.Denotes (encode part) (meaning part))
    (hnext : ∀ values, (next values).Denotes more (result values)) :
    Denotes (do
      let count ← Reader.u16
      let values ← Decoder.repeated item count.toNat
      next values) (countedBytes encode parts ++ more) ((parts.mapM meaning).bind result) := by
  rw [countedBytes, List.append_assoc]
  refine Denotes.reads_bind (reads_u16 _) ?_
  rw [toNat_ofNat_count hcount]
  exact (Denotes.repeated hparts).bind fun values _ => hnext values

/-- Repeated items consume one part each. -/
theorem consumes_repeated {item : Decoder α} {encode : γ → List UInt8} {fits : γ → Prop}
    (hitem : item.Consumes fun _ bytes => ∃ part, fits part ∧ encode part = bytes) (count : Nat) :
    (repeated item count).Consumes fun _ bytes =>
      ∃ parts : List γ, parts.length = count ∧ (∀ part ∈ parts, fits part) ∧
        parts.flatMap encode = bytes := by
  induction count with
  | zero => exact Consumes.pure ⟨[], rfl, by simp, rfl⟩
  | succ count ih =>
    refine Consumes.bind (hitem.mono ?_)
    rintro value _ ⟨part, hpart, rfl⟩
    refine Consumes.bind (ih.mono ?_)
    rintro values _ ⟨parts, hlength, hparts, rfl⟩
    refine Consumes.pure ⟨part :: parts, ?_, List.forall_mem_cons.2 ⟨hpart, hparts⟩, ?_⟩
    · rw [List.length_cons, hlength]
    · rw [List.flatMap_cons, List.append_nil]

/-- What a frame holds is not consumed again. -/
theorem consumes_within (framed : List UInt8) (decoder : Decoder α) :
    (within framed decoder).Consumes fun _ bytes => bytes = [] := by
  unfold within
  split
  · exact Consumes.pure rfl
  · exact Consumes.throw

/-- A word is read from the bytes that it is written as. -/
theorem consumes_word_bytes {width : Nat} {ofNat : Nat → α} {toNat : α → Nat}
    (hinverse : ∀ number, number < Bytes.weight width → toNat (ofNat number) = number) :
    Consumes (liftM (do return ofNat (Bytes.ofBigEndian (← Reader.take width)) : Reader α))
      fun value bytes => Bytes.bigEndian width (toNat value) = bytes := by
  rw [liftM_bind]
  refine Consumes.bind ((consumes_take width).mono ?_)
  rintro bytes _ ⟨rfl, rfl⟩
  apply Consumes.pure
  rw [hinverse _ (Bytes.ofBigEndian_lt bytes), Bytes.bigEndian_ofBigEndian, List.append_nil]

/-- A decoder that starts with a word consumed its two bytes. -/
theorem Consumes.u16_bind {next : UInt16 → Decoder β} {relation : β → List UInt8 → Prop}
    (hnext : ∀ value, (next value).Consumes fun result more =>
      relation result (Bytes.u16 value ++ more)) :
    (liftM Reader.u16 >>= next).Consumes relation := by
  have hword : Consumes (liftM Reader.u16) fun value bytes => Bytes.u16 value = bytes :=
    consumes_word_bytes fun _ hfits => UInt16.toNat_ofNat_of_lt' hfits
  exact Consumes.bind (hword.mono fun value _ hbytes => hbytes ▸ hnext value)

theorem Consumes.u32_bind {next : UInt32 → Decoder β} {relation : β → List UInt8 → Prop}
    (hnext : ∀ value, (next value).Consumes fun result more =>
      relation result (Bytes.u32 value ++ more)) :
    (liftM Reader.u32 >>= next).Consumes relation := by
  have hword : Consumes (liftM Reader.u32) fun value bytes => Bytes.u32 value = bytes :=
    consumes_word_bytes fun _ hfits => UInt32.toNat_ofNat_of_lt' hfits
  exact Consumes.bind (hword.mono fun value _ hbytes => hbytes ▸ hnext value)

/-- A decoder that starts by taking bytes consumed these. -/
theorem Consumes.take_bind {count : Nat} {next : List UInt8 → Decoder β}
    {relation : β → List UInt8 → Prop}
    (hnext : ∀ bytes, bytes.length = count → (next bytes).Consumes fun result more =>
      relation result (bytes ++ more)) :
    (liftM (Reader.take count) >>= next).Consumes relation := by
  refine Consumes.bind ((consumes_take count).mono ?_)
  rintro value bytes ⟨rfl, hlength⟩
  exact hnext value hlength

theorem Consumes.skip_bind {count : Nat} {next : Unit → Decoder β}
    {relation : β → List UInt8 → Prop}
    (hnext : ∀ bytes, bytes.length = count → (next ()).Consumes fun result more =>
      relation result (bytes ++ more)) :
    (liftM (Reader.skip count) >>= next).Consumes relation := by
  rw [Reader.skip, liftM_bind, bind_assoc]
  exact Consumes.take_bind hnext

/-- What is looked up consumes nothing before the rest. -/
theorem Consumes.lift_bind {found : Except FormatError α} {next : α → Decoder β}
    {relation : β → List UInt8 → Prop}
    (hnext : ∀ value, found = .ok value → (next value).Consumes relation) :
    (liftM found >>= next).Consumes relation :=
  Consumes.bind (Consumes.lift fun value hvalue => by simpa using hnext value hvalue)

/-- A decoder that starts with a counted list consumed the count and the items. -/
theorem Consumes.counted_bind {item : Decoder α} {encode : γ → List UInt8} {fits : γ → Prop}
    {next : List α → Decoder β} {relation : β → List UInt8 → Prop}
    (hitem : item.Consumes fun _ bytes => ∃ part, fits part ∧ encode part = bytes)
    (hnext : ∀ values parts, FitsCount fits parts → (next values).Consumes fun result more =>
      relation result (countedBytes encode parts ++ more)) :
    Consumes (do
      let count ← Reader.u16
      let values ← Decoder.repeated item count.toNat
      next values) relation := by
  refine Consumes.u16_bind fun count => ?_
  refine Consumes.bind ((consumes_repeated hitem count.toNat).mono ?_)
  rintro values _ ⟨parts, hlength, hparts, rfl⟩
  have hfits : FitsCount fits parts := by
    refine ⟨?_, hparts⟩
    rw [hlength]
    exact Nat.le_of_lt_succ count.toNat_lt
  have hmore := hnext values parts hfits
  rwa [countedBytes, hlength, UInt16.ofNat_toNat] at hmore

end Decoder

end ClassStub
