import ClassStub.Constant.Builder
import ClassStub.Constant.Pool
import ClassStub.Proofs.Codec.Reading

/-!
# Growing pools

A pool that is being written only grows, so what was once interned keeps its
index.  The statement about an encoder is therefore made about every pool that
holds what the encoder left behind (`Encoder.Yields`): whatever else is interned
later, looking up an index that the encoder used leads to what it stands for.
-/

namespace ClassStub

namespace Constant

/-- The slots that an entry takes, in a pool that is read. -/
def slotList (constant : Constant) : List Constant :=
  if constant.isWide then [constant, .unusable] else [constant]

/-- Entries that can be written and read back: usable ones, whose text has a
16-bit length. -/
def Encodable : Constant → Prop
  | utf8 text => text.bytes.length ≤ maxWord
  | unusable => False
  | _ => True

/-- As many slots are listed as a constant takes. -/
@[simp] theorem length_slotList (constant : Constant) :
    constant.slotList.length = constant.slots := by
  unfold slotList slots
  split <;> rfl

/-- The first slot of a constant holds it. -/
theorem slotList_head? (constant : Constant) : constant.slotList[0]? = some constant := by
  unfold slotList
  split <;> rfl

/-- The slot behind a long constant is no constant to write. -/
theorem Encodable.ne_unusable {constant : Constant} (h : constant.Encodable) :
    constant ≠ .unusable := by
  rintro rfl
  exact h

end Constant

namespace PoolBuilder

/-- The slots of the pool that a builder writes. -/
def slots (builder : PoolBuilder) : List Constant :=
  .unusable :: builder.entries.toList.flatMap Constant.slotList

/-- A builder in a consistent state: the next index follows the slots that are
taken, every entry can be written, and every recorded index leads to its
entry. -/
structure Valid (builder : PoolBuilder) : Prop where
  next_eq : builder.next = builder.slots.length
  next_le : builder.next ≤ maxWord
  encodable : ∀ constant ∈ builder.entries.toList, constant.Encodable
  indexed : ∀ (constant : Constant) (index : UInt16),
    builder.indices[constant]? = some index → builder.slots[index.toNat]? = some constant

theorem valid_empty : Valid {} where
  next_eq := rfl
  next_le := by decide
  encodable := by simp
  indexed := by simp

/-- The builder with one more entry. -/
def extend (builder : PoolBuilder) (constant : Constant) : PoolBuilder where
  entries := builder.entries.push constant
  indices := builder.indices.insert constant (UInt16.ofNat builder.next)
  next := builder.next + constant.slots

/-- A constant that is added takes the next slots. -/
theorem slots_extend (builder : PoolBuilder) (constant : Constant) :
    (builder.extend constant).slots = builder.slots ++ constant.slotList := by
  simp [slots, extend]

/-- The index that a new constant gets leads to it. -/
theorem getElem?_slots_extend {builder : PoolBuilder} (hvalid : builder.Valid)
    (constant : Constant) :
    (builder.extend constant).slots[(UInt16.ofNat builder.next).toNat]? = some constant := by
  have hindex : (UInt16.ofNat builder.next).toNat = builder.slots.length := by
    rw [UInt16.toNat_ofNat', ← hvalid.next_eq]
    exact Nat.mod_eq_of_lt (Nat.lt_succ_of_le hvalid.next_le)
  rw [slots_extend, hindex, List.getElem?_append_right (Nat.le_refl _), Nat.sub_self,
    Constant.slotList_head?]

/-- A builder stays valid if it has room for another constant. -/
theorem Valid.extend {builder : PoolBuilder} (hvalid : builder.Valid) {constant : Constant}
    (hencodable : constant.Encodable) (hroom : builder.next + constant.slots ≤ maxWord) :
    (builder.extend constant).Valid where
  next_eq := by
    rw [slots_extend, List.length_append, Constant.length_slotList, ← hvalid.next_eq]
    rfl
  next_le := hroom
  encodable := by
    intro entry hentry
    simp only [PoolBuilder.extend, Array.toList_push, List.mem_append, List.mem_singleton]
      at hentry
    rcases hentry with hold | rfl
    · exact hvalid.encodable entry hold
    · exact hencodable
  indexed := by
    intro entry index hindex
    simp only [PoolBuilder.extend, Std.HashMap.getElem?_insert] at hindex
    by_cases hsame : constant = entry
    · subst hsame
      simp only [BEq.rfl, ↓reduceIte, Option.some.injEq] at hindex
      subst hindex
      exact getElem?_slots_extend hvalid constant
    · rw [if_neg (by simpa using hsame)] at hindex
      have hold := hvalid.indexed entry index hindex
      rw [slots_extend, List.getElem?_append_left]
      · exact hold
      · exact (List.getElem?_eq_some_iff.1 hold).1

end PoolBuilder

/-! ## Pools that hold what a builder interned -/

/-- A pool holds what a builder has interned so far: it starts with the
builder's slots. -/
def Pool.Holds (pool : Pool) (builder : PoolBuilder) : Prop :=
  builder.slots <+: pool.slots.toList

/-- An index into a builder leads to the same constant in every pool that holds the
builder. -/
theorem Pool.Holds.entry {pool : Pool} {builder : PoolBuilder} (hpool : pool.Holds builder)
    {index : UInt16} {constant : Constant} (hencodable : constant.Encodable)
    (hslot : builder.slots[index.toNat]? = some constant) :
    pool.entry index = .ok constant := by
  rcases hpool with ⟨more, hmore⟩
  have hentry : pool.slots[index.toNat]? = some constant := by
    rw [← Array.getElem?_toList, ← hmore, List.getElem?_append_left]
    · exact hslot
    · exact (List.getElem?_eq_some_iff.1 hslot).1
  cases constant with
  | unusable => exact absurd rfl hencodable.ne_unusable
  | _ => simp only [Pool.entry, hentry]

namespace PoolBuilder

/-- The pool that a builder stands for, once it is written. -/
def pool (builder : PoolBuilder) : Pool where
  slots := builder.slots.toArray

/-- The pool of a builder holds it. -/
theorem holds_pool (builder : PoolBuilder) : builder.pool.Holds builder :=
  List.prefix_rfl

end PoolBuilder

/-- The first slot of a builder is unusable, so no entry has index 0. -/
theorem PoolBuilder.index_ne_zero {builder : PoolBuilder} {index : UInt16}
    {constant : Constant} (hencodable : constant.Encodable)
    (hslot : builder.slots[index.toNat]? = some constant) : index ≠ 0 := by
  rintro rfl
  exact hencodable.ne_unusable (Option.some.inj hslot).symm

/-! ## What encoders yield -/

/-- Two steps succeed if both do. -/
theorem bind_eq_ok {ε α β : Type} {first : Except ε α} {next : α → Except ε β} {result : β} :
    first >>= next = .ok result ↔ ∃ value, first = .ok value ∧ next value = .ok result := by
  cases first with
  | error cause => simp [Bind.bind, Except.bind]
  | ok value => simp [Bind.bind, Except.bind]

/-- A check in front of a computation has to pass. -/
theorem check_bind_eq_ok {ε α : Type} {check : Except ε Unit} {next : Unit → Except ε α}
    {result : α} : check >>= next = .ok result ↔ check = .ok () ∧ next () = .ok result := by
  rw [bind_eq_ok]
  exact ⟨fun ⟨_, hboth⟩ => hboth, fun hboth => ⟨(), hboth⟩⟩

/-- A computation behind a refusal takes place if nothing is refused. -/
theorem refusal_bind_eq_ok {ε α : Type} {fault : Prop} [Decidable fault] {cause : ε}
    {next : PUnit → Except ε α} {result : α} :
    (if fault then throw cause >>= next else next ⟨⟩) = .ok result ↔
      ¬fault ∧ next ⟨⟩ = .ok result := by
  by_cases hfault : fault
  · simp [hfault, throw, throwThe, MonadExceptOf.throw, Bind.bind, Except.bind]
  · simp [hfault]

/-- A series of checks passes if each of them does. -/
theorem forM_eq_ok {ε α : Type} {items : List α} {check : α → Except ε Unit} :
    items.forM check = .ok () ↔ ∀ item ∈ items, check item = .ok () := by
  induction items with
  | nil => simp [Pure.pure, Except.pure]
  | cons item items ih =>
    change (check item >>= fun _ => items.forM check) = .ok () ↔ _
    rw [check_bind_eq_ok, List.forall_mem_cons, ← ih]

/-- Renaming errors does not matter where there is none. -/
theorem mapError_eq_ok {ε φ α : Type} {result : Except ε α} {f : ε → φ} {value : α} :
    result.mapError f = .ok value ↔ result = .ok value := by
  cases result with
  | error cause =>
    constructor
    · intro hmapped
      cases hmapped
    · intro hresult
      cases hresult
  | ok found =>
    constructor
    · intro hmapped
      cases hmapped
      rfl
    · intro hresult
      cases hresult
      rfl

/-- Two steps fail if the first one does, or the second one after it. -/
theorem bind_eq_error {ε α β : Type} {first : Except ε α} {next : α → Except ε β} {cause : ε} :
    first >>= next = .error cause ↔
      first = .error cause ∨ ∃ value, first = .ok value ∧ next value = .error cause := by
  cases first with
  | error other => simp [Bind.bind, Except.bind]
  | ok value => simp [Bind.bind, Except.bind]

/-- A refusal in front of a computation fails with its own cause. -/
theorem refusal_bind_eq_error {ε α : Type} {fault : Prop} [Decidable fault] {refused cause : ε}
    {next : PUnit → Except ε α} :
    (if fault then throw refused >>= next else next ⟨⟩) = .error cause ↔
      fault ∧ refused = cause ∨ ¬fault ∧ next ⟨⟩ = .error cause := by
  by_cases hfault : fault
  · simp [hfault, throw, throwThe, MonadExceptOf.throw, Bind.bind, Except.bind]
  · simp [hfault]

/-- A renamed error comes from one that was there. -/
theorem mapError_eq_error {ε φ α : Type} {result : Except ε α} {f : ε → φ} {cause : φ} :
    result.mapError f = .error cause ↔ ∃ inner, result = .error inner ∧ f inner = cause := by
  cases result with
  | error inner =>
    constructor
    · intro hmapped
      exact ⟨inner, rfl, Except.error.inj hmapped⟩
    · intro hinner
      obtain ⟨_, hsame, hcause⟩ := hinner
      cases hsame
      exact congrArg Except.error hcause
  | ok value =>
    constructor
    · intro hmapped
      cases hmapped
    · intro hinner
      obtain ⟨_, hresult, _⟩ := hinner
      cases hresult

/-- A series of checks fails with one of them. -/
theorem forM_eq_error {ε α : Type} {items : List α} {check : α → Except ε Unit} {cause : ε}
    (herror : items.forM check = .error cause) : ∃ item ∈ items, check item = .error cause := by
  induction items with
  | nil => cases herror
  | cons item items ih =>
    rcases bind_eq_error.1 herror with hfirst | ⟨_, _, hmore⟩
    · exact ⟨item, List.mem_cons_self, hfirst⟩
    · obtain ⟨other, hother, hcheck⟩ := ih hmore
      exact ⟨other, List.mem_cons_of_mem item hother, hcheck⟩

/-- The length of a table is written as a word, so it must be one. -/
theorem tableLength_eq_ok {count : Nat} {length : UInt16}
    (h : tableLength count = .ok length) : count ≤ maxWord ∧ length = UInt16.ofNat count := by
  unfold tableLength at h
  by_cases hfits : count ≤ maxWord
  · rw [if_pos hfits] at h
    exact ⟨hfits, (Except.ok.inj h).symm⟩
  · rw [if_neg hfits] at h
    cases h

namespace Encoder

variable {α β : Type}

/-- An encoder that succeeds keeps the builder consistent, only adds slots, and
yields a value that is related to every pool which holds the slots left
behind. -/
def Yields (encoder : Encoder α) (relation : Pool → α → Prop) : Prop :=
  ∀ (builder : PoolBuilder) (value : α) (grown : PoolBuilder),
    builder.Valid → encoder builder = .ok value grown →
      grown.Valid ∧ builder.slots <+: grown.slots ∧
        ∀ pool : Pool, pool.Holds grown → relation pool value

theorem Yields.pure {value : α} {relation : Pool → α → Prop}
    (h : ∀ pool, relation pool value) : Yields (pure value) relation := by
  intro builder result grown hvalid hrun
  cases hrun
  exact ⟨hvalid, List.prefix_rfl, fun pool _ => h pool⟩

/-- A later step leaves intact what an earlier one yielded, so it may rely on
that in every pool, and on facts about the value alone from the start. -/
theorem Yields.bind_of {first : Encoder α} {next : α → Encoder β}
    {relation : Pool → α → Prop} {result : Pool → β → Prop} {fact : α → Prop}
    (hfirst : first.Yields relation) (hfact : ∀ pool value, relation pool value → fact value)
    (hnext : ∀ value, fact value → (next value).Yields fun pool final =>
      relation pool value → result pool final) :
    (first >>= next).Yields result := by
  intro builder final grown hvalid hrun
  obtain ⟨value, between, hstep, hlast⟩ := exists_between hrun
  obtain ⟨hbetween, hadded, hrelation⟩ := hfirst builder value between hvalid hstep
  have hvalue := hfact between.pool value (hrelation between.pool between.holds_pool)
  obtain ⟨hgrown, hmore, hresult⟩ := hnext value hvalue between final grown hbetween hlast
  refine ⟨hgrown, hadded.trans hmore, fun pool hpool => hresult pool hpool ?_⟩
  exact hrelation pool (hmore.trans hpool)

/-- What the first of two encoders yields still holds of the pool in the end. -/
theorem Yields.bind {first : Encoder α} {next : α → Encoder β}
    {relation : Pool → α → Prop} {result : Pool → β → Prop}
    (hfirst : first.Yields relation)
    (hnext : ∀ value, (next value).Yields fun pool final =>
      relation pool value → result pool final) :
    (first >>= next).Yields result :=
  hfirst.bind_of (fun _ _ _ => trivial) fun value (_ : True) => hnext value

/-- What an encoder yields may be weakened. -/
theorem Yields.mono {encoder : Encoder α} {relation weaker : Pool → α → Prop}
    (h : encoder.Yields relation)
    (himplies : ∀ pool value, relation pool value → weaker pool value) :
    encoder.Yields weaker := by
  intro builder value grown hvalid hrun
  obtain ⟨hgrown, hadded, hrelation⟩ := h builder value grown hvalid hrun
  exact ⟨hgrown, hadded, fun pool hpool => himplies pool value (hrelation pool hpool)⟩

/-- What an encoder yields may be made into something else. -/
theorem Yields.map {encoder : Encoder α} {relation : Pool → α → Prop}
    {result : Pool → β → Prop} (h : encoder.Yields relation) (f : α → β)
    (himplies : ∀ pool value, relation pool value → result pool (f value)) :
    Yields (do return f (← encoder)) result :=
  h.bind fun value => Yields.pure fun pool => himplies pool value

theorem Yields.throw {cause : EncodeError} {relation : Pool → α → Prop} :
    Yields (throw cause) relation := by
  intro builder value grown hvalid hrun
  cases hrun

/-- A step that interns nothing yields its result. -/
theorem Yields.lift {result : Except EncodeError α} {relation : Pool → α → Prop}
    (h : ∀ pool value, result = .ok value → relation pool value) :
    Yields (liftM result) relation := by
  cases result with
  | error cause => exact Yields.throw
  | ok value => exact Yields.pure fun pool => h pool value rfl

/-- Items that are encoded one after another satisfy what holds of no item and is
kept by one item in front. -/
theorem Yields.concat {encode : α → Encoder (List UInt8)}
    {relation : Pool → α → List UInt8 → Prop} (total : Pool → List α → List UInt8 → Prop)
    (hnil : ∀ pool, total pool [] [])
    (hcons : ∀ pool item bytes items more, relation pool item bytes →
      total pool items more → total pool (item :: items) (bytes ++ more))
    (items : List α)
    (hitems : ∀ item ∈ items, (encode item).Yields fun pool => relation pool item) :
    (concat encode items).Yields fun pool => total pool items := by
  induction items with
  | nil => exact Yields.pure hnil
  | cons item items ih =>
    have hfirst := hitems item (List.mem_cons_self ..)
    have hmore := ih fun other hother => hitems other (List.mem_cons_of_mem _ hother)
    refine hfirst.bind fun first => ?_
    exact hmore.map (first ++ ·) fun pool more htotal hrelation =>
      hcons pool item first items more hrelation htotal

/-- A table is written as the number of its items and their bytes. -/
theorem Yields.table {encode : α → Encoder (List UInt8)} {items : List α}
    {total : Pool → List UInt8 → Prop} (hitems : (Encoder.concat encode items).Yields total) :
    (Encoder.table encode items).Yields fun pool bytes => items.length ≤ maxWord ∧
      ∃ body, bytes = Bytes.u16 (UInt16.ofNat items.length) ++ body ∧ total pool body := by
  have hlength : Yields (liftM (tableLength items.length)) fun _ length =>
      items.length ≤ maxWord ∧ length = UInt16.ofNat items.length :=
    Yields.lift fun _ _ => tableLength_eq_ok
  refine hlength.bind fun length => ?_
  refine hitems.map (Bytes.u16 length ++ ·) fun pool body htotal hcount => ?_
  rcases hcount with ⟨hfits, rfl⟩
  exact ⟨hfits, body, rfl, htotal⟩

end Encoder

/-! ## What interned indices lead to -/

/-- The characters of a text constant that stands for a text. -/
theorem JavaText.toString?_ofString (text : String) :
    (JavaText.ofString text).toString? = some text := by
  have hunits : (JavaText.ofString text).units = Utf16.encode text.toList := by
    simp [JavaText.units, JavaText.ofString, ModifiedUtf8.encode,
      ModifiedUtf8.units?_encodeUnits]
  have htext := Utf16.text?_eq_some_iff.2 (Utf16.decode_encode text.toList)
  rw [JavaText.toString?, hunits, htext, Option.map_some, String.ofList_toList]

/-- A text that was interned is found as a string. -/
theorem Pool.utf8_of_javaText {pool : Pool} {index : UInt16} {text : String}
    (htext : pool.javaText index = .ok (.ofString text)) : pool.utf8 index = .ok text := by
  simp only [utf8, htext, Bind.bind, Except.bind, JavaText.toString?_ofString]
  rfl

namespace PoolBuilder

/-- The index of an interned constant leads to it. -/
theorem yields_intern {constant : Constant} (hencodable : constant.Encodable) :
    (intern constant).Yields fun pool index => pool.entry index = .ok constant ∧ index ≠ 0 := by
  intro builder index grown hvalid hrun
  unfold intern at hrun
  cases hfound : builder.indices[constant]? with
  | some known =>
    rw [hfound] at hrun
    cases hrun
    have hslot := hvalid.indexed constant index hfound
    exact ⟨hvalid, List.prefix_rfl, fun pool hpool =>
      ⟨hpool.entry hencodable hslot, index_ne_zero hencodable hslot⟩⟩
  | none =>
    rw [hfound] at hrun
    by_cases hroom : builder.next + constant.slots ≤ maxWord
    · simp only [hroom, ↓reduceIte] at hrun
      cases hrun
      have hslot := getElem?_slots_extend hvalid constant
      refine ⟨hvalid.extend hencodable hroom, ?_, fun pool hpool =>
        ⟨hpool.entry hencodable hslot, index_ne_zero hencodable hslot⟩⟩
      exact ⟨constant.slotList, (slots_extend builder constant).symm⟩
    · simp only [hroom, ↓reduceIte, reduceCtorEq] at hrun

theorem yields_integer (number : Int32) :
    (intern (.integer number)).Yields fun pool index =>
      pool.integer index = .ok number ∧ index ≠ 0 := by
  apply (@yields_intern (.integer number) trivial).mono
  rintro pool index ⟨hentry, hindex⟩
  exact ⟨by rw [Pool.integer, hentry]; rfl, hindex⟩

theorem yields_float (bits : UInt32) :
    (intern (.float bits)).Yields fun pool index =>
      pool.float index = .ok bits ∧ index ≠ 0 := by
  apply (@yields_intern (.float bits) trivial).mono
  rintro pool index ⟨hentry, hindex⟩
  exact ⟨by rw [Pool.float, hentry]; rfl, hindex⟩

theorem yields_long (number : Int64) :
    (intern (.long number)).Yields fun pool index =>
      pool.long index = .ok number ∧ index ≠ 0 := by
  apply (@yields_intern (.long number) trivial).mono
  rintro pool index ⟨hentry, hindex⟩
  exact ⟨by rw [Pool.long, hentry]; rfl, hindex⟩

theorem yields_double (bits : UInt64) :
    (intern (.double bits)).Yields fun pool index =>
      pool.double index = .ok bits ∧ index ≠ 0 := by
  apply (@yields_intern (.double bits) trivial).mono
  rintro pool index ⟨hentry, hindex⟩
  exact ⟨by rw [Pool.double, hentry]; rfl, hindex⟩

theorem yields_javaText (text : JavaText) :
    (javaText text).Yields fun pool index => pool.javaText index = .ok text ∧ index ≠ 0 := by
  unfold javaText
  by_cases hfits : text.bytes.length ≤ maxWord
  · rw [if_pos hfits]
    apply (@yields_intern (.utf8 text) hfits).mono
    rintro pool index ⟨hentry, hindex⟩
    exact ⟨by rw [Pool.javaText, hentry]; rfl, hindex⟩
  · rw [if_neg hfits]
    exact Encoder.Yields.throw

theorem yields_utf8 (text : String) :
    (utf8 text).Yields fun pool index => pool.utf8 index = .ok text ∧ index ≠ 0 := by
  apply (yields_javaText (JavaText.ofString text)).mono
  rintro pool index ⟨htext, hindex⟩
  exact ⟨Pool.utf8_of_javaText htext, hindex⟩

/-- The index of an interned class leads to its name, through that of the name. -/
theorem yields_classRef (name : String) :
    (classRef name).Yields fun pool index => pool.className index = .ok name ∧ index ≠ 0 := by
  refine (yields_utf8 name).bind fun text => ?_
  apply (@yields_intern (.classRef text) trivial).mono
  rintro pool index ⟨hentry, hindex⟩ ⟨hname, _⟩
  refine ⟨?_, hindex⟩
  rw [Pool.className, hentry]
  exact hname

/-- The index of an interned pair leads to both of its texts. -/
theorem yields_nameAndType (name descriptor : String) :
    (nameAndType name descriptor).Yields fun pool index =>
      pool.nameAndType index = .ok (name, descriptor) ∧ index ≠ 0 := by
  refine (yields_utf8 name).bind fun nameIndex => ?_
  refine (yields_utf8 descriptor).bind fun descriptorIndex => ?_
  apply (@yields_intern (.nameAndType nameIndex descriptorIndex) trivial).mono
  intro pool index hentry hdescriptor hname
  refine ⟨?_, hentry.2⟩
  rw [Pool.nameAndType, hentry.1]
  simp only [Bind.bind, Except.bind, hname.1, hdescriptor.1]
  rfl

/-- The index of an interned method leads to its class, its name and its descriptor.
-/
theorem yields_methodRef (member : MemberRef) :
    (methodRef member).Yields fun pool index => pool.member index = .ok member ∧ index ≠ 0 := by
  obtain ⟨owner, name, descriptor, ofInterface⟩ := member
  refine (yields_classRef owner).bind fun ownerIndex => ?_
  refine (yields_nameAndType name descriptor).bind fun nameIndex => ?_
  have hresolve : ∀ pool : Pool, pool.nameAndType nameIndex = .ok (name, descriptor) →
      pool.className ownerIndex = .ok owner →
        pool.resolveMember ownerIndex nameIndex ofInterface =
          .ok { owner, name, descriptor, ofInterface } := by
    intro pool hname howner
    simp only [Pool.resolveMember, hname, howner, Bind.bind, Except.bind]
    rfl
  cases ofInterface with
  | true =>
    apply (@yields_intern (.interfaceMethodRef ownerIndex nameIndex) trivial).mono
    intro pool index hentry hname howner
    refine ⟨?_, hentry.2⟩
    rw [Pool.member, hentry.1]
    exact hresolve pool hname.1 howner.1
  | false =>
    apply (@yields_intern (.methodRef ownerIndex nameIndex) trivial).mono
    intro pool index hentry hname howner
    refine ⟨?_, hentry.2⟩
    rw [Pool.member, hentry.1]
    exact hresolve pool hname.1 howner.1

end PoolBuilder

end ClassStub
