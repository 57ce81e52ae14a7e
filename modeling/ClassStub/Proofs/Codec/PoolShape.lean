import ClassStub.Proofs.Codec.PoolRuns
import ClassStub.Proofs.Codec.ReadPool

/-!
# The shape of read pools

A pool that was read has the size that was declared, and its unusable slots are the
first one and those behind numbers of 64 bits (`Pool.Shaped`).  A declared size that
does not fit the entries is refused, and nothing else is refused with it
(`Pool.decode_eq_error_iff`).  What a lookup finds lies in a slot of the kind that is
looked up, and so does everything that it passes through (`Pool.Typed`).
-/

namespace ClassStub

open Decoder

/-! ## Slots -/

namespace Pool

variable {pool : Pool} {index : UInt16}

/-- A slot that holds a number of 64 bits. -/
def HoldsWide (pool : Pool) (index : Nat) : Prop :=
  ∃ constant, pool.slots[index]? = some constant ∧ constant.isWide

/-- Behind a slot that is not wide, the unusable slots of entries are those behind
wide ones. -/
theorem getElem?_eq_unusable_iff {entries : List Constant}
    (hencodable : ∀ constant ∈ entries, constant.Encodable) {head : Constant}
    (hhead : head.isWide = false) (index : Nat) :
    (head :: entries.flatMap Constant.slotList)[index + 1]? = some .unusable ↔
      ∃ constant, (head :: entries.flatMap Constant.slotList)[index]? = some constant ∧
        constant.isWide := by
  induction entries generalizing head index with
  | nil => cases index <;> simp [hhead]
  | cons constant more ih =>
    obtain ⟨hfirst, hmore⟩ := List.forall_mem_cons.1 hencodable
    have husable := hfirst.ne_unusable
    rw [List.flatMap_cons]
    cases hwide : constant.isWide with
    | false =>
      have hslots : constant.slotList = [constant] := if_neg (Bool.eq_false_iff.1 hwide)
      rw [hslots, List.singleton_append]
      cases index with
      | zero => simp [hhead, husable]
      | succ index => exact ih hmore hwide index
    | true =>
      have hslots : constant.slotList = [constant, .unusable] := if_pos hwide
      rw [hslots]
      match index with
      | 0 => simp [hhead, husable]
      | 1 => simp [hwide]
      | index + 2 => exact ih hmore rfl index

/-- A lookup finds whatever is in the slot, unless it is unusable. -/
theorem entry_eq_ok_iff {constant : Constant} :
    pool.entry index = .ok constant ↔
      pool.slots[index.toNat]? = some constant ∧ constant ≠ .unusable := by
  constructor
  · exact slot_of_entry
  · rintro ⟨hslot, husable⟩
    cases constant with
    | unusable => exact absurd rfl husable
    | _ => simp only [entry, hslot]

/-- The entries are the usable constants with their places. -/
theorem mem_entries_iff {place : Nat} {constant : Constant} :
    (place, constant) ∈ pool.entries ↔
      pool.slots[place]? = some constant ∧ constant ≠ .unusable := by
  simp only [entries, List.mem_filter, List.mem_map, decide_eq_true_eq, Prod.exists,
    Prod.mk.injEq, List.mk_mem_zipIdx_iff_getElem?, Array.getElem?_toList]
  constructor
  · rintro ⟨⟨found, position, hslot, rfl, rfl⟩, husable⟩
    exact ⟨hslot, husable⟩
  · rintro ⟨hslot, husable⟩
    exact ⟨⟨constant, place, hslot, rfl, rfl⟩, husable⟩

/-- The entries come in the order of their places. -/
theorem pairwise_entries (pool : Pool) : (pool.entries.map Prod.fst).Pairwise (· < ·) := by
  have hplaces : ((pool.slots.toList.zipIdx.map Prod.swap).map Prod.fst).Pairwise (· < ·) := by
    have hplace : (Prod.fst ∘ Prod.swap : Constant × Nat → Nat) = Prod.snd := rfl
    rw [List.map_map, hplace, List.zipIdx_map_snd]
    exact List.pairwise_lt_range'
  exact hplaces.sublist (List.filter_sublist.map Prod.fst)

/-- The shape of a pool of a declared size. -/
structure Shaped (pool : Pool) (declared : UInt16) : Prop where
  declared_pos : 0 < declared.toNat
  size_eq : pool.size = declared.toNat
  first_slot : pool.slots[0]? = some .unusable
  unusable_iff : ∀ slot, pool.slots[slot + 1]? = some .unusable ↔ pool.HoldsWide slot
  exists_entry_iff : ∀ index : UInt16, (∃ constant, pool.entry index = .ok constant) ↔
    0 < index.toNat ∧ index.toNat < declared.toNat ∧ ¬pool.HoldsWide (index.toNat - 1)
  entry_iff : ∀ (index : UInt16) (constant : Constant), pool.entry index = .ok constant ↔
    pool.slots[index.toNat]? = some constant ∧ constant ≠ .unusable
  entry_fails : ∀ (index : UInt16) (cause : FormatError),
    pool.entry index = .error cause → cause = .badConstantIndex index
  mem_entries : ∀ (slot : Nat) (constant : Constant), (slot, constant) ∈ pool.entries ↔
    ∃ index : UInt16, index.toNat = slot ∧ pool.entry index = .ok constant
  entries_ordered : (pool.entries.map Prod.fst).Pairwise (· < ·)

/-- A lookup that fails names the index that it was given. -/
theorem entry_fails_with {cause : FormatError} (hentry : pool.entry index = .error cause) :
    cause = .badConstantIndex index := by
  unfold entry at hentry
  split at hentry
  · cases hentry
    rfl
  · cases hentry
    rfl
  · cases hentry

/-- Between the first slot and the end, an index leads to an entry unless it is the
second one of a number. -/
theorem exists_entry_iff_of_slots {declared : UInt16} (hsize : pool.size = declared.toNat)
    (hfirst : pool.slots[0]? = some .unusable)
    (hunusable : ∀ slot, pool.slots[slot + 1]? = some .unusable ↔ pool.HoldsWide slot) :
    (∃ constant, pool.entry index = .ok constant) ↔
      0 < index.toNat ∧ index.toNat < declared.toNat ∧ ¬pool.HoldsWide (index.toNat - 1) := by
  simp only [entry_eq_ok_iff, ← hsize, size]
  cases index.toNat with
  | zero => simp [hfirst]
  | succ slot =>
    rw [Nat.add_sub_cancel, ← hunusable slot]
    constructor
    · intro hentry
      obtain ⟨constant, hslot, husable⟩ := hentry
      have hinside := (Array.getElem?_eq_some_iff.1 hslot).1
      refine ⟨slot.succ_pos, hinside, fun hnone => husable ?_⟩
      exact Option.some.inj (hslot.symm.trans hnone)
    · intro hplace
      obtain ⟨_, hinside, husable⟩ := hplace
      have hslot := Array.getElem?_eq_getElem hinside
      exact ⟨_, hslot, fun hnone => husable (hnone ▸ hslot)⟩

/-- A pool of written entries has the shape that its size declares. -/
theorem WrittenAs.shaped {entries : List Constant} {bytes : List UInt8}
    (hwritten : pool.WrittenAs entries bytes) : pool.Shaped (UInt16.ofNat pool.size) := by
  have hdeclared : (UInt16.ofNat pool.size).toNat = pool.size :=
    toNat_ofNat_count hwritten.size_le
  have hslot : ∀ slot : Nat, pool.slots[slot]? =
      (.unusable :: entries.flatMap Constant.slotList)[slot]? := by
    intro slot
    rw [← hwritten.slots_eq, Array.getElem?_toList]
  have hsize : pool.size = (entries.flatMap Constant.slotList).length + 1 := by
    rw [size, ← Array.length_toList, hwritten.slots_eq, List.length_cons]
  have hfirst : pool.slots[0]? = some .unusable := hslot 0
  have hunusable : ∀ slot, pool.slots[slot + 1]? = some .unusable ↔ pool.HoldsWide slot := by
    intro slot
    simp only [HoldsWide, hslot]
    exact getElem?_eq_unusable_iff hwritten.encodable rfl slot
  exact {
    declared_pos := by omega
    size_eq := hdeclared.symm
    first_slot := hfirst
    unusable_iff := hunusable
    exists_entry_iff := fun _ => exists_entry_iff_of_slots hdeclared.symm hfirst hunusable
    entry_iff := fun _ _ => entry_eq_ok_iff
    entry_fails := fun _ _ => entry_fails_with
    mem_entries := by
      intro slot constant
      simp only [mem_entries_iff, entry_eq_ok_iff]
      constructor
      · intro hentry
        obtain ⟨hheld, husable⟩ := hentry
        have hinside : slot < pool.size := (Array.getElem?_eq_some_iff.1 hheld).1
        have hindex : (UInt16.ofNat slot).toNat = slot :=
          toNat_ofNat_count (hinside.le.trans hwritten.size_le)
        exact ⟨UInt16.ofNat slot, hindex, hindex.symm ▸ hheld, husable⟩
      · intro hentry
        obtain ⟨index, hindex, hheld, husable⟩ := hentry
        exact ⟨hindex ▸ hheld, husable⟩
    entries_ordered := pairwise_entries pool }

end Pool

/-! ## Refused pools -/

namespace Decoder

variable {α β : Type}

/-- A decoder that follows no index has no wrong index as the cause of a failure. -/
def FollowsNoIndex (decoder : Decoder α) : Prop :=
  ∀ (cursor : Cursor) (index : UInt16) (after : Cursor),
    decoder cursor ≠ .error (.badConstantIndex index) after

namespace FollowsNoIndex

/-- What only reads bytes follows no index. -/
theorem read (reader : Reader α) : FollowsNoIndex (liftM reader) := by
  intro cursor index after hrun
  change EStateM.adaptExcept FormatError.unreadable reader cursor = _ at hrun
  cases hread : reader cursor <;> simp [EStateM.adaptExcept, hread] at hrun

/-- Two decoders that follow no index follow none together. -/
theorem bind {first : Decoder α} {next : α → Decoder β} (hfirst : first.FollowsNoIndex)
    (hnext : ∀ value, (next value).FollowsNoIndex) : (first >>= next).FollowsNoIndex := by
  intro cursor index after hrun
  rcases error_of_bind hrun with hstopped | ⟨value, between, _, hstopped⟩
  · exact hfirst _ _ _ hstopped
  · exact hnext value _ _ _ hstopped

/-- Making something of what was read follows no index. -/
theorem map {first : Decoder α} (hfirst : first.FollowsNoIndex) (f : α → β) :
    FollowsNoIndex (do return f (← first)) :=
  hfirst.bind fun _ _ _ _ hrun => by cases hrun

/-- Two operands are read without following an index. -/
theorem operands {γ : Type} (first : Reader α) (second : Reader β) (make : α → β → γ) :
    FollowsNoIndex (do return make (← first) (← second)) :=
  (read first).bind fun value => (read second).map (make value)

end FollowsNoIndex

/-- An unknown tag is another cause than a wrong index. -/
theorem FollowsNoIndex.throw_tag (tag : UInt8) (index : Nat) :
    FollowsNoIndex (throw (.badConstantTag tag index) : Decoder α) := by
  intro cursor wrong after hrun
  cases hrun

end Decoder

/-- A constant is read without following the indices that it holds. -/
theorem Constant.followsNoIndex_decode (index : Nat) : (Constant.decode index).FollowsNoIndex := by
  refine (FollowsNoIndex.read Reader.u8).bind fun tag => ?_
  -- Behind a tag stand one operand or two, or the tag is unknown.
  split
  all_goals first
    | exact FollowsNoIndex.map (.read _) _
    | exact FollowsNoIndex.operands _ _ _
    | exact FollowsNoIndex.throw_tag tag index

namespace Pool

/-- Bytes of entries, the last of which needs two slots where a pool of the declared
size has one left. -/
def EndsInside (declared : Nat) (bytes : List UInt8) : Prop :=
  ∃ (entries : List Constant) (last : Constant) (more : List UInt8),
    (∀ constant ∈ entries, constant.Encodable) ∧ last.isWide ∧
      1 + (entries.map Constant.slots).sum + 1 = declared ∧
        bytes = entries.flatMap Constant.bytes ++ last.bytes ++ more

/-- One more entry before the others makes the pool larger by its slots. -/
theorem EndsInside.cons {constant : Constant} (hencodable : constant.Encodable) {declared : Nat}
    {bytes : List UInt8} (hends : EndsInside declared bytes) :
    EndsInside (declared + constant.slots) (constant.bytes ++ bytes) := by
  obtain ⟨entries, last, more, hentries, hwide, hslots, rfl⟩ := hends
  refine ⟨constant :: entries, last, more, List.forall_mem_cons.2 ⟨hencodable, hentries⟩, hwide,
    ?_, ?_⟩
  · rw [List.map_cons, List.sum_cons]
    omega
  · simp only [List.flatMap_cons, List.append_assoc]

/-- Slots are refused for the declared size only, and only if an entry with two slots
comes where one is left. -/
theorem endsInside_of_slotsFrom {declared wrong : UInt16} {index left : Nat}
    {cursor after : Cursor}
    (hrun : slotsFrom declared index left cursor = .error (.badConstantIndex wrong) after) :
    wrong = declared ∧ EndsInside (left + 1) cursor.rest := by
  -- An entry takes one slot or two, so the claim is known for all smaller numbers of slots.
  induction left using Nat.strongRecOn generalizing index cursor with
  | ind left ih =>
    cases left with
    | zero => cases hrun
    | succ left =>
      rw [slotsFrom] at hrun
      rcases error_of_bind hrun with hconstant | ⟨constant, between, hconstant, hlater⟩
      · exact absurd hconstant (Constant.followsNoIndex_decode index _ _ _)
      · obtain ⟨_, hrest, _, hencodable, rfl⟩ := Constant.consumes_decode index _ _ _ hconstant
        have hcons := @EndsInside.cons constant hencodable
        rw [hrest]
        cases hwide : constant.isWide with
        | true =>
          simp only [hwide, ↓reduceIte] at hlater
          cases left with
          | zero =>
            cases hlater
            exact ⟨rfl, [], constant, after.rest, List.forall_mem_nil _, hwide, rfl, rfl⟩
          | succ left =>
            rcases error_of_bind hlater with hslots | ⟨slots, _, _, hpure⟩
            · obtain ⟨hwrong, hends⟩ := ih left (by omega) hslots
              have hmore := hcons hends
              rw [show constant.slots = 2 from if_pos hwide] at hmore
              exact ⟨hwrong, hmore⟩
            · cases hpure
        | false =>
          simp only [hwide, Bool.false_eq_true, ↓reduceIte] at hlater
          rcases error_of_bind hlater with hslots | ⟨slots, _, _, hpure⟩
          · obtain ⟨hwrong, hends⟩ := ih left (by omega) hslots
            have hmore := hcons hends
            rw [show constant.slots = 1 from if_neg (Bool.eq_false_iff.1 hwide)] at hmore
            exact ⟨hwrong, hmore⟩
          · cases hpure

/-- An entry with two slots is refused where one is left, with the declared size. -/
theorem slotsFrom_of_endsInside (declared : UInt16) {left : Nat} (index position : Nat)
    {bytes : List UInt8} (hends : EndsInside (left + 1) bytes) :
    ∃ after, slotsFrom declared index left { position, rest := bytes } =
      .error (.badConstantIndex declared) after := by
  obtain ⟨entries, last, more, hentries, hlast, hslots, rfl⟩ := hends
  induction entries generalizing left index position with
  | nil =>
    obtain rfl : left = 1 := by simpa using hslots.symm
    have hencodable : last.Encodable := by
      cases last <;> trivial
    have hread := Constant.reads_decode hencodable index
    rw [slotsFrom, List.flatMap_nil, List.nil_append, hread.run_bind]
    simp only [hlast, ↓reduceIte]
    exact ⟨_, rfl⟩
  | cons constant entries ih =>
    obtain ⟨hfirst, hmore⟩ := List.forall_mem_cons.1 hentries
    rw [List.map_cons, List.sum_cons] at hslots
    have hread := Constant.reads_decode hfirst index
    simp only [List.flatMap_cons, List.append_assoc] at ih ⊢
    cases hwide : constant.isWide with
    | true =>
      have htaken : constant.slots = 2 := if_pos hwide
      obtain ⟨left, rfl⟩ : ∃ rest, left = rest + 2 := ⟨left - 2, by omega⟩
      obtain ⟨after, hrun⟩ := @ih left (index + 2) (position + constant.bytes.length)
        hmore (by omega)
      refine ⟨after, ?_⟩
      rw [slotsFrom, hread.run_bind]
      simp only [hwide, ↓reduceIte, Bind.bind, EStateM.bind, hrun]
    | false =>
      have htaken : constant.slots = 1 := if_neg (Bool.eq_false_iff.1 hwide)
      obtain ⟨left, rfl⟩ : ∃ rest, left = rest + 1 := ⟨left - 1, by omega⟩
      obtain ⟨after, hrun⟩ := @ih left (index + 1) (position + constant.bytes.length)
        hmore (by omega)
      refine ⟨after, ?_⟩
      rw [slotsFrom, hread.run_bind]
      simp only [hwide, Bool.false_eq_true, ↓reduceIte, Bind.bind, EStateM.bind, hrun]

/-- A pool is refused for its declared size if this leaves no room for the unusable first
slot or for both slots of an entry that otherwise well-formed entries come before. -/
theorem decode_eq_error_iff {cursor : Cursor} {index : UInt16} :
    (∃ after, Pool.decode cursor = .error (.badConstantIndex index) after) ↔
      ∃ rest, cursor.rest = Bytes.u16 index ++ rest ∧
        (index = 0 ∨ EndsInside index.toNat rest) := by
  constructor
  · intro ⟨after, hrun⟩
    rcases error_of_bind hrun with hsize | ⟨declared, between, hsize, hlater⟩
    · exact absurd hsize (FollowsNoIndex.read Reader.u16 _ _ _)
    obtain ⟨_, hrest, _, rfl⟩ := consumes_u16_bytes _ _ _ hsize
    -- The size is refused for itself, or for the entries behind it.
    by_cases hzero : declared = 0
    · simp only [hzero, ↓reduceIte] at hlater
      cases hlater
      exact ⟨after.rest, hzero ▸ hrest, .inl rfl⟩
    · simp only [hzero, ↓reduceIte] at hlater
      rcases error_of_bind hlater with hslots | ⟨slots, _, _, hpure⟩
      · obtain ⟨rfl, hends⟩ := endsInside_of_slotsFrom hslots
        have hpositive : index.toNat ≠ 0 := fun hnone => hzero (UInt16.toNat.inj hnone)
        rw [Nat.sub_add_cancel (Nat.pos_of_ne_zero hpositive)] at hends
        exact ⟨between.rest, hrest, .inr hends⟩
      · cases hpure
  · intro ⟨rest, hrest, hcause⟩
    obtain ⟨position, _⟩ := cursor
    subst hrest
    rw [decode, (reads_u16 index).run_bind]
    by_cases hzero : index = 0
    · simp only [hzero, ↓reduceIte]
      exact ⟨_, rfl⟩
    · simp only [hzero, ↓reduceIte]
      have hpositive : index.toNat ≠ 0 := fun hnone => hzero (UInt16.toNat.inj hnone)
      have hends : EndsInside (index.toNat - 1 + 1) rest := by
        rw [Nat.sub_add_cancel (Nat.pos_of_ne_zero hpositive)]
        exact hcause.resolve_left hzero
      obtain ⟨after, hslots⟩ := slotsFrom_of_endsInside index 1
        (position + (Bytes.u16 index).length) hends
      refine ⟨after, ?_⟩
      simp only [Bind.bind, EStateM.bind, hslots]

/-- A number of 64 bits does not fit into a pool with one slot behind the first. -/
example : Pool.decode (.ofBytes ([0, 2, 5] ++ Bytes.i64 7)) =
    .error (.badConstantIndex 2) { position := 11, rest := [] } := by
  cbv

/-! ## Lookups -/

section Lookups

variable {pool : Pool} {index : UInt16}

/-- This text is in the slot. -/
def HasText (pool : Pool) (index : UInt16) (text : JavaText) : Prop :=
  pool.slots[index.toNat]? = some (.utf8 text)

/-- A text without lone surrogates is in the slot. -/
def HasName (pool : Pool) (index : UInt16) (name : String) : Prop :=
  ∃ text, pool.HasText index text ∧ text.toString? = some name

/-- The reference to a class of this name is in the slot. -/
def HasClass (pool : Pool) (index : UInt16) (name : String) : Prop :=
  ∃ place, pool.slots[index.toNat]? = some (.classRef place) ∧ pool.HasName place name

/-- The constant of a string literal with this text is in the slot. -/
def HasLiteral (pool : Pool) (index : UInt16) (text : JavaText) : Prop :=
  ∃ place, pool.slots[index.toNat]? = some (.string place) ∧ pool.HasText place text

/-- The pair of a name and a descriptor is in the slot. -/
def HasPair (pool : Pool) (index : UInt16) (name descriptor : String) : Prop :=
  ∃ first second, pool.slots[index.toNat]? = some (.nameAndType first second) ∧
    pool.HasName first name ∧ pool.HasName second descriptor

/-- References to members of interfaces have a kind of their own. -/
def HasReference (pool : Pool) (index owner pair : UInt16) : (ofInterface : Bool) → Prop
  | true => pool.slots[index.toNat]? = some (.interfaceMethodRef owner pair)
  | false => pool.slots[index.toNat]? = some (.fieldRef owner pair) ∨
    pool.slots[index.toNat]? = some (.methodRef owner pair)

/-- The reference to this member is in the slot. -/
def HasMember (pool : Pool) (index : UInt16) (member : MemberRef) : Prop :=
  ∃ owner pair, pool.HasReference index owner pair member.ofInterface ∧
    pool.HasClass owner member.owner ∧ pool.HasPair pair member.name member.descriptor

theorem pure_eq_ok_iff {α : Type} {value result : α} :
    (pure value : Except FormatError α) = .ok result ↔ value = result := by
  simp [pure, Except.pure]

/-- What a lookup finds that goes on from the constants of one kind only. -/
theorem entry_bind_eq_ok_iff {α β : Type} {make : α → Constant}
    {next : Constant → Except FormatError β} {found : α → Prop} {value : β}
    (husable : ∀ part, make part ≠ .unusable)
    (hnext : ∀ constant, next constant = .ok value ↔
      ∃ part, constant = make part ∧ found part) :
    (pool.entry index >>= next) = .ok value ↔
      ∃ part, pool.slots[index.toNat]? = some (make part) ∧ found part := by
  simp only [bind_eq_ok, entry_eq_ok_iff, hnext]
  constructor
  · intro ⟨_, ⟨hslot, _⟩, part, hmade, hfound⟩
    exact ⟨part, hmade ▸ hslot, hfound⟩
  · intro ⟨part, hslot, hfound⟩
    exact ⟨make part, ⟨hslot, husable part⟩, part, rfl, hfound⟩

/-- What a lookup finds that yields what the constants of one kind hold. -/
theorem entry_bind_pure_iff {α : Type} {make : α → Constant}
    {next : Constant → Except FormatError α} {value : α}
    (husable : ∀ part, make part ≠ .unusable)
    (hnext : ∀ constant, next constant = .ok value ↔ constant = make value) :
    (pool.entry index >>= next) = .ok value ↔ pool.slots[index.toNat]? = some (make value) := by
  have hfound := @entry_bind_eq_ok_iff pool index _ _ make next (· = value) value husable
  simpa [hnext] using hfound

theorem javaText_eq_ok_iff {text : JavaText} :
    pool.javaText index = .ok text ↔ pool.HasText index text :=
  entry_bind_pure_iff (by simp) fun constant => by
    cases constant <;> simp [mismatch, pure_eq_ok_iff]

theorem integer_eq_ok_iff {value : Int32} :
    pool.integer index = .ok value ↔ pool.slots[index.toNat]? = some (.integer value) :=
  entry_bind_pure_iff (by simp) fun constant => by
    cases constant <;> simp [mismatch, pure_eq_ok_iff]

theorem float_eq_ok_iff {bits : UInt32} :
    pool.float index = .ok bits ↔ pool.slots[index.toNat]? = some (.float bits) :=
  entry_bind_pure_iff (by simp) fun constant => by
    cases constant <;> simp [mismatch, pure_eq_ok_iff]

theorem long_eq_ok_iff {value : Int64} :
    pool.long index = .ok value ↔ pool.slots[index.toNat]? = some (.long value) :=
  entry_bind_pure_iff (by simp) fun constant => by
    cases constant <;> simp [mismatch, pure_eq_ok_iff]

theorem double_eq_ok_iff {bits : UInt64} :
    pool.double index = .ok bits ↔ pool.slots[index.toNat]? = some (.double bits) :=
  entry_bind_pure_iff (by simp) fun constant => by
    cases constant <;> simp [mismatch, pure_eq_ok_iff]

/-- A name is found where there is a text without lone surrogates. -/
theorem utf8_eq_ok_iff {name : String} :
    pool.utf8 index = .ok name ↔ pool.HasName index name := by
  simp only [utf8, bind_eq_ok, javaText_eq_ok_iff, HasName]
  refine exists_congr fun text => and_congr_right fun _ => ?_
  cases text.toString? with
  | none => simp [throw, throwThe, MonadExceptOf.throw]
  | some found => simp [pure, Except.pure]

/-- The name of a class is found behind the reference to it. -/
theorem className_eq_ok_iff {name : String} :
    pool.className index = .ok name ↔ pool.HasClass index name := by
  apply entry_bind_eq_ok_iff
  · simp
  · intro constant
    cases constant <;> simp [mismatch, utf8_eq_ok_iff]

theorem stringText_eq_ok_iff {text : JavaText} :
    pool.stringText index = .ok text ↔ pool.HasLiteral index text := by
  apply entry_bind_eq_ok_iff
  · simp
  · intro constant
    cases constant <;> simp [mismatch, javaText_eq_ok_iff]

/-- A string is found where the text of the literal has no lone surrogates. -/
theorem string_eq_ok_iff {value : String} :
    pool.string index = .ok value ↔
      ∃ text, pool.HasLiteral index text ∧ text.toString? = some value := by
  have hfollow : pool.string index = .ok value ↔
      ∃ place, pool.slots[index.toNat]? = some (.string place) ∧ pool.HasName place value := by
    apply entry_bind_eq_ok_iff
    · simp
    · intro constant
      cases constant <;> simp [mismatch, utf8_eq_ok_iff]
  rw [hfollow]
  constructor
  · intro ⟨place, hslot, text, htext, hvalue⟩
    exact ⟨text, ⟨place, hslot, htext⟩, hvalue⟩
  · intro ⟨text, ⟨place, hslot, htext⟩, hvalue⟩
    exact ⟨place, hslot, text, htext, hvalue⟩

theorem nameAndType_eq_ok_iff {name descriptor : String} :
    pool.nameAndType index = .ok (name, descriptor) ↔ pool.HasPair index name descriptor := by
  have hfollow : pool.nameAndType index = .ok (name, descriptor) ↔
      ∃ parts : UInt16 × UInt16,
        pool.slots[index.toNat]? = some (.nameAndType parts.1 parts.2) ∧
          pool.HasName parts.1 name ∧ pool.HasName parts.2 descriptor := by
    apply entry_bind_eq_ok_iff
    · simp
    · intro constant
      cases constant <;> simp [-bind_pure_comp, mismatch, bind_eq_ok, utf8_eq_ok_iff,
        pure_eq_ok_iff]
  rw [hfollow, Prod.exists, HasPair]

/-- A member has the owner and the pair that a reference leads to. -/
theorem resolveMember_eq_ok_iff {owner pair : UInt16} {ofInterface : Bool} {member : MemberRef} :
    pool.resolveMember owner pair ofInterface = .ok member ↔
      pool.HasClass owner member.owner ∧ pool.HasPair pair member.name member.descriptor ∧
        member.ofInterface = ofInterface := by
  simp only [resolveMember, bind_eq_ok, pure_eq_ok_iff, className_eq_ok_iff, Prod.exists,
    nameAndType_eq_ok_iff]
  constructor
  · intro hresolved
    obtain ⟨name, descriptor, hpair, _, howner, rfl⟩ := hresolved
    exact ⟨howner, hpair, rfl⟩
  · intro hparts
    obtain ⟨howner, hpair, rfl⟩ := hparts
    exact ⟨member.name, member.descriptor, hpair, member.owner, howner, rfl⟩

/-- A member is found behind a reference of any kind. -/
theorem member_eq_ok_iff {member : MemberRef} :
    pool.member index = .ok member ↔ pool.HasMember index member := by
  simp only [Pool.member, bind_eq_ok, entry_eq_ok_iff]
  constructor
  · intro hfound
    obtain ⟨constant, ⟨hslot, _⟩, hmember⟩ := hfound
    cases constant with
    | fieldRef owner pair =>
      obtain ⟨howner, hpair, hinterface⟩ := resolveMember_eq_ok_iff.1 hmember
      exact ⟨owner, pair, hinterface ▸ .inl hslot, howner, hpair⟩
    | methodRef owner pair =>
      obtain ⟨howner, hpair, hinterface⟩ := resolveMember_eq_ok_iff.1 hmember
      exact ⟨owner, pair, hinterface ▸ .inr hslot, howner, hpair⟩
    | interfaceMethodRef owner pair =>
      obtain ⟨howner, hpair, hinterface⟩ := resolveMember_eq_ok_iff.1 hmember
      exact ⟨owner, pair, hinterface ▸ hslot, howner, hpair⟩
    | _ => cases hmember
  · intro hparts
    obtain ⟨owner, pair, hslot, howner, hpair⟩ := hparts
    have hresolved := resolveMember_eq_ok_iff.2 ⟨howner, hpair, rfl⟩
    cases hinterface : member.ofInterface with
    | true =>
      rw [hinterface] at hslot hresolved
      exact ⟨_, ⟨hslot, by simp⟩, hresolved⟩
    | false =>
      rw [hinterface] at hslot hresolved
      rcases hslot with hfield | hmethod
      · exact ⟨_, ⟨hfield, by simp⟩, hresolved⟩
      · exact ⟨_, ⟨hmethod, by simp⟩, hresolved⟩

/-- An index that may be 0 for nothing leads to nothing there, and elsewhere to what is
found. -/
theorem optional_eq_ok_iff {α : Type} {find : UInt16 → Except FormatError α}
    {found : α → Prop} {result : Option α} (hfind : ∀ value, find index = .ok value ↔ found value) :
    optional find index = .ok result ↔
      index = 0 ∧ result = none ∨ index ≠ 0 ∧ ∃ value, result = some value ∧ found value := by
  unfold optional
  by_cases hzero : index = 0
  · simp [hzero, eq_comm]
  · cases hvalue : find index with
    | error cause => simp [hzero, ← hfind, hvalue, Except.map]
    | ok value => simp [hzero, ← hfind, hvalue, Except.map, eq_comm]

/-- What the lookups find in a pool.  Every slot on the way holds a constant of the kind
that is looked up there. -/
structure Typed (pool : Pool) : Prop where
  javaText : ∀ index text, pool.javaText index = .ok text ↔ pool.HasText index text
  utf8 : ∀ index name, pool.utf8 index = .ok name ↔ pool.HasName index name
  className : ∀ index name, pool.className index = .ok name ↔ pool.HasClass index name
  className? : ∀ index result, pool.className? index = .ok result ↔
    index = 0 ∧ result = none ∨ index ≠ 0 ∧ ∃ name, result = some name ∧ pool.HasClass index name
  utf8? : ∀ index result, pool.utf8? index = .ok result ↔
    index = 0 ∧ result = none ∨ index ≠ 0 ∧ ∃ name, result = some name ∧ pool.HasName index name
  stringText : ∀ index text, pool.stringText index = .ok text ↔ pool.HasLiteral index text
  string : ∀ index value, pool.string index = .ok value ↔
    ∃ text, pool.HasLiteral index text ∧ text.toString? = some value
  integer : ∀ index value, pool.integer index = .ok value ↔
    pool.slots[index.toNat]? = some (.integer value)
  float : ∀ index bits, pool.float index = .ok bits ↔
    pool.slots[index.toNat]? = some (.float bits)
  long : ∀ index value, pool.long index = .ok value ↔
    pool.slots[index.toNat]? = some (.long value)
  double : ∀ index bits, pool.double index = .ok bits ↔
    pool.slots[index.toNat]? = some (.double bits)
  nameAndType : ∀ index name descriptor, pool.nameAndType index = .ok (name, descriptor) ↔
    pool.HasPair index name descriptor
  member : ∀ index member, pool.member index = .ok member ↔ pool.HasMember index member

/-- All lookups of a pool are exact. -/
theorem typed (pool : Pool) : pool.Typed where
  javaText _ _ := javaText_eq_ok_iff
  utf8 _ _ := utf8_eq_ok_iff
  className _ _ := className_eq_ok_iff
  className? _ _ := optional_eq_ok_iff fun _ => className_eq_ok_iff
  utf8? _ _ := optional_eq_ok_iff fun _ => utf8_eq_ok_iff
  stringText _ _ := stringText_eq_ok_iff
  string _ _ := string_eq_ok_iff
  integer _ _ := integer_eq_ok_iff
  float _ _ := float_eq_ok_iff
  long _ _ := long_eq_ok_iff
  double _ _ := double_eq_ok_iff
  nameAndType _ _ _ := nameAndType_eq_ok_iff
  member _ _ := member_eq_ok_iff

end Lookups

/-! ## Reading -/

/-- What reading a pool promises at a cursor: a pool that is read has the size that is
declared, its shape and lookups that keep to their kinds; and a declared size is refused
if it is 0 or ends inside an entry, but for no other reason. -/
structure ReadsInShape (cursor : Cursor) : Prop where
  shaped : ∀ pool after, Pool.decode cursor = .ok pool after →
    ∃ declared rest, cursor.rest = Bytes.u16 declared ++ rest ∧ pool.Shaped declared ∧ pool.Typed
  refused_iff : ∀ index : UInt16,
    (∃ after, Pool.decode cursor = .error (.badConstantIndex index) after) ↔
      ∃ rest, cursor.rest = Bytes.u16 index ++ rest ∧
        (index = 0 ∨ EndsInside index.toNat rest)

/-- **Pools are read in shape**, from any bytes. -/
theorem decode_in_shape (cursor : Cursor) : ReadsInShape cursor where
  shaped := by
    intro pool after hdecode
    obtain ⟨bytes, hbytes, _, entries, hwritten⟩ := consumes_decode cursor pool after hdecode
    rw [hwritten.bytes_eq, List.append_assoc] at hbytes
    exact ⟨_, _, hbytes, hwritten.shaped, typed pool⟩
  refused_iff _ := decode_eq_error_iff

end Pool

end ClassStub
