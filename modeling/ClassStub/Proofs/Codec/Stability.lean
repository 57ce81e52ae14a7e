import Mathlib
import ClassStub.Proofs.Codec.WrittenPool

/-!
# Interning again

The invariant of a builder links its entries, its indices and its next index
(`PoolBuilder.Exact`).  An encoder keeps it whether it succeeds or fails, and what
it returned once it returns at any later time, without any change
(`Encoder.Stable`).  The constants that a builder knows (`PoolBuilder.Knows`) are
its entries; they lie apart from each other inside the pool.
-/

namespace ClassStub

/-- Every constant takes a slot. -/
theorem Constant.slots_pos (constant : Constant) : 0 < constant.slots := by
  unfold slots
  split <;> decide

/-- Of the slots of an entry only the first one is usable. -/
theorem Constant.eq_of_getElem?_slotList {constant entry : Constant} {position : Nat}
    (hslot : constant.slotList[position]? = some entry) (husable : entry ≠ .unusable) :
    constant = entry ∧ position = 0 := by
  rcases position with _ | _ | position
  · exact ⟨Option.some.inj (constant.slotList_head?.symm.trans hslot), rfl⟩
  · unfold slotList at hslot
    split at hslot
    · exact absurd (Option.some.inj hslot).symm husable
    · cases hslot
  · unfold slotList at hslot
    split at hslot <;> cases hslot

namespace PoolBuilder

variable {builder earlier later latest : PoolBuilder} {constant other : Constant}
  {index : UInt16}

/-! ## The invariant -/

/-- A consistent builder that has no entry twice.  The entries are the constants
with an index, every usable slot is the first one of the constant whose index it
has, and each constant has all the slots that it takes. -/
structure Exact (builder : PoolBuilder) : Prop extends builder.Valid where
  nodup : builder.entries.toList.Nodup
  mem_iff : ∀ constant : Constant, constant ∈ builder.entries.toList ↔
    ∃ index, builder.indices[constant]? = some index
  recorded : ∀ (position : Nat) (constant : Constant),
    builder.slots[position]? = some constant → constant ≠ .unusable →
      ∃ index, builder.indices[constant]? = some index ∧ index.toNat = position
  placed : ∀ (constant : Constant) (index : UInt16),
    builder.indices[constant]? = some index →
      constant.slotList <+: builder.slots.drop index.toNat

/-- A new builder is exact. -/
theorem exact_empty : Exact {} where
  toValid := valid_empty
  nodup := by simp
  mem_iff := by simp
  recorded := by
    intro position constant hslot husable
    rw [slots, List.getElem?_cons] at hslot
    split at hslot
    · exact absurd (Option.some.inj hslot).symm husable
    · simp at hslot
  placed := by simp

/-- The next index is that behind all slots, and it is a word. -/
theorem Valid.toNat_next (hvalid : builder.Valid) :
    (UInt16.ofNat builder.next).toNat = builder.slots.length := by
  rw [UInt16.toNat_ofNat', ← hvalid.next_eq]
  exact Nat.mod_eq_of_lt (Nat.lt_succ_of_le hvalid.next_le)

/-- One more constant has the next index, and all others have theirs. -/
theorem indices_extend (builder : PoolBuilder) (constant other : Constant) :
    (builder.extend constant).indices[other]? =
      if constant = other then some (UInt16.ofNat builder.next) else builder.indices[other]? := by
  simp [extend, Std.HashMap.getElem?_insert]

/-- A new constant is no entry yet. -/
theorem Exact.extend (hexact : builder.Exact) (hencodable : constant.Encodable)
    (hroom : builder.next + constant.slots ≤ maxWord)
    (hnew : builder.indices[constant]? = none) : (builder.extend constant).Exact where
  toValid := hexact.toValid.extend hencodable hroom
  nodup := by
    have hfresh : constant ∉ builder.entries.toList := by
      rw [hexact.mem_iff, hnew]
      simp
    rw [PoolBuilder.extend, Array.toList_push, ← List.concat_eq_append]
    exact List.Nodup.concat hfresh hexact.nodup
  mem_iff := by
    intro entry
    rw [indices_extend]
    by_cases hsame : constant = entry
    · simp [PoolBuilder.extend, hsame]
    · rw [if_neg hsame, ← hexact.mem_iff]
      simp [PoolBuilder.extend, Ne.symm hsame]
  recorded := by
    intro position entry hslot husable
    rw [indices_extend]
    rw [slots_extend] at hslot
    -- A slot is one of those before, or one of the new constant, of which the first is usable.
    by_cases hold : position < builder.slots.length
    · rw [List.getElem?_append_left hold] at hslot
      obtain ⟨index, hindex, hposition⟩ := hexact.recorded position entry hslot husable
      have hother : constant ≠ entry := by
        rintro rfl
        rw [hnew] at hindex
        cases hindex
      exact ⟨index, by rw [if_neg hother, hindex], hposition⟩
    · rw [List.getElem?_append_right (Nat.le_of_not_lt hold)] at hslot
      obtain ⟨rfl, hposition⟩ := Constant.eq_of_getElem?_slotList hslot husable
      refine ⟨_, if_pos rfl, ?_⟩
      rw [hexact.toValid.toNat_next]
      omega
  placed := by
    intro entry index hindex
    rw [indices_extend] at hindex
    rw [slots_extend]
    by_cases hsame : constant = entry
    · rw [if_pos hsame] at hindex
      obtain rfl := Option.some.inj hindex
      rw [hexact.toValid.toNat_next, List.drop_left, hsame]
    · rw [if_neg hsame] at hindex
      have hplaced := hexact.placed entry index hindex
      have hbefore : index.toNat ≤ builder.slots.length :=
        Nat.le_of_lt (List.getElem?_eq_some_iff.1 (hexact.indexed entry index hindex)).1
      rw [List.drop_append_of_le_length hbefore]
      exact hplaced.trans (List.prefix_append _ _)

/-- A builder that was used further: it has all slots that were there, and all
indices lead where they led. -/
structure Later (earlier later : PoolBuilder) : Prop where
  slots : earlier.slots <+: later.slots
  indices : ∀ (constant : Constant) (index : UInt16),
    earlier.indices[constant]? = some index → later.indices[constant]? = some index

theorem Later.refl (builder : PoolBuilder) : builder.Later builder :=
  ⟨List.prefix_rfl, fun _ _ hindex => hindex⟩

/-- What was used further and further has all that was there at first. -/
theorem Later.trans (hmore : earlier.Later later) (hlast : later.Later latest) :
    earlier.Later latest :=
  ⟨hmore.slots.trans hlast.slots, fun constant index hindex =>
    hlast.indices constant index (hmore.indices constant index hindex)⟩

/-- A new constant takes no index from another one. -/
theorem later_extend (hnew : builder.indices[constant]? = none) :
    builder.Later (builder.extend constant) where
  slots := ⟨constant.slotList, (slots_extend builder constant).symm⟩
  indices := by
    intro entry index hindex
    have hother : constant ≠ entry := by
      rintro rfl
      rw [hnew] at hindex
      cases hindex
    rw [indices_extend, if_neg hother, hindex]

end PoolBuilder

/-! ## Steps that succeed or fail -/

namespace Encoder

variable {α β : Type}

/-- The builder that an encoder leaves behind, whether it succeeds or not. -/
def builderAfter (encoder : Encoder α) (builder : PoolBuilder) : PoolBuilder :=
  match encoder builder with
  | .ok _ left | .error _ left => left

/-- An encoder that keeps the invariant even when it fails, and that has the same
result when it is repeated at any later time, then without any change. -/
structure Stable (encoder : Encoder α) : Prop where
  keeps : ∀ builder : PoolBuilder, builder.Exact →
    (encoder.builderAfter builder).Exact ∧ builder.Later (encoder.builderAfter builder)
  repeats : ∀ (builder : PoolBuilder) (value : α) (grown later : PoolBuilder), builder.Exact →
    encoder builder = .ok value grown → grown.Later later → encoder later = .ok value later

/-- A success leaves what it has grown. -/
theorem builderAfter_of_ok {encoder : Encoder α} {builder grown : PoolBuilder} {value : α}
    (hrun : encoder builder = .ok value grown) : encoder.builderAfter builder = grown := by
  rw [builderAfter, hrun]

/-- A success goes on with what it leaves. -/
theorem run_bind {first : Encoder α} {next : α → Encoder β} {builder between : PoolBuilder}
    {value : α} (hfirst : first builder = .ok value between) :
    (first >>= next) builder = next value between := by
  simp only [Bind.bind, EStateM.bind, hfirst]

theorem Stable.throw (cause : EncodeError) : Stable (throw cause : Encoder α) where
  keeps := fun builder hexact => ⟨hexact, .refl builder⟩
  repeats := by
    intro builder value grown later _ hrun
    cases hrun

/-- Two encoders that are stable are so together. -/
theorem Stable.bind {first : Encoder α} {next : α → Encoder β} (hfirst : first.Stable)
    (hnext : ∀ value, (next value).Stable) : (first >>= next).Stable where
  keeps := by
    intro builder hexact
    have hkept := hfirst.keeps builder hexact
    cases hrun : first builder with
    | error cause stopped =>
      have hafter : (first >>= next).builderAfter builder = first.builderAfter builder := by
        simp only [builderAfter, Bind.bind, EStateM.bind, hrun]
      rw [hafter]
      exact hkept
    | ok value between =>
      rw [builderAfter_of_ok hrun] at hkept
      have hafter : (first >>= next).builderAfter builder =
          (next value).builderAfter between := by
        simp only [builderAfter, Bind.bind, EStateM.bind, hrun]
      have hlast := (hnext value).keeps between hkept.1
      rw [hafter]
      exact ⟨hlast.1, hkept.2.trans hlast.2⟩
  repeats := by
    intro builder result grown later hexact hrun hlater
    obtain ⟨value, between, hstep, hlast⟩ := exists_between hrun
    have hbetween := (hfirst.keeps builder hexact).1
    rw [builderAfter_of_ok hstep] at hbetween
    have hgrown := ((hnext value).keeps between hbetween).2
    rw [builderAfter_of_ok hlast] at hgrown
    rw [run_bind (hfirst.repeats builder value between later hexact hstep (hgrown.trans hlater))]
    exact (hnext value).repeats between result grown later hbetween hlast hlater

end Encoder

namespace PoolBuilder

open Encoder

variable {builder : PoolBuilder} {constant : Constant} {index place other : UInt16}

/-- Interning a constant that has an index gives this index and changes
nothing. -/
theorem intern_of_index (hindex : builder.indices[constant]? = some index) :
    intern constant builder = .ok index builder := by
  rw [intern, hindex]

/-- A new constant takes the next index if the pool has room for its slots. -/
theorem intern_of_new (hnew : builder.indices[constant]? = none) :
    intern constant builder =
      if builder.next + constant.slots ≤ maxWord then
        .ok (UInt16.ofNat builder.next) (builder.extend constant)
      else
        .error .poolOverflow builder := by
  rw [intern, hnew]
  rfl

/-- Interning a constant is stable if it can be written. -/
theorem stable_intern (hencodable : constant.Encodable) : (intern constant).Stable where
  keeps := by
    intro builder hexact
    cases hindex : builder.indices[constant]? with
    | some index =>
      rw [builderAfter_of_ok (intern_of_index hindex)]
      exact ⟨hexact, .refl builder⟩
    | none =>
      rw [builderAfter, intern_of_new hindex]
      by_cases hroom : builder.next + constant.slots ≤ maxWord
      · rw [if_pos hroom]
        exact ⟨hexact.extend hencodable hroom hindex, later_extend hindex⟩
      · rw [if_neg hroom]
        exact ⟨hexact, .refl builder⟩
  repeats := by
    intro builder value grown later hexact hrun hlater
    refine intern_of_index (hlater.indices constant value ?_)
    cases hindex : builder.indices[constant]? with
    | some index =>
      rw [intern_of_index hindex] at hrun
      cases hrun
      exact hindex
    | none =>
      rw [intern_of_new hindex] at hrun
      split at hrun
      · cases hrun
        rw [indices_extend, if_pos rfl]
      · cases hrun

/-- Interning a text is stable, also where the text is too long. -/
theorem stable_javaText (text : JavaText) : (javaText text).Stable := by
  unfold javaText
  by_cases hfits : text.bytes.length ≤ maxWord
  · rw [if_pos hfits]
    exact @stable_intern (.utf8 text) hfits
  · rw [if_neg hfits]
    exact .throw _

theorem stable_utf8 (text : String) : (utf8 text).Stable :=
  stable_javaText _

theorem stable_classRef (name : String) : (classRef name).Stable :=
  (stable_utf8 name).bind fun text => @stable_intern (.classRef text) trivial

theorem stable_javaString (text : JavaText) : (javaString text).Stable :=
  (stable_javaText text).bind fun text => @stable_intern (.string text) trivial

theorem stable_nameAndType (name descriptor : String) : (nameAndType name descriptor).Stable :=
  (stable_utf8 name).bind fun name => (stable_utf8 descriptor).bind fun descriptor =>
    @stable_intern (.nameAndType name descriptor) trivial

/-- Interning a reference to a member is stable with all of its parts. -/
theorem stable_methodRef (member : MemberRef) : (methodRef member).Stable := by
  refine (stable_classRef member.owner).bind fun owner => ?_
  refine (stable_nameAndType member.name member.descriptor).bind fun nameAndType => ?_
  cases member.ofInterface with
  | true => exact @stable_intern (.interfaceMethodRef owner nameAndType) trivial
  | false => exact @stable_intern (.methodRef owner nameAndType) trivial

/-! ## What a builder knows -/

/-- Interning a constant gives an index and changes nothing. -/
def Knows (builder : PoolBuilder) (constant : Constant) (index : UInt16) : Prop :=
  intern constant builder = .ok index builder

variable {first second : Constant}

/-- A builder knows the constants that it has indices for. -/
theorem knows_iff : builder.Knows constant index ↔ builder.indices[constant]? = some index := by
  constructor
  · intro hknows
    cases hindex : builder.indices[constant]? with
    | some found =>
      rw [Knows, intern_of_index hindex] at hknows
      cases hknows
      rfl
    | none =>
      rw [Knows, intern_of_new hindex] at hknows
      split at hknows
      · -- A builder with one more entry is not the same.
        injection hknows with _ hsame
        have hnext : builder.next + constant.slots = builder.next := congrArg PoolBuilder.next hsame
        have hslots := constant.slots_pos
        omega
      · cases hknows
  · exact intern_of_index

/-- What an exact builder knows can be written. -/
theorem Exact.encodable_of_knows (hexact : builder.Exact) (hknows : builder.Knows constant index) :
    constant.Encodable :=
  hexact.encodable constant ((hexact.mem_iff constant).2 ⟨index, knows_iff.1 hknows⟩)

/-- The count is that of the slots, with the unusable first one. -/
theorem Exact.count_eq (hexact : builder.Exact) :
    builder.count = 1 + (builder.entries.toList.map Constant.slots).sum := by
  rw [count, hexact.next_eq, slots, List.length_cons, List.length_flatMap, Nat.add_comm]
  simp only [Constant.length_slotList]

/-- Known constants are inside the pool with all of their slots. -/
theorem Exact.inside (hexact : builder.Exact) (hknows : builder.Knows constant index) :
    1 ≤ index.toNat ∧ index.toNat + constant.slots ≤ builder.count := by
  have hindex := knows_iff.1 hknows
  have hnonzero := index_ne_zero (hexact.encodable_of_knows hknows)
    (hexact.indexed constant index hindex)
  have hlength := (hexact.placed constant index hindex).length_le
  rw [Constant.length_slotList, List.length_drop, ← hexact.next_eq] at hlength
  have hslots := constant.slots_pos
  have hpositive : index.toNat ≠ 0 := fun hzero => hnonzero (UInt16.toNat.inj hzero)
  rw [count]
  omega

/-- The second slot of a wide constant is unusable, so no other constant has an
index there. -/
theorem Exact.apart_of_lt (hexact : builder.Exact) (hfirst : builder.Knows first place)
    (hsecond : builder.Knows second other) (hlt : place.toNat < other.toNat) :
    place.toNat + first.slots ≤ other.toNat := by
  have hslot := hexact.indexed second other (knows_iff.1 hsecond)
  obtain ⟨more, hmore⟩ := hexact.placed first place (knows_iff.1 hfirst)
  by_contra hinside
  have hslots : other.toNat = place.toNat + (other.toNat - place.toNat) := by omega
  have hbehind : other.toNat - place.toNat < first.slotList.length := by
    rw [Constant.length_slotList]
    omega
  rw [hslots, ← List.getElem?_drop, ← hmore, List.getElem?_append_left hbehind] at hslot
  have hzero := (Constant.eq_of_getElem?_slotList hslot
    (hexact.encodable_of_knows hsecond).ne_unusable).2
  omega

/-- Different constants share no slot. -/
theorem Exact.apart (hexact : builder.Exact) (hfirst : builder.Knows first place)
    (hsecond : builder.Knows second other) (hdifferent : first ≠ second) :
    place.toNat + first.slots ≤ other.toNat ∨ other.toNat + second.slots ≤ place.toNat := by
  rcases Nat.lt_trichotomy place.toNat other.toNat with hlt | heq | hgt
  · exact .inl (hexact.apart_of_lt hfirst hsecond hlt)
  · have hslot := hexact.indexed first place (knows_iff.1 hfirst)
    rw [heq, hexact.indexed second other (knows_iff.1 hsecond)] at hslot
    exact absurd (Option.some.inj hslot).symm hdifferent
  · exact .inr (hexact.apart_of_lt hsecond hfirst hgt)

end PoolBuilder

end ClassStub
