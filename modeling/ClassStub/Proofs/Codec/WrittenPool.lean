import ClassStub.Proofs.Codec.Interning

/-!
# Reading written pools

Every entry that can be written reads back (`Constant.reads_decode`), and so does
a whole pool: what a consistent builder writes decodes to a pool of exactly the
builder's slots (`PoolBuilder.reads_pool`).
-/

namespace ClassStub

open Decoder

/-- Two operands of 16 bits, as most references have them. -/
theorem reads_operands {α : Type} (make : UInt16 → UInt16 → α) (first second : UInt16) :
    Decoder.Reads (do return make (← Reader.u16) (← Reader.u16))
      (Bytes.u16 first ++ Bytes.u16 second) (make first second) :=
  (reads_u16 first).bind ((reads_u16 second).map (make first))

/-- A written entry reads back, whatever its index. -/
theorem Constant.reads_decode {constant : Constant} (hencodable : constant.Encodable)
    (index : Nat) : (Constant.decode index).Reads constant.bytes constant := by
  cases constant with
  | unusable => exact absurd rfl hencodable.ne_unusable
  | utf8 text =>
    have hlength : text.bytes.length < Bytes.weight 2 := Nat.lt_succ_of_le hencodable
    simp only [Constant.bytes, List.append_assoc]
    exact (reads_u8 1).bind ((reads_text text hlength).map utf8)
  | integer value => exact (reads_u8 3).bind ((reads_i32 value).map integer)
  | float bits => exact (reads_u8 4).bind ((reads_u32 bits).map float)
  | long value => exact (reads_u8 5).bind ((reads_i64 value).map long)
  | double bits => exact (reads_u8 6).bind ((reads_u64 bits).map double)
  | classRef name => exact (reads_u8 7).bind ((reads_u16 name).map classRef)
  | string text => exact (reads_u8 8).bind ((reads_u16 text).map string)
  | fieldRef owner member =>
    simp only [Constant.bytes, List.append_assoc]
    exact (reads_u8 9).bind (reads_operands fieldRef owner member)
  | methodRef owner member =>
    simp only [Constant.bytes, List.append_assoc]
    exact (reads_u8 10).bind (reads_operands methodRef owner member)
  | interfaceMethodRef owner member =>
    simp only [Constant.bytes, List.append_assoc]
    exact (reads_u8 11).bind (reads_operands interfaceMethodRef owner member)
  | nameAndType name descriptor =>
    simp only [Constant.bytes, List.append_assoc]
    exact (reads_u8 12).bind (reads_operands nameAndType name descriptor)
  | methodHandle kind reference =>
    simp only [Constant.bytes, List.append_assoc]
    exact (reads_u8 15).bind ((reads_u8 kind).bind ((reads_u16 reference).map (methodHandle kind)))
  | methodType descriptor => exact (reads_u8 16).bind ((reads_u16 descriptor).map methodType)
  | dynamic bootstrap member =>
    simp only [Constant.bytes, List.append_assoc]
    exact (reads_u8 17).bind (reads_operands dynamic bootstrap member)
  | invokeDynamic bootstrap member =>
    simp only [Constant.bytes, List.append_assoc]
    exact (reads_u8 18).bind (reads_operands invokeDynamic bootstrap member)
  | moduleRef name => exact (reads_u8 19).bind ((reads_u16 name).map moduleRef)
  | packageRef name => exact (reads_u8 20).bind ((reads_u16 name).map packageRef)

/-- Written entries fill the slots that they take, from any index on. -/
theorem Pool.reads_slotsFrom (declared : UInt16) (entries : List Constant)
    (hencodable : ∀ constant ∈ entries, constant.Encodable) (index : Nat) :
    (Pool.slotsFrom declared index (entries.flatMap Constant.slotList).length).Reads
      (entries.flatMap Constant.bytes) (entries.flatMap Constant.slotList) := by
  induction entries generalizing index with
  | nil => exact Reads.pure []
  | cons constant entries ih =>
    have hfirst := Constant.reads_decode (hencodable constant (List.mem_cons_self ..)) index
    have hrest := ih fun other hother => hencodable other (List.mem_cons_of_mem _ hother)
    simp only [List.flatMap_cons]
    cases hwide : constant.isWide with
    | true =>
      -- A 64-bit number fills two slots and is followed by the entry at `index + 2`.
      have hslots : constant.slotList = [constant, .unusable] := by
        simp [Constant.slotList, hwide]
      rw [hslots, List.cons_append, List.cons_append, List.nil_append, List.length_cons,
        List.length_cons, Pool.slotsFrom]
      apply hfirst.bind
      simp only [hwide, ↓reduceIte]
      exact (hrest (index + 2)).map (constant :: .unusable :: ·)
    | false =>
      have hslots : constant.slotList = [constant] := by simp [Constant.slotList, hwide]
      rw [hslots, List.cons_append, List.nil_append, List.length_cons, Pool.slotsFrom]
      apply hfirst.bind
      simp only [hwide, Bool.false_eq_true, ↓reduceIte]
      exact (hrest (index + 1)).map (constant :: ·)

namespace PoolBuilder

/-- What a consistent builder writes is read as the pool that it stands for. -/
theorem reads_pool {builder : PoolBuilder} (hvalid : builder.Valid) :
    Pool.decode.Reads builder.bytes builder.pool := by
  have hcount : (UInt16.ofNat builder.next).toNat = builder.next := by
    rw [UInt16.toNat_ofNat']
    exact Nat.mod_eq_of_lt (Nat.lt_succ_of_le hvalid.next_le)
  have hnonzero : UInt16.ofNat builder.next ≠ 0 := by
    intro hzero
    have hlength := hvalid.next_eq
    rw [hzero] at hcount
    simp only [slots, List.length_cons] at hlength
    have hsize : (0 : UInt16).toNat = 0 := rfl
    omega
  have hleft : (UInt16.ofNat builder.next).toNat - 1 =
      (builder.entries.toList.flatMap Constant.slotList).length := by
    rw [hcount, hvalid.next_eq, slots, List.length_cons, Nat.add_sub_cancel]
  apply (reads_u16 _).bind
  simp only [hnonzero, ↓reduceIte, hleft]
  exact (Pool.reads_slotsFrom _ _ hvalid.encodable 1).map fun slots =>
    Pool.mk (Constant.unusable :: slots).toArray

end PoolBuilder

end ClassStub
