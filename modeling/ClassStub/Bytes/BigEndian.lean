/-!
# Big-endian words

Class data is a sequence of unsigned words whose most significant byte comes
first.  A word is a number written in base 256: the byte in front of `width`
others counts for `weight width`.  Writing (`bigEndian`) and reading
(`ofBigEndian`) are inverse to each other for numbers that fit
(`ofBigEndian_bigEndian`, `bigEndian_ofBigEndian`).
-/

namespace ClassStub.Bytes

/-- What a byte counts for in front of the given number of bytes; also how many
numbers these can stand for. -/
def weight : Nat → Nat
  | 0 => 1
  | width + 1 => weight width * 256

/-- The `width` lowest base-256 digits of a number, most significant first. -/
def bigEndian : (width : Nat) → (value : Nat) → List UInt8
  | 0, _ => []
  | width + 1, value => UInt8.ofNat (value / weight width) :: bigEndian width value

/-- The number whose base-256 digits are the given bytes, most significant
first. -/
def ofBigEndian (bytes : List UInt8) : Nat :=
  bytes.foldl (fun value byte => value * 256 + byte.toNat) 0

/-- The single byte of an 8-bit word. -/
def u8 (value : UInt8) : List UInt8 := [value]

def u16 (value : UInt16) : List UInt8 := bigEndian 2 value.toNat

def u32 (value : UInt32) : List UInt8 := bigEndian 4 value.toNat

def u64 (value : UInt64) : List UInt8 := bigEndian 8 value.toNat

/-- The four bytes of a signed 32-bit integer, in two's complement. -/
def i32 (value : Int32) : List UInt8 := u32 value.toUInt32

/-- The eight bytes of a signed 64-bit integer, in two's complement. -/
def i64 (value : Int64) : List UInt8 := u64 value.toUInt64

theorem weight_pos (width : Nat) : 0 < weight width := by
  induction width with
  | zero => decide
  | succ width ih => exact Nat.mul_pos ih (by decide)

/-- The weight of two parts is the product of both. -/
theorem weight_add (first second : Nat) :
    weight (first + second) = weight first * weight second := by
  induction second with
  | zero => simp [weight]
  | succ second ih => rw [← Nat.add_assoc, weight, ih, weight, Nat.mul_assoc]

@[simp] theorem length_bigEndian (width value : Nat) :
    (bigEndian width value).length = width := by
  induction width with
  | zero => rfl
  | succ width ih => simp [bigEndian, ih]

@[simp] theorem length_u16 (value : UInt16) : (u16 value).length = 2 :=
  length_bigEndian 2 value.toNat

@[simp] theorem length_u32 (value : UInt32) : (u32 value).length = 4 :=
  length_bigEndian 4 value.toNat

@[simp] theorem length_u64 (value : UInt64) : (u64 value).length = 8 :=
  length_bigEndian 8 value.toNat

/-- Reading digits behind an already read number shifts that number up. -/
theorem foldl_digits (bytes : List UInt8) (start : Nat) :
    bytes.foldl (fun value byte => value * 256 + byte.toNat) start =
      start * weight bytes.length + ofBigEndian bytes := by
  induction bytes generalizing start with
  | nil => simp [ofBigEndian, weight]
  | cons byte bytes ih =>
    simp only [ofBigEndian, List.foldl_cons, List.length_cons]
    rw [ih, ih (0 * 256 + byte.toNat), weight]
    simp only [Nat.add_mul, Nat.zero_mul, Nat.zero_add, Nat.mul_assoc, Nat.mul_comm 256]
    omega

/-- The first byte counts for the weight of the others. -/
theorem ofBigEndian_cons (byte : UInt8) (bytes : List UInt8) :
    ofBigEndian (byte :: bytes) = byte.toNat * weight bytes.length + ofBigEndian bytes := by
  simpa [ofBigEndian] using foldl_digits bytes byte.toNat

/-- Reading a written number gives it back up to the digits that did not fit. -/
theorem ofBigEndian_bigEndian (width value : Nat) :
    ofBigEndian (bigEndian width value) = value % weight width := by
  induction width with
  | zero => simp [bigEndian, ofBigEndian, weight, Nat.mod_one]
  | succ width ih =>
    rw [bigEndian, ofBigEndian_cons, ih, length_bigEndian, UInt8.toNat_ofNat',
      weight, Nat.mod_mul, Nat.mul_comm (weight width), Nat.add_comm]

/-- Bytes stand for a number that is less than their weight. -/
theorem ofBigEndian_lt (bytes : List UInt8) : ofBigEndian bytes < weight bytes.length := by
  induction bytes with
  | nil => simp [ofBigEndian, weight]
  | cons byte bytes ih =>
    rw [ofBigEndian_cons, List.length_cons, weight]
    have hbyte : byte.toNat + 1 ≤ 256 := byte.toNat_lt
    have hscaled := Nat.mul_le_mul_right (weight bytes.length) hbyte
    rw [Nat.add_mul, Nat.one_mul, Nat.mul_comm 256] at hscaled
    omega

/-- Only the digits that fit decide what is written. -/
theorem bigEndian_add_mul (width low high : Nat) :
    bigEndian width (high * weight width + low) = bigEndian width low := by
  suffices hdigits : ∀ (shown extra : Nat),
      bigEndian shown (high * weight (shown + extra) + low) = bigEndian shown low by
    simpa using hdigits width 0
  intro shown
  induction shown with
  | zero => intro extra; rfl
  | succ shown ih =>
    intro extra
    have hrest := ih (extra + 1)
    rw [show shown + (extra + 1) = shown + 1 + extra by omega] at hrest
    simp only [bigEndian, hrest, List.cons.injEq, and_true]
    apply UInt8.toNat.inj
    rw [UInt8.toNat_ofNat', UInt8.toNat_ofNat']
    have hsplit : high * weight (shown + 1 + extra) + low =
        low + weight shown * (high * weight extra * 256) := by
      rw [show shown + 1 + extra = shown + extra + 1 by omega, weight, weight_add,
        Nat.add_comm]
      simp only [Nat.mul_assoc, Nat.mul_left_comm]
    rw [hsplit, Nat.add_mul_div_left _ _ (weight_pos _)]
    simp [Nat.add_mod]

/-- The upper digits of a number come before its lower ones. -/
theorem bigEndian_add (upper lower value : Nat) :
    bigEndian (upper + lower) value =
      bigEndian upper (value / weight lower) ++ bigEndian lower value := by
  induction upper with
  | zero => simp [bigEndian]
  | succ upper ih =>
    rw [show upper + 1 + lower = upper + lower + 1 by omega, bigEndian, ih, bigEndian,
      List.cons_append, Nat.div_div_eq_div_mul, Nat.add_comm upper, weight_add]

/-- Writing a read number gives its bytes back. -/
theorem bigEndian_ofBigEndian (bytes : List UInt8) :
    bigEndian bytes.length (ofBigEndian bytes) = bytes := by
  induction bytes with
  | nil => rfl
  | cons byte bytes ih =>
    have hlow := ofBigEndian_lt bytes
    rw [List.length_cons, bigEndian, ofBigEndian_cons, bigEndian_add_mul, ih]
    congr 1
    apply UInt8.toNat.inj
    rw [UInt8.toNat_ofNat', Nat.mul_comm, Nat.mul_add_div (weight_pos _),
      Nat.div_eq_of_lt hlow, Nat.add_zero]
    exact Nat.mod_eq_of_lt byte.toNat_lt

end ClassStub.Bytes
