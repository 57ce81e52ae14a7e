import Mathlib
import ClassStub.Bytes.Reader

/-!
# Failed reads

A reader is used in many steps, some of which fail.  Wherever it got to, what is
behind it and what is ahead of it make up the buffer (`ReadStep.inside_runFrom`).
A step asks for one part after another.  It fails at the first part that is not
there, with what it asked for before consumed, or, having all of them, at a text
that is malformed (`ReadStep.perform_eq_error_iff`).  So a step of one part
consumes nothing when it fails, and the end of the bytes is always reported where
the reader stopped (`ReadStep.accounted_run`).

The 64-bit words and the texts have two parts, and a step that fails at the second
one has consumed the first (`ReadStep.not_unchanged_of_failed`).
-/

namespace ClassStub

namespace Cursor

/-- A cursor so many bytes further on. -/
def advance (cursor : Cursor) (count : Nat) : Cursor where
  position := cursor.position + count
  rest := cursor.rest.drop count

/-- A cursor in a buffer has ahead of it what its position leaves of the
buffer. -/
structure Inside (cursor : Cursor) (buffer : List UInt8) : Prop where
  position_le : cursor.position ≤ buffer.length
  rest_eq : cursor.rest = buffer.drop cursor.position

/-- The cursor in front of some bytes is inside of them. -/
theorem inside_ofBytes (buffer : List UInt8) : (ofBytes buffer).Inside buffer where
  position_le := Nat.zero_le _
  rest_eq := rfl

variable {cursor : Cursor} {buffer : List UInt8} {count more : Nat}

@[simp] theorem advance_zero : cursor.advance 0 = cursor := rfl

@[simp] theorem position_advance : (cursor.advance count).position = cursor.position + count := rfl

@[simp] theorem remaining_advance : (cursor.advance count).remaining = cursor.remaining - count :=
  List.length_drop

/-- Going forward twice is going forward by both counts. -/
theorem advance_advance : (cursor.advance count).advance more = cursor.advance (count + more) := by
  simp only [advance, List.drop_drop, Nat.add_assoc]

/-- What a cursor has passed and what is left are the whole buffer. -/
theorem Inside.remaining_eq (hinside : cursor.Inside buffer) :
    cursor.position + cursor.remaining = buffer.length := by
  rw [remaining, hinside.rest_eq, List.length_drop]
  have := hinside.position_le
  omega

/-- A cursor that goes no further than the end stays inside. -/
theorem Inside.advance (hinside : cursor.Inside buffer) (hcount : count ≤ cursor.remaining) :
    (cursor.advance count).Inside buffer where
  position_le := by
    have := hinside.remaining_eq
    rw [position_advance]
    omega
  rest_eq := by rw [Cursor.advance, hinside.rest_eq, List.drop_drop]

end Cursor

namespace Reader

/-! ## Parts that are there or not -/

variable {α : Type}

/-- Bytes are taken if there are enough of them, and else nothing is. -/
theorem take_eq (count : Nat) (cursor : Cursor) :
    take count cursor =
      if cursor.remaining < count then .error (.unexpectedEnd cursor.position) cursor
      else .ok (cursor.rest.take count) (cursor.advance count) := by
  have hshort : (cursor.rest.take count).length < count ↔ cursor.remaining < count := by
    rw [List.length_take, Cursor.remaining]
    omega
  simp only [take, hshort]
  rfl

/-- What follows a part takes place behind it, if the part is there. -/
theorem take_bind (count : Nat) (next : List UInt8 → Reader α) (cursor : Cursor) :
    (take count >>= next) cursor =
      if cursor.remaining < count then .error (.unexpectedEnd cursor.position) cursor
      else next (cursor.rest.take count) (cursor.advance count) := by
  simp only [Bind.bind, EStateM.bind, take_eq]
  by_cases hshort : cursor.remaining < count
  · simp only [hshort, ↓reduceIte]
  · simp only [hshort, ↓reduceIte]

variable {cursor after : Cursor} {cause : ReadError}

theorem run_get_bind (next : Cursor → Reader α) (cursor : Cursor) :
    (get >>= next) cursor = next cursor cursor :=
  rfl

/-- A word that is read in one piece is there or not. -/
theorem word_eq_error_iff {count : Nat} (f : List UInt8 → α) :
    (do return f (← take count) : Reader α) cursor = .error cause after ↔
      cursor.remaining < count ∧ cause = .unexpectedEnd cursor.position ∧ after = cursor := by
  rw [take_bind]
  by_cases hshort : cursor.remaining < count
  · simp [hshort, eq_comm]
  · simp [hshort, Pure.pure, EStateM.pure]

/-- Taking bytes fails where too few are left, and leaves the cursor in place. -/
theorem take_eq_error_iff {count : Nat} :
    take count cursor = .error cause after ↔
      cursor.remaining < count ∧ cause = .unexpectedEnd cursor.position ∧ after = cursor := by
  have hword : (do return id (← take count) : Reader _) cursor = .error cause after ↔ _ :=
    word_eq_error_iff id
  simpa only [id_eq, bind_pure] using hword

/-- A word of four bytes is not there where fewer are left. -/
theorem i32_eq_error_iff :
    i32 cursor = .error cause after ↔
      cursor.remaining < 4 ∧ cause = .unexpectedEnd cursor.position ∧ after = cursor := by
  simp only [i32, u32, bind_assoc, pure_bind]
  exact word_eq_error_iff _

/-- A 64-bit word lacks its upper half, or only its lower one. -/
theorem i64_eq_error_iff :
    i64 cursor = .error cause after ↔
      (cursor.remaining < 4 ∧ cause = .unexpectedEnd cursor.position ∧ after = cursor) ∨
      (4 ≤ cursor.remaining ∧ cursor.remaining < 4 + 4 ∧
        cause = .unexpectedEnd (cursor.position + 4) ∧ after = cursor.advance 4) := by
  simp only [i64, u64, u32, bind_assoc, pure_bind]
  rw [take_bind]
  by_cases hhigh : cursor.remaining < 4
  · simp [hhigh, Nat.not_le.2 hhigh, eq_comm]
  · rw [if_neg hhigh, word_eq_error_iff, Cursor.remaining_advance, Cursor.position_advance]
    have hlow : cursor.remaining - 4 < 4 ↔ 4 ≤ cursor.remaining ∧ cursor.remaining < 4 + 4 := by
      omega
    simp only [hlow, hhigh, false_and, false_or, and_assoc]

/-- The length of the text that starts in front of bytes. -/
def textLength (ahead : List UInt8) : Nat :=
  Bytes.ofBigEndian (ahead.take 2)

/-- A text lacks its length or some of its bytes, or has malformed ones. -/
theorem text_eq_error_iff :
    text cursor = .error cause after ↔
      (cursor.remaining < 2 ∧ cause = .unexpectedEnd cursor.position ∧ after = cursor) ∨
      (2 ≤ cursor.remaining ∧ cursor.remaining < 2 + textLength cursor.rest ∧
        cause = .unexpectedEnd (cursor.position + 2) ∧ after = cursor.advance 2) ∨
      (2 + textLength cursor.rest ≤ cursor.remaining ∧
        ModifiedUtf8.units? ((cursor.advance 2).rest.take (textLength cursor.rest)) = none ∧
        cause = .malformedText (cursor.position + 2) ∧
        after = cursor.advance (2 + textLength cursor.rest)) := by
  simp only [text, u16, bind_assoc, pure_bind]
  rw [take_bind]
  by_cases hlength : cursor.remaining < 2
  · have hshort : ¬2 + textLength cursor.rest ≤ cursor.remaining := by omega
    simp [hlength, Nat.not_le.2 hlength, hshort, eq_comm]
  · have hfits : 2 ≤ cursor.remaining := Nat.not_lt.1 hlength
    have hword : (UInt16.ofNat (Bytes.ofBigEndian (cursor.rest.take 2))).toNat =
        textLength cursor.rest := by
      have hsmall := Bytes.ofBigEndian_lt (cursor.rest.take 2)
      rw [List.length_take_of_le hfits] at hsmall
      exact UInt16.toNat_ofNat_of_lt' hsmall
    rw [if_neg hlength, run_get_bind, hword, take_bind, Cursor.remaining_advance,
      Cursor.position_advance, Cursor.advance_advance]
    by_cases hcut : cursor.remaining - 2 < textLength cursor.rest
    · have hshort : cursor.remaining < 2 + textLength cursor.rest := by omega
      simp [hcut, hlength, hfits, hshort, Nat.not_le.2 hshort, eq_comm]
    · have hwhole : 2 + textLength cursor.rest ≤ cursor.remaining := by omega
      have hnotCut : ¬cursor.remaining < 2 + textLength cursor.rest := Nat.not_lt.2 hwhole
      simp only [hcut, hlength, hnotCut, hwhole, ↓reduceIte, false_and, and_false, false_or,
        true_and]
      by_cases hformed : (ModifiedUtf8.units?
          ((cursor.advance 2).rest.take (textLength cursor.rest))).isSome
      · have hsome := Option.isSome_iff_ne_none.1 hformed
        simp only [JavaText.ofBytes?, hformed, ↓reduceDIte, hsome, false_and, iff_false]
        intro hpure
        cases hpure
      · have hnone := Option.not_isSome_iff_eq_none.1 hformed
        simp only [JavaText.ofBytes?, hnone, true_and]
        constructor
        · intro hthrow
          cases hthrow
          exact ⟨rfl, rfl⟩
        · rintro ⟨rfl, rfl⟩
          rfl

/-! ## Where readers stop -/

/-- The cursor that a reader leaves behind, whether it succeeds or not. -/
def cursorAfter (reader : Reader α) (cursor : Cursor) : Cursor :=
  match reader cursor with
  | .ok _ after | .error _ after => after

/-- A reader that goes forward, and not beyond the end of the bytes. -/
def Advances (reader : Reader α) : Prop :=
  ∀ cursor : Cursor, ∃ count ≤ cursor.remaining, reader.cursorAfter cursor = cursor.advance count

theorem Advances.pure (value : α) : Advances (pure value : Reader α) :=
  fun _ => ⟨0, Nat.zero_le _, rfl⟩

theorem Advances.throw (cause : ReadError) : Advances (throw cause : Reader α) :=
  fun _ => ⟨0, Nat.zero_le _, rfl⟩

/-- Looking at the cursor moves nothing. -/
theorem Advances.get_bind {next : Cursor → Reader α} (hnext : ∀ cursor, (next cursor).Advances) :
    (get >>= next).Advances :=
  fun cursor => hnext cursor cursor

/-- Taking bytes goes forward before the rest does. -/
theorem Advances.take_bind {count : Nat} {next : List UInt8 → Reader α}
    (hnext : ∀ bytes, (next bytes).Advances) : (take count >>= next).Advances := by
  intro cursor
  rw [cursorAfter, Reader.take_bind]
  by_cases hshort : cursor.remaining < count
  · rw [if_pos hshort]
    exact ⟨0, Nat.zero_le _, rfl⟩
  · rw [if_neg hshort]
    obtain ⟨more, hmore, hafter⟩ := hnext (cursor.rest.take count) (cursor.advance count)
    rw [Cursor.remaining_advance] at hmore
    refine ⟨count + more, by omega, ?_⟩
    rw [← Cursor.advance_advance]
    exact hafter

/-- Making something of bytes that are taken goes forward. -/
theorem advances_word (count : Nat) (f : List UInt8 → α) :
    Advances (do return f (← take count)) :=
  .take_bind fun bytes => .pure (f bytes)

theorem advances_take (count : Nat) : (take count).Advances := by
  have hword := advances_word count id
  simpa only [id_eq, bind_pure] using hword

theorem advances_i32 : i32.Advances := by
  simp only [i32, u32, bind_assoc, pure_bind]
  exact advances_word 4 _

theorem advances_i64 : i64.Advances := by
  simp only [i64, u64, u32, bind_assoc, pure_bind]
  exact .take_bind fun high => advances_word 4 _

theorem advances_text : text.Advances := by
  simp only [text, u16, bind_assoc, pure_bind]
  refine .take_bind fun length => .get_bind fun start => .take_bind fun bytes => ?_
  cases JavaText.ofBytes? bytes with
  | none => exact .throw _
  | some text => exact .pure text

end Reader

/-! ## Steps -/

/-- A use of a reader. -/
inductive ReadStep where
  | u8
  | u16
  | u32
  | i32
  | i64
  | bytes (count : Nat)
  | skip (count : Nat)
  | text

namespace ReadStep

open Reader (textLength)

/-- What a step yields. -/
def Value : ReadStep → Type
  | u8 => UInt8
  | u16 => UInt16
  | u32 => UInt32
  | i32 => Int32
  | i64 => Int64
  | bytes _ => List UInt8
  | skip _ => Unit
  | text => JavaText

/-- The reader of a step. -/
def perform : (step : ReadStep) → Reader step.Value
  | u8 => Reader.u8
  | u16 => Reader.u16
  | u32 => Reader.u32
  | i32 => Reader.i32
  | i64 => Reader.i64
  | bytes count => Reader.take count
  | skip count => Reader.skip count
  | text => Reader.text

/-- How many bytes a step asks for, part after part. -/
def parts (ahead : List UInt8) : ReadStep → List Nat
  | u8 => [1]
  | u16 => [2]
  | u32 | i32 => [4]
  | i64 => [4, 4]
  | bytes count | skip count => [count]
  | text => [2, textLength ahead]

/-- How many bytes the parts in front of one have together. -/
def sizeBefore (step : ReadStep) (ahead : List UInt8) (index : Nat) : Nat :=
  ((step.parts ahead).take index).sum

/-- How a step can fail.  Either one of its parts is not there, while those in front
of it are, or it has all the bytes of a text and they are malformed.  What was asked
for before is consumed. -/
inductive Fails (step : ReadStep) (cursor : Cursor) : ReadError → Cursor → Prop
  | short {index missing : Nat} (hpart : (step.parts cursor.rest)[index]? = some missing)
      (hbefore : step.sizeBefore cursor.rest index ≤ cursor.remaining)
      (hmissing : cursor.remaining < step.sizeBefore cursor.rest index + missing) :
      Fails step cursor
        (.unexpectedEnd (cursor.position + step.sizeBefore cursor.rest index))
        (cursor.advance (step.sizeBefore cursor.rest index))
  | malformed (htext : step = text) (hfits : 2 + textLength cursor.rest ≤ cursor.remaining)
      (hbytes : ModifiedUtf8.units?
        ((cursor.advance 2).rest.take (textLength cursor.rest)) = none) :
      Fails step cursor (.malformedText (cursor.position + 2))
        (cursor.advance (2 + textLength cursor.rest))

variable {step : ReadStep} {cursor after : Cursor} {cause : ReadError}

/-- A step of one part fails in one way. -/
theorem fails_iff_of_single {count : Nat} (hparts : step.parts cursor.rest = [count]) :
    step.Fails cursor cause after ↔
      cursor.remaining < count ∧ cause = .unexpectedEnd cursor.position ∧ after = cursor := by
  constructor
  · intro hfails
    cases hfails with
    | @short index missing hpart hbefore hmissing =>
      rw [hparts] at hpart
      rw [sizeBefore, hparts] at hmissing ⊢
      obtain _ | index := index
      · cases hpart
        simpa using hmissing
      · cases hpart
    | malformed htext hfits hbytes =>
      subst htext
      cases hparts
  · rintro ⟨hshort, rfl, rfl⟩
    have hfails : step.Fails after _ _ :=
      .short (show _[0]? = some count by rw [hparts]; rfl) (Nat.zero_le _)
        (by simpa [sizeBefore] using hshort)
    simpa [sizeBefore] using hfails

/-- The failures of the two parts of a step. -/
theorem fails_iff_of_pair {first second : Nat} (hparts : step.parts cursor.rest = [first, second]) :
    step.Fails cursor cause after ↔
      (cursor.remaining < first ∧ cause = .unexpectedEnd cursor.position ∧ after = cursor) ∨
      (first ≤ cursor.remaining ∧ cursor.remaining < first + second ∧
        cause = .unexpectedEnd (cursor.position + first) ∧ after = cursor.advance first) ∨
      (step = text ∧ first + second ≤ cursor.remaining ∧
        ModifiedUtf8.units? ((cursor.advance 2).rest.take (textLength cursor.rest)) = none ∧
        cause = .malformedText (cursor.position + 2) ∧
        after = cursor.advance (2 + textLength cursor.rest)) := by
  constructor
  · intro hfails
    cases hfails with
    | @short index missing hpart hbefore hmissing =>
      rw [hparts] at hpart
      rw [sizeBefore, hparts] at hbefore hmissing ⊢
      -- Of the two parts, the first one is missing or the second.
      obtain _ | _ | index := index
      · cases hpart
        left
        simpa using hmissing
      · cases hpart
        right; left
        simpa using And.intro hbefore hmissing
      · cases hpart
    | malformed htext hfits hbytes =>
      subst htext
      cases hparts
      exact .inr (.inr ⟨rfl, hfits, hbytes, rfl, rfl⟩)
  · intro hcases
    obtain ⟨hshort, rfl, rfl⟩ | ⟨hfits, hshort, rfl, rfl⟩ | ⟨rfl, hfits, hbytes, rfl, rfl⟩ := hcases
    · have hfails : step.Fails after _ _ :=
        .short (show _[0]? = some first by rw [hparts]; rfl) (Nat.zero_le _)
          (by simpa [sizeBefore] using hshort)
      simpa [sizeBefore] using hfails
    · have hbefore : step.sizeBefore cursor.rest 1 = first := by
        rw [sizeBefore, hparts]
        exact Nat.add_zero first
      have hfails : step.Fails cursor _ _ :=
        .short (show _[1]? = some second by rw [hparts]; rfl) (by rwa [hbefore])
          (by rwa [hbefore])
      rwa [hbefore] at hfails
    · cases hparts
      exact .malformed rfl hfits hbytes

/-- **A step fails at the first part that is not there.** -/
theorem perform_eq_error_iff :
    step.perform cursor = .error cause after ↔ step.Fails cursor cause after := by
  cases step with
  | u8 => exact (Reader.word_eq_error_iff _).trans (fails_iff_of_single rfl).symm
  | u16 => exact (Reader.word_eq_error_iff _).trans (fails_iff_of_single rfl).symm
  | u32 => exact (Reader.word_eq_error_iff _).trans (fails_iff_of_single rfl).symm
  | i32 => exact Reader.i32_eq_error_iff.trans (fails_iff_of_single rfl).symm
  | bytes count => exact Reader.take_eq_error_iff.trans (fails_iff_of_single rfl).symm
  | skip count => exact (Reader.word_eq_error_iff _).trans (fails_iff_of_single rfl).symm
  | i64 =>
    have hfails : i64.Fails cursor cause after ↔ _ := fails_iff_of_pair rfl
    simp only [reduceCtorEq, false_and, or_false] at hfails
    exact Reader.i64_eq_error_iff.trans hfails.symm
  | text =>
    have hfails : text.Fails cursor cause after ↔ _ := fails_iff_of_pair rfl
    simp only [true_and] at hfails
    exact Reader.text_eq_error_iff.trans hfails.symm

/-- Every step goes forward. -/
theorem advances_perform (step : ReadStep) : step.perform.Advances := by
  cases step with
  | u8 => exact Reader.advances_word 1 _
  | u16 => exact Reader.advances_word 2 _
  | u32 => exact Reader.advances_word 4 _
  | i32 => exact Reader.advances_i32
  | i64 => exact Reader.advances_i64
  | bytes count => exact Reader.advances_take count
  | skip count => exact Reader.advances_word count _
  | text => exact Reader.advances_text

/-! ## Runs -/

/-- The cursor that steps leave behind, one after another.  A step that fails is
passed over. -/
def runFrom (cursor : Cursor) : List ReadStep → Cursor
  | [] => cursor
  | step :: more => runFrom (step.perform.cursorAfter cursor) more

variable {buffer : List UInt8}

/-- A step leaves the cursor inside the buffer. -/
theorem inside_cursorAfter (hinside : cursor.Inside buffer) (step : ReadStep) :
    (step.perform.cursorAfter cursor).Inside buffer := by
  obtain ⟨count, hcount, hafter⟩ := step.advances_perform cursor
  rw [hafter]
  exact hinside.advance hcount

/-- A run leaves the cursor inside the buffer. -/
theorem inside_runFrom (hinside : cursor.Inside buffer) (steps : List ReadStep) :
    (runFrom cursor steps).Inside buffer := by
  induction steps generalizing cursor with
  | nil => exact hinside
  | cons step more ih => exact ih (inside_cursorAfter hinside step)

/-- A step that asks for all its bytes at once. -/
def IsSingle : ReadStep → Prop
  | i64 | text => False
  | _ => True

/-- A step other than the two in two parts has one part, whatever is ahead. -/
theorem exists_parts_eq (hsingle : step.IsSingle) (ahead : List UInt8) :
    ∃ count, step.parts ahead = [count] := by
  cases step with
  | i64 | text => exact hsingle.elim
  | _ => exact ⟨_, rfl⟩

/-- The end of the bytes is reported where the reader stopped. -/
theorem Fails.position_eq {place : Nat} (hfails : step.Fails cursor (.unexpectedEnd place) after) :
    after.position = place := by
  cases hfails with
  | short hpart hbefore hmissing => rfl

/-- What is promised of a step at a cursor in a buffer.  It fails in the ways that
were said, and inside the buffer.  A step of one part consumes nothing then, and the
end of the bytes is reported where the reader stopped. -/
structure Accounts (buffer : List UInt8) (cursor : Cursor) (step : ReadStep) : Prop where
  inside : cursor.Inside buffer
  fails_iff : ∀ cause after, step.perform cursor = .error cause after ↔
    step.Fails cursor cause after
  stops_inside : ∀ cause after, step.perform cursor = .error cause after → after.Inside buffer
  unchanged : step.IsSingle → ∀ cause after, step.perform cursor = .error cause after →
    after = cursor ∧ cause = .unexpectedEnd cursor.position
  stops_at : ∀ place after, step.perform cursor = .error (.unexpectedEnd place) after →
    after.position = place

/-- **A failed read keeps only whole parts.**  Wherever a reader got to, a step fails
at the first part that is not there or at a malformed text, with what it asked for
before consumed. -/
theorem accounted_run (buffer : List UInt8) (earlier : List ReadStep) (step : ReadStep) :
    step.Accounts buffer (runFrom (.ofBytes buffer) earlier) := by
  have hinside := inside_runFrom (Cursor.inside_ofBytes buffer) earlier
  exact {
    inside := hinside
    fails_iff := fun cause after => perform_eq_error_iff
    stops_inside := by
      intro cause after hrun
      have hafter := inside_cursorAfter hinside step
      rwa [Reader.cursorAfter, hrun] at hafter
    unchanged := by
      intro hsingle cause after hrun
      obtain ⟨count, hparts⟩ := exists_parts_eq hsingle (runFrom (.ofBytes buffer) earlier).rest
      obtain ⟨-, hcause, hafter⟩ := (fails_iff_of_single hparts).1 (perform_eq_error_iff.1 hrun)
      exact ⟨hafter, hcause⟩
    stops_at := fun place after hrun => (perform_eq_error_iff.1 hrun).position_eq }

/-- A text of three bytes that lacks two of them keeps its length consumed. -/
example : text.perform (.ofBytes [0, 3, 65]) =
    .error (.unexpectedEnd 2) { position := 2, rest := [65] } :=
  rfl

/-- A word of 64 bits that lacks its lower half keeps its upper half consumed. -/
theorem not_unchanged_of_failed :
    ¬∀ (buffer : List UInt8) (earlier : List ReadStep) (step : ReadStep) (cause : ReadError)
      (after : Cursor), step.perform (runFrom (.ofBytes buffer) earlier) = .error cause after →
        after.position = (runFrom (.ofBytes buffer) earlier).position ∧
        after.remaining = (runFrom (.ofBytes buffer) earlier).remaining ∧
        ∀ place, cause = .unexpectedEnd place →
          place = (runFrom (.ofBytes buffer) earlier).position := by
  intro hunchanged
  obtain ⟨hposition, -, -⟩ := hunchanged [7, 0, 0, 0, 1, 2] [u8] i64 _ _ rfl
  cases hposition

end ReadStep

end ClassStub
