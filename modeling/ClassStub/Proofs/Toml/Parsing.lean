import Mathlib
import ClassStub.Text.Parser

/-!
# What parsers take

A parser takes a beginning of its input and leaves the rest (`Parser.Takes`), or it
refuses the input (`Parser.Refuses`).  Each way to combine parsers has a lemma for
both.  Items one behind the other are taken until one is refused (`Parser.Repeats`);
since each takes something, there are enough attempts (`Parser.Repeats.many`).
-/

namespace ClassStub.Parser

variable {α β : Type} {parser : Parser α} {input middle rest : List Char} {value : α}

/-- A parser yields a value from an input and leaves a rest of it. -/
def Takes (parser : Parser α) (input : List Char) (value : α) (rest : List Char) : Prop :=
  parser input = some (value, rest)

/-- A parser does not take anything from an input. -/
def Refuses (parser : Parser α) (input : List Char) : Prop :=
  parser input = none

/-! ## Sequences -/

theorem Takes.pure (value : α) (input : List Char) : Takes (pure value) input value input :=
  rfl

/-- The second parser starts where the first one has stopped. -/
theorem bind_apply (parser : Parser α) (next : α → Parser β) (input : List Char) :
    (parser >>= next) input = (parser input).bind fun found => next found.1 found.2 :=
  rfl

theorem map_apply (change : α → β) (parser : Parser α) (input : List Char) :
    (change <$> parser) input = (parser input).map fun found => (change found.1, found.2) := by
  change (parser input).bind _ = _
  cases parser input <;> rfl

/-- Two parsers take one behind the other. -/
theorem Takes.bind {next : α → Parser β} {result : β} (hfirst : Takes parser input value middle)
    (hnext : Takes (next value) middle result rest) :
    Takes (parser >>= next) input result rest := by
  rw [Takes, bind_apply, hfirst]
  exact hnext

/-- Nothing is taken if the first parser refuses. -/
theorem Refuses.bind {next : α → Parser β} (hfirst : Refuses parser input) :
    Refuses (parser >>= next) input := by
  rw [Refuses, bind_apply, hfirst, Option.bind_none]

/-- Nothing is taken if the second parser refuses behind the first one. -/
theorem Takes.bind_refuses {next : α → Parser β} (hfirst : Takes parser input value middle)
    (hnext : Refuses (next value) middle) : Refuses (parser >>= next) input := by
  rw [Refuses, bind_apply, hfirst]
  exact hnext

theorem Takes.map (change : α → β) (htakes : Takes parser input value rest) :
    Takes (change <$> parser) input (change value) rest := by
  rw [Takes, map_apply, htakes, Option.map_some]

theorem Refuses.map (change : α → β) (hrefuses : Refuses parser input) :
    Refuses (change <$> parser) input := by
  rw [Refuses, map_apply, hrefuses, Option.map_none]

theorem Takes.seqRight {next : Parser β} {result : β} (hfirst : Takes parser input value middle)
    (hnext : Takes next middle result rest) : Takes (parser *> next) input result rest :=
  Takes.bind hfirst hnext

theorem Takes.seqLeft {next : Parser β} {result : β} (hfirst : Takes parser input value middle)
    (hnext : Takes next middle result rest) : Takes (parser <* next) input value rest :=
  Takes.bind hfirst (Takes.bind hnext (Takes.pure value rest))

/-- A condition that holds takes nothing and goes on. -/
theorem takes_guard {condition : Prop} [Decidable condition] (hcondition : condition)
    (input : List Char) : Takes (guard condition) input () input := by
  rw [guard, if_pos hcondition]
  exact Takes.pure () input

/-- A condition that does not hold refuses. -/
theorem refuses_guard {condition : Prop} [Decidable condition] (hcondition : ¬condition)
    (input : List Char) : Refuses (guard condition) input := by
  rw [guard, if_neg hcondition]
  rfl

/-! ## Choices -/

theorem orElse_apply (parser other : Parser α) (input : List Char) :
    (parser <|> other) input = (parser input <|> other input) :=
  rfl

/-- The first alternative is taken if it can be. -/
theorem Takes.orElse (htakes : Takes parser input value rest) (other : Parser α) :
    Takes (parser <|> other) input value rest := by
  rw [Takes, orElse_apply, htakes]
  rfl

/-- The second alternative is taken if the first one refuses. -/
theorem Refuses.orElse_takes {other : Parser α} (hrefuses : Refuses parser input)
    (hother : Takes other input value rest) : Takes (parser <|> other) input value rest := by
  rw [Takes, orElse_apply, hrefuses]
  exact hother

/-- Nothing is taken if both alternatives refuse. -/
theorem Refuses.orElse {other : Parser α} (hrefuses : Refuses parser input)
    (hother : Refuses other input) : Refuses (parser <|> other) input := by
  rw [Refuses, orElse_apply, hrefuses]
  exact hother

/-- What may be missing is taken if it is there. -/
theorem Takes.optional (htakes : Takes parser input value rest) :
    Takes (optional parser) input (some value) rest :=
  (htakes.map some).orElse _

/-- What may be missing is passed over if it is not there. -/
theorem Refuses.optional (hrefuses : Refuses parser input) :
    Takes (optional parser) input none input :=
  (hrefuses.map some).orElse_takes (Takes.pure none input)

/-! ## Characters -/

/-- A character is taken if it is accepted. -/
theorem takes_satisfy {accepts : Char → Bool} {char : Char} (hchar : accepts char)
    (rest : List Char) : Takes (satisfy accepts) (char :: rest) char rest :=
  satisfy_cons hchar rest

/-- No other character is taken, and nothing at the end. -/
theorem refuses_satisfy {accepts : Char → Bool}
    (hhead : ∀ char, input.head? = some char → accepts char = false) :
    Refuses (satisfy accepts) input := by
  cases input with
  | nil => rfl
  | cons char rest => simp [Refuses, satisfy, hhead char rfl]

theorem takes_char (expected : Char) (rest : List Char) :
    Takes (char expected) (expected :: rest) () rest :=
  char_cons expected rest

theorem refuses_char {expected : Char} (hhead : input.head? ≠ some expected) :
    Refuses (char expected) input := by
  refine (refuses_satisfy fun found hfound => ?_).bind
  rw [beq_eq_false_iff_ne]
  rintro rfl
  exact hhead hfound

/-- A word is taken if the input starts with it. -/
theorem takes_word (expected rest : List Char) : Takes (word expected) (expected ++ rest) () rest :=
  word_append expected rest

/-- A word is refused if the input does not start with it. -/
theorem refuses_word {expected : List Char} (hstart : ¬expected <+: input) :
    Refuses (word expected) input := by
  induction expected generalizing input with
  | nil => exact absurd List.nil_prefix hstart
  | cons first more ih =>
    by_cases hhead : input.head? = some first
    · obtain ⟨after, rfl⟩ := List.head?_eq_some_iff.1 hhead
      have hmore : ¬more <+: after := fun hprefix =>
        hstart ((List.prefix_cons_inj first).2 hprefix)
      exact (takes_char first after).bind_refuses (ih hmore)
    · exact (refuses_char hhead).bind

/-- Characters are taken as far as they are accepted. -/
theorem takes_takeWhile {accepts : Char → Bool} {taken : List Char}
    (htaken : ∀ char ∈ taken, accepts char)
    (hrest : ∀ char, rest.head? = some char → accepts char = false) :
    Takes (takeWhile accepts) (taken ++ rest) taken rest := by
  rw [Takes, takeWhile, List.takeWhile_append_of_pos htaken, List.dropWhile_append_of_pos htaken]
  cases rest with
  | nil => simp
  | cons char rest =>
    rw [List.takeWhile_cons_of_neg (by simp [hrest char rfl]),
      List.dropWhile_cons_of_neg (by simp [hrest char rfl]), List.append_nil]

/-! ## Repetitions -/

/-- Items are taken one behind the other, each at least one character long, up to a
rest of which none can be taken. -/
inductive Repeats (item : Parser α) : List Char → List α → List Char → Prop
  | stop {rest : List Char} (hrest : Refuses item rest) : Repeats item rest [] rest
  | step {input middle rest : List Char} {first : α} {more : List α}
      (hfirst : Takes item input first middle) (hless : middle.length < input.length)
      (hmore : Repeats item middle more rest) : Repeats item input (first :: more) rest

variable {item : Parser α} {values : List α}

/-- Items that each take something are all taken within the length of the input. -/
theorem Repeats.upTo (hrepeats : Repeats item input values rest) {limit : Nat}
    (hlimit : input.length ≤ limit) : Takes (upTo item limit) input values rest := by
  induction hrepeats generalizing limit with
  | stop hrest =>
    cases limit with
    | zero => exact Takes.pure [] _
    | succ limit => exact hrest.bind.orElse_takes (Takes.pure [] _)
  | @step input middle rest first more hfirst hless hmore ih =>
    cases limit with
    | zero => omega
    | succ limit =>
      have hroom : middle.length ≤ limit := by omega
      have hrest := ih hroom
      exact (hfirst.bind (hrest.bind (Takes.pure (first :: more) _))).orElse _

/-- As many items are taken as there are. -/
theorem Repeats.many (hrepeats : Repeats item input values rest) :
    Takes (many item) input values rest :=
  hrepeats.upTo (Nat.le_refl _)

/-- A first item is taken with all others behind separators. -/
theorem Takes.separated {separator : Parser β} {first : α}
    (hfirst : Takes item input first middle)
    (hmore : Repeats (separator *> item) middle values rest) :
    Takes (separated separator item) input (first :: values) rest :=
  hfirst.bind (hmore.many.bind (Takes.pure (first :: values) rest))

end ClassStub.Parser
