import ClassStub.Proofs.Toml.Parsing
import ClassStub.Toml.Text

/-!
# Quoted texts are read back

Whatever form a text is written in, reading the string gives the text
(`Toml.takes_quoted`).  Basic bodies are read character by character, each being
plain or an escape (`Toml.takes_escaped`).  In long strings quotes are read in runs,
and the last run belongs to the closing quotes, so a run is kept open until what
follows it is known (`LongBody`).  A string must not be followed by another quote.
-/

namespace ClassStub.Toml

open ClassStub.Parser

variable {input middle rest : List Char}

/-- Blanks are taken up to another character. -/
theorem takes_blanks (taken : List Char) (htaken : ∀ char ∈ taken, isBlank char) {next : Char}
    (hnext : isBlank next = false) (rest : List Char) :
    Takes blanks (taken ++ next :: rest) () (next :: rest) := by
  have hrun : Takes (takeWhile isBlank) (taken ++ next :: rest) taken (next :: rest) := by
    refine takes_takeWhile htaken fun char hchar => ?_
    obtain rfl := Option.some.inj hchar
    exact hnext
  exact hrun.bind (Takes.pure () _)

/-! ## Escapes -/

theorem refuses_escape (hhead : input.head? ≠ some '\\') : Refuses escape input :=
  (refuses_char hhead).bind

/-- An escape is taken with its backslash. -/
theorem takes_escape {marker char : Char} (hmarker : Takes (escapedChar marker) middle char rest) :
    Takes escape ('\\' :: marker :: middle) char rest :=
  (takes_char '\\' _).bind ((takes_satisfy rfl middle).bind hmarker)

/-- A hexadecimal digit is read as its number. -/
theorem takes_hexDigit {number : Nat} (hnumber : number < 16) (rest : List Char) :
    Takes (digit 16) (hexDigit number :: rest) number rest := by
  have hvalue : ∀ number < 16, digitValue? 16 (hexDigit number) = some number := by decide
  have hfound : Takes (digitValue? 16 <$> satisfy fun _ => true) (hexDigit number :: rest)
      (some number) rest := by
    rw [← hvalue number hnumber]
    exact (takes_satisfy rfl rest).map _
  exact hfound.bind (Takes.pure number rest)

/-- Two digits give the code of a character below 256. -/
theorem takes_codedChar {code : Nat} (hcode : code < 256) (rest : List Char) :
    Takes (codedChar 4) ('0' :: '0' :: hexDigit (code / 16) :: hexDigit (code % 16) :: rest)
      (Char.ofNat code) rest := by
  have hdigits : Takes (times (digit 16) 4)
      (hexDigit 0 :: hexDigit 0 :: hexDigit (code / 16) :: hexDigit (code % 16) :: rest)
      [0, 0, code / 16, code % 16] rest := by
    refine (takes_hexDigit (by decide) _).bind (Takes.bind ?_ (Takes.pure (0 :: _) rest))
    refine (takes_hexDigit (by decide) _).bind (Takes.bind ?_ (Takes.pure (0 :: _) rest))
    refine (takes_hexDigit (by omega) _).bind (Takes.bind ?_ (Takes.pure (code / 16 :: _) rest))
    exact (takes_hexDigit (by omega) _).bind ((Takes.pure [] rest).bind (Takes.pure _ rest))
  have hnumber : ofDigits 16 [0, 0, code / 16, code % 16] = code := by
    change ((0 * 16 + 0) * 16 + code / 16) * 16 + code % 16 = code
    omega
  have hvalid : code.isValidChar := Or.inl (by omega)
  refine hdigits.bind ?_
  rw [hnumber]
  exact (takes_guard hvalid rest).bind (Takes.pure (Char.ofNat code) rest)

/-- Only control characters of ASCII are not plain. -/
theorem toNat_of_not_isPlain {char : Char} (hchar : isPlain char = false) : char.toNat < 128 := by
  by_contra hlarge
  have hblank : ' ' ≤ char := by
    rw [Char.le_def, UInt32.le_iff_toNat_le]
    exact Nat.le_trans (by decide) (Nat.le_of_not_lt hlarge)
  have hdelete : char ≠ '\x7f' := by
    rintro rfl
    exact hlarge (by decide)
  simp [isPlain, hblank, hdelete] at hchar

/-- A character other than a quote is written as it is if it may stand in a basic
string, or else as a backslash and a mark, which is read as an escape. -/
theorem takes_escaped {char : Char} (hquote : char ≠ '"') :
    (isBasic char ∧ escaped char = [char]) ∨
      ∃ marker more, escaped char = '\\' :: marker :: more ∧
        (marker = '\\' ∨ marker.isAlphanum) ∧
        ∀ rest, Takes escape (escaped char ++ rest) char rest := by
  unfold escaped
  split
  case h_7 _ _ _ _ _ hbackslash =>
    by_cases hplain : isPlain char
    · refine Or.inl ⟨?_, if_pos hplain⟩
      simpa [isBasic, hplain, hquote] using hbackslash
    · refine Or.inr ⟨_, _, if_neg hplain, by decide, fun rest => ?_⟩
      have hcode := toNat_of_not_isPlain (Bool.not_eq_true _ ▸ hplain)
      have hread := takes_codedChar (Nat.lt_trans hcode (by decide)) rest
      rw [Char.ofNat_toNat] at hread
      rw [if_neg hplain]
      exact takes_escape hread
  all_goals exact Or.inr ⟨_, _, rfl, by decide, fun rest => takes_escape (Takes.pure _ rest)⟩

/-! ## Basic strings -/

/-- Every character but a quote is written with a character at least. -/
theorem escaped_ne_nil {char : Char} (hquote : char ≠ '"') : escaped char ≠ [] := by
  obtain ⟨-, hplain⟩ | ⟨marker, more, hescape, -⟩ := takes_escaped hquote
  · simp [hplain]
  · simp [hescape]

/-- Escaping starts with the character itself only where it can stand in a string. -/
theorem head?_escaped {char other : Char} (hquote : char ≠ '"')
    (hother : isBasic other = false ∧ other ≠ '\\') (rest : List Char) :
    (escaped char ++ rest).head? ≠ some other := by
  obtain ⟨hbasic, hplain⟩ | ⟨marker, more, hescape, -⟩ := takes_escaped hquote
  · have hne : char ≠ other := by
      rintro rfl
      rw [hother.1] at hbasic
      cases hbasic
    simpa [hplain] using hne
  · simpa [hescape] using hother.2.symm

/-- Neither a quote nor a backslash stands for itself. -/
theorem refuses_basic (hhead : input.head? = some '"' ∨ input.head? = some '\\') :
    Refuses (satisfy isBasic) input := by
  refine refuses_satisfy fun char hchar => ?_
  rw [hchar, Option.some_inj, Option.some_inj] at hhead
  rcases hhead with rfl | rfl <;> decide

/-- One character of a basic body is read. -/
theorem takes_basicChar {char : Char} (hquote : char ≠ '"') (rest : List Char) :
    Takes (satisfy isBasic <|> escape) (escaped char ++ rest) char rest := by
  obtain ⟨hbasic, hplain⟩ | ⟨marker, more, hescape, -, htakes⟩ := takes_escaped hquote
  · rw [hplain]
    exact (takes_satisfy hbasic rest).orElse escape
  · refine (refuses_basic (Or.inr ?_)).orElse_takes (htakes rest)
    simp [hescape]

/-- The body of a basic string is read character by character. -/
theorem repeats_basicBody (text : List Char) (before : Nat) (rest : List Char) :
    Repeats (satisfy isBasic <|> escape) (basicBody false before text ++ '"' :: rest) text
      ('"' :: rest) := by
  induction text generalizing before with
  | nil =>
    have hescape : Refuses escape ('"' :: rest) := refuses_escape (by simp)
    exact Repeats.stop ((refuses_basic (Or.inl rfl)).orElse hescape)
  | cons char text ih =>
    by_cases hquote : char = '"'
    · subst hquote
      have hitem : Takes (satisfy isBasic <|> escape)
          ('\\' :: '"' :: (basicBody false 0 text ++ '"' :: rest)) '"'
          (basicBody false 0 text ++ '"' :: rest) :=
        (refuses_basic (Or.inr rfl)).orElse_takes (takes_escape (Takes.pure _ _))
      have hbody :
          basicBody false before ('"' :: text) = '\\' :: '"' :: basicBody false 0 text := by
        simp [basicBody]
      rw [hbody]
      refine Repeats.step hitem ?_ (ih 0)
      simp only [List.cons_append, List.length_cons]
      omega
    · have hbody :
          basicBody false before (char :: text) = escaped char ++ basicBody false 0 text := by
        simp [basicBody, hquote]
      have hlength := List.length_pos_iff.2 (escaped_ne_nil hquote)
      rw [hbody, List.append_assoc]
      refine Repeats.step (takes_basicChar hquote _) ?_ (ih 0)
      simp only [List.length_append]
      omega

/-- A basic string is read up to its closing quote. -/
theorem takes_basicString (text rest : List Char) :
    Takes basicString (['"'] ++ basicBody false 0 text ++ ['"'] ++ rest) text rest := by
  rw [List.append_assoc, List.append_assoc]
  exact (takes_char '"' _).bind ((repeats_basicBody text 0 rest).many.bind
    ((takes_char '"' rest).bind (Takes.pure text rest)))

/-! ## Literal strings -/

theorem takes_literalString {text : List Char} (htext : ∀ char ∈ text, isLiteral char)
    (rest : List Char) : Takes literalString (['\''] ++ text ++ ['\''] ++ rest) text rest := by
  have hrun : Takes (takeWhile isLiteral) (text ++ '\'' :: rest) text ('\'' :: rest) := by
    refine takes_takeWhile htext fun char hchar => ?_
    obtain rfl := Option.some.inj hchar
    decide
  rw [List.append_assoc, List.append_assoc]
  exact (takes_char '\'' _).bind (hrun.bind ((takes_char '\'' rest).bind (Takes.pure text rest)))

/-! ## Long strings -/

section Long

variable {quote : Char} {piece : Parser (List Char)} {text : List Char}

/-- Quotes are counted up to another character. -/
theorem takes_quotes (count : Nat) (hrest : rest.head? ≠ some quote) :
    Takes (quotes quote) (List.replicate count quote ++ rest) count rest := by
  have hrun : Takes (takeWhile (· == quote)) (List.replicate count quote ++ rest)
      (List.replicate count quote) rest := by
    refine takes_takeWhile (fun char hchar => ?_) fun char hchar => ?_
    · exact beq_iff_eq.2 (List.eq_of_mem_replicate hchar)
    · refine beq_eq_false_iff_ne.2 fun hsame => hrest ?_
      rw [hchar, hsame]
  have hcount := hrun.map List.length
  rwa [List.length_replicate] at hcount

/-- Only a feed or a return starts a new line. -/
theorem refuses_newline (hfeed : input.head? ≠ some '\n') (hreturn : input.head? ≠ some '\r') :
    Refuses newline input := by
  refine (refuses_char hfeed).orElse (refuses_word fun hprefix => hreturn ?_)
  obtain ⟨after, rfl⟩ := hprefix
  rfl

/-- What stands between the quotes of a long string is a text, of which the end may be
quotes in front of the closing ones. -/
def LongBody (quote : Char) (piece : Parser (List Char)) (input text rest : List Char) : Prop :=
  ∃ pieces middle last,
    Repeats (piece <|> (newline *> pure ['\n']) <|> innerQuotes quote) input pieces middle ∧
      Takes (closingQuotes quote) middle last rest ∧ pieces.flatten ++ last = text

namespace LongBody

/-- One more item in front of a long string. -/
theorem item {taken : List Char}
    (htaken : Takes (piece <|> (newline *> pure ['\n']) <|> innerQuotes quote) input taken middle)
    (hless : middle.length < input.length) (hmore : LongBody quote piece middle text rest) :
    LongBody quote piece input (taken ++ text) rest := by
  obtain ⟨pieces, stop, last, hpieces, hlast, rfl⟩ := hmore
  exact ⟨taken :: pieces, stop, last, Repeats.step htaken hless hpieces, hlast, by simp⟩

/-- Quotes are no pieces and no line breaks. -/
structure Marks (quote : Char) (piece : Parser (List Char)) : Prop where
  refuses (more : List Char) : Refuses piece (quote :: more)
  ne_feed : quote ≠ '\n'
  ne_return : quote ≠ '\r'

variable (hmarks : Marks quote piece)

include hmarks

theorem refuses_marked (more : List Char) :
    Refuses (newline *> pure ['\n']) (quote :: more) :=
  (refuses_newline (by simpa using hmarks.ne_feed) (by simpa using hmarks.ne_return)).bind

/-- The closing quotes, behind up to two that belong to the text. -/
theorem close {count : Nat} (hcount : count ≤ 2) (hrest : rest.head? ≠ some quote) :
    LongBody quote piece (List.replicate count quote ++ ([quote, quote, quote] ++ rest))
      (List.replicate count quote) rest := by
  have hrun : List.replicate count quote ++ ([quote, quote, quote] ++ rest) =
      List.replicate (count + 3) quote ++ rest := by
    rw [List.replicate_add, List.append_assoc]
    rfl
  have hmore : List.replicate (count + 3) quote ++ rest =
      quote :: (List.replicate (count + 2) quote ++ rest) := by
    rw [List.replicate_succ, List.cons_append]
  have hquotes := takes_quotes (count + 3) hrest
  have hinner : Refuses (innerQuotes quote) (List.replicate (count + 3) quote ++ rest) :=
    hquotes.bind_refuses (refuses_guard (by omega) rest).bind
  have hclosing : Takes (closingQuotes quote) (List.replicate (count + 3) quote ++ rest)
      (List.replicate count quote) rest :=
    hquotes.bind ((takes_guard (by omega) rest).bind (Takes.pure _ rest))
  rw [hrun]
  refine ⟨[], _, _, Repeats.stop ?_, hclosing, rfl⟩
  rw [hmore] at hinner ⊢
  exact (hmarks.refuses _).orElse ((refuses_marked hmarks _).orElse hinner)

/-- Up to two quotes inside the text. -/
theorem quotes {count : Nat} (hcount : count ≤ 2) (hinput : input.head? ≠ some quote)
    (hmore : LongBody quote piece input text rest) :
    LongBody quote piece (List.replicate count quote ++ input)
      (List.replicate count quote ++ text) rest := by
  cases count with
  | zero => exact hmore
  | succ count =>
    have hinner : Takes (innerQuotes quote) (List.replicate (count + 1) quote ++ input)
        (List.replicate (count + 1) quote) input :=
      (takes_quotes (count + 1) hinput).bind
        ((takes_guard (by omega) input).bind (Takes.pure _ input))
    have hhead : List.replicate (count + 1) quote ++ input =
        quote :: (List.replicate count quote ++ input) := by
      rw [List.replicate_succ, List.cons_append]
    refine item ?_ ?_ hmore
    · rw [hhead] at hinner ⊢
      exact (hmarks.refuses _).orElse_takes ((refuses_marked hmarks _).orElse_takes hinner)
    · rw [List.length_append, List.length_replicate]
      omega

end LongBody

/-- A long string starts with three quotes. -/
theorem refuses_longString (hstart : ¬[quote, quote, quote] <+: input) :
    Refuses (longString quote piece) input :=
  (refuses_word hstart).bind

/-- Between opening and closing quotes a text is read, behind a line break if there
is one. -/
theorem takes_longString {lines : Bool} (hbody : LongBody quote piece input text rest)
    (hlines : lines = false → Refuses newline input) :
    Takes (longString quote piece)
      ([quote, quote, quote] ++ (if lines then ['\n'] else []) ++ input) text rest := by
  obtain ⟨pieces, stop, last, hpieces, hlast, rfl⟩ := hbody
  have hbreak : ∃ found, Takes (optional newline) ((if lines then ['\n'] else []) ++ input)
      found input := by
    cases lines with
    | false => exact ⟨none, (hlines rfl).optional⟩
    | true => exact ⟨some (), ((takes_char '\n' input).orElse _).optional⟩
  obtain ⟨found, hbreak⟩ := hbreak
  rw [List.append_assoc]
  exact (takes_word [quote, quote, quote] _).bind (hbreak.bind (hpieces.many.bind
    (hlast.bind (Takes.pure (pieces.flatten ++ last) rest))))

end Long

/-- The pieces of long basic strings. -/
def basicPiece : Parser (List Char) :=
  List.singleton <$> satisfy isBasic <|> (continuation *> pure []) <|> List.singleton <$> escape

/-- The pieces of long literal strings. -/
def literalPiece : Parser (List Char) :=
  List.singleton <$> satisfy isLiteral

/-- A quote or a feed is no piece of a long basic string. -/
theorem refuses_basicPiece {char : Char} (hchar : char = '"' ∨ char = '\n')
    (more : List Char) : Refuses basicPiece (char :: more) := by
  have hplain : Refuses (satisfy isBasic) (char :: more) := by
    refine refuses_satisfy fun found hfound => ?_
    obtain rfl := Option.some.inj hfound
    rcases hchar with rfl | rfl <;> decide
  have hslash : (char :: more).head? ≠ some '\\' := by
    rcases hchar with rfl | rfl <;> simp
  have hcontinuation : Refuses (continuation *> pure ([] : List Char)) (char :: more) :=
    (refuses_char hslash).bind.bind
  exact (hplain.map _).orElse (hcontinuation.orElse ((refuses_escape hslash).map _))

theorem refuses_literalPiece {char : Char} (hchar : char = '\'' ∨ char = '\n')
    (more : List Char) : Refuses literalPiece (char :: more) := by
  refine (refuses_satisfy fun found hfound => ?_).map _
  obtain rfl := Option.some.inj hfound
  rcases hchar with rfl | rfl <;> decide

theorem marks_basicPiece : LongBody.Marks '"' basicPiece where
  refuses := refuses_basicPiece (Or.inl rfl)
  ne_feed := by decide
  ne_return := by decide

theorem marks_literalPiece : LongBody.Marks '\'' literalPiece where
  refuses := refuses_literalPiece (Or.inl rfl)
  ne_feed := by decide
  ne_return := by decide

/-- A backslash in front of the mark of an escape does not end its line. -/
theorem refuses_continuation {marker : Char} (hmarker : marker = '\\' ∨ marker.isAlphanum)
    (rest : List Char) : Refuses continuation ('\\' :: marker :: rest) := by
  have hne : ∀ other, ¬(other = '\\' ∨ other.isAlphanum) → marker ≠ other := by
    rintro other hother rfl
    exact hother hmarker
  have hfeed : marker ≠ '\n' := hne '\n' (by decide)
  have hreturn : marker ≠ '\r' := hne '\r' (by decide)
  have hblank : isBlank marker = false := by
    simp [isBlank, hne ' ' (by decide), hne '\t' (by decide)]
  have hblanks : Takes blanks (marker :: rest) () (marker :: rest) :=
    takes_blanks [] (by simp) hblank rest
  have hnewline : Refuses newline (marker :: rest) :=
    refuses_newline (by simpa using hfeed) (by simpa using hreturn)
  exact (takes_char '\\' _).bind_refuses (hblanks.bind_refuses hnewline.bind)

/-- One character of a long basic body is read. -/
theorem takes_basicPiece {char : Char} (hquote : char ≠ '"') (rest : List Char) :
    Takes basicPiece (escaped char ++ rest) [char] rest := by
  obtain ⟨hbasic, hplain⟩ | ⟨marker, more, hescape, hmarker, htakes⟩ := takes_escaped hquote
  · rw [hplain]
    exact ((takes_satisfy hbasic rest).map List.singleton).orElse _
  · have hread := (htakes rest).map List.singleton
    rw [hescape, List.cons_append, List.cons_append] at hread ⊢
    exact ((refuses_basic (Or.inr rfl)).map _).orElse_takes
      ((refuses_continuation hmarker _).bind.orElse_takes hread)

/-- An escaped quote is a piece of a long basic string. -/
theorem takes_quotePiece (rest : List Char) :
    Takes basicPiece ('\\' :: '"' :: rest) ['"'] rest := by
  have hnewline : Refuses newline ('"' :: rest) := refuses_newline (by simp) (by simp)
  have hcontinuation : Refuses continuation ('\\' :: '"' :: rest) :=
    (takes_char '\\' _).bind_refuses (Takes.bind_refuses (Takes.pure () _) hnewline.bind)
  exact ((refuses_basic (Or.inr rfl)).map _).orElse_takes
    (hcontinuation.bind.orElse_takes ((takes_escape (Takes.pure _ rest)).map List.singleton))

/-- A character other than a quote, behind quotes that belong to the text. -/
theorem LongBody.char {quote char : Char} {piece : Parser (List Char)} {taken text : List Char}
    (hmarks : Marks quote piece) {before : Nat} (hbefore : before ≤ 2)
    (htaken : Takes (piece <|> (newline *> pure ['\n']) <|> innerQuotes quote) (taken ++ middle)
      [char] middle) (hnonempty : taken ≠ []) (hhead : taken.head? ≠ some quote)
    (hmore : LongBody quote piece middle text rest) :
    LongBody quote piece (List.replicate before quote ++ (taken ++ middle))
      (List.replicate before quote ++ char :: text) rest := by
  refine quotes hmarks hbefore ?_ (item htaken ?_ hmore)
  · rwa [List.head?_append_of_ne_nil taken hnonempty]
  · have hlength := List.length_pos_iff.2 hnonempty
    rw [List.length_append]
    omega

/-- A feed is taken as it stands, unless it is a piece already. -/
theorem takes_lineBreak (quote : Char) {piece : Parser (List Char)} {rest : List Char}
    (hpiece : Refuses piece ('\n' :: rest)) :
    Takes (piece <|> (newline *> pure ['\n']) <|> innerQuotes quote) ('\n' :: rest) ['\n']
      rest := by
  have hnewline : Takes newline ('\n' :: rest) () rest := (takes_char '\n' rest).orElse _
  exact hpiece.orElse_takes ((hnewline.seqRight (Takes.pure ['\n'] rest)).orElse _)

/-- The body of a long basic string is read, with the quotes in front of it that it
was written behind. -/
theorem longBody_basicBody (text : List Char) {before : Nat} (hbefore : before ≤ 2)
    (hrest : rest.head? ≠ some '"') :
    LongBody '"' basicPiece
      (List.replicate before '"' ++ (basicBody true before text ++ (['"', '"', '"'] ++ rest)))
      (List.replicate before '"' ++ text) rest := by
  induction text generalizing before with
  | nil =>
    rw [List.append_nil]
    exact LongBody.close marks_basicPiece hbefore hrest
  | cons char text ih =>
    by_cases hquote : char = '"'
    · subst hquote
      -- Up to two quotes stand as they are until something else follows; a third is escaped.
      by_cases hroom : before < 2
      · have hnext : before + 1 ≤ 2 := hroom
        have hmore := ih hnext
        simpa [basicBody, hroom, List.replicate_succ'] using hmore
      · have hbody : basicBody true before ('"' :: text) =
            ['\\', '"'] ++ basicBody true 0 text := by
          simp [basicBody, hroom]
        have hitem := (takes_quotePiece (basicBody true 0 text ++ (['"', '"', '"'] ++ rest))).orElse
          ((newline *> pure ['\n']) <|> innerQuotes '"')
        rw [hbody, List.append_assoc]
        exact LongBody.char marks_basicPiece hbefore hitem (by simp) (by simp) (ih (Nat.zero_le 2))
    · by_cases hfeed : char = '\n'
      · subst hfeed
        have hbody : basicBody true before ('\n' :: text) = ['\n'] ++ basicBody true 0 text := by
          simp [basicBody]
        have hitem := takes_lineBreak '"' (refuses_basicPiece (Or.inr rfl)
          (basicBody true 0 text ++ (['"', '"', '"'] ++ rest)))
        rw [hbody, List.append_assoc]
        exact LongBody.char marks_basicPiece hbefore hitem (by simp) (by simp) (ih (Nat.zero_le 2))
      · have hbody : basicBody true before (char :: text) =
            escaped char ++ basicBody true 0 text := by
          simp [basicBody, hquote, hfeed]
        have hitem := (takes_basicPiece hquote
          (basicBody true 0 text ++ (['"', '"', '"'] ++ rest))).orElse
            ((newline *> pure ['\n']) <|> innerQuotes '"')
        have hhead : (escaped char).head? ≠ some '"' := by
          simpa using head?_escaped hquote (by decide) []
        rw [hbody, List.append_assoc]
        exact LongBody.char marks_basicPiece hbefore hitem (escaped_ne_nil hquote) hhead
          (ih (Nat.zero_le 2))

theorem le_longestRun (char : Char) (text : List Char) (before : Nat) :
    before ≤ longestRun char before text := by
  induction text generalizing before with
  | nil => exact Nat.le_refl before
  | cons first text ih =>
    rw [longestRun]
    split
    · exact Nat.le_trans (Nat.le_succ before) (ih (before + 1))
    · exact Nat.le_max_left _ _

/-- Where a character occurs, there is a run of it. -/
theorem longestRun_pos {char : Char} {text : List Char} (hmem : char ∈ text) (before : Nat) :
    0 < longestRun char before text := by
  induction text generalizing before with
  | nil => exact absurd hmem List.not_mem_nil
  | cons first text ih =>
    rw [longestRun]
    split
    case isTrue => exact Nat.lt_of_lt_of_le (Nat.succ_pos before) (le_longestRun char text _)
    case isFalse hne =>
      have hmore := (List.mem_cons.1 hmem).resolve_left (Ne.symm hne)
      exact Nat.lt_of_lt_of_le (ih hmore 0) (Nat.le_max_right _ _)

/-- The body of a long literal string is read if it has no run of three quotes. -/
theorem longBody_literal (text : List Char) {before : Nat}
    (hplain : ∀ char ∈ text, isPlain char ∨ char = '\n') (hrun : longestRun '\'' before text ≤ 2)
    (hrest : rest.head? ≠ some '\'') :
    LongBody '\'' literalPiece
      (List.replicate before '\'' ++ (text ++ (['\'', '\'', '\''] ++ rest)))
      (List.replicate before '\'' ++ text) rest := by
  have hbefore := Nat.le_trans (le_longestRun '\'' text before) hrun
  induction text generalizing before with
  | nil =>
    rw [List.append_nil]
    exact LongBody.close marks_literalPiece hbefore hrest
  | cons char text ih =>
    have hmore := fun other hother => hplain other (List.mem_cons_of_mem char hother)
    rw [longestRun] at hrun
    by_cases hquote : char = '\''
    · subst hquote
      rw [if_pos rfl] at hrun
      have hbody := ih hmore hrun (Nat.le_trans (le_longestRun '\'' text _) hrun)
      simpa [List.replicate_succ'] using hbody
    · rw [if_neg hquote] at hrun
      have hbody := ih hmore (Nat.le_trans (Nat.le_max_right _ _) hrun) (Nat.zero_le 2)
      have hitem : Takes (literalPiece <|> (newline *> pure ['\n']) <|> innerQuotes '\'')
          ([char] ++ (text ++ (['\'', '\'', '\''] ++ rest))) [char]
          (text ++ (['\'', '\'', '\''] ++ rest)) := by
        obtain hchar | rfl := hplain char List.mem_cons_self
        · have hliteral : isLiteral char := by simp [isLiteral, hchar, hquote]
          exact ((takes_satisfy hliteral _).map List.singleton).orElse _
        · exact takes_lineBreak _ (refuses_literalPiece (Or.inr rfl) _)
      change LongBody '\'' literalPiece (_ ++ ([char] ++ (text ++ _))) _ _
      exact LongBody.char marks_literalPiece hbefore hitem (by simp) (by simpa using hquote) hbody

/-! ## All forms -/

/-- Without other control characters than line breaks. -/
theorem isPlain_of_controls {text : List Char}
    (hcontrols : (text.any fun char => !isPlain char && char != '\n') = false) :
    ∀ char ∈ text, isPlain char ∨ char = '\n' := by
  intro char hchar
  have hone := List.any_eq_false.1 hcontrols char hchar
  by_contra hneither
  rw [not_or] at hneither
  exact hone (by simp [hneither])

/-- A text that is written as a literal string can stand in one. -/
theorem isLiteral_of_ofText {text : List Char} (hform : Quoting.ofText text = .literal) :
    ∀ char ∈ text, isLiteral char := by
  simp only [Quoting.ofText] at hform
  split_ifs at hform with _ hliteral
  simp only [Bool.and_eq_true, Bool.not_eq_true', decide_eq_true_eq] at hliteral
  obtain ⟨⟨hcontrols, hquotes⟩, hlines⟩ := hliteral
  intro char hchar
  have hquote : char ≠ '\'' := by
    rintro rfl
    exact absurd hquotes (longestRun_pos hchar 0).ne'
  have hfeed : char ≠ '\n' := by
    rintro rfl
    simp [hchar] at hlines
  have hplain := (isPlain_of_controls hcontrols char hchar).resolve_right hfeed
  simp [isLiteral, hplain, hquote]

/-- A text that is written as a long literal string can stand in one. -/
theorem isPlain_of_ofText {text : List Char} (hform : Quoting.ofText text = .longLiteral) :
    (∀ char ∈ text, isPlain char ∨ char = '\n') ∧ longestRun '\'' 0 text ≤ 2 := by
  simp only [Quoting.ofText] at hform
  split_ifs at hform with _ _ _ hliteral
  simp only [Bool.and_eq_true, Bool.not_eq_true', decide_eq_true_eq] at hliteral
  exact ⟨isPlain_of_controls hliteral.1, hliteral.2⟩

theorem refuses_basicString (hhead : input.head? ≠ some '"') : Refuses basicString input :=
  (refuses_char hhead).bind

/-- Long strings do not start where the quotes do not. -/
theorem refuses_longString_of_head? {quote : Char} {piece : Parser (List Char)}
    (hhead : input.head? ≠ some quote) : Refuses (longString quote piece) input := by
  refine refuses_longString fun hprefix => hhead ?_
  obtain ⟨after, rfl⟩ := hprefix
  rfl

/-- A short string does not start like a long one. -/
theorem refuses_longString_of_short {quote : Char} {piece : Parser (List Char)} {body : List Char}
    (hbody : body.head? ≠ some quote) (hrest : rest.head? ≠ some quote) :
    Refuses (longString quote piece) ([quote] ++ body ++ [quote] ++ rest) := by
  refine refuses_longString fun hprefix => ?_
  cases body with
  | nil => cases rest <;> simp_all
  | cons first body => simp_all

/-- The body of a basic string does not start with a quote. -/
theorem head?_basicBody (text : List Char) : (basicBody false 0 text).head? ≠ some '"' := by
  cases text with
  | nil => simp [basicBody]
  | cons char text =>
    by_cases hquote : char = '"'
    · simp [basicBody, hquote]
    · simpa [basicBody, hquote] using head?_escaped hquote (by decide) (basicBody false 0 text)

/-- The body of a long basic string without line breaks does not start with one. -/
theorem refuses_newline_basicBody {text : List Char} (hlines : '\n' ∉ text) (after : List Char) :
    Refuses newline (basicBody true 0 text ++ '"' :: after) := by
  cases text with
  | nil => exact refuses_newline (by simp [basicBody]) (by simp [basicBody])
  | cons char text =>
    have hfeed : char ≠ '\n' := (List.ne_and_not_mem_of_not_mem_cons hlines).1.symm
    by_cases hquote : char = '"'
    · exact refuses_newline (by simp [basicBody, hquote]) (by simp [basicBody, hquote])
    · have hbody : basicBody true 0 (char :: text) ++ '"' :: after =
          escaped char ++ (basicBody true 0 text ++ '"' :: after) := by
        simp [basicBody, hquote, hfeed]
      rw [hbody]
      exact refuses_newline (head?_escaped hquote (by decide) _)
        (head?_escaped hquote (by decide) _)

/-- A literal string without feeds does not start with a new line. -/
theorem refuses_newline_literal {text : List Char}
    (hplain : ∀ char ∈ text, isPlain char ∨ char = '\n') (hlines : '\n' ∉ text)
    (after : List Char) : Refuses newline (text ++ '\'' :: after) := by
  cases text with
  | nil => exact refuses_newline (by simp) (by simp)
  | cons char text =>
    have hfeed : char ≠ '\n' := (List.ne_and_not_mem_of_not_mem_cons hlines).1.symm
    have hreturn : char ≠ '\r' := by
      rintro rfl
      exact absurd (hplain '\r' List.mem_cons_self) (by decide)
    exact refuses_newline (by simpa using hfeed) (by simpa using hreturn)

/-- A long form is read as its body is, behind the line break of several lines. -/
theorem takes_longQuoted {quote : Char} {piece : Parser (List Char)} {text body : List Char}
    (hbody : LongBody quote piece (body ++ ([quote, quote, quote] ++ rest)) text rest)
    (hlines : '\n' ∉ text → Refuses newline (body ++ ([quote, quote, quote] ++ rest))) :
    Takes (longString quote piece) (longQuoted quote (text.contains '\n') body ++ rest) text
      rest := by
  rw [longQuoted, List.append_assoc, List.append_assoc]
  exact takes_longString hbody fun hnone => hlines (by simpa using hnone)

/-- **Quoted texts are read back.** A string is read from where a text was quoted, if
no other quote follows. -/
theorem takes_quoted (text : List Char) (hdouble : rest.head? ≠ some '"')
    (hsingle : rest.head? ≠ some '\'') :
    Takes string (quoted text ++ rest) (String.ofList text) rest := by
  refine Takes.map String.ofList ?_
  rw [quoted]
  cases hform : Quoting.ofText text with
  | basic =>
    exact (refuses_longString_of_short (head?_basicBody text) hdouble).orElse_takes
      ((takes_basicString text rest).orElse _)
  | literal =>
    have hliteral := isLiteral_of_ofText hform
    have hhead : text.head? ≠ some '\'' := by
      intro hquote
      exact absurd (hliteral '\'' (List.mem_of_head? hquote)) (by decide)
    exact (refuses_longString_of_head? (by simp)).orElse_takes
      ((refuses_basicString (by simp)).orElse_takes
        ((refuses_longString_of_short hhead hsingle).orElse_takes
          (takes_literalString hliteral rest)))
  | longBasic =>
    have hbody := longBody_basicBody text (Nat.zero_le 2) hdouble
    exact (takes_longQuoted hbody fun hlines => refuses_newline_basicBody hlines _).orElse _
  | longLiteral =>
    obtain ⟨hplain, hrun⟩ := isPlain_of_ofText hform
    have hbody := longBody_literal text hplain hrun hsingle
    have hread := takes_longQuoted hbody fun hlines => refuses_newline_literal hplain hlines _
    exact (refuses_longString_of_head? (by simp [longQuoted])).orElse_takes
      ((refuses_basicString (by simp [longQuoted])).orElse_takes (hread.orElse _))

end ClassStub.Toml
