import ClassStub.Configuration
import ClassStub.Proofs.Toml.Quoting

/-!
# Rendered configurations are read back

The text of a configuration is a document of three lines: a header, the packages and
the mark for checks.  The list of packages takes one line or several, but its end
shows in any case.  Every line is read as the statement that it was written for, and
the statements build the table of the configuration (`Toml.parse?_render`).  So the
format is one in which parsing undoes rendering (`ConfigurationFormat.toml_lawful`).
-/

namespace ClassStub.Toml

open ClassStub.Parser

variable {input rest : List Char}

/-! ## Lists of texts -/

/-- Blanks and line breaks are passed over up to a string or the end of an item. -/
theorem takes_filler (taken : List Char) (htaken : ∀ char ∈ taken, char = ' ' ∨ char = '\n')
    {next : Char} (hnext : next ∈ ['"', '\'', ',', ']']) (rest : List Char) :
    Takes filler (taken ++ next :: rest) () (next :: rest) := by
  have hstop : Refuses ((do let _ ← satisfy isBlank) <|> newline <|> comment) (next :: rest) := by
    simp only [List.mem_cons, List.not_mem_nil, or_false] at hnext
    rcases hnext with rfl | rfl | rfl | rfl <;> rfl
  have hrepeats : ∃ values, Repeats ((do let _ ← satisfy isBlank) <|> newline <|> comment)
      (taken ++ next :: rest) values (next :: rest) := by
    induction taken with
    | nil => exact ⟨[], Repeats.stop hstop⟩
    | cons char taken ih =>
      have hothers (other : Char) (hother : other ∈ taken) :=
        htaken other (List.mem_cons_of_mem char hother)
      obtain ⟨values, hmore⟩ := ih hothers
      refine ⟨() :: values, Repeats.step ?_ (Nat.lt_succ_self _) hmore⟩
      rcases htaken char List.mem_cons_self with rfl | rfl <;> rfl
  obtain ⟨values, hrepeats⟩ := hrepeats
  exact hrepeats.many.bind (Takes.pure () _)

/-- A quoted text is a value, whatever may be nested. -/
theorem takes_value (depth : Nat) (text : String) {next : Char} (hnext : next = ',' ∨ next = ']')
    (rest : List Char) :
    Takes (value depth) (quoted text.toList ++ next :: rest) (.string text) (next :: rest) := by
  have hstring : Takes string (quoted text.toList ++ next :: rest) text (next :: rest) := by
    have hdouble : (next :: rest).head? ≠ some '"' := by rcases hnext with rfl | rfl <;> simp
    have hsingle : (next :: rest).head? ≠ some '\'' := by rcases hnext with rfl | rfl <;> simp
    simpa using takes_quoted text.toList hdouble hsingle
  have hscalar : Takes scalar (quoted text.toList ++ next :: rest) (.string text) (next :: rest) :=
    (hstring.map Value.string).orElse _
  cases depth with
  | zero => exact hscalar
  | succ depth => exact hscalar.orElse _

/-- A closing bracket is no value. -/
theorem refuses_value (depth : Nat) (rest : List Char) : Refuses (value depth) (']' :: rest) := by
  have hscalar : Refuses scalar (']' :: rest) := rfl
  cases depth with
  | zero => exact hscalar
  | succ depth => exact hscalar.orElse rfl

/-- A written text starts with one of the two quotes. -/
theorem exists_quoted_cons (text : List Char) :
    ∃ quote more, quoted text = quote :: more ∧ (quote = '"' ∨ quote = '\'') := by
  rw [quoted]
  split
  · exact ⟨'"', _, rfl, Or.inl rfl⟩
  · exact ⟨'\'', _, rfl, Or.inr rfl⟩
  · exact ⟨'"', _, rfl, Or.inl rfl⟩
  · exact ⟨'\'', _, rfl, Or.inr rfl⟩

/-- An item of a list, behind blanks and up to what comes after it. -/
theorem takes_item (depth : Nat) (blank : List Char)
    (hblank : ∀ char ∈ blank, char = ' ' ∨ char = '\n') (text : String) {next : Char}
    (hnext : next = ',' ∨ next = ']') (rest : List Char) :
    Takes (filler *> value depth <* filler) (blank ++ (quoted text.toList ++ next :: rest))
      (.string text) (next :: rest) := by
  obtain ⟨quote, more, hquoted, hquote⟩ := exists_quoted_cons text.toList
  have hfirst : Takes filler (blank ++ (quoted text.toList ++ next :: rest)) ()
      (quoted text.toList ++ next :: rest) := by
    rw [hquoted]
    exact takes_filler blank hblank (by grind) _
  have hlast : Takes filler (next :: rest) () (next :: rest) :=
    takes_filler [] (by simp) (by grind) rest
  exact (hfirst.seqRight (takes_value depth text hnext rest)).seqLeft hlast

/-- The lines of a list of several texts. -/
def itemLines (texts : List String) : List Char :=
  texts.flatMap fun text => "    ".toList ++ quoted text.toList ++ [',', '\n']

/-- Each text is on a line of its own. -/
theorem itemLines_cons (text : String) (texts : List String) (after : List Char) :
    '\n' :: (itemLines (text :: texts) ++ after) =
      "\n    ".toList ++ (quoted text.toList ++ ',' :: '\n' :: (itemLines texts ++ after)) := by
  simp [itemLines]

/-- What follows the first item are the others, up to the comma behind the last. -/
theorem repeats_items (depth : Nat) (texts : List String) (rest : List Char) :
    Repeats (char ',' *> (filler *> value depth <* filler))
      (',' :: '\n' :: (itemLines texts ++ ']' :: rest)) (texts.map .string)
      (',' :: '\n' :: ']' :: rest) := by
  induction texts with
  | nil =>
    have hfiller : Takes filler ('\n' :: ']' :: rest) () (']' :: rest) :=
      takes_filler ['\n'] (by simp) (by simp) rest
    refine Repeats.stop ((takes_char ',' _).bind_refuses ?_)
    exact Refuses.bind (hfiller.bind_refuses (refuses_value depth rest))
  | cons text texts ih =>
    have hitem := takes_item depth "\n    ".toList (by simp) text (Or.inl rfl)
      ('\n' :: (itemLines texts ++ ']' :: rest))
    rw [← itemLines_cons] at hitem
    refine Repeats.step ((takes_char ',' _).seqRight hitem) ?_ ih
    simp only [itemLines, List.flatMap_cons, List.length_cons, List.length_append]
    omega

/-- An array is read if its items are, up to blanks before its end. -/
theorem takes_array_of_items (blank : List Char) {item : Parser Value} {values : List Value}
    (hitems : Takes ((separated (char ',') (filler *> item <* filler) <* optional (char ',')) <|>
      pure []) input values (blank ++ ']' :: rest))
    (hblank : ∀ char ∈ blank, char = ' ' ∨ char = '\n') :
    Takes (array item) ('[' :: input) (Value.array values) rest := by
  have hfiller : Takes filler (blank ++ ']' :: rest) () (']' :: rest) :=
    takes_filler blank hblank (by simp) rest
  exact (takes_char '[' input).bind (hitems.bind (hfiller.bind
    ((takes_char ']' rest).bind (Takes.pure (Value.array values) rest))))

/-- A written list of texts is read as an array of strings. -/
theorem takes_array (depth : Nat) (texts : List String) (rest : List Char) :
    Takes (array (value depth)) (Configuration.listChars texts ++ rest)
      (.array (texts.map .string)) rest := by
  match texts with
  | [] =>
    have hfiller : Takes filler (']' :: rest) () (']' :: rest) :=
      takes_filler [] (by simp) (by simp) rest
    have hitem : Refuses (filler *> value depth <* filler) (']' :: rest) :=
      Refuses.bind (hfiller.bind_refuses (refuses_value depth rest))
    exact takes_array_of_items [] (hitem.bind.bind.orElse_takes (Takes.pure [] _))
      (by simp)
  | [text] =>
    have hitem := takes_item depth [] (by simp) text (Or.inr rfl) rest
    have hstop : Refuses (char ',' *> (filler *> value depth <* filler)) (']' :: rest) :=
      (refuses_char (by simp)).bind
    have hcomma : Refuses (char ',') (']' :: rest) := refuses_char (by simp)
    have hread := takes_array_of_items []
      (((hitem.separated (Repeats.stop hstop)).seqLeft hcomma.optional).orElse _) (by simp)
    simpa [Configuration.listChars] using hread
  | first :: second :: more =>
    have hitem := takes_item depth "\n    ".toList (by simp) first (Or.inl rfl)
      ('\n' :: (itemLines (second :: more) ++ ']' :: rest))
    rw [← itemLines_cons] at hitem
    have hcomma : Takes (char ',') (',' :: '\n' :: ']' :: rest) () ('\n' :: ']' :: rest) :=
      takes_char ',' _
    have hread := takes_array_of_items ['\n']
      (((hitem.separated (repeats_items depth (second :: more) rest)).seqLeft
        hcomma.optional).orElse _) (by simp)
    simpa [Configuration.listChars, itemLines] using hread

/-! ## Lines -/

/-- A statement that ends its line is read. -/
theorem takes_line {first : Char} {found : Statement} (hfirst : isBlank first = false)
    (hstatement : Takes statement (first :: input) found ('\n' :: rest)) :
    Takes line (first :: input) (some found) rest := by
  have hblanks (next : Char) (hnext : isBlank next = false) (more : List Char) :
      Takes blanks (next :: more) () (next :: more) :=
    takes_blanks [] (by simp) hnext more
  have hcomment : Refuses comment ('\n' :: rest) := (refuses_char (by simp)).bind
  have hend : Takes (newline <|> atEnd) ('\n' :: rest) () rest :=
    ((takes_char '\n' rest).orElse _).orElse _
  have hmore : Takes (do
      blanks
      let statement ← optional statement
      blanks
      let _ ← optional comment
      newline <|> atEnd
      return statement) (first :: input) (some found) rest :=
    (hblanks first hfirst input).bind (hstatement.optional.bind ((hblanks '\n' rfl rest).bind
      (hcomment.optional.bind (hend.bind (Takes.pure (some found) rest)))))
  exact hmore

/-- The first line opens the table. -/
theorem takes_header (rest : List Char) :
    Takes line ("[api]\n".toList ++ rest) (some (.table { path := [], key := "api" })) rest := by
  simp only [String.reduceToList]
  rfl

/-- The line of a list of packages, which may be continued on further lines. -/
theorem takes_packages (texts : List String) (rest : List Char) :
    Takes line
      ("allowed-packages = ".toList ++ (Configuration.listChars texts ++ '\n' :: rest))
      (some (.entry { path := [], key := "allowed-packages" } (.array (texts.map .string))))
      rest := by
  have hkey (after : List Char) : Takes dottedKey ("allowed-packages = ".toList ++ after)
      { path := [], key := "allowed-packages" } ('=' :: ' ' :: after) := by
    simp only [String.reduceToList]
    rfl
  obtain ⟨more, hmore⟩ : ∃ more, Configuration.listChars texts = '[' :: more := by
    match texts with
    | [] => exact ⟨_, rfl⟩
    | [_] => exact ⟨_, rfl⟩
    | _ :: _ :: _ => exact ⟨_, rfl⟩
  have hblank : Takes blanks (' ' :: (Configuration.listChars texts ++ '\n' :: rest)) ()
      (Configuration.listChars texts ++ '\n' :: rest) := by
    rw [hmore]
    exact takes_blanks [' '] (by simp [isBlank]) rfl _
  have hscalar : Refuses scalar (Configuration.listChars texts ++ '\n' :: rest) := by
    rw [hmore]
    rfl
  have hvalue : Takes (value nestingLimit) (Configuration.listChars texts ++ '\n' :: rest)
      (.array (texts.map .string)) ('\n' :: rest) :=
    hscalar.orElse_takes ((takes_array 78 texts ('\n' :: rest)).orElse _)
  have hentry : Takes (keyValue (value nestingLimit))
      ("allowed-packages = ".toList ++ (Configuration.listChars texts ++ '\n' :: rest))
      ({ path := [], key := "allowed-packages" }, .array (texts.map .string)) ('\n' :: rest) :=
    (hkey _).bind ((takes_char '=' _).bind (hblank.bind (hvalue.bind (Takes.pure _ _))))
  simp only [String.reduceToList, List.cons_append] at hentry ⊢
  -- An entry starts with no bracket, so it is not taken for a header.
  refine takes_line rfl (Refuses.orElse_takes ?_ (Refuses.orElse_takes ?_ ?_))
  · exact (refuses_word (by simp)).bind
  · exact (refuses_char (by simp)).bind
  · exact hentry.bind (Takes.pure (Statement.entry _ _) _)

/-- The line that follows is read as the boolean that it was made of. -/
theorem takes_checks (validates : Bool) :
    Takes line
      ("validate-exposed-types = ".toList ++
        ((if validates then "true" else "false").toList ++ ['\n']))
      (some (.entry { path := [], key := "validate-exposed-types" } (.boolean validates)))
      [] := by
  cases validates <;> simp only [String.reduceToList] <;> rfl

/-! ## Documents -/

/-- The table of the file of a configuration. -/
def configurationTable (configuration : Configuration) : Table :=
  [("api", .table .headed
    [("allowed-packages", .array (configuration.allowedPackages.map .string)),
      ("validate-exposed-types", .boolean configuration.validateExposedTypes)])]

/-- The lines of the file of a configuration. -/
theorem toList_render (configuration : Configuration) :
    configuration.render.toList =
      "[api]\n".toList ++ ("allowed-packages = ".toList ++
        (Configuration.listChars configuration.allowedPackages ++ '\n' ::
          ("validate-exposed-types = ".toList ++
            ((if configuration.validateExposedTypes then "true" else "false").toList ++
              ['\n'])))) := by
  have hlines (items mark : List Char) :
      "[api]\nallowed-packages = ".toList ++ items ++ "\nvalidate-exposed-types = ".toList ++
          mark ++ ['\n'] =
        "[api]\n".toList ++ ("allowed-packages = ".toList ++ (items ++ '\n' ::
          ("validate-exposed-types = ".toList ++ (mark ++ ['\n'])))) := by
    simp
  exact String.toList_ofList.trans (hlines _ _)

/-- A written configuration is read as three statements. -/
theorem statements_render (configuration : Configuration) :
    statements configuration.render.toList = some
      [.table { path := [], key := "api" },
        .entry { path := [], key := "allowed-packages" }
          (.array (configuration.allowedPackages.map .string)),
        .entry { path := [], key := "validate-exposed-types" }
          (.boolean configuration.validateExposedTypes)] := by
  have hstop : Repeats line [] [] [] := Repeats.stop rfl
  have hchecks := Repeats.step (takes_checks configuration.validateExposedTypes) (by simp) hstop
  have hpackages := Repeats.step (takes_packages configuration.allowedPackages _) (by simp; omega)
    hchecks
  have hheader := Repeats.step (takes_header _) (by simp) hpackages
  rw [← toList_render] at hheader
  have hmark : Refuses (char '\uFEFF') configuration.render.toList := by
    refine refuses_char ?_
    rw [toList_render]
    simp
  have hlines : Takes lines configuration.render.toList _ [] :=
    hmark.optional.bind (hheader.many.bind (Takes.bind (Takes.pure () []) (Takes.pure _ [])))
  have hrun : lines.run configuration.render.toList = some (_, []) := hlines
  rw [statements, hrun]
  rfl

/-- The file of a configuration is read as its table. -/
theorem parse?_render (configuration : Configuration) :
    parse? configuration.render = some (configurationTable configuration) := by
  rw [parse?, statements_render]
  rfl

end ClassStub.Toml

namespace ClassStub

/-! ## Configurations -/

/-- A written list of texts stands for the texts. -/
theorem Configuration.strings?_array (texts : List String) :
    strings? (.array (texts.map .string)) = some texts := by
  induction texts with
  | nil => rfl
  | cons text texts ih =>
    simp only [strings?] at ih
    simp [strings?, ih]

/-- The table of a configuration stands for it. -/
theorem Configuration.ofTable?_configurationTable (configuration : Configuration) :
    ofTable? (Toml.configurationTable configuration) = some configuration := by
  have hparts : ofParts? (some (.array (configuration.allowedPackages.map .string)))
      (some (.boolean configuration.validateExposedTypes)) = some configuration := by
    simp [ofParts?, strings?_array, boolean?]
  exact hparts

/-- **Parsing undoes rendering in TOML.** -/
theorem ConfigurationFormat.toml_lawful : toml.Lawful where
  undone configuration := by
    refine ⟨configuration.render, rfl, ?_⟩
    change (Toml.parse? configuration.render).bind Configuration.ofTable? = _
    rw [Toml.parse?_render]
    exact configuration.ofTable?_configurationTable

end ClassStub
