import ClassStub.Proofs.Codec.GrownAttributes
import ClassStub.Proofs.Codec.MemberRemains

/-!
# Members that cannot be encoded

In a run of steps each one is passed over if it fails.  Beside it goes a run in which
failing calls are taken back: the tables of both differ in what these calls left
(`ClassDraft.Littered.steps`), and the draft of the second run holds what the succeeding
steps added (`ClassDraft.Holds.takeBack_steps`).

So a class that is finished after failed calls has the bytes of the class of the other
members with the remains in between (`ClassScript.passes_over`), and in general these
do not decode (`ClassScript.not_decode_passedOver`).
-/

namespace ClassStub

open Encoder

/-! ## Steps in their turns -/

/-- A step with the draft that it finds. -/
structure Turn where
  step : ClassStep
  draft : ClassDraft

namespace Turn

/-- Whether the step succeeds on the draft that it finds. -/
def Succeeds (turn : Turn) : Bool :=
  match turn.step.perform turn.draft with
  | .ok _ _ => true
  | .error _ _ => false

end Turn

namespace ClassDraft

/-- Steps in their turns, where each step that fails is passed over. -/
def turns (draft : ClassDraft) : List ClassStep → List Turn
  | [] => []
  | step :: more => ⟨step, draft⟩ :: turns (passOver step.perform draft) more

/-- The draft behind steps, given what becomes of a draft behind one step. -/
def behind (after : Writing Unit → ClassDraft → ClassDraft) (draft : ClassDraft)
    (steps : List ClassStep) : ClassDraft :=
  steps.foldl (fun draft step => after step.perform draft) draft

/-- What steps leave in the table of a kind. -/
def piecesOf (kind : MemberKind) (turns : List Turn) : List Piece :=
  turns.flatMap fun turn => turn.step.pieces kind turn.draft.pool

variable {clean real : ClassDraft} {pieces : MemberKind → List Piece}

/-- Steps leave the same members in both drafts, and what failed calls left in one
of them. -/
theorem Littered.steps (hlittered : Littered clean real pieces) (steps : List ClassStep) :
    Littered (behind takeBack clean steps) (behind passOver real steps) fun kind =>
      pieces kind ++ piecesOf kind (turns real steps) := by
  induction steps generalizing clean real pieces with
  | nil => simpa [behind, piecesOf, turns] using hlittered
  | cons step more ih =>
    have hmore := ih (hlittered.step step)
    simpa [behind, piecesOf, turns, List.append_assoc] using hmore

end ClassDraft

/-! ## What the steps that succeed add -/

/-- The turns of the steps that succeed. -/
def succeeded (turns : List Turn) : List Turn :=
  turns.filter Turn.Succeeds

/-- A content with what steps add in their turns. -/
def ClassContent.adding (content : ClassContent) (turns : List Turn) : ClassContent :=
  { content with
    deprecated := content.deprecated || turns.any fun turn => turn.step.isMark
    visibleAnnotations := content.visibleAnnotations ++
      turns.flatMap fun turn => turn.step.annotations true
    invisibleAnnotations := content.invisibleAnnotations ++
      turns.flatMap fun turn => turn.step.annotations false
    innerClasses := content.innerClasses ++ turns.flatMap fun turn => turn.step.innerClasses
    fields := content.fields ++ turns.flatMap fun turn => turn.step.fields
    methods := content.methods ++ turns.flatMap fun turn => turn.step.methods turn.draft }

theorem ClassContent.adding_nil (content : ClassContent) : content.adding [] = content := by
  simp [adding]

/-- Turns one behind the other add what they add in order. -/
theorem ClassContent.adding_append (content : ClassContent) (turns more : List Turn) :
    content.adding (turns ++ more) = (content.adding turns).adding more := by
  simp [adding, Bool.or_assoc]

namespace ClassStep

/-- The method that a step adds depends on the draft by the pool only. -/
theorem methods_congr {clean real : ClassDraft} (hpool : clean.pool = real.pool)
    (step : ClassStep) : step.methods clean = step.methods real := by
  cases step with
  | writeMethod method body => rw [methods, methods, hpool]
  | _ => rfl

/-- Whether a step succeeds depends on the pool that it finds. -/
theorem succeeds_congr {clean real : ClassDraft} (hpool : clean.pool = real.pool)
    (step : ClassStep) : Turn.Succeeds ⟨step, clean⟩ = Turn.Succeeds ⟨step, real⟩ := by
  cases hcall : step.call? with
  | some call =>
    simp only [Turn.Succeeds, perform_of_call hcall, call.perform_eq, hpool]
    cases call.entry real.pool <;> rfl
  | none => cases step <;> first | rfl | cases hcall

/-- A member is written alike when the pool has grown. -/
theorem stable_entry {step : ClassStep} {call : MemberCall} (hcall : step.call? = some call) :
    call.entry.Stable := by
  cases step with
  | writeField field =>
    cases hcall
    exact stable_memberEntry _ _ _ (Attribute.stable_encodeTable _)
  | writeMethod method body =>
    cases hcall
    exact stable_memberEntry _ _ _ (ClassDraft.stable_encodeMethodAttributes method body)
  | _ => cases hcall

end ClassStep

namespace ClassDraft

variable {clean real : ClassDraft} {pieces : MemberKind → List Piece} {content : ClassContent}

/-- Whether a step succeeds or is taken back, the pool keeps what is promised of it. -/
theorem exact_takeBack (hexact : clean.pool.Exact) (step : ClassStep) :
    (takeBack step.perform clean).pool.Exact ∧
      clean.pool.Later (takeBack step.perform clean).pool := by
  cases hcall : step.call? with
  | some call =>
    rw [ClassStep.perform_of_call hcall, takeBack_call, pool_changeTable]
    exact (ClassStep.stable_entry hcall).keeps clean.pool hexact
  | none =>
    have hpool : (takeBack step.perform clean).pool = clean.pool := by
      cases step with
      | annotate visible annotations => cases visible <;> rfl
      | markDeprecated => rfl
      | listInnerClass record => rfl
      | writeField field => cases hcall
      | writeMethod method body => cases hcall
    rw [hpool]
    exact ⟨hexact, .refl _⟩

/-- A draft holds what a step adds if it succeeds, and what it held before if the step
is taken back. -/
theorem Holds.takeBack (hexact : clean.pool.Exact) (hholds : clean.Holds content)
    (hpool : clean.pool = real.pool) {step : ClassStep} (hstep : step.Readable) :
    (takeBack step.perform clean).Holds (content.adding (succeeded [⟨step, real⟩])) := by
  have hkept := exact_takeBack hexact step
  cases hrun : step.perform clean with
  | ok _ next =>
    have hadded := ClassStep.holds_perform hstep hholds hrun
    rw [step.methods_congr hpool] at hadded
    have hsucceeds : Turn.Succeeds ⟨step, real⟩ = true := by
      rw [← step.succeeds_congr hpool, Turn.Succeeds, hrun]
    have hlisted : succeeded [⟨step, real⟩] = [⟨step, real⟩] := by
      rw [succeeded, List.filter_cons_of_pos hsucceeds, List.filter_nil]
    simpa [ClassDraft.takeBack, hrun, hlisted, ClassContent.adding] using hadded
  | error cause stopped =>
    have hfails : Turn.Succeeds ⟨step, real⟩ = false := by
      rw [← step.succeeds_congr hpool, Turn.Succeeds, hrun]
    have hnone : succeeded [⟨step, real⟩] = [] := by
      rw [succeeded, List.filter_cons_of_neg (Bool.eq_false_iff.1 hfails), List.filter_nil]
    simp only [ClassDraft.takeBack, hrun] at hkept ⊢
    rw [hnone, ClassContent.adding_nil]
    exact hholds.grow hkept.1.toValid hkept.2.slots

/-- The draft in which failing calls are taken back holds what the other steps add.
-/
theorem Holds.takeBack_steps (hexact : clean.pool.Exact) (hholds : clean.Holds content)
    (hlittered : Littered clean real pieces) {steps : List ClassStep}
    (hsteps : ∀ step ∈ steps, step.Readable) :
    (behind ClassDraft.takeBack clean steps).Holds
      (content.adding (succeeded (turns real steps))) := by
  induction steps generalizing clean real pieces content with
  | nil => simpa [behind, turns, succeeded, ClassContent.adding_nil] using hholds
  | cons step more ih =>
    obtain ⟨hstep, hmore⟩ := List.forall_mem_cons.1 hsteps
    have hnext := hholds.takeBack hexact hlittered.pool_eq hstep
    have hlast := ih (exact_takeBack hexact step).1 hnext (hlittered.step step) hmore
    have hturns : succeeded (turns real (step :: more)) = succeeded [⟨step, real⟩] ++
        succeeded (turns (passOver step.perform real) more) :=
      List.filter_append [Turn.mk step real] _
    rw [hturns, ClassContent.adding_append]
    exact hlast

end ClassDraft

/-! ## Finished classes -/

namespace ClassDraft

/-- A draft is finished with its attributes if none of its tables is too long. -/
theorem complete_of_table {draft : ClassDraft} {table : List UInt8} {pool : PoolBuilder}
    (htable : Attribute.encodeTable draft.attributes draft.pool = .ok table pool)
    (hinterfaces : draft.interfaces.length ≤ maxWord) (hfields : draft.fields.count ≤ maxWord)
    (hmethods : draft.methods.count ≤ maxWord) :
    draft.complete = .ok (headerBytes { draft with pool } pool ++
      (Bytes.u16 (UInt16.ofNat draft.fields.count) ++ (draft.fields.encoded.toList ++
        (Bytes.u16 (UInt16.ofNat draft.methods.count) ++
          (draft.methods.encoded.toList ++ table))))) := by
  have hrun : (Attribute.encodeTable draft.attributes).run draft.pool = .ok table pool := htable
  simp only [ClassDraft.complete, hrun, tableLength, hinterfaces, hfields, hmethods, ↓reduceIte,
    Bind.bind, Except.bind, headerBytes, List.append_assoc]
  rfl

end ClassDraft

/-- The bytes of a class, without and with what failed calls left in the tables of
members. -/
def LitteredBytes (pieces : MemberKind → List Piece) (clean real : List UInt8) : Prop :=
  ∃ front between rest,
    clean = front ++ ((pieces .field).flatMap Piece.entryBytes ++
      (between ++ ((pieces .method).flatMap Piece.entryBytes ++ rest))) ∧
    real = front ++ ((pieces .field).flatMap Piece.bytes ++
      (between ++ ((pieces .method).flatMap Piece.bytes ++ rest)))

/-- A draft is finished whether failed calls left something or not, and the bytes differ
in just that. -/
theorem ClassDraft.Littered.complete {clean real : ClassDraft} {pieces : MemberKind → List Piece}
    (hlittered : Littered clean real pieces) {bytes : List UInt8}
    (hcomplete : real.complete = .ok bytes) :
    ∃ cleanBytes, clean.complete = .ok cleanBytes ∧ LitteredBytes pieces cleanBytes bytes := by
  obtain ⟨table, pool, htable, hinterfaces, hfields, hmethods, rfl⟩ := complete_eq_ok hcomplete
  have hfieldTable : clean.fields.Littered real.fields (pieces .field) := hlittered.tables .field
  have hmethodTable : clean.methods.Littered real.methods (pieces .method) :=
    hlittered.tables .method
  have hattributes : clean.attributes = real.attributes := by
    change clean.bare.attributes = real.bare.attributes
    rw [hlittered.bare_eq]
  have hnames : clean.interfaces = real.interfaces := by
    change clean.bare.interfaces = real.bare.interfaces
    rw [hlittered.bare_eq]
  have hheader : headerBytes { clean with pool } pool = headerBytes { real with pool } pool := by
    change headerBytes { clean.bare with pool } pool = headerBytes { real.bare with pool } pool
    rw [hlittered.bare_eq]
  rw [← hattributes, ← hlittered.pool_eq] at htable
  rw [← hnames] at hinterfaces
  rw [← hfieldTable.count_eq] at hfields
  rw [← hmethodTable.count_eq] at hmethods
  refine ⟨_, complete_of_table htable hinterfaces hfields hmethods,
    headerBytes { real with pool } pool ++ Bytes.u16 (UInt16.ofNat real.fields.count),
    Bytes.u16 (UInt16.ofNat real.methods.count), table, ?_, ?_⟩
  · rw [hheader, hfieldTable.clean_encoded, hmethodTable.clean_encoded, hfieldTable.count_eq,
      hmethodTable.count_eq, List.append_assoc]
  · rw [hfieldTable.real_encoded, hmethodTable.real_encoded, List.append_assoc]

/-- A class is started without members. -/
theorem ClassDraft.littered_start {header : ClassHeader} {signature : Option String}
    {draft : ClassDraft} (hstart : start header signature = .ok draft) :
    Littered draft draft fun _ => [] := by
  have hempty : ∀ kind, draft.table kind = {} := by
    unfold start at hstart
    cases hrun : (internHeader header).run {} with
    | error cause stopped => simp [hrun] at hstart
    | ok indices pool =>
      rw [hrun] at hstart
      cases hstart
      intro kind
      cases kind <;> rfl
  refine ⟨rfl, fun kind => ?_⟩
  rw [hempty kind]
  exact ⟨rfl, rfl, rfl⟩

/-! ## When nothing is left -/

/-- Of a failed call something is left. -/
theorem length_of_mem_piecesOf {kind : MemberKind} {turns : List Turn} {bytes : List UInt8}
    (hpiece : Piece.remains bytes ∈ ClassDraft.piecesOf kind turns) :
    bytes.length ∈ [2, 4, 6] := by
  obtain ⟨turn, _, hmem⟩ := List.mem_flatMap.1 hpiece
  obtain ⟨call, _, _, hleft⟩ := ClassStep.mem_pieces_iff.1 hmem
  exact MemberCall.length_of_piece_eq hleft.symm

/-- A step succeeds if what it leaves is a whole member, or nothing. -/
theorem Turn.succeeds_iff (turn : Turn) :
    turn.Succeeds ↔
      ∀ kind, ∀ piece ∈ turn.step.pieces kind turn.draft.pool, piece.IsEntry := by
  obtain ⟨step, draft⟩ := turn
  simp only [ClassStep.mem_pieces_iff]
  cases hcall : step.call? with
  | some call =>
    have hsucceeds : Turn.Succeeds ⟨step, draft⟩ ↔ (call.piece draft.pool).IsEntry := by
      rw [MemberCall.isEntry_piece_iff, Turn.Succeeds, ClassStep.perform_of_call hcall,
        call.perform_eq]
      cases call.entry draft.pool <;> simp
    simp [hsucceeds]
  | none =>
    have hsucceeds : Turn.Succeeds ⟨step, draft⟩ := by
      cases step <;> first | rfl | cases hcall
    simp [hsucceeds]

/-- The bytes are the same if and only if no call failed. -/
theorem LitteredBytes.eq_iff {turns : List Turn} {clean real : List UInt8}
    (hbytes : LitteredBytes (ClassDraft.piecesOf · turns) clean real) :
    real = clean ↔ ∀ turn ∈ turns, turn.Succeeds := by
  have hturns : (∀ turn ∈ turns, turn.Succeeds) ↔
      ∀ kind, ∀ piece ∈ ClassDraft.piecesOf kind turns, piece.IsEntry := by
    simp only [Turn.succeeds_iff, ClassDraft.piecesOf, List.mem_flatMap]
    exact ⟨fun hall kind piece ⟨turn, hturn, hpiece⟩ => hall turn hturn kind piece hpiece,
      fun hall turn hturn kind piece hpiece => hall kind piece ⟨turn, hturn, hpiece⟩⟩
  obtain ⟨front, between, rest, rfl, rfl⟩ := hbytes
  rw [hturns]
  constructor
  · intro hsame
    have hlength := congrArg List.length hsame
    have hfields := Piece.length_entryBytes_le (ClassDraft.piecesOf .field turns)
    have hmethods := Piece.length_entryBytes_le (ClassDraft.piecesOf .method turns)
    simp only [List.length_append] at hlength
    intro kind
    have hremains : ∀ bytes, Piece.remains bytes ∈ ClassDraft.piecesOf kind turns →
        bytes.length ∈ [2, 4, 6] := fun _ => length_of_mem_piecesOf
    cases kind with
    | field => exact Piece.isEntry_of_length_eq hremains (by omega)
    | method => exact Piece.isEntry_of_length_eq hremains (by omega)
  · intro hall
    rw [Piece.flatMap_bytes_eq (hall .field), Piece.flatMap_bytes_eq (hall .method)]

/-! ## Scripts with calls that fail -/

/-- Annotations of the class are added by steps that cannot fail. -/
theorem flatMap_annotations_succeeded (visible : Bool) (draft : ClassDraft)
    (steps : List ClassStep) :
    ((succeeded (draft.turns steps)).flatMap fun turn => turn.step.annotations visible) =
      steps.flatMap (ClassStep.annotations visible) := by
  induction steps generalizing draft with
  | nil => rfl
  | cons step more ih =>
    have hmore := ih (ClassDraft.passOver step.perform draft)
    rw [ClassDraft.turns, succeeded, List.filter_cons, List.flatMap_cons, ← hmore, ← succeeded]
    by_cases hsucceeds : Turn.Succeeds ⟨step, draft⟩
    · rw [if_pos hsucceeds, List.flatMap_cons]
    · have hnone : step.annotations visible = [] := by
        cases step with
        | annotate given table => exact absurd rfl hsucceeds
        | _ => rfl
      rw [if_neg hsucceeds, hnone, List.nil_append]

namespace ClassScript

/-- The class that a script writes, as bytes, given what becomes of a draft behind a
step. -/
def writeWith (after : Writing Unit → ClassDraft → ClassDraft) (script : ClassScript) :
    Except EncodeError (List UInt8) := do
  let draft ← ClassDraft.start script.header script.signature
  (draft.behind after script.steps).complete

/-- What is promised of the bytes of a script whose failing calls are passed over.  If
these calls were taken back, the bytes would decode to a class that shows what the
others add.  As it is, the tables of members also have what the failing calls left, two,
four or six bytes for each; so the bytes are those of the class if no call fails, and
only then. -/
structure PassesOver (script : ClassScript) (bytes : List UInt8) (draft : ClassDraft)
    (clean : List UInt8) (file : ClassFile) : Prop where
  start_eq : ClassDraft.start script.header script.signature = .ok draft
  taken_back : script.writeWith ClassDraft.takeBack = .ok clean
  decode_eq : ClassFile.decode clean = .ok file
  shows : file.Shows (ClassContent.adding
    { header := script.header, signature := script.signature }
    (succeeded (draft.turns script.steps)))
  littered : LitteredBytes (ClassDraft.piecesOf · (draft.turns script.steps)) clean bytes
  remains_length : ∀ kind remains,
    .remains remains ∈ ClassDraft.piecesOf kind (draft.turns script.steps) →
      remains.length ∈ [2, 4, 6]
  eq_iff : bytes = clean ↔ ∀ turn ∈ draft.turns script.steps, turn.Succeeds

/-- **Failed members leave their heads behind.**  A class that is finished although
some members could not be encoded is the class of the others, but for the bytes that
the failed ones left between them. -/
theorem passes_over {script : ClassScript} (hreadable : script.Readable) {bytes : List UInt8}
    (hwrite : script.writeWith ClassDraft.passOver = .ok bytes) :
    ∃ draft clean file, script.PassesOver bytes draft clean file := by
  obtain ⟨draft, hstart, hcomplete⟩ := bind_eq_ok.1 hwrite
  have hstarted := ClassDraft.littered_start hstart
  have hlittered := hstarted.steps script.steps
  simp only [List.nil_append] at hlittered
  obtain ⟨clean, hclean, hbytes⟩ := hlittered.complete hcomplete
  have hholds := (ClassDraft.holds_start hstart).takeBack_steps (ClassDraft.exact_start hstart)
    hstarted hreadable.steps
  have hvisible := hreadable.visible
  have hinvisible := hreadable.invisible
  rw [← flatMap_annotations_succeeded _ draft] at hvisible hinvisible
  obtain ⟨file, hdecode, hshows, -⟩ :=
    hholds.complete hreadable.version hvisible hinvisible hclean
  refine ⟨draft, clean, file, ?_⟩
  exact {
    start_eq := hstart
    taken_back := by
      rw [writeWith, hstart]
      exact hclean
    decode_eq := hdecode
    shows := hshows
    littered := hbytes
    remains_length := fun _ _ => length_of_mem_piecesOf
    eq_iff := hbytes.eq_iff }

/-- Annotations for more parameters than a byte counts, and a method behind them. -/
def sampleFailing : ClassScript where
  header := {
    version := { major := 55, minor := 0 }
    flags := .accPublic
    name := "p/A"
    superName := none
    interfaces := [] }
  steps := [
    .writeMethod
      { flags := .accPublic, name := "b", descriptor := "()V",
        visibleParameterAnnotations := some (List.replicate 256 []) }
      none,
    .writeMethod { flags := .accPublic, name := "m", descriptor := "()V" } none]

/-- Six bytes of the first method stand in front of the second one, which alone is
counted. -/
def sampleFailingBytes : List UInt8 :=
  [0xca, 0xfe, 0xba, 0xbe, 0x00, 0x00, 0x00, 0x37, 0x00, 0x07, 0x01, 0x00, 0x03, 0x70, 0x2f,
    0x41, 0x07, 0x00, 0x01, 0x01, 0x00, 0x01, 0x62, 0x01, 0x00, 0x03, 0x28, 0x29, 0x56, 0x01,
    0x00, 0x22, 0x52, 0x75, 0x6e, 0x74, 0x69, 0x6d, 0x65, 0x56, 0x69, 0x73, 0x69, 0x62, 0x6c,
    0x65, 0x50, 0x61, 0x72, 0x61, 0x6d, 0x65, 0x74, 0x65, 0x72, 0x41, 0x6e, 0x6e, 0x6f, 0x74,
    0x61, 0x74, 0x69, 0x6f, 0x6e, 0x73, 0x01, 0x00, 0x01, 0x6d, 0x00, 0x01, 0x00, 0x02, 0x00,
    0x00, 0x00, 0x00, 0x00, 0x00, 0x00, 0x01, 0x00, 0x01, 0x00, 0x03, 0x00, 0x04, 0x00, 0x01,
    0x00, 0x06, 0x00, 0x04, 0x00, 0x00, 0x00, 0x00]

set_option maxRecDepth 2000 in
theorem writeWith_sampleFailing :
    sampleFailing.writeWith ClassDraft.passOver = .ok sampleFailingBytes := by
  cbv

set_option maxRecDepth 2000 in
theorem readable_sampleFailing : sampleFailing.Readable where
  version := ⟨by decide, by decide⟩
  steps := by
    simp only [sampleFailing, List.forall_mem_cons, ClassStep.Readable]
    refine ⟨⟨by decide, by decide, ?_, ?_, ?_⟩, ⟨by decide, by decide, ?_, ?_, ?_⟩,
      List.forall_mem_nil _⟩
    · intro tables htables
      cases htables
      decide
    all_goals
      intro value hvalue
      cases hvalue
  visible := by decide
  invisible := by decide

/-- The bytes of the sample are those of a class with something left in between. -/
theorem passes_over_sampleFailing :
    sampleFailing.Readable ∧
      sampleFailing.writeWith ClassDraft.passOver = .ok sampleFailingBytes ∧
        ∃ draft clean file, sampleFailing.PassesOver sampleFailingBytes draft clean file :=
  ⟨readable_sampleFailing, writeWith_sampleFailing,
    passes_over readable_sampleFailing writeWith_sampleFailing⟩

/-- What the first method left is read as a method whose attributes go on behind the
end. -/
theorem not_decode_passedOver :
    ¬∀ (script : ClassScript) (bytes : List UInt8), script.Readable →
      script.writeWith ClassDraft.passOver = .ok bytes →
        ∃ draft file, ClassDraft.start script.header script.signature = .ok draft ∧
          ClassFile.decode bytes = .ok file ∧
          file.Shows (ClassContent.adding
            { header := script.header, signature := script.signature }
            (succeeded (draft.turns script.steps))) := by
  intro hdecodes
  obtain ⟨_, file, _, hdecode, _⟩ :=
    hdecodes sampleFailing sampleFailingBytes readable_sampleFailing writeWith_sampleFailing
  have hfails : ClassFile.decode sampleFailingBytes =
      .error (.unreadable (.unexpectedEnd 96)) := by
    cbv
  rw [hfails] at hdecode
  cases hdecode

end ClassScript

end ClassStub
