import ClassStub.Proofs.Codec.Script
import ClassStub.Proofs.Codec.Stability

/-!
# What members that cannot be encoded leave

A call that adds a member puts one piece into the table of its kind: the whole member,
or, if something of it cannot be encoded, its flags and the indices that it got before
the failure (`MemberCall.perform_eq`).  Only whole members are counted.  So a draft on
which failing calls are passed over goes side by side with one on which they are taken
back: at each step the two differ in just those remains (`ClassDraft.Littered.step`).
-/

namespace ClassStub

open Encoder

/-! ## What a member leaves -/

/-- What a member that cannot be encoded leaves in its table: its flags, and the
indices of its name and of its descriptor if it got so far. -/
def memberRemains (flags : AccessFlags) (name descriptor : String) (builder : PoolBuilder) :
    List UInt8 :=
  match PoolBuilder.utf8 name builder with
  | .error _ _ => Bytes.u16 flags
  | .ok nameIndex named =>
    match PoolBuilder.utf8 descriptor named with
    | .error _ _ => Bytes.u16 flags ++ Bytes.u16 nameIndex
    | .ok descriptorIndex _ =>
      Bytes.u16 flags ++ Bytes.u16 nameIndex ++ Bytes.u16 descriptorIndex

/-- A member that failed leaves one, two or three words. -/
theorem length_memberRemains (flags : AccessFlags) (name descriptor : String)
    (builder : PoolBuilder) :
    (memberRemains flags name descriptor builder).length ∈ [2, 4, 6] := by
  unfold memberRemains
  cases PoolBuilder.utf8 name builder with
  | error cause stopped => simp
  | ok nameIndex named =>
    cases hdescriptor : PoolBuilder.utf8 descriptor named <;> simp [hdescriptor]

/-- What one call leaves in a table of members. -/
inductive Piece where
  | entry (bytes : List UInt8)
  | remains (bytes : List UInt8)

namespace Piece

def bytes : Piece → List UInt8
  | entry bytes => bytes
  | remains bytes => bytes

/-- The bytes of a whole member, and nothing of one that failed. -/
def entryBytes : Piece → List UInt8
  | entry bytes => bytes
  | remains _ => []

/-- Whether a piece is a whole member. -/
def IsEntry : Piece → Prop
  | entry _ => True
  | remains _ => False

/-- If no call failed, all bytes are those of whole members. -/
theorem flatMap_bytes_eq {pieces : List Piece} (hpieces : ∀ piece ∈ pieces, piece.IsEntry) :
    pieces.flatMap Piece.bytes = pieces.flatMap Piece.entryBytes := by
  refine List.flatMap_congr fun piece hpiece => ?_
  cases piece with
  | entry bytes => rfl
  | remains bytes => exact (hpieces _ hpiece).elim

/-- The bytes of whole members are among all that is left. -/
theorem length_entryBytes_le (pieces : List Piece) :
    (pieces.flatMap Piece.entryBytes).length ≤ (pieces.flatMap Piece.bytes).length := by
  induction pieces with
  | nil => exact Nat.le_refl 0
  | cons piece more ih =>
    have hpiece : piece.entryBytes.length ≤ piece.bytes.length := by
      cases piece with
      | entry bytes => exact Nat.le_refl _
      | remains bytes => exact Nat.zero_le _
    simp only [List.flatMap_cons, List.length_append]
    omega

/-- What is left of failed calls can be told from the length. -/
theorem isEntry_of_length_eq {pieces : List Piece}
    (hremains : ∀ bytes, Piece.remains bytes ∈ pieces → bytes.length ∈ [2, 4, 6])
    (hlength : (pieces.flatMap Piece.bytes).length ≤ (pieces.flatMap Piece.entryBytes).length) :
    ∀ piece ∈ pieces, piece.IsEntry := by
  induction pieces with
  | nil => exact List.forall_mem_nil _
  | cons piece more ih =>
    have hmore := length_entryBytes_le more
    simp only [List.flatMap_cons, List.length_append] at hlength
    cases piece with
    | entry bytes =>
      simp only [Piece.bytes, Piece.entryBytes] at hlength
      refine List.forall_mem_cons.2 ⟨trivial, ih (fun bytes hmem => ?_) (by omega)⟩
      exact hremains bytes (List.mem_cons_of_mem _ hmem)
    | remains bytes =>
      have hleft := hremains bytes List.mem_cons_self
      simp only [List.mem_cons, List.not_mem_nil, or_false] at hleft
      simp only [Piece.bytes, Piece.entryBytes, List.length_nil] at hlength
      omega

end Piece

namespace MemberTable

/-- The table behind a call. -/
def addPiece (table : MemberTable) : Piece → MemberTable
  | .entry bytes => table.add bytes
  | .remains bytes => { table with encoded := table.encoded.append bytes }

/-- The table behind a call that leaves nothing if it fails. -/
def addEntry (table : MemberTable) : Piece → MemberTable
  | .entry bytes => table.add bytes
  | .remains _ => table

/-- Two tables with the same members, one of which also has what failed calls left. -/
structure Littered (clean real : MemberTable) (pieces : List Piece) : Prop where
  clean_encoded : clean.encoded.toList = pieces.flatMap Piece.entryBytes
  real_encoded : real.encoded.toList = pieces.flatMap Piece.bytes
  count_eq : clean.count = real.count

/-- A piece goes into both tables, as a whole into one of them only if it is an
entry. -/
theorem Littered.add {clean real : MemberTable} {pieces : List Piece}
    (hlittered : clean.Littered real pieces) (piece : Piece) :
    (clean.addEntry piece).Littered (real.addPiece piece) (pieces ++ [piece]) := by
  obtain ⟨hclean, hreal, hcount⟩ := hlittered
  cases piece with
  | entry bytes =>
    exact ⟨by simp [addEntry, MemberTable.add, hclean, Piece.entryBytes],
      by simp [addPiece, MemberTable.add, hreal, Piece.bytes], congrArg (· + 1) hcount⟩
  | remains bytes =>
    exact ⟨by simp [addEntry, hclean, Piece.entryBytes], by simp [addPiece, hreal, Piece.bytes],
      hcount⟩

end MemberTable

/-- A call that adds a member to a class. -/
structure MemberCall where
  kind : MemberKind
  flags : AccessFlags
  name : String
  descriptor : String
  attributes : Encoder (List UInt8)

namespace MemberCall

variable (call : MemberCall)

/-- The call as a step on a draft. -/
def perform : Writing Unit :=
  ClassDraft.writeMember call.kind call.flags call.name call.descriptor call.attributes

/-- The member as it is encoded if nothing fails. -/
def entry : Encoder (List UInt8) :=
  memberEntry call.flags call.name call.descriptor call.attributes

/-- What a call leaves, with the pool that it finds. -/
def piece (builder : PoolBuilder) : Piece :=
  match call.entry builder with
  | .ok bytes _ => .entry bytes
  | .error _ _ => .remains (memberRemains call.flags call.name call.descriptor builder)

variable {call} {builder : PoolBuilder}

/-- A call leaves a whole member if this can be encoded. -/
theorem isEntry_piece_iff :
    (call.piece builder).IsEntry ↔ ∃ bytes grown, call.entry builder = .ok bytes grown := by
  unfold piece
  cases call.entry builder <;> simp [Piece.IsEntry]

/-- A call that fails leaves one, two or three words. -/
theorem length_of_piece_eq {bytes : List UInt8} (hpiece : call.piece builder = .remains bytes) :
    bytes.length ∈ [2, 4, 6] := by
  unfold piece at hpiece
  cases hentry : call.entry builder with
  | ok written grown =>
    rw [hentry] at hpiece
    cases hpiece
  | error cause stopped =>
    rw [hentry] at hpiece
    cases hpiece
    exact length_memberRemains _ _ _ _

end MemberCall

namespace ClassDraft

/-- A draft with bytes left in one table, and with another pool. -/
def leaving (draft : ClassDraft) (kind : MemberKind) (bytes : List UInt8) (pool : PoolBuilder) :
    ClassDraft :=
  changeTable kind (·.addPiece (.remains bytes)) { draft with pool }

variable {α : Type} {draft : ClassDraft} {kind : MemberKind} {written : List UInt8}
  {encoder : Encoder α} {pool grown : PoolBuilder}

theorem pool_leaving : (draft.leaving kind written pool).pool = pool :=
  pool_changeTable kind _ _

theorem leaving_grown :
    { draft.leaving kind written pool with pool := grown } = draft.leaving kind written grown := by
  cases kind <;> rfl

/-- Bytes that are appended are left along with those before. -/
theorem append_leaving_bind (bytes : List UInt8) (next : Unit → Writing Unit) :
    (append kind bytes >>= next) (draft.leaving kind written pool) =
      next () (draft.leaving kind (written ++ bytes) pool) := by
  rw [append_bind]
  cases kind <;>
    simp only [leaving, MemberTable.addPiece, changeTable, Bytes.Buffer.append_append]

/-- What is interned goes on with the pool that it leaves. -/
theorem lift_leaving_of_ok {value : α} (hrun : encoder pool = .ok value grown)
    (next : α → Writing Unit) :
    ((liftM encoder : Writing α) >>= next) (draft.leaving kind written pool) =
      next value (draft.leaving kind written grown) := by
  simp only [Bind.bind, EStateM.bind, liftM, monadLift, MonadLift.monadLift, EStateM.run,
    pool_leaving, hrun, leaving_grown]

/-- What cannot be interned leaves the bytes that were appended before. -/
theorem lift_leaving_of_error {cause : EncodeError} (hrun : encoder pool = .error cause grown)
    (next : α → Writing Unit) :
    ((liftM encoder : Writing α) >>= next) (draft.leaving kind written pool) =
      .error cause (draft.leaving kind written grown) := by
  simp only [Bind.bind, EStateM.bind, liftM, monadLift, MonadLift.monadLift, EStateM.run,
    pool_leaving, hrun, leaving_grown]

theorem leaving_nil (draft : ClassDraft) (kind : MemberKind) :
    draft.leaving kind [] draft.pool = draft := by
  cases kind <;> simp [leaving, MemberTable.addPiece, changeTable, Bytes.Buffer.append]

end ClassDraft

open ClassDraft in
/-- A call puts its piece into the table of its kind, whether it succeeds or
fails. -/
theorem MemberCall.perform_eq (call : MemberCall) (draft : ClassDraft) :
    call.perform draft =
      match call.entry draft.pool with
      | .ok bytes pool => .ok () (changeTable call.kind (·.add bytes) { draft with pool })
      | .error cause pool => .error cause (draft.leaving call.kind
          (memberRemains call.flags call.name call.descriptor draft.pool) pool) := by
  obtain ⟨kind, flags, name, descriptor, attributes⟩ := call
  simp only [perform, entry, memberEntry, memberRemains]
  rw [ClassDraft.writeMember]
  conv_lhs => rw [← leaving_nil draft kind]
  rw [append_leaving_bind]
  cases hname : PoolBuilder.utf8 name draft.pool with
  | error cause stopped =>
    rw [lift_leaving_of_error hname]
    simp only [Bind.bind, EStateM.bind, hname, List.nil_append]
  | ok nameIndex named =>
    rw [lift_leaving_of_ok hname, append_leaving_bind]
    cases hdescriptor : PoolBuilder.utf8 descriptor named with
    | error cause stopped =>
      rw [lift_leaving_of_error hdescriptor]
      simp only [Bind.bind, EStateM.bind, hname, hdescriptor, List.nil_append]
    | ok descriptorIndex described =>
      rw [lift_leaving_of_ok hdescriptor, append_leaving_bind]
      cases hattributes : attributes described with
      | error cause stopped =>
        rw [lift_leaving_of_error hattributes]
        simp only [Bind.bind, EStateM.bind, hname, hdescriptor, hattributes, List.nil_append]
      | ok table grown =>
        rw [lift_leaving_of_ok hattributes, append_leaving_bind]
        simp only [Bind.bind, EStateM.bind, hname, hdescriptor, hattributes, List.nil_append]
        cases kind <;> simp only [leaving, MemberTable.addPiece, List.append_assoc] <;> rfl

/-! ## Drafts behind a call -/

namespace ClassDraft

/-- The draft behind a step that is passed over if it fails, with all that it left. -/
def passOver (step : Writing Unit) (draft : ClassDraft) : ClassDraft :=
  match step draft with
  | .ok _ next | .error _ next => next

/-- The draft behind a step that is taken back if it fails.  What it interned stays
interned. -/
def takeBack (step : Writing Unit) (draft : ClassDraft) : ClassDraft :=
  match step draft with
  | .ok _ next => next
  | .error _ stopped => { draft with pool := stopped.pool }

def table (draft : ClassDraft) : MemberKind → MemberTable
  | .field => draft.fields
  | .method => draft.methods

/-- A draft without its members. -/
def bare (draft : ClassDraft) : ClassDraft :=
  { draft with fields := {}, methods := {} }

variable {draft clean real : ClassDraft}

/-- A table of members is changed without the rest of the draft. -/
theorem bare_changeTable (kind : MemberKind) (change : MemberTable → MemberTable)
    (draft : ClassDraft) : (changeTable kind change draft).bare = draft.bare := by
  cases kind <;> rfl

/-- The table of one kind is changed without that of the other. -/
theorem table_changeTable (kind other : MemberKind) (change : MemberTable → MemberTable)
    (draft : ClassDraft) : (changeTable kind change draft).table other =
      if kind = other then change (draft.table other) else draft.table other := by
  cases kind <;> cases other <;> rfl

/-- A call that is passed over leaves its piece. -/
theorem passOver_call (call : MemberCall) (draft : ClassDraft) :
    passOver call.perform draft = changeTable call.kind (·.addPiece (call.piece draft.pool))
      { draft with pool := call.entry.builderAfter draft.pool } := by
  rw [passOver, call.perform_eq, MemberCall.piece, builderAfter]
  cases call.entry draft.pool <;> rfl

/-- A call that is taken back leaves its piece only if it is a whole member. -/
theorem takeBack_call (call : MemberCall) (draft : ClassDraft) :
    takeBack call.perform draft = changeTable call.kind (·.addEntry (call.piece draft.pool))
      { draft with pool := call.entry.builderAfter draft.pool } := by
  rw [takeBack, call.perform_eq, MemberCall.piece, builderAfter]
  cases call.entry draft.pool with
  | ok bytes pool => rfl
  | error cause pool =>
    simp only [pool_leaving]
    cases call.kind <;> rfl

/-- Two drafts of the same class, one of which also has what failed calls left. -/
structure Littered (clean real : ClassDraft) (pieces : MemberKind → List Piece) : Prop where
  bare_eq : clean.bare = real.bare
  tables : ∀ kind, (clean.table kind).Littered (real.table kind) (pieces kind)

variable {pieces : MemberKind → List Piece}

/-- Both drafts have the same pool. -/
theorem Littered.pool_eq (hlittered : Littered clean real pieces) : clean.pool = real.pool := by
  change clean.bare.pool = real.bare.pool
  rw [hlittered.bare_eq]

/-- A call adds its piece, or of a failed call nothing. -/
theorem Littered.call (hlittered : Littered clean real pieces) (call : MemberCall) :
    Littered (takeBack call.perform clean) (passOver call.perform real) fun kind =>
      pieces kind ++ if call.kind = kind then [call.piece real.pool] else [] := by
  rw [takeBack_call, passOver_call, hlittered.pool_eq]
  constructor
  · rw [bare_changeTable, bare_changeTable]
    exact congrArg (fun bare => { bare with pool := call.entry.builderAfter real.pool })
      hlittered.bare_eq
  · intro kind
    have htable := hlittered.tables kind
    rw [table_changeTable, table_changeTable]
    by_cases hkind : call.kind = kind
    · rw [if_pos hkind, if_pos hkind, if_pos hkind]
      have hadded := htable.add (call.piece real.pool)
      cases kind <;> exact hadded
    · rw [if_neg hkind, if_neg hkind, if_neg hkind, List.append_nil]
      cases kind <;> exact htable

end ClassDraft

/-! ## Steps in their turns -/

namespace ClassStep

/-- The call of a step that adds a member. -/
def call? : ClassStep → Option MemberCall
  | writeField field => some {
      kind := .field
      flags := field.flags
      name := field.name
      descriptor := field.descriptor
      attributes := Attribute.encodeTable field.attributes }
  | writeMethod method body => some {
      kind := .method
      flags := method.flags
      name := method.name
      descriptor := method.descriptor
      attributes := ClassDraft.encodeMethodAttributes method body }
  | _ => none

/-- What a step leaves in the table of a kind. -/
def pieces (kind : MemberKind) (builder : PoolBuilder) (step : ClassStep) : List Piece :=
  match step.call? with
  | some call => if call.kind = kind then [call.piece builder] else []
  | none => []

/-- What a step leaves is the piece of its call. -/
theorem mem_pieces_iff {kind : MemberKind} {builder : PoolBuilder} {step : ClassStep}
    {piece : Piece} : piece ∈ step.pieces kind builder ↔
      ∃ call, step.call? = some call ∧ call.kind = kind ∧ piece = call.piece builder := by
  unfold pieces
  cases step.call? with
  | none => simp
  | some call =>
    by_cases hkind : call.kind = kind
    · simp [hkind]
    · simp [hkind]

/-- A step that adds a member is its call. -/
theorem perform_of_call {step : ClassStep} {call : MemberCall} (hcall : step.call? = some call) :
    step.perform = call.perform := by
  cases step with
  | writeField field =>
    cases hcall
    rfl
  | writeMethod method body =>
    cases hcall
    rfl
  | _ => cases hcall

end ClassStep

namespace ClassDraft

variable {clean real : ClassDraft} {pieces : MemberKind → List Piece}

/-- What changes nothing of the tables keeps the difference. -/
theorem Littered.change (hlittered : Littered clean real pieces)
    (change : ClassDraft → ClassDraft) (hbare : ∀ draft, (change draft).bare = change draft.bare)
    (htable : ∀ draft kind, (change draft).table kind = draft.table kind) :
    Littered (change clean) (change real) fun kind => pieces kind ++ [] := by
  constructor
  · rw [hbare, hbare, hlittered.bare_eq]
  · intro kind
    rw [htable, htable, List.append_nil]
    exact hlittered.tables kind

/-- A step adds its piece, or of a failed call nothing. -/
theorem Littered.step (hlittered : Littered clean real pieces) (step : ClassStep) :
    Littered (takeBack step.perform clean) (passOver step.perform real) fun kind =>
      pieces kind ++ step.pieces kind real.pool := by
  cases hcall : step.call? with
  | some call =>
    have hcalled := hlittered.call call
    simpa only [ClassStep.pieces, hcall, ClassStep.perform_of_call hcall] using hcalled
  | none =>
    simp only [ClassStep.pieces, hcall]
    cases step with
    | markDeprecated =>
      exact hlittered.change ClassDraft.markDeprecated (fun _ => rfl) fun _ kind => by
        cases kind <;> rfl
    | annotate visible annotations =>
      refine hlittered.change (·.annotate visible annotations) (fun _ => ?_)
        fun _ kind => ?_
      · cases visible <;> rfl
      · cases visible <;> cases kind <;> rfl
    | listInnerClass record =>
      exact hlittered.change (·.listInnerClass record) (fun _ => rfl) fun _ kind => by
        cases kind <;> rfl
    | writeField field => cases hcall
    | writeMethod method body => cases hcall

end ClassDraft

end ClassStub
