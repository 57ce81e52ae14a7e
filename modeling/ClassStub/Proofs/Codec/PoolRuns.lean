import ClassStub.Proofs.Codec.Stability

/-!
# Whole runs of interning

A pool that is written is used in many steps, some of which fail, and a failure
leaves behind what was interned before it.  A step that succeeds interns a
constant for its value (`PoolStep.Interns`), and the lookup of its kind finds the
value (`PoolStep.Finds`).  Whatever the steps were, the builder keeps what is
promised of it (`PoolStep.accounts_run`): the indices that were returned stand for
what was interned, in the builder and in the pool that is written.
-/

namespace ClassStub

/-! ## Steps -/

/-- An entry that is looked up is in its slot, and usable. -/
theorem Pool.slot_of_entry {pool : Pool} {index : UInt16} {constant : Constant}
    (hentry : pool.entry index = .ok constant) :
    pool.slots[index.toNat]? = some constant ∧ constant ≠ .unusable := by
  unfold entry at hentry
  split at hentry
  · cases hentry
  · cases hentry
  · rename_i found husable hslot
    cases hentry
    exact ⟨hslot, husable⟩

/-- A text that is looked up is an entry of the pool. -/
theorem Pool.entry_of_javaText {pool : Pool} {index : UInt16} {text : JavaText}
    (htext : pool.javaText index = .ok text) : pool.entry index = .ok (.utf8 text) := by
  rw [javaText, bind_eq_ok] at htext
  obtain ⟨constant, hentry, hkind⟩ := htext
  cases constant <;> cases hkind
  exact hentry

/-- A use of a pool that is written. -/
inductive PoolStep where
  | utf8 (text : String)
  | javaText (text : JavaText)
  | classRef (name : String)
  | string (text : String)
  | javaString (text : JavaText)
  | integer (value : Int32)
  | float (bits : UInt32)
  | long (value : Int64)
  | double (bits : UInt64)
  | nameAndType (name descriptor : String)
  | methodRef (member : MemberRef)
  | intern (constant : Constant)

namespace PoolStep

/-- The function of the pool that a step calls. -/
def perform : PoolStep → Encoder UInt16
  | utf8 text => PoolBuilder.utf8 text
  | javaText text => PoolBuilder.javaText text
  | classRef name => PoolBuilder.classRef name
  | string text => PoolBuilder.string text
  | javaString text => PoolBuilder.javaString text
  | integer value => PoolBuilder.intern (.integer value)
  | float bits => PoolBuilder.intern (.float bits)
  | long value => PoolBuilder.intern (.long value)
  | double bits => PoolBuilder.intern (.double bits)
  | nameAndType name descriptor => PoolBuilder.nameAndType name descriptor
  | methodRef member => PoolBuilder.methodRef member
  | intern constant => PoolBuilder.intern constant

/-- A step that interns no constant which cannot be written. -/
def Encodable : PoolStep → Prop
  | intern constant => constant.Encodable
  | _ => True

/-- The constant that a step interns for its value.  Those that refer to others
refer to what the value is made of. -/
def Interns (pool : Pool) (constant : Constant) : PoolStep → Prop
  | utf8 text => constant = .utf8 (.ofString text)
  | javaText text => constant = .utf8 text
  | classRef name => ∃ text, constant = .classRef text ∧ pool.utf8 text = .ok name
  | string value => ∃ text, constant = .string text ∧ pool.javaText text = .ok (.ofString value)
  | javaString value => ∃ text, constant = .string text ∧ pool.javaText text = .ok value
  | integer value => constant = .integer value
  | float bits => constant = .float bits
  | long value => constant = .long value
  | double bits => constant = .double bits
  | nameAndType name descriptor => ∃ first second, constant = .nameAndType first second ∧
    pool.utf8 first = .ok name ∧ pool.utf8 second = .ok descriptor
  | methodRef member => ∃ owner nameAndType,
    constant = (if member.ofInterface then .interfaceMethodRef owner nameAndType
      else .methodRef owner nameAndType) ∧
    pool.className owner = .ok member.owner ∧
    pool.nameAndType nameAndType = .ok (member.name, member.descriptor)
  | intern given => constant = given

/-- The lookup of the kind of a step finds the value of the step. -/
def Finds (pool : Pool) (index : UInt16) : PoolStep → Prop
  | utf8 text => pool.javaText index = .ok (.ofString text) ∧ pool.utf8 index = .ok text
  | javaText text => pool.javaText index = .ok text
  | classRef name => pool.className index = .ok name
  | string value => pool.stringText index = .ok (.ofString value) ∧ pool.string index = .ok value
  | javaString value => pool.stringText index = .ok value
  | integer value => pool.integer index = .ok value
  | float bits => pool.float index = .ok bits
  | long value => pool.long index = .ok value
  | double bits => pool.double index = .ok bits
  | nameAndType name descriptor => pool.nameAndType index = .ok (name, descriptor)
  | methodRef member => pool.member index = .ok member
  | intern constant => pool.entry index = .ok constant

/-- A step yields the same index when the pool has grown. -/
theorem stable_perform {step : PoolStep} (hencodable : step.Encodable) : step.perform.Stable := by
  cases step with
  | utf8 text => exact PoolBuilder.stable_utf8 text
  | javaText text => exact PoolBuilder.stable_javaText text
  | classRef name => exact PoolBuilder.stable_classRef name
  | string text => exact PoolBuilder.stable_javaString _
  | javaString text => exact PoolBuilder.stable_javaString text
  | integer value => exact @PoolBuilder.stable_intern (.integer value) trivial
  | float bits => exact @PoolBuilder.stable_intern (.float bits) trivial
  | long value => exact @PoolBuilder.stable_intern (.long value) trivial
  | double bits => exact @PoolBuilder.stable_intern (.double bits) trivial
  | nameAndType name descriptor => exact PoolBuilder.stable_nameAndType name descriptor
  | methodRef member => exact PoolBuilder.stable_methodRef member
  | intern constant => exact PoolBuilder.stable_intern hencodable

/-- What interning one constant yields for a step, from what is known about the
constants that it refers to. -/
theorem yields_interned {step : PoolStep} {constant : Constant} {fact : Pool → Prop}
    (hencodable : constant.Encodable)
    (hinterns : ∀ pool, fact pool → step.Interns pool constant) :
    (PoolBuilder.intern constant).Yields fun pool index => fact pool →
      ∃ found, pool.entry index = .ok found ∧ step.Interns pool found := by
  apply (PoolBuilder.yields_intern hencodable).mono
  rintro pool index ⟨hentry, _⟩ hfact
  exact ⟨constant, hentry, hinterns pool hfact⟩

/-- A constant that refers to no other is found behind its index. -/
theorem yields_plain {step : PoolStep} {constant : Constant} (hencodable : constant.Encodable)
    (hinterns : ∀ pool, step.Interns pool constant) :
    (PoolBuilder.intern constant).Yields fun pool index =>
      ∃ found, pool.entry index = .ok found ∧ step.Interns pool found :=
  (@yields_interned step constant (fun _ => True) hencodable fun pool _ => hinterns pool).mono
    fun _ _ hfound => hfound trivial

/-- A text is found behind its index. -/
theorem yields_text {step : PoolStep} {text : JavaText}
    (hinterns : ∀ pool, step.Interns pool (.utf8 text)) :
    (PoolBuilder.javaText text).Yields fun pool index =>
      ∃ found, pool.entry index = .ok found ∧ step.Interns pool found := by
  apply (PoolBuilder.yields_javaText text).mono
  rintro pool index ⟨htext, _⟩
  exact ⟨.utf8 text, Pool.entry_of_javaText htext, hinterns pool⟩

/-- The constant of a string literal is found behind its index. -/
theorem yields_literal {step : PoolStep} {text : JavaText}
    (hinterns : ∀ pool place, pool.javaText place = .ok text →
      step.Interns pool (.string place)) :
    (PoolBuilder.javaString text).Yields fun pool index =>
      ∃ found, pool.entry index = .ok found ∧ step.Interns pool found :=
  (PoolBuilder.yields_javaText text).bind fun place =>
    yields_interned trivial fun pool htext => hinterns pool place htext.1

/-- An index that a step returns leads to the constant of the step. -/
theorem yields_perform {step : PoolStep} (hencodable : step.Encodable) :
    step.perform.Yields fun pool index =>
      ∃ constant, pool.entry index = .ok constant ∧ step.Interns pool constant := by
  cases step with
  | utf8 text => exact yields_text fun _ => rfl
  | javaText text => exact yields_text fun _ => rfl
  | classRef name =>
    exact (PoolBuilder.yields_utf8 name).bind fun text =>
      yields_interned trivial fun _ hname => ⟨text, rfl, hname.1⟩
  | string text => exact yields_literal fun _ place htext => ⟨place, rfl, htext⟩
  | javaString text => exact yields_literal fun _ place htext => ⟨place, rfl, htext⟩
  | integer value => exact yields_plain trivial fun _ => rfl
  | float bits => exact yields_plain trivial fun _ => rfl
  | long value => exact yields_plain trivial fun _ => rfl
  | double bits => exact yields_plain trivial fun _ => rfl
  | nameAndType name descriptor =>
    refine (PoolBuilder.yields_utf8 name).bind fun first => ?_
    refine (PoolBuilder.yields_utf8 descriptor).bind fun second => ?_
    have hpair := @yields_interned (.nameAndType name descriptor) (.nameAndType first second)
      (fun pool => pool.utf8 first = .ok name ∧ pool.utf8 second = .ok descriptor) trivial
      fun _ hparts => ⟨first, second, rfl, hparts⟩
    exact hpair.mono fun _ _ hfound hdescriptor hname => hfound ⟨hname.1, hdescriptor.1⟩
  | methodRef member =>
    refine (PoolBuilder.yields_classRef member.owner).bind fun owner => ?_
    refine (PoolBuilder.yields_nameAndType member.name member.descriptor).bind fun pair => ?_
    have hreference := fun constant => @yields_interned (.methodRef member) constant
      (fun pool => pool.className owner = .ok member.owner ∧
        pool.nameAndType pair = .ok (member.name, member.descriptor))
    cases hinterface : member.ofInterface with
    | true =>
      refine (hreference (.interfaceMethodRef owner pair) trivial fun _ hparts =>
        ⟨owner, pair, by rw [hinterface]; rfl, hparts⟩).mono ?_
      exact fun _ _ hfound hpair howner => hfound ⟨howner.1, hpair.1⟩
    | false =>
      refine (hreference (.methodRef owner pair) trivial fun _ hparts =>
        ⟨owner, pair, by rw [hinterface]; rfl, hparts⟩).mono ?_
      exact fun _ _ hfound hpair howner => hfound ⟨howner.1, hpair.1⟩
  | intern constant => exact yields_plain hencodable fun _ => rfl

/-- The lookup of the kind of a step follows the constant that it interned. -/
theorem finds_of_interns {step : PoolStep} {pool : Pool} {index : UInt16} {constant : Constant}
    (hentry : pool.entry index = .ok constant) (hinterns : step.Interns pool constant) :
    step.Finds pool index := by
  cases step with
  | utf8 text =>
    cases hinterns
    have htext : pool.javaText index = .ok (.ofString text) := by
      rw [Pool.javaText, hentry]
      rfl
    exact ⟨htext, Pool.utf8_of_javaText htext⟩
  | string text =>
    obtain ⟨place, rfl, htext⟩ := hinterns
    rw [Finds, Pool.stringText, Pool.string, hentry]
    exact ⟨htext, Pool.utf8_of_javaText htext⟩
  | classRef name =>
    obtain ⟨place, rfl, hname⟩ := hinterns
    rw [Finds, Pool.className, hentry]
    exact hname
  | javaString text =>
    obtain ⟨place, rfl, htext⟩ := hinterns
    rw [Finds, Pool.stringText, hentry]
    exact htext
  | nameAndType name descriptor =>
    obtain ⟨first, second, rfl, hname, hdescriptor⟩ := hinterns
    rw [Finds, Pool.nameAndType, hentry]
    simp only [Bind.bind, Except.bind, hname, hdescriptor]
    rfl
  | methodRef member =>
    obtain ⟨owner, pair, rfl, howner, hpair⟩ := hinterns
    have hresolved : pool.resolveMember owner pair member.ofInterface = .ok member := by
      simp only [Pool.resolveMember, hpair, howner, Bind.bind, Except.bind]
      rfl
    rw [Finds, Pool.member, hentry]
    cases hinterface : member.ofInterface <;> rwa [hinterface] at hresolved
  -- The other constants hold what the step is given, and refer to nothing.
  | javaText text =>
    cases hinterns
    rw [Finds, Pool.javaText, hentry]
    rfl
  | integer value =>
    cases hinterns
    rw [Finds, Pool.integer, hentry]
    rfl
  | float bits =>
    cases hinterns
    rw [Finds, Pool.float, hentry]
    rfl
  | long value =>
    cases hinterns
    rw [Finds, Pool.long, hentry]
    rfl
  | double bits =>
    cases hinterns
    rw [Finds, Pool.double, hentry]
    rfl
  | intern given =>
    cases hinterns
    exact hentry

/-! ## Runs -/

/-- The builder that steps leave behind, one after another.  A step that fails is
passed over. -/
def runFrom (builder : PoolBuilder) : List PoolStep → PoolBuilder
  | [] => builder
  | step :: more => runFrom (step.perform.builderAfter builder) more

/-- The steps that succeed, each with the index that it returns. -/
def returnedFrom (builder : PoolBuilder) : List PoolStep → List (PoolStep × UInt16)
  | [] => []
  | step :: more =>
    match step.perform builder with
    | .ok index grown => (step, index) :: returnedFrom grown more
    | .error _ left => returnedFrom left more

variable {builder : PoolBuilder} {steps : List PoolStep}

/-- A run keeps what is promised of a pool, and all of its entries. -/
theorem exact_runFrom (hsteps : ∀ step ∈ steps, step.Encodable) (hexact : builder.Exact) :
    (runFrom builder steps).Exact ∧ builder.Later (runFrom builder steps) := by
  induction steps generalizing builder with
  | nil => exact ⟨hexact, .refl builder⟩
  | cons step more ih =>
    rw [List.forall_mem_cons] at hsteps
    have hstep := (stable_perform hsteps.1).keeps builder hexact
    have hmore := ih hsteps.2 hstep.1
    exact ⟨hmore.1, hstep.2.trans hmore.2⟩

/-- A returned index is returned again at the end of the run, without any
change, and leads to the constant of its step in every pool that holds the
result. -/
theorem of_mem_returnedFrom (hsteps : ∀ step ∈ steps, step.Encodable) (hexact : builder.Exact)
    {step : PoolStep} {index : UInt16} (hreturned : (step, index) ∈ returnedFrom builder steps) :
    step.perform (runFrom builder steps) = .ok index (runFrom builder steps) ∧
      ∀ pool : Pool, pool.Holds (runFrom builder steps) →
        ∃ constant, pool.entry index = .ok constant ∧ step.Interns pool constant := by
  induction steps generalizing builder with
  | nil => cases hreturned
  | cons first more ih =>
    rw [List.forall_mem_cons] at hsteps
    have hstable := stable_perform hsteps.1
    have hkept := (hstable.keeps builder hexact).1
    have hlater := (exact_runFrom hsteps.2 hkept).2
    rw [returnedFrom] at hreturned
    rw [runFrom]
    cases hrun : first.perform builder with
    | error cause left =>
      rw [hrun] at hreturned
      rw [show first.perform.builderAfter builder = left by rw [Encoder.builderAfter, hrun]]
        at hkept ⊢
      exact ih hsteps.2 hkept hreturned
    | ok given grown =>
      rw [Encoder.builderAfter_of_ok hrun] at hkept hlater ⊢
      rw [hrun, List.mem_cons] at hreturned
      rcases hreturned with hhead | hmore
      · cases hhead
        have hyield := yields_perform hsteps.1 builder index grown hexact.toValid hrun
        exact ⟨hstable.repeats builder index grown _ hexact hrun hlater, fun pool hpool =>
          hyield.2.2 pool (hlater.slots.trans hpool)⟩
      · exact ih hsteps.2 hkept hmore

end PoolStep

namespace PoolBuilder

/-- What is promised of a builder for which steps have returned indices.  Its size
is that of its entries, which are the constants that it knows; they lie apart
from each other inside the pool.  Each step returns its index again.  The written
pool decodes, whatever follows it, and there the indices lead to the constants
that were interned and to the values that they were interned for. -/
structure Accounts (builder : PoolBuilder) (returned : List (PoolStep × UInt16)) : Prop where
  count_eq : builder.count = 1 + (builder.entries.toList.map Constant.slots).sum
  nodup : builder.entries.toList.Nodup
  mem_iff : ∀ constant, constant ∈ builder.entries.toList ↔ ∃ index, builder.Knows constant index
  count_le : builder.count ≤ maxWord
  inside : ∀ constant index, builder.Knows constant index →
    1 ≤ index.toNat ∧ index.toNat + constant.slots ≤ builder.count
  apart : ∀ first second place other, builder.Knows first place → builder.Knows second other →
    first ≠ second → place.toNat + first.slots ≤ other.toNat ∨
      other.toNat + second.slots ≤ place.toNat
  again : ∀ step index, (step, index) ∈ returned →
    step.perform builder = .ok index builder
  reads : ∃ pool : Pool, pool.size = builder.count ∧
    (∀ position suffix, Pool.decode { position, rest := builder.bytes ++ suffix } =
      .ok pool { position := position + builder.bytes.length, rest := suffix }) ∧
    ∀ step index, (step, index) ∈ returned → step.Finds pool index ∧
      ∃ constant, builder.Knows constant index ∧ pool.entry index = .ok constant ∧
        step.Interns pool constant

variable {builder : PoolBuilder} {constant : Constant} {index : UInt16}

/-- What an index of the written pool leads to is known under this index. -/
theorem Exact.knows_of_entry (hexact : builder.Exact)
    (hentry : builder.pool.entry index = .ok constant) : builder.Knows constant index := by
  obtain ⟨hslot, husable⟩ := Pool.slot_of_entry hentry
  rw [pool, List.getElem?_toArray] at hslot
  obtain ⟨found, hindex, hposition⟩ := hexact.recorded _ constant hslot husable
  obtain rfl := UInt16.toNat.inj hposition
  exact knows_iff.2 hindex

end PoolBuilder

namespace PoolStep

/-- **Runs of a builder keep their promises.** -/
theorem accounts_run (steps : List PoolStep) (hsteps : ∀ step ∈ steps, step.Encodable) :
    (runFrom {} steps).Accounts (returnedFrom {} steps) := by
  have hexact := (exact_runFrom hsteps PoolBuilder.exact_empty).1
  exact {
    count_eq := hexact.count_eq
    nodup := hexact.nodup
    mem_iff := fun constant => by simp only [hexact.mem_iff, PoolBuilder.knows_iff]
    count_le := hexact.next_le
    inside := fun _ _ => hexact.inside
    apart := fun _ _ _ _ => hexact.apart
    again := fun _ _ hreturned =>
      (of_mem_returnedFrom hsteps PoolBuilder.exact_empty hreturned).1
    reads := by
      refine ⟨(runFrom {} steps).pool, ?_, ?_, ?_⟩
      · rw [PoolBuilder.count, hexact.next_eq]
        exact List.size_toArray
      · exact fun position suffix => PoolBuilder.reads_pool hexact.toValid position suffix
      · intro step index hreturned
        have hfound := (of_mem_returnedFrom hsteps PoolBuilder.exact_empty hreturned).2
        obtain ⟨constant, hentry, hinterns⟩ := hfound _ (PoolBuilder.holds_pool _)
        exact ⟨finds_of_interns hentry hinterns, constant, hexact.knows_of_entry hentry, hentry,
          hinterns⟩ }

/-- A member, a number of 64 bits that is interned twice, and texts that are known
from earlier steps. -/
def sample : List PoolStep :=
  [.methodRef { owner := "p/A", name := "m", descriptor := "()V" }, .long 5, .intern (.long 5),
    .string "a", .classRef "p/A", .intern (.utf8 (.ofString "m"))]

theorem accounts_run_sample :
    (∀ step ∈ sample, step.Encodable) ∧
      (returnedFrom {} sample).map Prod.snd = [6, 7, 7, 10, 2, 3] ∧
        (runFrom {} sample).Accounts (returnedFrom {} sample) := by
  have hsteps : ∀ step ∈ sample, step.Encodable := by
    simp only [sample, List.forall_mem_cons, Encodable]
    exact ⟨trivial, trivial, trivial, trivial, trivial, by unfold Constant.Encodable; decide, nofun⟩
  exact ⟨hsteps, by cbv, accounts_run sample hsteps⟩

end PoolStep

end ClassStub

