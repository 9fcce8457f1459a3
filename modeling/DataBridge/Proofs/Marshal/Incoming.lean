import DataBridge.Proofs.Flatten.Layout
import DataBridge.Proofs.Marshal.Codec
import DataBridge.Proofs.Marshal.Machine
import DataBridge.Proofs.Resolver.Reachable

/-!
# Incoming programs decode

An incoming program reads a value through slots that it uses again and again.
The statements for a type nevertheless do what the decoder of the type does:
they write the decoded value to the addressed place, or stop with a fault of
the same kind.  The argument follows the type; a record goes through its
members with the part of the object that is already decoded, and an array does
the same with its elements.
-/

namespace DataBridge

namespace Incoming

open Machine Native

variable {α β : Type} {next : Nat} {letters : List Char} {machine : Machine}

/-- A run ends as a decoder does: with the decoded value plugged into the
native value and everything outside unchanged, or with a fault of that kind. -/
def Decodes (next : Nat) (letters : List Char) (plug : α → Native)
    (machine : Machine) (decoded : Except FaultKind α)
    (result : Except Fault Machine) : Prop :=
  match decoded with
  | .ok value => ∃ after, result = .ok after ∧ after.native = plug value ∧
      Frame (Handle.Outer next) letters machine after
  | .error kind => ∃ fault, result = .error fault ∧ fault.kind = kind

private theorem array_error {handle : Handle} {wire : Wire} {kind : FaultKind}
    (bound : machine.read handle = .ok wire)
    (refused : wire.items = .error kind) :
    ∃ fault, machine.array handle = .error fault ∧ fault.kind = kind := by
  refine ⟨.typeMismatch .array handle.text, ?_, ?_⟩
  · rw [Machine.array, bound]
    cases wire <;> first | rfl | cases refused
  · cases wire <;> cases refused <;> rfl

private theorem object_error {handle : Handle} {wire : Wire} {kind : FaultKind}
    (bound : machine.read handle = .ok wire)
    (refused : wire.members = .error kind) :
    ∃ fault, machine.object handle = .error fault ∧ fault.kind = kind := by
  refine ⟨.typeMismatch .object handle.text, ?_, ?_⟩
  · rw [Machine.object, bound]
    cases wire <;> first | rfl | cases refused
  · cases wire <;> cases refused <;> rfl

namespace Decodes

variable {plug : α → Native} {whole : β → Native} {first : Except FaultKind α}
  {result : Except Fault Machine}

theorem bind {rest : α → Except FaultKind β}
    {go : Machine → Except Fault Machine}
    (head : Decodes next letters plug machine first result)
    (tail : ∀ value after, after.native = plug value →
      Frame (Handle.Outer next) letters machine after →
      Decodes next letters whole after (rest value) (go after)) :
    Decodes next letters whole machine (first >>= rest) (result >>= go) := by
  cases first with
  | error kind =>
      obtain ⟨fault, failed, same⟩ := head
      rw [failed]
      exact ⟨fault, rfl, same⟩
  | ok value =>
      obtain ⟨middle, done, native, frame⟩ := head
      rw [done]
      have continued := tail value middle native frame
      simp only [ok_bind]
      cases decoded : rest value with
      | error kind =>
          rw [decoded] at continued
          exact continued
      | ok final =>
          rw [decoded] at continued
          obtain ⟨after, ended, holds, later⟩ := continued
          exact ⟨after, ended, holds, frame.trans later⟩

theorem map {change : α → β}
    (decodes : Decodes next letters (fun value =>
      whole (change value)) machine first result) :
    Decodes next letters whole machine (do return change (← first)) result := by
  cases first with
  | error kind => exact decodes
  | ok value => exact decodes

/-- A run that starts after a frame, in a part with more names of its own. -/
theorem widen {later : Nat} {fewer : List Char} {middle : Machine}
    (decodes : Decodes later fewer plug middle first result)
    (order : next ≤ later) (subset : fewer ⊆ letters)
    (frame : Frame (Handle.Outer next) letters machine middle) :
    Decodes next letters plug machine first result := by
  cases first with
  | error kind => exact decodes
  | ok value =>
      obtain ⟨after, done, native, inner⟩ := decodes
      have outer :=
        inner.mono (fun _ outer => Handle.Outer.mono outer order) subset
      exact ⟨after, done, native, frame.trans outer⟩

end Decodes

/-- The surroundings of statements that read the value `wire` of a handle and
write below a place. -/
structure Site (letters : List Char) (source : Handle) (wire : Wire)
    (dest : Place) (steps : List Step) (machine : Machine) : Prop where
  distinct : letters.Nodup
  bound : machine.read source = .ok wire
  avoids : dest.Avoids letters
  located : machine.steps dest.segments = .ok steps

namespace Site

variable {source : Handle} {wire : Wire} {dest : Place} {steps : List Step}
  {after : Machine}

theorem keep (site : Site letters source wire dest steps machine)
    (outer : source.Outer next)
    (frame : Frame (Handle.Outer next) letters machine after) :
    Site letters source wire dest steps after where
  distinct := site.distinct
  bound := (frame.read source outer).trans site.bound
  avoids := site.avoids
  located := (frame.steps site.avoids).trans site.located

theorem member (site : Site letters source wire dest steps machine)
    (name : String) (value : Wire) (next : Nat) :
    Site letters (.slot next) value (dest.field name) (steps ++ [.member name])
      (machine.bind (.slot next) value) where
  distinct := site.distinct
  bound := read_bind_self
  avoids := site.avoids.field name
  located := by
    have frame : Frame (fun _ => False) letters machine
        (machine.bind (.slot next) value) :=
      .bind id value
    exact steps_field ((frame.steps site.avoids).trans site.located)

theorem element {letter : Char} {position : Nat}
    (site : Site (letter :: letters) source wire dest steps machine)
    (found : machine.index letter = .ok position) (holder : Handle)
    (value : Wire) :
    Site letters holder value (dest.index letter) (steps ++ [.element position])
      (machine.bind holder value) where
  distinct := (List.nodup_cons.mp site.distinct).2
  bound := read_bind_self
  avoids := site.avoids.index (List.nodup_cons.mp site.distinct).1
  located := by
    have frame : Frame (fun _ => False) (letter :: letters) machine
        (machine.bind holder value) := .bind id value
    exact steps_index ((frame.steps site.avoids).trans site.located) found

end Site

/-- The statements for a single value of the type do what its decoder does.
A record is read piece by piece, so its handle has to outlast the run. -/
def ReadsType (type : FieldType) : Prop :=
  ∀ {next : Nat} {letters : List Char} {source : Handle} {wire : Wire}
    {dest : Place}
    {steps : List Step} {machine : Machine} {plug : Native → Native},
    type.depth ≤ letters.length →
    (∀ record, type = .record record → source.Outer next) →
    Site letters source wire dest steps machine →
    Around steps plug →
    machine.native = plug (zeroedType type) →
    Decodes next letters plug machine (type.decode wire)
      (run (Layout.inType source dest next letters type) machine)

/-- The statements for a member do what its decoder does. -/
def ReadsField (field : Field) : Prop :=
  ∀ {next : Nat} {letters : List Char} {source : Handle} {wire : Wire}
    {dest : Place}
    {steps : List Step} {machine : Machine} {plug : Native → Native},
    field.depth ≤ letters.length →
    source.Outer next →
    Site letters source wire dest steps machine →
    Around steps plug →
    machine.native = plug (zeroed field) →
    Decodes next letters plug machine (field.decode wire)
      (run (Layout.inField source dest next letters field) machine)

private theorem reads_leaf (leaf : Leaf) : ReadsType (.leaf leaf) := by
  intro next letters source wire dest steps machine plug _ _ site around zero
  have decoded : (FieldType.leaf leaf).decode wire =
      (leaf.ofWire wire dest).mapError Fault.kind := leaf.decode_eq wire dest
  rw [decoded, Layout.inType, run_single, step, site.bound, ok_bind]
  cases converted : leaf.ofWire wire dest with
  | error fault => exact ⟨fault, rfl, rfl⟩
  | ok value =>
      refine ⟨{ machine with native := plug value }, ?_, rfl, fun _ _ =>
        rfl, fun _ _ => rfl⟩
      rw [ok_bind, store, site.located, ok_bind, zero, around.writes]
      rfl

/-- Reading an element hands it to the statements for it. -/
theorem reads_element {type : FieldType} (reads : ReadsType type) (next : Nat)
    {source : Handle} {letter : Char} {free : List Char} {items : List Wire}
    {dest : Place} {steps : List Step} {position : Nat} {plug : Native → Native}
    (enough : type.depth ≤ free.length)
    (site : Site (letter :: free) source (.array items) dest steps machine)
    (around : Around (steps ++ [.element position]) plug)
    (zero : machine.native = plug (zeroedType type)) :
    Decodes next (letter :: free) plug machine
      (do type.decode (← Wire.item items position))
      (run (.getElement source letter (type.holder next) ::
        Layout.inType (type.holder next) (dest.index letter)
          (next + 1) free type)
        (machine.enter letter position)) := by
  have entered : Frame (Handle.Outer next) (letter :: free) machine
      (machine.enter letter position) := .enter List.mem_cons_self position
  have bound :
      (machine.enter letter position).read source = .ok (.array items) :=
    site.bound
  unfold Wire.item
  cases item : items[position]? with
  | none =>
      have missing : step (.getElement source letter (type.holder next))
          (machine.enter letter position) =
            .error (.indexOutOfRange position items.length) := by
        rw [step, index_enter_self, ok_bind, array_eq_ok_iff.mpr bound,
          ok_bind, item]
        rfl
      exact ⟨_, run_cons_error missing, rfl⟩
  | some value =>
      have fetched : step (.getElement source letter (type.holder next))
          (machine.enter letter position) =
            .ok ((machine.enter letter position).bind (type.holder next)
                value) := by
        rw [step, index_enter_self, ok_bind, array_eq_ok_iff.mpr bound,
          ok_bind, item]
        rfl
      rw [run_cons_ok fetched]
      have inside : Site (letter :: free) source (.array items) dest steps
          (machine.enter letter position) := by
        refine { site with bound := site.bound, located := ?_ }
        exact (entered.steps site.avoids).trans site.located
      have outer : ∀ record, type = .record record →
          (type.holder next).Outer (next + 1) := by
        rintro record rfl
        exact Handle.slot_outer next
      have holds := reads enough outer
        (inside.element index_enter_self (type.holder next) value) around zero
      exact holds.widen (Nat.le_succ next) (List.subset_cons_self _ _)
        (entered.trans (.bind (type.holder_not_outer next) value))

/-- A loop appends the elements that it decodes to those before its start. -/
theorem reads_elements {type : FieldType} (reads : ReadsType type)
    {source : Handle} {letter : Char} {free : List Char} {items : List Wire}
    {dest : Place} {steps : List Step} {plug : Native → Native}
    (enough : type.depth ≤ free.length) (outer : source.Outer next)
    (around : Around steps plug) (count start : Nat) (done : List Native)
    (position : done.length = start)
    (site : Site (letter :: free) source (.array items) dest steps machine)
    (zero : machine.native =
      plug (.array (done ++ List.replicate count (zeroedType type)))) :
    Decodes next (letter :: free)
    (fun values => plug (.array (done ++ values))) machine
      ((List.range' start count).mapM fun index => do
        type.decode (← Wire.item items index))
      (repeated letter
        (run (.getElement source letter (type.holder next) ::
          Layout.inType (type.holder next) (dest.index letter)
            (next + 1) free type))
        count start machine) := by
  induction count generalizing start done machine with
  | zero => exact ⟨machine, rfl, zero, .refl _ _ machine⟩
  | succ count induction =>
      -- The elements before the start are decoded, those after it are still
      -- zero.
      rw [List.range'_succ, List.mapM_cons, repeated]
      have first := reads_element reads next enough site
        (around.element done (List.replicate count (zeroedType type)) position)
          zero
      refine first.bind ?_
      intro value after holds frame
      refine .map ?_
      have later := induction (start + 1) (done ++ [value]) (by simp [position])
        (site.keep outer frame) (by simpa using holds)
      simpa using later

theorem reads_field {field : Field} (reads : ReadsType field.type) :
    ReadsField field := by
  intro next letters source wire dest steps machine plug enough outer site
    around zero
  rcases size : field.arraySize with _ | count
  · rw [Layout.inField_single size, Field.decode_single size]
    rw [Layout.depth_single size] at enough
    rw [zeroed_single size] at zero
    exact reads enough (fun _ _ => outer) site around zero
  · rw [Layout.depth_array size] at enough
    rw [zeroed_array size] at zero
    obtain ⟨letter, free, rfl⟩ : ∃ letter free, letters = letter :: free :=
      List.exists_cons_of_length_pos
        (Nat.lt_of_lt_of_le (Nat.succ_pos _) enough)
    rw [Layout.inField_array size, List.headD_cons, List.tail_cons,
      Field.decode_array size, run_single, step]
    have own : letter ∈ letter :: free := List.mem_cons_self
    cases found : wire.items with
    | error kind =>
        -- A loop runs at least once, and its first statement asks for an array.
        have bound : (machine.enter letter 0).read source = .ok wire :=
          site.bound
        obtain ⟨fault, failed, same⟩ := array_error bound found
        have stops : step (.getElement source letter (field.type.holder next))
            (machine.enter letter 0) = .error fault := by
          rw [step, index_enter_self, ok_bind, failed]
          rfl
        refine ⟨fault, ?_, same⟩
        rw [repeated, run_cons_error stops]
        rfl
    | ok items =>
        obtain rfl : wire = .array items := by
          cases wire <;> cases found
          rfl
        have loop :=
          reads_elements reads (Nat.le_of_succ_le_succ enough) outer around
          (count + 1) 0 [] rfl site zero
        rw [← List.range_eq_range'] at loop
        refine loop.bind ?_
        intro values after holds _
        exact ⟨after.leave letter, rfl, holds, .leave own⟩

private theorem inMembers_private {fields : List Field}
    (hidden : fields.all Field.isPrivate = true) (source : Handle)
    (dest : Place) (next : Nat) (letters : List Char)
    (properties : List (String × Wire)) :
    Layout.inMembers source dest next letters fields = [] ∧
      decodeMembers properties fields = .ok (zeroedMembers fields) := by
  induction fields with
  | nil => exact ⟨rfl, rfl⟩
  | cons member rest induction =>
      simp only [List.all_cons, Bool.and_eq_true] at hidden
      obtain ⟨statements, decoded⟩ := induction hidden.2
      simp [Layout.inMembers, decodeMembers, zeroedMembers, hidden.1,
        statements, decoded]

private theorem inMembers_noObject {fields : List Field} {source : Handle}
    {fault : Fault} (exchanged : fields.all Field.isPrivate = false)
    (failed : machine.object source = .error fault) (dest : Place) (next : Nat)
    (letters : List Char) :
    run (Layout.inMembers source dest next letters fields) machine =
      .error fault := by
  induction fields with
  | nil => cases exchanged
  | cons member rest induction =>
      by_cases hidden : member.isPrivate = true
      · have later : rest.all Field.isPrivate = false := by
          simpa [hidden] using exchanged
        simpa [Layout.inMembers, hidden] using induction later
      · simp only [Layout.inMembers, hidden, if_false, Bool.false_eq_true]
        have stops : step (.getNamed source member.name (.slot next)) machine =
            .error fault := by
          rw [step, failed]
          rfl
        exact run_cons_error stops

/-- Reading a property hands it to the statements for its member. -/
theorem reads_member {member : Field} (reads : ReadsField member) (next : Nat)
    {source : Handle} {properties : List (String × Wire)} {dest : Place}
    {steps : List Step} {plug : Native → Native}
    (enough : member.depth ≤ letters.length)
    (site : Site letters source (.object properties) dest steps machine)
    (around : Around (steps ++ [.member member.name]) plug)
    (zero : machine.native = plug (zeroed member)) :
    Decodes next letters plug machine
      (do member.decode (← Wire.property properties member.name))
      (run (.getNamed source member.name (.slot next) ::
        Layout.inField (.slot next) (dest.field member.name)
          (next + 1) letters member)
        machine) := by
  unfold Wire.property
  cases property : properties.lookup member.name with
  | none =>
      have missing : step (.getNamed source member.name (.slot next)) machine =
          .error (.missingProperty member.name) := by
        rw [step, object_eq_ok_iff.mpr site.bound, ok_bind, property]
        rfl
      exact ⟨_, run_cons_error missing, rfl⟩
  | some value =>
      have fetched : step (.getNamed source member.name (.slot next)) machine =
          .ok (machine.bind (.slot next) value) := by
        rw [step, object_eq_ok_iff.mpr site.bound, ok_bind, property]
        rfl
      rw [run_cons_ok fetched]
      have bound : Frame (Handle.Outer next) letters machine
          (machine.bind (.slot next) value) :=
            .bind (Handle.slot_not_outer next) value
      have holds := reads enough (Handle.slot_outer next)
        (site.member member.name value next) around zero
      exact holds.widen (Nat.le_succ next) (List.Subset.refl _) bound

/-- The members that a run decodes come behind those that are decoded
already. -/
theorem reads_members {fields : List Field}
    (reads : ∀ member ∈ fields, ReadsField member) {source : Handle}
    {properties : List (String × Wire)} {dest : Place} {steps : List Step}
    {plug : Native → Native} (enough : membersDepth fields ≤ letters.length)
    (outer : source.Outer next) (around : Around steps plug)
    (done : List (String × Native))
    (distinct : (done.map Prod.fst ++ fields.map Field.name).Nodup)
    (site : Site letters source (.object properties) dest steps machine)
    (zero : machine.native = plug (.record (done ++ zeroedMembers fields))) :
    Decodes next letters (fun values => plug (.record (done ++ values))) machine
      (decodeMembers properties fields)
      (run (Layout.inMembers source dest next letters fields) machine) := by
  induction fields generalizing done machine with
  | nil => exact ⟨machine, rfl, zero, .refl _ _ machine⟩
  | cons member rest induction =>
      have others : ∀ inner ∈ rest, ReadsField inner := fun inner inside =>
        reads inner (List.mem_cons_of_mem _ inside)
      by_cases hidden : member.isPrivate = true
      · -- A private member has no statements, and its zero is there already.
        rw [membersDepth, if_pos hidden] at enough
        have later :=
          induction others enough (done ++ [(member.name, zeroed member)])
          (by simpa using distinct) site (by simpa [zeroedMembers] using zero)
        rw [Layout.inMembers, if_pos hidden, decodeMembers, if_pos hidden,
          ok_bind]
        refine .map ?_
        simpa using later
      · rw [membersDepth, if_neg hidden, Nat.max_le] at enough
        rw [Layout.inMembers, if_neg hidden, decodeMembers, if_neg hidden,
          ← List.cons_append, run_append]
        have fresh : member.name ∉ done.map Prod.fst := by
          intro known
          exact (List.nodup_append.mp distinct).2.2 _ known _ (by simp) rfl
        have first :=
          reads_member (reads member List.mem_cons_self) next enough.1 site
          (around.member done (zeroedMembers rest) fresh) zero
        refine first.bind ?_
        intro decoded after holds frame
        refine .map ?_
        have later :=
          induction others enough.2 (done ++ [(member.name, decoded)])
          (by simpa using distinct) (site.keep outer frame)
            (by simpa using holds)
        simpa using later

private theorem reads_record {record : Record}
    (distinct : (record.fields.map Field.name).Nodup)
    (reads : ∀ member ∈ record.fields, ReadsField member) :
    ReadsType (.record record) := by
  intro next letters source wire dest steps machine plug enough outer site
    around zero
  rw [Layout.depth_record] at enough
  rw [zeroedType, zeroedRecord_eq] at zero
  rw [Layout.inType_record, FieldType.decode_record]
  by_cases hidden : record.fields.all Field.isPrivate = true
  · obtain ⟨statements, decoded⟩ :=
      inMembers_private hidden source dest next letters []
    simp only [hidden, if_true, statements, pure_eq_ok, ok_bind, decoded]
    exact ⟨machine, rfl, zero, .refl _ _ machine⟩
  · rw [if_neg hidden]
    cases found : wire.members with
    | error kind =>
        obtain ⟨fault, failed, same⟩ := object_error site.bound found
        have exchanged : record.fields.all Field.isPrivate = false := by
          simpa using hidden
        exact ⟨fault, inMembers_noObject exchanged failed dest next letters,
          same⟩
    | ok properties =>
        obtain rfl : wire = .object properties := by
          cases wire <;> cases found
          rfl
        exact (reads_members reads enough (outer record rfl) around [] distinct
          site zero).map

/-- What the statements for a well-named type read is what its decoder
decodes. -/
theorem reads_type {type : FieldType} (wellNamed : type.WellNamed) :
    ReadsType type := by
  induction wellNamed with
  | leaf leaf => exact reads_leaf leaf
  | record distinct _ induction =>
      exact reads_record distinct fun member inside =>
        reads_field (induction member inside)

/-- A program asks its wire root for the value that it reads. -/
theorem wireRoot_inDataset (expression : String) (dest : Place) (next : Nat)
    (letters : List Char) (dataset : Field) :
    Stmt.wireRootList?
      (Layout.inDataset (.external expression) dest next letters dataset) =
        some (.external expression) := by
  obtain ⟨name, type, size, flags, comment, enumName⟩ := dataset
  cases type <;> cases size <;> rfl

private theorem reads_dataset {dataset : Field}
    (wellNamed : dataset.type.WellNamed)
    {source : Handle} {wire : Wire} {dest : Place} {steps : List Step}
    {plug : Native → Native} (enough : dataset.depth ≤ letters.length)
    (outer : source.Outer next)
    (site : Site letters source wire dest steps machine)
    (around : Around steps plug)
    (zero : machine.native = plug (zeroed dataset)) :
    Decodes next letters plug machine (dataset.decode wire)
      (run (Layout.inDataset source dest next letters dataset) machine) := by
  have throughField :=
    reads_field (reads_type wellNamed) enough outer site around zero
  unfold Layout.inDataset
  split
  · rename_i record type single
    rw [Layout.depth_single single, type] at enough
    rw [zeroed_single single, type] at zero
    rw [type] at wellNamed
    rw [Field.decode_single single, type]
    have assigned : step (.assign (.slot next) source) machine =
        .ok (machine.bind (.slot next) wire) := by
      rw [step, site.bound]
      rfl
    rw [run_cons_ok assigned]
    have frame : Frame (Handle.Outer next) letters machine
        (machine.bind (.slot next) wire) :=
          .bind (Handle.slot_not_outer next) wire
    have inside : Site letters (.slot next) wire dest steps
        (machine.bind (.slot next) wire) :=
      { site with
        bound := read_bind_self
        located := (frame.steps site.avoids).trans site.located }
    have body :=
      reads_type wellNamed enough (fun _ _ => Handle.slot_outer next) inside
      around zero
    exact body.widen (Nat.le_succ next) (List.Subset.refl _) frame
  · exact throughField

/-- An incoming program decodes into the addressed place of a zeroed value. -/
theorem marshalIn_dataset {dataset root : Field}
    (wellNamed : dataset.type.WellNamed) {place : Place} {expression : String}
    {naming : Naming} {emission : Emission}
    (flattened : (dataset.emission place (.external expression) .incoming
      naming).1 =
      .ok emission)
    {steps : List Step} {plug : Native → Native}
    (plain : ∀ letter, .index letter ∉ place.segments)
    (located : ∀ machine : Machine, machine.steps place.segments = .ok steps)
    (around : Around steps plug) (zero : zeroed root = plug (zeroed dataset))
    (wire : Wire) :
    (emission.marshalIn root wire).mapError Fault.kind =
      (dataset.decode wire).map plug := by
  obtain ⟨maxSlot, equal⟩ :=
    dataset.emission_eq place (.external expression) .incoming naming
  rw [equal] at flattened
  split at flattened
  · rename_i enough
    cases flattened
    rw [Emission.marshalIn, Emission.wireRoot?, Layout.dataset,
      wireRoot_inDataset]
    have site : Site naming.free (.external expression) wire place steps
        (Machine.bind { native := zeroed root } (.external expression) wire) :=
      { distinct := naming.free_nodup
        bound := read_bind_self
        avoids := fun letter inside => absurd inside (plain letter)
        located := located _ }
    have outer : (Handle.external expression).Outer naming.nextSlot := trivial
    have decodes := reads_dataset wellNamed enough outer site around zero
    cases decoded : dataset.decode wire with
    | error kind =>
        rw [decoded] at decodes
        obtain ⟨fault, failed, same⟩ := decodes
        simp [failed, Except.map, same]
    | ok value =>
        rw [decoded] at decodes
        obtain ⟨after, done, holds, _⟩ := decodes
        simp [done, Except.map, holds]
  · cases flattened

theorem marshalIn_record {record : Record} (wellNamed : record.WellNamed)
    {root expression : String} {naming : Naming} {emission : Emission}
    (flattened : (record.emission { root } (.external expression) .incoming
      naming).1 = .ok emission)
    (wire : Wire) :
    (emission.marshalIn record.asField wire).mapError Fault.kind =
      record.asField.decode wire := by
  rw [Record.emission_eq_asField] at flattened
  have zero : zeroed record.asField = id (zeroed record.asField) := rfl
  rw [marshalIn_dataset wellNamed.asField flattened
    (fun _ => List.not_mem_nil) (fun _ => rfl)
    .here zero]
  cases record.asField.decode wire <;> rfl

/-- The zeroed members of a record around one of them. -/
theorem zeroedMembers_split {fields : List Field} {dataset : Field}
    (inside : dataset ∈ fields) (distinct : (fields.map Field.name).Nodup) :
    ∃ before after,
      zeroedMembers fields = before ++ (dataset.name, zeroed dataset) :: after ∧
      dataset.name ∉ before.map Prod.fst := by
  obtain ⟨before, after, rfl⟩ := List.append_of_mem inside
  refine ⟨zeroedMembers before, zeroedMembers after, ?_, ?_⟩
  · simp [zeroedMembers_eq_map]
  · rw [List.map_append, List.map_cons, List.nodup_append] at distinct
    have names : (zeroedMembers before).map Prod.fst =
        before.map Field.name := by
      simp [zeroedMembers_eq_map, Function.comp_def]
    rw [names]
    intro known
    exact distinct.2.2 _ known _ List.mem_cons_self rfl

theorem marshalIn_member {record : Record} (wellNamed : record.WellNamed)
    {dataset : Field} (inside : dataset ∈ record.fields)
    {root expression : String} {naming : Naming} {emission : Emission}
    (flattened : (dataset.emission (Place.field { root } dataset.name)
      (.external expression) .incoming naming).1 = .ok emission)
    (wire : Wire) :
    (emission.marshalIn record.asField wire).mapError Fault.kind =
      (dataset.decode wire).map fun value =>
        setPart value (.member dataset.name) (zeroed record.asField) := by
  obtain ⟨before, after, split, fresh⟩ :=
    zeroedMembers_split inside wellNamed.distinct
  have zero : zeroed record.asField =
      .record (before ++ (dataset.name, zeroed dataset) :: after) := by
    rw [zeroed_single rfl, ← split]
    exact zeroedRecord_eq record
  have plain : ∀ letter,
      .index letter ∉ (Place.field { root } dataset.name).segments := by
    simp [Place.field]
  rw [marshalIn_dataset (wellNamed.member inside) flattened plain (fun _ => rfl)
    (.member .here before after fresh) zero]
  cases dataset.decode wire with
  | error kind => rfl
  | ok value => simp [Except.map, zero, setPart, setMember_append_cons fresh]

end Incoming

/-- For every record of a resolver, an incoming program is the decoder of what
it addresses: the whole record, or one member of a zeroed record.  It accepts
the same JavaScript values, and refuses the others for the same reason. -/
theorem marshalIn_eq_decode {catalog : Catalog} {record : Record}
    (produced : Resolver.Produces catalog record) (root expression : String)
    (naming : Naming) (wire : Wire) :
    (∀ emission,
      (record.emission { root } (.external expression) .incoming naming).1 =
        .ok emission →
      (emission.marshalIn record.asField wire).mapError Fault.kind =
        record.asField.decode wire) ∧
    ∀ dataset ∈ record.fields, ∀ emission,
      (dataset.emission (Place.field { root } dataset.name)
        (.external expression) .incoming
          naming).1 = .ok emission →
        (emission.marshalIn record.asField wire).mapError Fault.kind =
          (dataset.decode wire).map fun value =>
            Native.setPart value (.member dataset.name)
              (Native.zeroed record.asField) := by
  have wellNamed := produced.wellNamed
  constructor
  · intro emission flattened
    exact Incoming.marshalIn_record wellNamed flattened wire
  · intro dataset inside emission flattened
    exact Incoming.marshalIn_member wellNamed inside flattened wire

def plantWire : Wire :=
  .object [
    ("label", .string "pump"),
    ("axes", .array [
      .object [("speed", .double ⟨⟨4607182418800017408⟩, by decide⟩),
        ("ticks", .array [.int ⟨1, by decide⟩, .int ⟨4000000000, by decide⟩])],
      .object [("speed", .double ⟨⟨4611686018427387904⟩, by decide⟩),
        ("ticks", .array [.int ⟨2, by decide⟩, .int ⟨3, by decide⟩])]])]

/-- The native value of an axis of the plant. -/
def axisNative (speed : Double) (first second : Int) : Native :=
  .record [("speed", .float speed), ("ticks", .array [.int first, .int second]),
    ("offset", .int 0)]

def plantNative : Native :=
  .record [
    ("label", .string "pump"),
    ("axes", .array [axisNative ⟨4607182418800017408⟩ 1 4000000000,
      axisNative ⟨4611686018427387904⟩ 2 3]),
    ("spare", axisNative .zero 0 0)]

theorem marshalIn_plant :
    (∃ emission,
      (Resolver.plant.emission
        { root := "plc" } (.external "message") .incoming {}).1 =
        .ok emission ∧
      (emission.marshalIn Resolver.plant.asField plantWire).mapError
        Fault.kind =
        .ok plantNative ∧
      (emission.marshalIn Resolver.plant.asField
          (.object [("label", .string "pump")])).mapError Fault.kind =
        .error (.missingProperty "axes")) ∧
    ∃ dataset ∈ Resolver.plant.fields, ∃ emission,
      (dataset.emission (Place.field { root := "plc" } dataset.name)
        (.external "message")
        .incoming {}).1 = .ok emission ∧
      (emission.marshalIn Resolver.plant.asField (.string "flood")).mapError
        Fault.kind =
        .error (.stringTooLong 4 5) := by
  have decodes := marshalIn_eq_decode Resolver.plant_produced "plc" "message" {}
  constructor
  · refine ⟨_, rfl, ?_, ?_⟩
    · rw [(decodes plantWire).1 _ rfl]
      rfl
    · rw [(decodes _).1 _ rfl]
      rfl
  · refine ⟨_, .head _, _, rfl, ?_⟩
    rw [(decodes _).2 _ (.head _) _ rfl]
    rfl

end DataBridge
