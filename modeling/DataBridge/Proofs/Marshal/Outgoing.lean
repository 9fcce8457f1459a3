import DataBridge.Proofs.Flatten.Layout
import DataBridge.Proofs.Marshal.Codec
import DataBridge.Proofs.Marshal.Machine
import DataBridge.Proofs.Resolver.Reachable

/-!
# Outgoing programs encode

An outgoing program builds containers from the inside out.  A container is
finished in its own slot before it is stored, and what is built for the next
member or element starts afresh, so the handle of a value holds its encoding in
the end and the handles of the containers around it are untouched.
-/

namespace DataBridge

/-- The native values of the kind of a leaf. -/
def Leaf.Accepts : Leaf → Native → Prop
  | .bool, .bool _ => True
  | .integer _, .int _ => True
  | .float _, .float _ => True
  | .string _, .string _ => True
  | _, _ => False

/-- The native value has the shape that a type and an array size ask of it, as
far as the exchange goes: an array has enough elements, and a record has the
exchanged members. -/
inductive Native.Fits : FieldType → Nat → Native → Prop where
  | leaf {leaf : Leaf} {value : Native} (accepts : leaf.Accepts value) :
      Native.Fits (.leaf leaf) 0 value
  | record {record : Record} {members : List (String × Native)}
      (present : ∀ member ∈ record.exchanged,
        (members.lookup member.name).isSome)
      (fits : ∀ member ∈ record.exchanged, ∀ value,
        members.lookup member.name = some value →
          Native.Fits member.type member.arraySize value) :
      Native.Fits (.record record) 0 (.record members)
  | array {type : FieldType} {size : Nat} {items : List Native}
      (enough : size + 1 ≤ items.length)
      (fits : ∀ index item, index < size + 1 → items[index]? = some item →
        Native.Fits type 0 item) :
      Native.Fits type (size + 1) (.array items)

/-- The native value has the shape of a member. -/
def Field.Fits (field : Field) (value : Native) : Prop :=
  Native.Fits field.type field.arraySize value

theorem Native.Fits.elements {type : FieldType} {size : Nat} {value : Native}
    (fits : Native.Fits type (size + 1) value) :
    ∃ items, value = .array items ∧
      ∀ index < size + 1,
        ∃ item, items[index]? = some item ∧ Native.Fits type 0 item := by
  cases fits with
  | @array _ _ items enough fits =>
      refine ⟨items, rfl, ?_⟩
      intro index below
      have found := List.getElem?_eq_getElem (Nat.lt_of_lt_of_le below enough)
      exact ⟨_, found, fits index _ below found⟩

theorem Native.Fits.members {record : Record} {value : Native}
    (fits : Native.Fits (.record record) 0 value) :
    ∃ members, value = .record members ∧
      ∀ member ∈ record.fields, member.isPrivate = false →
        ∃ part, members.lookup member.name = some part ∧ member.Fits part := by
  cases fits with
  | @record _ members present fits =>
      refine ⟨members, rfl, ?_⟩
      intro member inside exchanged
      have taken : member ∈ record.exchanged := by
        simp [Record.exchanged, inside, exchanged]
      obtain ⟨part, found⟩ := Option.isSome_iff_exists.mp (present member taken)
      exact ⟨part, found, fits member taken part found⟩

theorem Leaf.toWire_eq_encode {leaf : Leaf} {value : Native}
    (accepts : leaf.Accepts value) (place : Place) :
    leaf.toWire value place = .ok (leaf.encode value) := by
  cases leaf <;> cases value <;> first | rfl | exact accepts.elim

namespace Native

theorem child_member {members : List (String × Native)} {name : String}
    {value : Native} (found : members.lookup name = some value) :
    (Native.record members).child (.member name) = value := by
  simp [Native.child, part, found]

theorem child_element {items : List Native} {index : Nat} {value : Native}
    (found : items[index]? = some value) :
    (Native.array items).child (.element index) = value := by
  simp [Native.child, part, found]

end Native

namespace Outgoing

open Machine Native

variable {next : Nat} {letters : List Char} {machine : Machine}

/-- The leaves of an origin, whatever runs in between, bring the leaves of a
JavaScript value into a handle.  Loops over its arrays have iterators left. -/
inductive Gives : List Char → Origin → Machine → FieldType → Nat → Wire →
    Prop where
  | leaf {letters : List Char} {origin : Origin} {machine : Machine}
      {leaf : Leaf} {wire : Wire}
      (binds : ∀ after dest, Frame (fun _ => False) letters machine after →
        after.native = machine.native →
          step (origin.leaf leaf dest) after = .ok (after.bind dest wire)) :
      Gives letters origin machine (.leaf leaf) 0 wire
  | record {letters : List Char} {origin : Origin} {machine : Machine}
      {record : Record}
      {part : Field → Wire}
      (gives : ∀ member ∈ record.exchanged,
        Gives letters (origin.field member.name) machine member.type
          member.arraySize (part member)) :
      Gives letters origin machine (.record record) 0
        (.object (record.exchanged.map fun member =>
          (member.name, part member)))
  | array {letter : Char} {letters : List Char} {origin : Origin}
      {machine : Machine}
      {type : FieldType} {size : Nat} {items : List Wire}
      (fresh : letter ∉ letters) (length : items.length = size + 1)
      (gives : ∀ (index : Nat) item, items[index]? = some item →
        Gives letters (origin.index letter) (machine.enter letter index) type
          0 item) :
      Gives (letter :: letters) origin machine type (size + 1) (.array items)

/-- A run has put a JavaScript value into a handle, and it has changed nothing
else that stands outside. -/
structure Written (next : Nat) (letters : List Char) (dest : Handle)
    (wire : Wire) (before after : Machine) : Prop where
  bound : after.read dest = .ok wire
  native : after.native = before.native
  frame : Frame (fun handle => handle.Outer next ∧ handle ≠ dest) letters
    before after

/-- A handle that is not an outer one can be filled without a trace outside. -/
theorem Written.outside {fewer : List Char} {holder : Handle} {wire : Wire}
    {before after : Machine}
    (written : Written (next + 1) fewer holder wire before after)
    (inner : ¬ holder.Outer next) (subset : fewer ⊆ letters) :
    Frame (Handle.Outer next) letters before after := by
  refine written.frame.mono ?_ subset
  intro handle outer
  refine ⟨outer.mono (Nat.le_succ next), ?_⟩
  rintro rfl
  exact inner outer

namespace Gives

variable {origin : Origin} {type : FieldType} {size : Nat} {wire : Wire}
  {after : Machine}

theorem keep {kept : Handle → Prop}
    (gives : Gives letters origin machine type size wire)
    (frame : Frame kept letters machine after)
    (native : after.native = machine.native) :
    Gives letters origin after type size wire := by
  have weaker : Frame (fun _ => False) letters machine after :=
    frame.mono (fun _ => False.elim) (List.Subset.refl letters)
  clear frame
  induction gives generalizing after with
  | leaf binds =>
      apply Gives.leaf
      intro later dest further unchanged
      exact binds later dest (weaker.trans further) (unchanged.trans native)
  | record _ induction =>
      exact .record fun member inside => induction member inside native weaker
  | @array letter letters origin machine type size items fresh length
        _ induction =>
      refine .array fresh length fun index item found =>
        induction index item found native ?_
      refine ⟨nofun, ?_⟩
      intro other outside
      by_cases same : other = letter
      · rw [same, index_enter_self, index_enter_self]
      · rw [index_enter_of_ne same, index_enter_of_ne same]
        exact weaker.index other (by simp [same, outside])

theorem elements (gives : Gives letters origin machine type (size + 1) wire) :
    ∃ letter free items, letters = letter :: free ∧ wire = .array items ∧
      letter ∉ free ∧
      items.length = size + 1 ∧ ∀ (index : Nat) item,
        items[index]? = some item →
        Gives free (origin.index letter) (machine.enter letter index) type 0
          item := by
  cases gives with
  | array fresh length gives => exact ⟨_, _, _, rfl, rfl, fresh, length, gives⟩

theorem members {record : Record}
    (gives : Gives letters origin machine (.record record) 0 wire) :
    ∃ part : Field → Wire,
      wire = .object (record.exchanged.map fun member =>
        (member.name, part member)) ∧
        ∀ member ∈ record.exchanged,
          Gives letters (origin.field member.name) machine member.type
            member.arraySize
            (part member) := by
  cases gives with
  | record gives => exact ⟨_, rfl, gives⟩

end Gives

/-- The statements for a single value put what the origin gives into a handle.
A record is built in its handle piece by piece, so that has to be an outer
one. -/
def WritesType (type : FieldType) : Prop :=
  ∀ {next : Nat} {letters : List Char} {dest : Handle} {origin : Origin}
    {machine : Machine}
    {wire : Wire},
    (∀ record, type = .record record → dest.Outer next) →
    Gives letters origin machine type 0 wire →
    ∃ after,
      run (Layout.outType origin dest next letters type) machine = .ok after ∧
        Written next letters dest wire machine after

/-- The statements for a member put what the origin gives into a handle. -/
def WritesField (field : Field) : Prop :=
  ∀ {next : Nat} {letters : List Char} {dest : Handle} {origin : Origin}
    {machine : Machine}
    {wire : Wire},
    (dest.Outer next ∨ field.holder next = .property) →
    Gives letters origin machine field.type field.arraySize wire →
    ∃ after,
      run (Layout.outField origin dest next letters field) machine = .ok after ∧
        Written next letters dest wire machine after

private theorem writes_leaf (leaf : Leaf) : WritesType (.leaf leaf) := by
  intro next letters dest origin machine wire _ gives
  cases gives with
  | leaf binds =>
      refine ⟨machine.bind dest wire, ?_, read_bind_self, rfl,
        .bind (fun kept => kept.2 rfl) _⟩
      rw [Layout.outType, run_single]
      exact binds machine dest (.refl _ _ machine) rfl

private theorem insert_fresh {name : String} {wire : Wire}
    {members : List (String × Wire)} (fresh : name ∉ members.map Prod.fst) :
    Wire.insert name wire members = members ++ [(name, wire)] := by
  induction members with
  | nil => rfl
  | cons entry rest induction =>
      obtain ⟨first, old⟩ := entry
      simp only [List.map_cons, List.mem_cons, not_or] at fresh
      have different : first ≠ name := fun same => fresh.1 same.symm
      simp [Wire.insert, different, induction fresh.2]

private theorem setElement_length (wire : Wire) (items : List Wire) :
    Wire.setElement wire items.length items = items ++ [wire] := by
  induction items with
  | nil => rfl
  | cons first rest induction => simp [Wire.setElement, induction]

/-- One round of a loop appends what the origin gives for its element. -/
theorem writes_element {type : FieldType} (writes : WritesType type)
    {letter : Char} {free : List Char} {dest : Handle} {origin : Origin}
    (outer : dest.Outer next) (fresh : letter ∉ free) {done : List Wire}
    {item : Wire}
    (gives : Gives free (origin.index letter) (machine.enter letter done.length)
      type 0 item)
    (bound : machine.read dest = .ok (.array done)) :
    ∃ after,
      run (Layout.outType (origin.index letter) (type.holder next)
        (next + 1) free type ++
          [.setElement dest letter (type.holder next)])
          (machine.enter letter done.length) = .ok after ∧
        Written next (letter :: free) dest (.array (done ++ [item])) machine
          after := by
  have entered :
      Frame (fun handle => handle.Outer next ∧ handle ≠ dest) (letter :: free)
        machine (machine.enter letter done.length) :=
    .enter List.mem_cons_self _
  have holder : ∀ record, type = .record record →
      (type.holder next).Outer (next + 1) := by
    rintro record rfl
    exact Handle.slot_outer next
  obtain ⟨middle, ran, written⟩ := writes holder gives
  have index : middle.index letter = .ok done.length :=
    (written.frame.index letter fresh).trans index_enter_self
  have outside :=
    written.outside (type.holder_not_outer next)
      (List.subset_cons_self letter _)
  have kept : middle.read dest = .ok (.array done) :=
    (outside.read dest outer).trans bound
  have stored : step (.setElement dest letter (type.holder next)) middle =
      .ok (middle.bind dest (.array (done ++ [item]))) := by
    rw [step, index, ok_bind, written.bound, ok_bind, array_eq_ok_iff.mpr kept,
      ok_bind, setElement_length]
    rfl
  refine ⟨_, ?_, read_bind_self, written.native, ?_⟩
  · rw [run_append, ran, ok_bind, run_single, stored]
  · have around :
        Frame (fun handle => handle.Outer next ∧ handle ≠ dest) (letter :: free)
          (machine.enter letter done.length) middle :=
      outside.mono (fun _ kept => kept.1) (List.Subset.refl _)
    exact (entered.trans around).trans (.bind (fun kept => kept.2 rfl) _)

/-- A loop appends what the origin gives for the elements from its start on. -/
theorem writes_elements {type : FieldType} (writes : WritesType type)
    {letter : Char} {free : List Char} {dest : Handle} {origin : Origin}
    {size : Nat} (outer : dest.Outer next) (done rest : List Wire)
    (gives : Gives (letter :: free) origin machine type (size + 1)
      (.array (done ++ rest)))
    (bound : machine.read dest = .ok (.array done)) :
    ∃ after,
      repeated letter
          (run (Layout.outType (origin.index letter) (type.holder next)
              (next + 1) free type ++
            [.setElement dest letter (type.holder next)]))
          rest.length done.length machine = .ok after ∧
        Written next (letter :: free) dest (.array (done ++ rest)) machine
          after := by
  induction rest generalizing done machine with
  | nil =>
      refine ⟨machine, rfl, ?_, rfl, .refl _ _ machine⟩
      simpa using bound
  | cons item rest induction =>
      obtain ⟨_, _, _, same, whole, fresh, _, each⟩ := gives.elements
      cases same
      cases whole
      obtain ⟨middle, ran, written⟩ :=
        writes_element writes outer fresh
          (each done.length item (by simp)) bound
      have split : done ++ item :: rest = done ++ [item] ++ rest :=
        List.append_cons ..
      have further := gives.keep written.frame written.native
      rw [split] at further
      obtain ⟨after, looped, later⟩ :=
        induction (done ++ [item]) further written.bound
      refine ⟨after, ?_, split ▸ later.bound, later.native.trans written.native,
        written.frame.trans later.frame⟩
      rw [List.length_cons, repeated, ran]
      rw [List.length_append] at looped
      exact looped

theorem writes_field {field : Field} (writes : WritesType field.type) :
    WritesField field := by
  intro next letters dest origin machine wire outer gives
  rcases size : field.arraySize with _ | count
  · rw [size] at gives
    rw [Layout.outField_single size]
    refine writes ?_ gives
    intro record type
    rcases outer with outside | plain
    · exact outside
    · simp [Field.holder, type] at plain
  · rw [size] at gives
    have outside : dest.Outer next := by
      rcases outer with outside | plain
      · exact outside
      · cases type : field.type <;> simp [Field.holder, size, type] at plain
    obtain ⟨letter, free, items, rfl, rfl, _, length, _⟩ := gives.elements
    rw [Layout.outField_array size, List.headD_cons, List.tail_cons]
    have created :
        Frame (fun handle => handle.Outer next ∧ handle ≠ dest) (letter :: free)
          machine (machine.bind dest (.array [])) :=
          .bind (fun kept => kept.2 rfl) _
    obtain ⟨middle, looped, written⟩ :=
      writes_elements writes outside [] items (gives.keep created rfl)
        read_bind_self
    rw [length] at looped
    have start : step (.createArray dest) machine =
        .ok (machine.bind dest (.array [])) :=
      by rw [step]
    refine ⟨middle.leave letter, ?_, written.bound, written.native, ?_⟩
    · rw [run_cons_ok start, run_single, step]
      exact congrArg (· >>= fun after => Except.ok (after.leave letter)) looped
    · exact (created.trans written.frame).trans (.leave List.mem_cons_self)

/-- The statements for an exchanged member add what the origin gives for it to
an object. -/
theorem writes_member {member : Field} (writes : WritesField member)
    {parent : Handle} {origin : Origin} {wire : Wire}
    (outer : parent.Outer next) {done : List (String × Wire)}
    (fresh : member.name ∉ done.map Prod.fst)
    (gives : Gives letters (origin.field member.name) machine member.type
      member.arraySize wire)
    (bound : machine.read parent = .ok (.object done)) :
    ∃ after,
      run (Layout.outField (origin.field member.name) (member.holder next)
        (next + 1) letters
          member ++ [.setNamed parent member.name (member.holder next)])
            machine = .ok after ∧
        Written next letters parent (.object (done ++ [(member.name, wire)]))
          machine after := by
  obtain ⟨middle, ran, written⟩ :=
    writes (member.holder_outer_or_property next) gives
  have outside :=
    written.outside (member.holder_not_outer next) (List.Subset.refl letters)
  have kept : middle.read parent = .ok (.object done) :=
    (outside.read parent outer).trans bound
  have stored :
      step (.setNamed parent member.name (member.holder next)) middle =
        .ok (middle.bind parent (.object (done ++ [(member.name, wire)]))) := by
    rw [step, written.bound, ok_bind, object_eq_ok_iff.mpr kept, ok_bind,
      insert_fresh fresh]
    rfl
  refine ⟨_, ?_, read_bind_self, written.native, ?_⟩
  · rw [run_append, ran, ok_bind, run_single, stored]
  · have around :
        Frame (fun handle => handle.Outer next ∧ handle ≠ parent) letters
          machine middle :=
          outside.mono (fun _ kept => kept.1) (List.Subset.refl _)
    exact around.trans (.bind (fun kept => kept.2 rfl) _)

/-- What the origin gives for members comes behind the properties that an
object has. -/
theorem writes_members {fields : List Field}
    (writes : ∀ member ∈ fields, WritesField member) {parent : Handle}
    {origin : Origin} {part : Field → Wire} (outer : parent.Outer next)
    (done : List (String × Wire))
    (distinct : (done.map Prod.fst ++ fields.map Field.name).Nodup)
    (gives : ∀ member ∈ fields, member.isPrivate = false →
      Gives letters (origin.field member.name) machine member.type
        member.arraySize (part member))
    (bound : machine.read parent = .ok (.object done)) :
    ∃ after,
      run (Layout.outMembers origin parent next letters fields) machine =
        .ok after ∧
      Written next letters parent
        (.object (done ++ (fields.filter fun member => !member.isPrivate).map
          fun member => (member.name, part member))) machine after := by
  induction fields generalizing done machine with
  | nil =>
      refine ⟨machine, rfl, ?_, rfl, .refl _ _ machine⟩
      simpa using bound
  | cons member rest induction =>
      have others : ∀ inner ∈ rest, WritesField inner := fun inner inside =>
        writes inner (List.mem_cons_of_mem _ inside)
      by_cases hidden : member.isPrivate = true
      · rw [Layout.outMembers, if_pos hidden]
        have fewer := distinct.sublist
          (List.Sublist.append_left (List.sublist_cons_self _ _) _)
        simpa [hidden] using induction others done fewer
          (fun inner inside => gives inner (List.mem_cons_of_mem _ inside))
            bound
      · have shown : member.isPrivate = false := by simpa using hidden
        -- A name that the object has already would keep its old position.
        have fresh : member.name ∉ done.map Prod.fst := by
          intro known
          exact (List.nodup_append.mp distinct).2.2 _ known _ (by simp) rfl
        obtain ⟨middle, ran, written⟩ :=
          writes_member (writes member List.mem_cons_self)
          outer fresh (gives member List.mem_cons_self shown) bound
        obtain ⟨after, continued, later⟩ := induction others
          (done ++ [(member.name, part member)]) (by simpa using distinct)
          (fun inner inside exchanged =>
            (gives inner (List.mem_cons_of_mem _ inside)
            exchanged).keep written.frame written.native) written.bound
        refine ⟨after, ?_, ?_, later.native.trans written.native,
          written.frame.trans later.frame⟩
        · rw [Layout.outMembers, if_neg hidden, List.append_cons, run_append]
          rw [ran, ok_bind, continued]
        · simpa [shown] using later.bound

private theorem writes_record {record : Record}
    (distinct : (record.fields.map Field.name).Nodup)
    (writes : ∀ member ∈ record.fields, WritesField member) :
    WritesType (.record record) := by
  intro next letters dest origin machine wire outer gives
  obtain ⟨part, rfl, each⟩ := gives.members
  have created : Frame (fun handle => handle.Outer next ∧ handle ≠ dest) letters
      machine (machine.bind dest (.object [])) :=
        .bind (fun kept => kept.2 rfl) _
  have start : step (.createObject dest) machine =
      .ok (machine.bind dest (.object [])) := by
    rw [step]
  obtain ⟨after, ran, written⟩ :=
    writes_members writes (outer record rfl) [] distinct
    (fun member inside exchanged =>
      (each member (by simp [Record.exchanged, inside, exchanged])).keep
        created rfl)
    read_bind_self
  rw [Layout.outType_record]
  refine ⟨after, ?_, written.bound, written.native, created.trans written.frame⟩
  rw [run_cons_ok start, ran]

/-- The statements for a well-named type write what the origin gives. -/
theorem writes_type {type : FieldType} (wellNamed : type.WellNamed) :
    WritesType type := by
  induction wellNamed with
  | leaf leaf => exact writes_leaf leaf
  | record distinct _ induction =>
      exact writes_record distinct fun member inside =>
        writes_field (induction member inside)

theorem writes_dataset {dataset : Field} (wellNamed : dataset.type.WellNamed)
    {dest : Handle} {origin : Origin} {wire : Wire} (outer : dest.Outer next)
    (gives : Gives letters origin machine dataset.type dataset.arraySize wire) :
    ∃ after,
      run (Layout.outDataset origin dest next letters dataset) machine =
        .ok after ∧
        after.read dest = .ok wire := by
  have throughField := writes_field (writes_type wellNamed) (.inl outer) gives
  unfold Layout.outDataset
  split
  · rename_i record type single
    rw [type, single] at gives
    rw [type] at wellNamed
    obtain ⟨middle, ran, written⟩ :=
      writes_type wellNamed (fun _ _ => Handle.slot_outer next) gives
    refine ⟨middle.bind dest wire, ?_, read_bind_self⟩
    rw [run_append, ran, ok_bind, run_single, step, written.bound]
    rfl
  · obtain ⟨after, ran, written⟩ := throughField
    exact ⟨after, ran, written.bound⟩

/-- The surroundings of statements that take the native value at a place. -/
structure Source (letters : List Char) (place : Place) (steps : List Step)
    (value : Native) (machine : Machine) : Prop where
  distinct : letters.Nodup
  avoids : place.Avoids letters
  located : machine.steps place.segments = .ok steps
  loaded : ∀ path, get path steps machine.native = .ok value

namespace Source

variable {place : Place} {steps : List Step} {after : Machine}

theorem keep {value : Native} {kept : Handle → Prop}
    (source : Source letters place steps value machine)
    (frame : Frame kept letters machine after)
    (native : after.native = machine.native) :
    Source letters place steps value after where
  distinct := source.distinct
  avoids := source.avoids
  located := (frame.steps source.avoids).trans source.located
  loaded := by
    rw [native]
    exact source.loaded

theorem member {members : List (String × Native)} {name : String}
    {value : Native}
    (source : Source letters place steps (.record members) machine)
    (found : members.lookup name = some value) :
    Source letters (place.field name) (steps ++ [.member name]) value
      machine where
  distinct := source.distinct
  avoids := source.avoids.field name
  located := steps_field source.located
  loaded := by
    intro path
    rw [get_append (source.loaded path), Native.get]
    simp [part, found, Native.get]

theorem element {letter : Char} {items : List Native} {position : Nat}
    {value : Native}
    (source : Source (letter :: letters) place steps (.array items) machine)
    (index : machine.index letter = .ok position)
    (found : items[position]? = some value) :
    Source letters (place.index letter) (steps ++ [.element position]) value
      machine where
  distinct := (List.nodup_cons.mp source.distinct).2
  avoids := source.avoids.index (List.nodup_cons.mp source.distinct).1
  located := steps_index source.located index
  loaded := by
    intro path
    rw [get_append (source.loaded path), Native.get]
    simp [part, found, Native.get]

theorem leaf {leaf : Leaf} {value : Native}
    (source : Source letters place steps value machine)
    (accepts : leaf.Accepts value) :
    Gives letters (.native place) machine (.leaf leaf) 0
      (leaf.encode value) := by
  apply Gives.leaf
  intro after dest frame native
  have later := source.keep frame native
  rw [Origin.leaf, step, load, later.located, ok_bind, later.loaded, ok_bind,
    leaf.toWire_eq_encode accepts]
  rfl

end Source

/-- A native value that fits gives its encoding. -/
theorem gives_encode (field : Field) {place : Place} {steps : List Step}
    {value : Native} (enough : field.depth ≤ letters.length)
    (source : Source letters place steps value machine)
    (fits : field.Fits value) :
    Gives letters (.native place) machine field.type field.arraySize
      (field.encode value) := by
  induction field using Field.nested_induction
    generalizing place steps value letters machine with
  | step field induction =>
      have single : ∀ {letters place steps value machine},
          field.type.depth ≤ letters.length →
            Source letters place steps value machine →
          Fits field.type 0 value →
            Gives letters (.native place) machine field.type 0
                (field.type.encode value) := by
        intro letters place steps value machine enough source fits
        cases type : field.type with
        | leaf leaf =>
            rw [type] at fits
            cases fits with
            | leaf accepts => exact source.leaf accepts
        | record record =>
            rw [type] at fits enough
            rw [Layout.depth_record] at enough
            obtain ⟨members, rfl, memberFits⟩ := fits.members
            rw [FieldType.encode_record, encodeMembers_eq_map]
            apply Gives.record
            intro member inside
            obtain ⟨declared, shown⟩ := List.mem_filter.mp inside
            have exchanged : member.isPrivate = false := by simpa using shown
            obtain ⟨part, found, partFits⟩ :=
              memberFits member declared exchanged
            rw [child_member found]
            have fewer := Layout.depth_le_membersDepth declared exchanged
            exact induction record type member declared
              (Nat.le_trans fewer enough) (source.member found) partFits
      unfold Field.Fits at fits
      rcases size : field.arraySize with _ | count
      · rw [size] at fits
        rw [Layout.depth_single size] at enough
        rw [Field.encode_single size]
        exact single enough source fits
      · rw [size] at fits
        rw [Layout.depth_array size] at enough
        obtain ⟨letter, free, rfl⟩ : ∃ letter free, letters = letter :: free :=
          List.exists_cons_of_length_pos
            (Nat.lt_of_lt_of_le (Nat.succ_pos _) enough)
        obtain ⟨items, rfl, elements⟩ := fits.elements
        rw [Field.encode_array size]
        refine .array (List.nodup_cons.mp source.distinct).1 (by simp) ?_
        intro index item found
        obtain ⟨below, rfl⟩ := List.getElem?_eq_some_iff.mp found
        simp only [List.length_map, List.length_range] at below
        obtain ⟨element, present, elementFits⟩ := elements index below
        have entered : Frame (fun _ => True) (letter :: free) machine
            (machine.enter letter index) := .enter List.mem_cons_self index
        rw [List.getElem_map, List.getElem_range, child_element present]
        exact single (Nat.le_of_succ_le_succ enough)
          ((source.keep entered rfl).element index_enter_self present)
            elementFits

theorem wireRoot_append (first second : List Stmt) :
    Stmt.wireRootList? (first ++ second) =
      (Stmt.wireRootList? first).or (Stmt.wireRootList? second) := by
  induction first with
  | nil => rfl
  | cons statement rest induction =>
      rw [List.cons_append, Stmt.wireRootList?, Stmt.wireRootList?, induction]
      cases statement.wireRoot? <;> rfl

private theorem wireRoot_outMembers {fields : List Field}
    (members : ∀ member ∈ fields,
      ∀ origin next letters {dest}, dest.isExternal = false →
      Stmt.wireRootList? (Layout.outField origin dest next letters member) =
        none)
    (origin : Origin) (next : Nat) (letters : List Char) {parent : Handle}
    (internal : parent.isExternal = false) :
    Stmt.wireRootList? (Layout.outMembers origin parent next letters fields) =
      none := by
  induction fields with
  | nil => rfl
  | cons member rest induction =>
      have others := induction fun inner inside =>
        members inner (List.mem_cons_of_mem _ inside)
      by_cases hidden : member.isPrivate = true
      · rw [Layout.outMembers, if_pos hidden]
        exact others
      · have holder : (member.holder next).isExternal = false := by
          unfold Field.holder
          split <;> rfl
        rw [Layout.outMembers, if_neg hidden, wireRoot_append,
          members member List.mem_cons_self _ _ _ holder]
        simp [Stmt.wireRootList?, Stmt.wireRoot?, Stmt.wireHandles,
          internal, others]

/-- No handle from outside stands in the statements that fill another handle. -/
theorem wireRoot_outField (field : Field) (origin : Origin) (next : Nat)
    (letters : List Char) {dest : Handle} (internal : dest.isExternal = false) :
    Stmt.wireRootList? (Layout.outField origin dest next letters field) =
      none := by
  induction field using Field.nested_induction
      generalizing origin dest next letters with
  | step field induction =>
      have single : ∀ {origin dest next letters}, dest.isExternal = false →
          Stmt.wireRootList?
              (Layout.outType origin dest next letters field.type) = none := by
        intro origin dest next letters internal
        cases type : field.type with
        | leaf leaf =>
            cases origin <;>
              simp [Layout.outType, Origin.leaf, Stmt.wireRootList?,
                Stmt.wireRoot?, Stmt.wireHandles, internal]
        | record record =>
            have members :=
              wireRoot_outMembers (induction record type) origin next letters
              internal
            simp [Layout.outType_record, Stmt.wireRootList?, Stmt.wireRoot?,
              Stmt.wireHandles, internal, members]
      rcases size : field.arraySize with _ | count
      · rw [Layout.outField_single size]
        exact single internal
      · have holder : (field.type.holder next).isExternal = false := by
          cases field.type <;> rfl
        rw [Layout.outField_array size]
        simp [Stmt.wireRootList?, Stmt.wireRoot?, Stmt.wireHandles, internal,
          wireRoot_append, single holder]

/-- A program leaves its value in its wire root. -/
theorem wireRoot_outDataset (origin : Origin) (expression : String) (next : Nat)
    (letters : List Char) (dataset : Field) :
    Stmt.wireRootList?
      (Layout.outDataset origin (.external expression) next letters dataset) =
        some (.external expression) := by
  obtain ⟨name, type, size, flags, comment, enumName⟩ := dataset
  cases type with
  | leaf leaf => cases size <;> cases origin <;> rfl
  | record record =>
      cases size with
      | succ size => rfl
      | zero =>
          have filled : Stmt.wireRootList?
              (Layout.outType origin (.slot next) (next + 1) letters
                (.record record)) =
                none := by
            have internal : (Handle.slot next).isExternal = false := rfl
            have inner :=
              wireRoot_outField record.asField origin (next + 1) letters
                internal
            rwa [Layout.outField_single rfl] at inner
          simp only [Layout.outDataset, wireRoot_append, filled]
          rfl

/-- An outgoing program encodes the native value at the addressed place. -/
theorem marshalOut_dataset {dataset : Field}
    (wellNamed : dataset.type.WellNamed) {place : Place} {expression : String}
    {naming : Naming} {emission : Emission}
    (flattened : (dataset.emission place (.external expression) .outgoing
      naming).1 =
      .ok emission)
    {steps : List Step} (plain : ∀ letter, .index letter ∉ place.segments)
    (located : ∀ machine : Machine, machine.steps place.segments = .ok steps) :
    emission.wireRoot? = some (.external expression) ∧
      ∀ native value, (∀ path, get path steps native = .ok value) →
        dataset.Fits value →
        emission.marshalOut native = .ok (dataset.encode value) := by
  obtain ⟨maxSlot, equal⟩ :=
    dataset.emission_eq place (.external expression) .outgoing naming
  rw [equal] at flattened
  split at flattened
  · rename_i enough
    cases flattened
    have root :
        Emission.wireRoot? ⟨.outgoing,
          Layout.dataset place (.external expression) .outgoing naming.nextSlot
            naming.free dataset, maxSlot⟩ =
        some (.external expression) :=
      wireRoot_outDataset _ _ _ _ _
    refine ⟨root, ?_⟩
    intro native value loaded fits
    have source : Source naming.free place steps value { native } :=
      { distinct := naming.free_nodup
        avoids := fun letter inside => absurd inside (plain letter)
        located := located _
        loaded := loaded }
    have outer : (Handle.external expression).Outer naming.nextSlot := trivial
    obtain ⟨after, ran, bound⟩ :=
      writes_dataset wellNamed outer (gives_encode dataset enough source fits)
    simp only [Emission.marshalOut, root]
    rw [Layout.dataset, ran, ok_bind, bound]
  · cases flattened

theorem marshalOut_record {record : Record} (wellNamed : record.WellNamed)
    {root expression : String} {naming : Naming} {emission : Emission}
    (flattened : (record.emission { root } (.external expression) .outgoing
      naming).1 =
      .ok emission) :
    emission.wireRoot? = some (.external expression) ∧
      ∀ native, record.asField.Fits native →
        emission.marshalOut native = .ok (record.asField.encode native) := by
  rw [Record.emission_eq_asField] at flattened
  obtain ⟨wireRoot, encodes⟩ := marshalOut_dataset wellNamed.asField flattened
    (fun _ => List.not_mem_nil) (fun _ => rfl)
  refine ⟨wireRoot, ?_⟩
  intro native fits
  exact encodes native native (fun _ => rfl) fits

theorem marshalOut_member {dataset : Field} (wellNamed : dataset.type.WellNamed)
    {root expression : String} {naming : Naming} {emission : Emission}
    (flattened : (dataset.emission (Place.field { root } dataset.name)
      (.external expression) .outgoing naming).1 = .ok emission) :
    emission.wireRoot? = some (.external expression) ∧
      ∀ members value, members.lookup dataset.name = some value →
      dataset.Fits value →
        emission.marshalOut (.record members) = .ok (dataset.encode value) := by
  have plain : ∀ letter,
      .index letter ∉ (Place.field { root } dataset.name).segments := by
    simp [Place.field]
  obtain ⟨wireRoot, encodes⟩ :=
    marshalOut_dataset wellNamed flattened plain (fun _ => rfl)
  refine ⟨wireRoot, ?_⟩
  intro members value found fits
  refine encodes (.record members) value ?_ fits
  intro path
  simp [Native.get, Native.part, found]

end Outgoing

/-- For every record of a resolver, an outgoing program leaves the encoding of
what it addresses in its wire root: the whole record, or one member of it.  It
cannot fail on a native value of the right shape. -/
theorem marshalOut_eq_encode {catalog : Catalog} {record : Record}
    (produced : Resolver.Produces catalog record) (root expression : String)
    (naming : Naming) :
    (∀ emission,
      (record.emission { root } (.external expression) .outgoing naming).1 =
        .ok emission →
      emission.wireRoot? = some (.external expression) ∧
        ∀ native, record.asField.Fits native →
          emission.marshalOut native = .ok (record.asField.encode native)) ∧
    ∀ dataset ∈ record.fields, ∀ emission,
      (dataset.emission (Place.field { root } dataset.name)
        (.external expression) .outgoing
          naming).1 = .ok emission →
        emission.wireRoot? = some (.external expression) ∧
          ∀ members value, members.lookup dataset.name = some value →
            dataset.Fits value →
            emission.marshalOut (.record members) =
              .ok (dataset.encode value) := by
  have wellNamed := produced.wellNamed
  constructor
  · intro emission flattened
    exact Outgoing.marshalOut_record wellNamed flattened
  · intro dataset inside emission flattened
    exact Outgoing.marshalOut_member (wellNamed.member inside) flattened

/-- An axis with its members in another order, too long an array and without
its private member. -/
def looseAxis : Native :=
  .record [("ticks", .array [.int 1, .int 4000000000, .int 5]),
    ("speed", .float ⟨4607182418800017408⟩)]

theorem looseAxis_fits : Resolver.axis.asField.Fits looseAxis := by
  constructor
  · simp [Record.exchanged, Resolver.axis, Field.isPrivate, List.lookup_cons]
  · simp [Record.exchanged, Resolver.axis, Field.isPrivate, List.lookup_cons]
    refine ⟨.leaf trivial, .array (by decide) ?_⟩
    intro index item _ found
    have inside := List.mem_of_getElem? found
    simp only [List.mem_cons, List.not_mem_nil, or_false] at inside
    rcases inside with rfl | rfl | rfl <;> exact .leaf trivial

theorem marshalOut_axis :
    Resolver.axis.asField.Fits looseAxis ∧ ∃ emission,
      (Resolver.axis.emission
        { root := "plc" } (.external "message") .outgoing {}).1 =
        .ok emission ∧
      emission.wireRoot? = some (.external "message") ∧
      emission.marshalOut looseAxis =
        .ok (.object [("speed", .double ⟨⟨4607182418800017408⟩, by decide⟩),
          ("ticks", .array [.int ⟨1, by decide⟩,
              .int ⟨4000000000, by decide⟩])]) := by
  have programs :=
    marshalOut_eq_encode Resolver.axis_produced "plc" "message" {}
  obtain ⟨wireRoot, encodes⟩ := programs.1 _ rfl
  exact ⟨looseAxis_fits, _, rfl, wireRoot, encodes looseAxis looseAxis_fits⟩

end DataBridge
