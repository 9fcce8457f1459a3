import DataBridge.Flatten
import DataBridge.Proofs.Failure
import DataBridge.Proofs.Record

/-!
# Layout of a marshalling program

Flattening asks for names as it goes.  What it writes depends on them in a
plain way: on the first free slot and on the iterators that no open loop has.
The functions of `Layout` write the same statements from these two, and
flattening fails exactly when an exchanged leaf lies deeper in arrays than
there are iterators left.
-/

namespace DataBridge

/-- The iterators that no open loop has, the next one first. -/
def Naming.free (naming : Naming) : List Char :=
  alphabet.drop naming.openLoops

theorem Naming.free_nodup (naming : Naming) : naming.free.Nodup :=
  alphabet_nodup.sublist (List.drop_sublist _ _)

mutual

/-- How deep the loops over the exchanged leaves of a member nest. -/
def Field.depth (field : Field) : Nat :=
  match field with
  | { type, arraySize := 0, .. } => type.depth
  | { type, arraySize := _ + 1, .. } => type.depth + 1

/-- How deep the loops over the exchanged leaves of a type nest. -/
def FieldType.depth : FieldType → Nat
  | .leaf _ => 0
  | .record { fields, .. } => membersDepth fields

/-- How deep the loops over the exchanged leaves of some members nest. -/
def membersDepth : List Field → Nat
  | [] => 0
  | member :: rest =>
      if member.isPrivate then membersDepth rest
      else max member.depth (membersDepth rest)

end

/-- The handle that holds a member on its way into an object. -/
def Field.holder (next : Nat) (field : Field) : Handle :=
  match field.type, field.arraySize with
  | .leaf _, 0 => .property
  | _, _ => .slot next

/-- The handle that holds an element on its way into or out of an array. -/
def FieldType.holder (next : Nat) : FieldType → Handle
  | .leaf _ => .arrayItem
  | .record _ => .slot next

/-- Handles from outside of a program part whose first free slot is `next`. -/
def Handle.Outer (next : Nat) : Handle → Prop
  | .slot index => index < next
  | .external _ => True
  | .property | .arrayItem => False

theorem Handle.Outer.mono {next later : Nat} {handle : Handle}
    (outer : handle.Outer next) (order : next ≤ later) :
    handle.Outer later := by
  cases handle with
  | slot index => exact Nat.lt_of_lt_of_le outer order
  | property => exact outer
  | arrayItem => exact outer
  | external expression => trivial

theorem Handle.slot_outer (next : Nat) : (Handle.slot next).Outer (next + 1) :=
  Nat.lt_succ_self next

theorem Handle.slot_not_outer (next : Nat) : ¬ (Handle.slot next).Outer next :=
  Nat.lt_irrefl next

theorem FieldType.holder_not_outer (type : FieldType) (next : Nat) :
    ¬ (type.holder next).Outer next := by
  cases type with
  | leaf leaf => exact id
  | record record => exact Handle.slot_not_outer next

theorem Field.holder_not_outer (field : Field) (next : Nat) :
    ¬ (field.holder next).Outer next := by
  unfold Field.holder
  split
  · exact id
  · exact Handle.slot_not_outer next

theorem Field.holder_outer_or_property (field : Field) (next : Nat) :
    (field.holder next).Outer (next + 1) ∨ field.holder (next + 1) =
      .property := by
  unfold Field.holder
  split
  · exact .inr rfl
  · exact .inl (Handle.slot_outer next)

namespace Layout

mutual

/-- The statements that put a member into a handle. -/
def outField (origin : Origin) (dest : Handle) (next : Nat)
    (letters : List Char) (field : Field) : List Stmt :=
  match field with
  | { type, arraySize := 0, .. } => outType origin dest next letters type
  | { type, arraySize := size + 1, .. } =>
      let letter := letters.headD 'z'
      [.createArray dest,
        .forEach letter (size + 1)
          (outType (origin.index letter) (type.holder next)
            (next + 1) letters.tail type ++
            [.setElement dest letter (type.holder next)])]

/-- The statements that put a single value into a handle. -/
def outType (origin : Origin) (dest : Handle) (next : Nat)
    (letters : List Char) : FieldType → List Stmt
  | .leaf leaf => [origin.leaf leaf dest]
  | .record { fields, .. } =>
      .createObject dest :: outMembers origin dest next letters fields

/-- The statements that put members into an object. -/
def outMembers (origin : Origin) (parent : Handle) (next : Nat)
    (letters : List Char) : List Field → List Stmt
  | [] => []
  | member :: rest =>
      if member.isPrivate then outMembers origin parent next letters rest
      else
        outField (origin.field member.name) (member.holder next)
          (next + 1) letters member ++
          .setNamed parent member.name (member.holder next) ::
            outMembers origin parent next letters rest

end

/-- The statements that put a dataset into a handle from outside. -/
def outDataset (origin : Origin) (dest : Handle) (next : Nat)
    (letters : List Char) (dataset : Field) : List Stmt :=
  match dataset.type, dataset.arraySize with
  | .record record, 0 =>
      outType origin (.slot next) (next + 1) letters (.record record) ++
        [.assign dest (.slot next)]
  | _, _ => outField origin dest next letters dataset

mutual

/-- The statements that read a member from a handle. -/
def inField (source : Handle) (dest : Place) (next : Nat) (letters : List Char)
    (field : Field) : List Stmt :=
  match field with
  | { type, arraySize := 0, .. } => inType source dest next letters type
  | { type, arraySize := size + 1, .. } =>
      let letter := letters.headD 'z'
      [.forEach letter (size + 1)
        (.getElement source letter (type.holder next) ::
          inType (type.holder next) (dest.index letter)
            (next + 1) letters.tail type)]

/-- The statements that read a single value from a handle. -/
def inType (source : Handle) (dest : Place) (next : Nat) (letters : List Char) :
    FieldType → List Stmt
  | .leaf leaf => [.leafIn leaf source dest]
  | .record { fields, .. } => inMembers source dest next letters fields

/-- The statements that read members from an object. -/
def inMembers (source : Handle) (dest : Place) (next : Nat)
    (letters : List Char) : List Field → List Stmt
  | [] => []
  | member :: rest =>
      if member.isPrivate then inMembers source dest next letters rest
      else
        .getNamed source member.name (.slot next) ::
          (inField (.slot next) (dest.field member.name) (next + 1) letters
            member ++
            inMembers source dest next letters rest)

end

/-- The statements that read a dataset from a handle from outside. -/
def inDataset (source : Handle) (dest : Place) (next : Nat)
    (letters : List Char) (dataset : Field) : List Stmt :=
  match dataset.type, dataset.arraySize with
  | .record record, 0 =>
      .assign (.slot next) source ::
        inType (.slot next) dest (next + 1) letters (.record record)
  | _, _ => inField source dest next letters dataset

/-- The statements that move a dataset between a place and a handle. -/
def dataset (place : Place) (handle : Handle) (direction : Direction)
    (next : Nat) (letters : List Char) (field : Field) : List Stmt :=
  match direction with
  | .outgoing => outDataset (.native place) handle next letters field
  | .incoming => inDataset handle place next letters field

end Layout

/-- A computation gives `value` at the first free slot and the free iterators
if `depth` iterators are left, and fails otherwise.  Either way the names in
use are the same afterwards. -/
def Flattening.Computes {α : Type} (body : Flattening α) (depth : Nat)
    (value : Nat → List Char → α) : Prop :=
  ∀ naming : Naming, ∃ mark, body naming =
    (if depth ≤ naming.free.length then .ok (value naming.nextSlot naming.free)
      else .error (.loopNestingTooDeep Naming.alphabet.length),
     { naming with highWater := mark })

namespace Flattening.Computes

variable {α β : Type}

theorem pure (value : α) :
    Flattening.Computes (Pure.pure value) 0 fun _ _ => value := by
  intro naming
  exact ⟨naming.highWater, rfl⟩

theorem bind {body : Flattening α} {next : α → Flattening β}
    {first second : Nat} {value : Nat → List Char → α}
    {result : α → Nat → List Char → β} (computes : body.Computes first value)
    (continues : ∀ input, (next input).Computes second (result input)) :
    Flattening.Computes (body >>= next) (max first second)
      fun slot letters => result (value slot letters) slot letters := by
  intro naming
  obtain ⟨mark, head⟩ := computes naming
  rw [stateful_bind, head]
  by_cases enough : first ≤ naming.free.length
  · rw [if_pos enough]
    obtain ⟨later, tail⟩ :=
      continues (value naming.nextSlot naming.free)
        { naming with highWater := mark }
    have limits : (max first second ≤ naming.free.length) =
        (second ≤ naming.free.length) := by
      rw [Nat.max_le, eq_true enough, true_and]
    refine ⟨later, ?_⟩
    simp only [limits]
    exact tail
  · rw [if_neg enough]
    refine ⟨mark, ?_⟩
    rw [if_neg fun fits => enough (Nat.max_le.mp fits).1]

theorem map {body : Flattening α} {depth : Nat} {value : Nat → List Char → α}
    (computes : body.Computes depth value) (change : α → β) :
    Flattening.Computes (do return change (← body)) depth
      fun slot letters => change (value slot letters) := by
  have both := computes.bind fun input => pure (change input)
  rw [Nat.max_zero] at both
  exact both

theorem withSlot {body : Nat → Flattening α} {depth : Nat}
    {value : Nat → Nat → List Char → α}
    (computes : ∀ slot, (body slot).Computes depth (value slot)) :
    Flattening.Computes (Naming.withSlot body) depth
      fun next letters => value next (next + 1) letters := by
  intro naming
  obtain ⟨mark, inner⟩ := computes naming.nextSlot naming.enterSlot
  refine ⟨mark, ?_⟩
  rw [Naming.withSlot, inner]
  rfl

theorem withIterator {body : Char → Flattening α} {depth : Nat}
    {value : Char → Nat → List Char → α}
    (computes : ∀ letter, (body letter).Computes depth (value letter)) :
    Flattening.Computes (Naming.withIterator body) (depth + 1)
      fun next letters => value (letters.headD 'z') next letters.tail := by
  intro naming
  unfold Naming.withIterator
  cases taken : Naming.alphabet[naming.openLoops]? with
  | none =>
      have exhausted : naming.free = [] := by
        rw [Naming.free, List.drop_eq_nil_iff]
        exact List.getElem?_eq_none_iff.mp taken
      refine ⟨naming.highWater, ?_⟩
      simp [exhausted]
  | some letter =>
      have split : naming.free =
          letter :: Naming.alphabet.drop (naming.openLoops + 1) := by
        obtain ⟨inside, equal⟩ := List.getElem?_eq_some_iff.mp taken
        rw [Naming.free, List.drop_eq_getElem_cons inside, equal]
      obtain ⟨mark, inner⟩ :=
        computes letter { naming with openLoops := naming.openLoops + 1 }
      refine ⟨mark, ?_⟩
      dsimp only
      rw [inner, split]
      simp [Naming.free, Naming.nextSlot]

end Flattening.Computes

namespace Layout

open Flattening (Computes)

theorem outType_record (origin : Origin) (dest : Handle) (next : Nat)
    (letters : List Char) (record : Record) :
    outType origin dest next letters (.record record) =
      .createObject dest :: outMembers origin dest next letters
        record.fields := by
  cases record
  rfl

theorem inType_record (source : Handle) (dest : Place) (next : Nat)
    (letters : List Char) (record : Record) :
    inType source dest next letters (.record record) =
      inMembers source dest next letters record.fields := by
  cases record
  rfl

theorem outRecord_eq (origin : Origin) (parent : Handle) (record : Record) :
    Flatten.outRecord origin parent record =
      Flatten.outMembers origin parent record.fields := by
  cases record
  rfl

theorem inRecord_eq (source : Handle) (dest : Place) (record : Record) :
    Flatten.inRecord source dest record =
      Flatten.inMembers source dest record.fields := by
  cases record
  rfl

theorem outField_single {field : Field} (single : field.arraySize = 0)
    (origin : Origin) (dest : Handle) (next : Nat) (letters : List Char) :
    outField origin dest next letters field =
      outType origin dest next letters field.type := by
  obtain ⟨name, type, size, flags, comment, enumName⟩ := field
  cases single
  rfl

theorem outField_array {field : Field} {size : Nat}
    (array : field.arraySize = size + 1) (origin : Origin) (dest : Handle)
    (next : Nat) (letters : List Char) :
    outField origin dest next letters field =
      [.createArray dest,
        .forEach (letters.headD 'z') (size + 1)
          (outType (origin.index (letters.headD 'z')) (field.type.holder next)
              (next + 1) letters.tail field.type ++
            [.setElement dest (letters.headD 'z')
              (field.type.holder next)])] := by
  obtain ⟨name, type, size, flags, comment, enumName⟩ := field
  cases array
  rfl

theorem inField_single {field : Field} (single : field.arraySize = 0)
    (source : Handle) (dest : Place) (next : Nat) (letters : List Char) :
    inField source dest next letters field =
      inType source dest next letters field.type := by
  obtain ⟨name, type, size, flags, comment, enumName⟩ := field
  cases single
  rfl

theorem inField_array {field : Field} {size : Nat}
    (array : field.arraySize = size + 1) (source : Handle) (dest : Place)
    (next : Nat) (letters : List Char) :
    inField source dest next letters field =
      [.forEach (letters.headD 'z') (size + 1)
        (.getElement source (letters.headD 'z') (field.type.holder next) ::
          inType (field.type.holder next) (dest.index (letters.headD 'z'))
            (next + 1)
            letters.tail field.type)] := by
  obtain ⟨name, type, size, flags, comment, enumName⟩ := field
  cases array
  rfl

theorem depth_single {field : Field} (single : field.arraySize = 0) :
    field.depth = field.type.depth := by
  obtain ⟨name, type, size, flags, comment, enumName⟩ := field
  cases single
  rfl

theorem depth_array {field : Field} {size : Nat}
    (array : field.arraySize = size + 1) :
    field.depth = field.type.depth + 1 := by
  obtain ⟨name, type, size, flags, comment, enumName⟩ := field
  cases array
  rfl

theorem depth_record (record : Record) :
    (FieldType.record record).depth = membersDepth record.fields := by
  cases record
  rfl

theorem depth_le_membersDepth {fields : List Field} {member : Field}
    (inside : member ∈ fields) (exchanged : member.isPrivate = false) :
    member.depth ≤ membersDepth fields := by
  induction fields with
  | nil => cases inside
  | cons first rest induction =>
      rw [membersDepth]
      rcases List.mem_cons.mp inside with rfl | later
      · rw [exchanged]
        exact Nat.le_max_left _ _
      · split
        · exact induction later
        · exact Nat.le_trans (induction later) (Nat.le_max_right _ _)

theorem outMembers_computes {fields : List Field}
    (members : ∀ member ∈ fields, ∀ origin dest,
      (Flatten.outField origin dest member).Computes member.depth
        fun next letters => outField origin dest next letters member)
    (origin : Origin) (parent : Handle) :
    (Flatten.outMembers origin parent fields).Computes (membersDepth fields)
      fun next letters => outMembers origin parent next letters fields := by
  induction fields with
  | nil => exact .pure []
  | cons member rest induction =>
      have others := induction fun member inside =>
        members member (List.mem_cons_of_mem _ inside)
      have ofMember := members member List.mem_cons_self
      by_cases hidden : member.isPrivate = true
      · simpa [Flatten.outMembers, membersDepth, outMembers, hidden]
          using others
      · have throughSlot := Computes.withSlot fun slot =>
          (ofMember (origin.field member.name) (.slot slot)).map
            (· ++ [Stmt.setNamed parent member.name (.slot slot)])
        have slotted := throughSlot.bind fun statements =>
          others.map (statements ++ ·)
        simp only [List.append_assoc, List.singleton_append] at slotted
        rw [Flatten.outMembers, if_neg hidden]
        simp only [membersDepth, outMembers, hidden, if_false,
          Bool.false_eq_true]
        obtain ⟨name, type, size, flags, comment, enumName⟩ := member
        cases type <;> cases size
        case leaf.zero leaf =>
          exact (Computes.pure [_, _]).bind fun statements =>
            others.map (statements ++ ·)
        all_goals exact slotted

theorem outField_computes (field : Field) (origin : Origin) (dest : Handle) :
    (Flatten.outField origin dest field).Computes field.depth
      fun next letters => outField origin dest next letters field := by
  induction field using Field.nested_induction generalizing origin dest with
  | step field induction =>
      obtain ⟨name, type, size, flags, comment, enumName⟩ := field
      cases type with
      | leaf leaf =>
          cases size with
          | zero => exact .pure _
          | succ size =>
              have loop := Computes.withIterator fun letter =>
                Computes.pure (Stmt.forEach letter (size + 1)
                  [(origin.index letter).leaf leaf .arrayItem,
                    .setElement dest letter .arrayItem])
              exact loop.map fun statement => [.createArray dest, statement]
      | record record =>
          have members := outMembers_computes (induction record rfl)
          simp only [← outRecord_eq, ← depth_record] at members
          cases size with
          | zero =>
              have body :=
                (members origin dest).map (Stmt.createObject dest :: ·)
              simp only [← outType_record] at body
              exact body
          | succ size =>
              have loop := Computes.withSlot fun slot =>
                  Computes.withIterator fun letter =>
                (members (origin.index letter) (.slot slot)).map fun members =>
                  Stmt.forEach letter (size + 1)
                    (.createObject (.slot slot) :: members ++
                      [.setElement dest letter (.slot slot)])
              have body := loop.map fun statement =>
                [.createArray dest, statement]
              simp only [← outType_record] at body
              exact body

theorem inMembers_computes {fields : List Field}
    (members : ∀ member ∈ fields, ∀ source dest,
      (Flatten.inField source dest member).Computes member.depth
        fun next letters => inField source dest next letters member)
    (source : Handle) (dest : Place) :
    (Flatten.inMembers source dest fields).Computes (membersDepth fields)
      fun next letters => inMembers source dest next letters fields := by
  induction fields with
  | nil => exact .pure []
  | cons member rest induction =>
      have others := induction fun member inside =>
        members member (List.mem_cons_of_mem _ inside)
      have ofMember := members member List.mem_cons_self
      by_cases hidden : member.isPrivate = true
      · simpa [Flatten.inMembers, membersDepth, inMembers, hidden] using others
      · have first := Computes.withSlot fun slot =>
          (ofMember (.slot slot) (dest.field member.name)).map
            (Stmt.getNamed source member.name (.slot slot) :: ·)
        have both := first.bind fun statements => others.map (statements ++ ·)
        rw [Flatten.inMembers, if_neg hidden]
        simp only [membersDepth, inMembers, hidden, if_false,
          Bool.false_eq_true]
        exact both

theorem inField_computes (field : Field) (source : Handle) (dest : Place) :
    (Flatten.inField source dest field).Computes field.depth
      fun next letters => inField source dest next letters field := by
  induction field using Field.nested_induction generalizing source dest with
  | step field induction =>
      obtain ⟨name, type, size, flags, comment, enumName⟩ := field
      cases type with
      | leaf leaf =>
          cases size with
          | zero => exact .pure _
          | succ size =>
              exact Computes.withIterator fun letter =>
                Computes.pure [Stmt.forEach letter (size + 1)
                  [.getElement source letter .arrayItem,
                    .leafIn leaf .arrayItem (dest.index letter)]]
      | record record =>
          have members := inMembers_computes (induction record rfl)
          simp only [← inRecord_eq, ← depth_record] at members
          cases size with
          | zero =>
              have body := members source dest
              simp only [← inType_record] at body
              exact body
          | succ size =>
              have body := Computes.withSlot fun slot =>
                  Computes.withIterator fun letter =>
                (members (.slot slot) (dest.index letter)).map fun members =>
                  [Stmt.forEach letter (size + 1)
                    (.getElement source letter (.slot slot) :: members)]
              simp only [← inType_record] at body
              exact body

private theorem outRoot_computes (origin : Origin) (dest : Handle)
    (record : Record) :
    (Flatten.outRoot origin dest record).Computes
      (FieldType.record record).depth
      fun next letters =>
        outType origin (.slot next) (next + 1) letters (.record record) ++
          [.assign dest (.slot next)] := by
  have members : ∀ parent, _ := fun parent =>
    @outMembers_computes record.fields (fun member _ =>
      outField_computes member) origin parent
  simp only [← outRecord_eq, ← depth_record] at members
  have body := Computes.withSlot fun slot =>
      (members (.slot slot)).map fun members =>
    Stmt.createObject (.slot slot) :: members ++ [.assign dest (.slot slot)]
  simp only [← outType_record] at body
  exact body

private theorem inRoot_computes (source : Handle) (dest : Place)
    (record : Record) :
    (Flatten.inRoot source dest record).Computes (FieldType.record record).depth
      fun next letters =>
        .assign (.slot next) source ::
          inType (.slot next) dest (next + 1) letters (.record record) := by
  have members : ∀ parent, _ := fun parent =>
    @inMembers_computes record.fields (fun member _ => inField_computes member)
      parent dest
  simp only [← inRecord_eq, ← depth_record] at members
  have body := Computes.withSlot fun slot => (members (.slot slot)).map
    (Stmt.assign (.slot slot) source :: ·)
  simp only [← inType_record] at body
  exact body

theorem outDataset_computes (origin : Origin) (dest : Handle)
    (dataset : Field) :
    (Flatten.outDataset origin dest dataset).Computes dataset.depth
      fun next letters => outDataset origin dest next letters dataset := by
  obtain ⟨name, type, size, flags, comment, enumName⟩ := dataset
  cases type <;> cases size
  case record.zero record => exact outRoot_computes origin dest record
  all_goals exact outField_computes _ origin dest

theorem inDataset_computes (source : Handle) (dest : Place) (dataset : Field) :
    (Flatten.inDataset source dest dataset).Computes dataset.depth
      fun next letters => inDataset source dest next letters dataset := by
  obtain ⟨name, type, size, flags, comment, enumName⟩ := dataset
  cases type <;> cases size
  case record.zero record => exact inRoot_computes source dest record
  all_goals exact inField_computes _ source dest

end Layout

/-- A program exists exactly when enough iterators are left for its
statements. -/
theorem Flattening.Computes.finish {body : Flattening (List Stmt)} {depth : Nat}
    {value : Nat → List Char → List Stmt} (computes : body.Computes depth value)
    (direction : Direction) (naming : Naming) :
    ∃ maxSlot, ((body >>= Flatten.finish direction) naming).1 =
      if depth ≤ naming.free.length then
        .ok { direction, body := value naming.nextSlot naming.free, maxSlot }
      else .error (.loopNestingTooDeep Naming.alphabet.length) := by
  obtain ⟨mark, equal⟩ := computes naming
  refine ⟨mark, ?_⟩
  rw [stateful_bind, equal]
  by_cases enough : depth ≤ naming.free.length
  · rw [if_pos enough, if_pos enough]
    rfl
  · rw [if_neg enough, if_neg enough]

namespace Field

/-- A program for a dataset exists exactly when enough iterators are left, and
its statements are those of the layout. -/
theorem emission_eq (dataset : Field) (place : Place) (handle : Handle)
    (direction : Direction) (naming : Naming) :
    ∃ maxSlot, (dataset.emission place handle direction naming).1 =
      if dataset.depth ≤ naming.free.length then
        .ok { direction, maxSlot,
              body := Layout.dataset place handle direction naming.nextSlot
                naming.free dataset }
      else .error (.loopNestingTooDeep Naming.alphabet.length) := by
  cases direction with
  | outgoing =>
      exact (Layout.outDataset_computes (.native place) handle dataset).finish
        _ naming
  | incoming =>
      exact (Layout.inDataset_computes handle place dataset).finish _ naming

end Field

/-- The program for a record is the one for the root field. -/
theorem Record.emission_eq_asField (record : Record) (place : Place)
    (handle : Handle) (direction : Direction) :
    record.emission place handle direction =
      record.asField.emission place handle direction := by
  cases direction <;> rfl

end DataBridge
