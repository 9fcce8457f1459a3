import DataBridge.Program.Temp
import DataBridge.Proofs.Flatten.Layout
import DataBridge.Proofs.Flatten.Occurrence

/-!
# Slots of a program

A program whose first free slot is `next` names a block of slots that starts
there, without a gap, and no other slot.  How long the block is depends on the
type alone: `Field.slots` counts the containers that are open at once on the
way to a leaf.  The iterators of its loops are free ones.
-/

namespace DataBridge

/-- The slots that hold one element of an array on its way. -/
def FieldType.holderSlots : FieldType → Nat
  | .leaf _ => 0
  | .record _ => 1

/-- The slots that hold a member on its way. -/
def Field.holderSlots (direction : Direction) (field : Field) : Nat :=
  match direction, field.type, field.arraySize with
  | .outgoing, .leaf _, 0 => 0
  | _, _, _ => 1

mutual

/-- How many slots are open at once inside a member. -/
def Field.slots (direction : Direction) (field : Field) : Nat :=
  match field with
  | { type, arraySize := 0, .. } => type.slots direction
  | { type, arraySize := _ + 1, .. } => type.slots direction + type.holderSlots

/-- How many slots are open at once inside a single value. -/
def FieldType.slots (direction : Direction) : FieldType → Nat
  | .leaf _ => 0
  | .record { fields, .. } => membersSlots direction fields

/-- How many slots are open at once inside an object with some members. -/
def membersSlots (direction : Direction) : List Field → Nat
  | [] => 0
  | member :: rest =>
      if member.isPrivate then membersSlots direction rest
      else
        max (member.slots direction + member.holderSlots direction)
          (membersSlots direction rest)

end

/-- How many slots are open at once in a program for a dataset. -/
def Field.datasetSlots (direction : Direction) (dataset : Field) : Nat :=
  match dataset.type, dataset.arraySize with
  | .record record, 0 => (FieldType.record record).slots direction + 1
  | _, _ => dataset.slots direction

section Shape

variable {field : Field} {direction : Direction}

theorem slots_single (single : field.arraySize = 0) :
    field.slots direction = field.type.slots direction := by
  obtain ⟨name, type, size, flags, comment, enumName⟩ := field
  cases single
  rfl

theorem slots_array {size : Nat} (array : field.arraySize = size + 1) :
    field.slots direction = field.type.slots direction +
      field.type.holderSlots := by
  obtain ⟨name, type, size, flags, comment, enumName⟩ := field
  cases array
  rfl

theorem slots_record (record : Record) :
    (FieldType.record record).slots direction =
      membersSlots direction record.fields := by
  cases record
  rfl

end Shape

/-- A handle that holds a value on its way: a slot of its own, or a scratch
handle for a value that opens no slot. -/
def Handle.Holds (holder : Handle) (next own count : Nat) : Prop :=
  (holder = .slot next ∧ own = 1) ∨
    ((∀ index, holder ≠ .slot index) ∧ own = 0 ∧ count = 0)

theorem FieldType.holder_holds (type : FieldType) (direction : Direction)
    (next : Nat) :
    (type.holder next).Holds next type.holderSlots (type.slots direction) := by
  cases type with
  | leaf leaf => exact .inr ⟨nofun, rfl, rfl⟩
  | record record => exact .inl ⟨rfl, rfl⟩

theorem Field.holder_holds (field : Field) (next : Nat) :
    (field.holder next).Holds next (field.holderSlots .outgoing)
      (field.slots .outgoing) := by
  obtain ⟨name, type, size, flags, comment, enumName⟩ := field
  cases type with
  | leaf leaf =>
      cases size with
      | zero => exact .inr ⟨nofun, rfl, rfl⟩
      | succ size => exact .inl ⟨rfl, rfl⟩
  | record record => exact .inl ⟨rfl, rfl⟩

theorem Temp.ofHandle?_eq_slot_iff {handle : Handle} {index : Nat} :
    Temp.ofHandle? handle = some (.slot index) ↔ handle = .slot index := by
  cases handle <;> simp [Temp.ofHandle?]

theorem Temp.scratch?_ne_slot (leaf : Leaf) (index : Nat) :
    Temp.scratch? leaf ≠ some (.slot index) := by
  cases leaf <;> simp [Temp.scratch?]

namespace Stmt

def isLoop : Stmt → Bool
  | .forEach _ _ _ => true
  | _ => false

theorem slot_mem_temps_iff {statement : Stmt} (plain : statement.isLoop = false)
    {index : Nat} :
    .slot index ∈ statement.temps ↔ .slot index ∈ statement.handles := by
  cases statement
  case forEach => cases plain
  all_goals
    simp [temps, handles, scratch?, Temp.ofHandle?_eq_slot_iff,
      Temp.scratch?_ne_slot, eq_comm]

private theorem occurrences_plain {statement : Stmt}
    (plain : statement.isLoop = false)
    (loops : Loops) : statement.occurrences loops = [⟨loops, statement⟩] := by
  cases statement
  case forEach => cases plain
  all_goals rfl

theorem tempsList_append (first second : List Stmt) :
    tempsList (first ++ second) = tempsList first ++ tempsList second := by
  induction first with
  | nil => rfl
  | cons statement rest induction =>
      rw [List.cons_append, tempsList, tempsList, induction, List.append_assoc]

/-- Apart from the handles of the code around them, statements name the slots
of a block and no others, and their loops use some of the letters. -/
structure Uses (outer : List Handle) (next count : Nat) (letters : List Char)
    (statements : List Stmt) : Prop where
  slots : ∀ index, .slot index ∉ outer →
    (.slot index ∈ tempsList statements ↔ next ≤ index ∧ index < next + count)
  loops : ∀ loops, ∀ occurrence ∈ occurrencesList loops statements,
    ∀ iterator rounds body,
    occurrence.statement = .forEach iterator rounds body → iterator ∈ letters

namespace Uses

variable {outer more : List Handle} {next count other : Nat}
  {letters fewer : List Char} {statements first second : List Stmt}

theorem nil (outer : List Handle) (next : Nat) (letters : List Char) :
    Uses outer next 0 letters [] := by
  constructor
  · intro index _
    simp [tempsList]
  · intro loops occurrence inside
    cases inside

theorem append (before : Uses outer next count letters first)
    (after : Uses outer next other letters second) :
    Uses outer next (max count other) letters (first ++ second) := by
  constructor
  · intro index inner
    rw [tempsList_append, List.mem_append, before.slots index inner,
      after.slots index inner]
    omega
  · intro loops occurrence inside
    rw [occurrencesList_append] at inside
    rcases List.mem_append.mp inside with early | late
    · exact before.loops loops occurrence early
    · exact after.loops loops occurrence late

theorem plain {statement : Stmt} (plain : statement.isLoop = false)
    (known : ∀ index, .slot index ∈ statement.handles → .slot index ∈ outer) :
    Uses outer next 0 letters [statement] := by
  constructor
  · intro index inner
    simp only [tempsList, List.append_nil, slot_mem_temps_iff plain]
    constructor
    · intro named
      exact (inner (known index named)).elim
    · omega
  · intro loops occurrence inside iterator rounds body loop
    rw [occurrencesList, occurrences_plain plain, occurrencesList,
      List.append_nil] at inside
    rw [List.mem_singleton.mp inside] at loop
    rw [show statement = .forEach iterator rounds body from loop] at plain
    cases plain

theorem cons {statement : Stmt} (loopless : statement.isLoop = false)
    (known : ∀ index, .slot index ∈ statement.handles → .slot index ∈ outer)
    (after : Uses outer next count letters second) :
    Uses outer next count letters (statement :: second) := by
  have both := append (plain loopless known) after
  rw [Nat.zero_max] at both
  exact both

theorem concat {statement : Stmt} (before : Uses outer next count letters first)
    (loopless : statement.isLoop = false)
    (known : ∀ index, .slot index ∈ statement.handles → .slot index ∈ outer) :
    Uses outer next count letters (first ++ [statement]) := by
  have both := append before (plain loopless known)
  rw [Nat.max_zero] at both
  exact both

theorem widen (uses : Uses outer next count letters statements)
    (wider : outer ⊆ more) : Uses more next count letters statements :=
  ⟨fun index inner => uses.slots index fun known => inner (wider known),
    uses.loops⟩

/-- Statements around a value on its way, which name the handle that holds
it. -/
theorem held {holder : Handle} {own : Nat} (holds : holder.Holds next own count)
    (inner : Uses (holder :: outer) (next + 1) count letters statements)
    (named : .slot next ∈ tempsList statements ∨ holder ≠ .slot next) :
    Uses outer next (count + own) letters statements := by
  constructor
  · intro index outside
    by_cases here : holder = .slot index
    · rcases holds with ⟨slot, rfl⟩ | ⟨scratch, _⟩
      · cases here.symm.trans slot
        have mentioned := named.resolve_right (not_not_intro slot)
        simp only [mentioned, true_iff]
        omega
      · exact (scratch index here).elim
    · have apart : .slot index ∉ holder :: outer := by
        simp [outside, Ne.symm here]
      rw [inner.slots index apart]
      rcases holds with ⟨slot, rfl⟩ | ⟨_, rfl, rfl⟩
      · have different : index ≠ next := by
          rintro rfl
          exact here slot
        omega
      · omega
  · exact inner.loops

theorem loop {letter : Char} {rounds : Nat}
    (body : Uses outer next count letters statements) :
    Uses outer next count (letter :: letters)
      [.forEach letter rounds statements] := by
  constructor
  · intro index inner
    rw [tempsList, temps, tempsList, List.append_nil]
    exact body.slots index inner
  · intro loops occurrence inside iterator times inner loop
    rw [occurrencesList, occurrences, occurrencesList, List.append_nil]
      at inside
    rcases List.mem_cons.mp inside with rfl | deeper
    · cases loop
      exact List.mem_cons_self
    · apply List.mem_cons_of_mem
      exact body.loops _ occurrence deeper iterator times inner loop

end Uses

theorem slot_mem_concat {statements : List Stmt} {statement : Stmt}
    {holder : Handle} {next : Nat} (plain : statement.isLoop = false)
    (stored : holder ∈ statement.handles) :
    .slot next ∈ tempsList (statements ++ [statement]) ∨
      holder ≠ .slot next := by
  by_cases slot : holder = .slot next
  · left
    rw [tempsList_append, List.mem_append, tempsList, tempsList,
      List.append_nil, slot_mem_temps_iff plain]
    exact .inr (slot ▸ stored)
  · exact .inr slot

theorem slot_mem_cons {statements : List Stmt} {statement : Stmt}
    {holder : Handle} {next : Nat} (plain : statement.isLoop = false)
    (stored : holder ∈ statement.handles) :
    .slot next ∈ tempsList (statement :: statements) ∨ holder ≠ .slot next := by
  by_cases slot : holder = .slot next
  · left
    rw [tempsList, List.mem_append, slot_mem_temps_iff plain]
    exact .inl (slot ▸ stored)
  · exact .inr slot

end Stmt

namespace Layout

open Stmt (Uses)

variable {letters : List Char}

private theorem outMembers_uses {fields : List Field}
    (members : ∀ member ∈ fields,
      ∀ origin dest next, member.depth ≤ letters.length →
      Uses [dest] next (member.slots .outgoing) letters
        (outField origin dest next letters member))
    (origin : Origin) (parent : Handle) (next : Nat)
    (enough : membersDepth fields ≤ letters.length) :
    Uses [parent] next (membersSlots .outgoing fields) letters
      (outMembers origin parent next letters fields) := by
  induction fields with
  | nil => exact .nil _ _ _
  | cons member rest induction =>
      have others := induction fun inner inside =>
        members inner (List.mem_cons_of_mem _ inside)
      by_cases hidden : member.isPrivate = true
      · rw [membersDepth, if_pos hidden] at enough
        rw [outMembers, if_pos hidden, membersSlots, if_pos hidden]
        exact others enough
      · rw [membersDepth, if_neg hidden, Nat.max_le] at enough
        rw [outMembers, if_neg hidden, membersSlots, if_neg hidden,
          List.append_cons]
        apply Uses.append
        · apply Uses.held (member.holder_holds next)
          · apply Uses.concat
            · exact (members member List.mem_cons_self _ _ _ enough.1).widen
                (by simp)
            · rfl
            · simp [Stmt.handles, or_comm]
          · exact Stmt.slot_mem_concat rfl (by simp [Stmt.handles])
        · exact others enough.2

theorem outField_uses (field : Field) (origin : Origin) (dest : Handle)
    (next : Nat) (enough : field.depth ≤ letters.length) :
    Uses [dest] next (field.slots .outgoing) letters
      (outField origin dest next letters field) := by
  induction field using Field.nested_induction
      generalizing origin dest next letters with
  | step field induction =>
      have single : ∀ {letters} (origin : Origin) (dest : Handle) (next : Nat),
          field.type.depth ≤ letters.length →
          Uses [dest] next (field.type.slots .outgoing) letters
            (outType origin dest next letters field.type) := by
        intro letters origin dest next enough
        cases type : field.type with
        | leaf leaf =>
            cases origin with
            | native place =>
                exact .plain rfl (by simp [Origin.leaf, Stmt.handles])
            | defaults => exact .plain rfl (by simp [Origin.leaf, Stmt.handles])
        | record record =>
            rw [type, depth_record] at enough
            rw [outType_record, slots_record]
            apply Uses.cons rfl (by simp [Stmt.handles])
            apply outMembers_uses _ origin dest next enough
            intro member inside origin dest next enough
            exact induction record type member inside origin dest next enough
      rcases size : field.arraySize with _ | count
      · rw [depth_single size] at enough
        rw [outField_single size, slots_single size]
        exact single origin dest next enough
      · rw [depth_array size] at enough
        obtain ⟨letter, free, rfl⟩ :=
          List.exists_cons_of_length_pos (Nat.zero_lt_of_lt enough)
        rw [outField_array size, slots_array size]
        apply Uses.cons rfl (by simp [Stmt.handles])
        apply Uses.loop
        apply Uses.held (field.type.holder_holds .outgoing next)
        · apply Uses.concat
          · exact (single _ _ _ (Nat.le_of_succ_le_succ enough)).widen (by simp)
          · rfl
          · simp [Stmt.handles, or_comm]
        · exact Stmt.slot_mem_concat rfl (by simp [Stmt.handles])

private theorem inMembers_uses {fields : List Field}
    (members : ∀ member ∈ fields,
      ∀ source place next, member.depth ≤ letters.length →
      Uses [source] next (member.slots .incoming) letters
        (inField source place next letters member))
    (source : Handle) (place : Place) (next : Nat)
    (enough : membersDepth fields ≤ letters.length) :
    Uses [source] next (membersSlots .incoming fields) letters
      (inMembers source place next letters fields) := by
  induction fields with
  | nil => exact .nil _ _ _
  | cons member rest induction =>
      have others := induction fun inner inside =>
        members inner (List.mem_cons_of_mem _ inside)
      by_cases hidden : member.isPrivate = true
      · rw [membersDepth, if_pos hidden] at enough
        rw [inMembers, if_pos hidden, membersSlots, if_pos hidden]
        exact others enough
      · rw [membersDepth, if_neg hidden, Nat.max_le] at enough
        rw [inMembers, if_neg hidden, membersSlots, if_neg hidden,
          ← List.cons_append]
        apply Uses.append
        · apply Uses.held (.inl ⟨rfl, rfl⟩)
          · apply Uses.cons rfl (by simp [Stmt.handles, or_comm])
            exact (members member List.mem_cons_self _ _ _ enough.1).widen
              (by simp)
          · exact Stmt.slot_mem_cons rfl (by simp [Stmt.handles])
        · exact others enough.2

theorem inField_uses (field : Field) (source : Handle) (place : Place)
    (next : Nat) (enough : field.depth ≤ letters.length) :
    Uses [source] next (field.slots .incoming) letters
      (inField source place next letters field) := by
  induction field using Field.nested_induction
      generalizing source place next letters with
  | step field induction =>
      have single : ∀ {letters} (source : Handle) (place : Place) (next : Nat),
          field.type.depth ≤ letters.length →
          Uses [source] next (field.type.slots .incoming) letters
            (inType source place next letters field.type) := by
        intro letters source place next enough
        cases type : field.type with
        | leaf leaf =>
            rw [inType]
            exact .plain rfl (by simp [Stmt.handles])
        | record record =>
            rw [type, depth_record] at enough
            rw [inType_record, slots_record]
            apply inMembers_uses _ source place next enough
            intro member inside source place next enough
            exact induction record type member inside source place next enough
      rcases size : field.arraySize with _ | count
      · rw [depth_single size] at enough
        rw [inField_single size, slots_single size]
        exact single source place next enough
      · rw [depth_array size] at enough
        obtain ⟨letter, free, rfl⟩ :=
          List.exists_cons_of_length_pos (Nat.zero_lt_of_lt enough)
        rw [inField_array size, slots_array size]
        apply Uses.loop
        apply Uses.held (field.type.holder_holds .incoming next)
        · apply Uses.cons rfl (by simp [Stmt.handles, or_comm])
          exact (single _ _ _ (Nat.le_of_succ_le_succ enough)).widen (by simp)
        · exact Stmt.slot_mem_cons rfl (by simp [Stmt.handles])

theorem outDataset_uses (dataset : Field) (origin : Origin) (dest : Handle)
    (next : Nat) (enough : dataset.depth ≤ letters.length) :
    Uses [dest] next (dataset.datasetSlots .outgoing) letters
      (outDataset origin dest next letters dataset) := by
  obtain ⟨name, type, size, flags, comment, enumName⟩ := dataset
  cases type <;> cases size
  case record.zero record =>
    have built : Uses [.slot next] (next + 1) _ letters
        (outType origin (.slot next) (next + 1) letters (.record record)) :=
      outField_uses ⟨name, .record record, 0, flags, comment, enumName⟩ origin
        _ _ enough
    have wider := built.widen (List.subset_append_left _ [dest])
    change Uses [dest] next (_ + 1) letters (_ ++ [.assign dest (.slot next)])
    apply Uses.held (.inl ⟨rfl, rfl⟩)
    · exact wider.concat rfl (by simp [Stmt.handles, or_comm])
    · exact Stmt.slot_mem_concat rfl (by simp [Stmt.handles])
  all_goals exact outField_uses _ origin dest next enough

theorem inDataset_uses (dataset : Field) (source : Handle) (place : Place)
    (next : Nat) (enough : dataset.depth ≤ letters.length) :
    Uses [source] next (dataset.datasetSlots .incoming) letters
      (inDataset source place next letters dataset) := by
  obtain ⟨name, type, size, flags, comment, enumName⟩ := dataset
  cases type <;> cases size
  case record.zero record =>
    have built : Uses [.slot next] (next + 1) _ letters
        (inType (.slot next) place (next + 1) letters (.record record)) :=
      inField_uses ⟨name, .record record, 0, flags, comment, enumName⟩ _ place
        _ enough
    have wider := built.widen (List.subset_append_left _ [source])
    apply Uses.held (.inl ⟨rfl, rfl⟩)
    · exact wider.cons rfl (by simp [Stmt.handles])
    · exact Stmt.slot_mem_cons rfl (by simp [Stmt.handles])
  all_goals exact inField_uses _ source place next enough

end Layout

end DataBridge
