import DataBridge.Proofs.Flatten.Layout
import DataBridge.Proofs.Flatten.LeafPath
import DataBridge.Proofs.Flatten.Occurrence
import DataBridge.Proofs.Resolver.Reachable
import Mathlib.Data.List.Forall2

/-!
# Programs address the exchanged leaves

The leaf statements of a program, in either direction, are those of
`Field.accesses`, a recursion on the type that knows nothing of statements.
Their places follow the leaf paths of the type one by one: an index stands
where the path enters an array, and a loop over that array binds it.
-/

namespace DataBridge

mutual

/-- The native places of the exchanged leaves of a field, with the loops in
which a program reaches them. -/
def Field.accesses (place : Place) (loops : Loops) (letters : List Char)
    (field : Field) : List Access :=
  match field with
  | { type, arraySize := 0, .. } => type.accesses place loops letters
  | { type, arraySize := size + 1, .. } =>
      let letter := letters.headD 'z'
      type.accesses (place.index letter) ((letter, size + 1) :: loops)
        letters.tail

/-- The native places of the exchanged leaves of a single value. -/
def FieldType.accesses (place : Place) (loops : Loops) (letters : List Char) :
    FieldType → List Access
  | .leaf leaf => [⟨loops, leaf, place⟩]
  | .record { fields, .. } => membersAccesses place loops letters fields

/-- The native places of the exchanged leaves of some members. -/
def membersAccesses (place : Place) (loops : Loops) (letters : List Char) :
    List Field → List Access
  | [] => []
  | member :: rest =>
      if member.isPrivate then membersAccesses place loops letters rest
      else
        member.accesses (place.field member.name) loops letters ++
          membersAccesses place loops letters rest

end

/-- A segment of a place takes a step of a path: a member by its name, and the
elements of an array by the iterator of a loop that counts them. -/
inductive Segment.Takes (loops : Loops) : Segment → LeafStep → Prop where
  | member (name : String) : Segment.Takes loops (.field name) (.member name)
  | elements {iterator : Char} {size : Nat} (bound : loops.lookup iterator =
      some size) :
      Segment.Takes loops (.index iterator) (.elements size)

/-- The loops that the arrays on a path call for, from the outermost. -/
def Segment.loopsAlong : List Segment → List LeafStep → Loops
  | .index iterator :: segments, .elements size :: steps =>
      (iterator, size) :: Segment.loopsAlong segments steps
  | _ :: segments, _ :: steps => Segment.loopsAlong segments steps
  | _, _ => []

/-- An access goes below a place and follows a path there, within one loop for
each array on the path and no other. -/
structure Access.Follows (place : Place) (access : Access) (path : LeafPath) :
    Prop where
  leaf : access.leaf = path.leaf
  walks : ∃ segments,
    access.place = { place with segments := place.segments ++ segments } ∧
    List.Forall₂ (Segment.Takes access.loops) segments path.steps ∧
    access.loops.reverse = Segment.loopsAlong segments path.steps

section Shape

variable {field : Field} {place : Place} {loops : Loops} {letters : List Char}

theorem accesses_single (single : field.arraySize = 0) :
    field.accesses place loops letters =
      field.type.accesses place loops letters := by
  obtain ⟨name, type, size, flags, comment, enumName⟩ := field
  cases single
  rfl

theorem accesses_array {size : Nat} (array : field.arraySize = size + 1) :
    field.accesses place loops letters =
      field.type.accesses (place.index (letters.headD 'z'))
        ((letters.headD 'z', size + 1) :: loops) letters.tail := by
  obtain ⟨name, type, size, flags, comment, enumName⟩ := field
  cases array
  rfl

theorem accesses_record (record : Record) :
    (FieldType.record record).accesses place loops letters =
      membersAccesses place loops letters record.fields := by
  cases record
  rfl

end Shape

/-- Loops whose iterators are not among the free letters. -/
def Loops.Apart (loops : Loops) (letters : List Char) : Prop :=
  ∀ letter ∈ letters, letter ∉ loops.map Prod.fst

theorem Loops.Apart.enter {loops : Loops} {letter : Char} {letters : List Char}
    (apart : Loops.Apart loops (letter :: letters)) (fresh : letter ∉ letters)
    (count : Nat) : Loops.Apart ((letter, count) :: loops) letters := by
  intro other inside
  rw [List.map_cons, List.mem_cons, not_or]
  constructor
  · rintro rfl
    exact fresh inside
  · exact apart other (List.mem_cons_of_mem _ inside)

namespace Stmt

/-- Statements within loops move the leaves of the accesses, in order, and use
iterators as they should. -/
structure Addresses (loops : Loops) (statements : List Stmt)
    (accesses : List Access) : Prop where
  listed : (occurrencesList loops statements).filterMap Occurrence.access? =
    accesses
  inScope : ∀ occurrence ∈ occurrencesList loops statements, occurrence.Scoped

namespace Addresses

variable {loops : Loops} {first second : List Stmt}
  {accesses others : List Access}

theorem nil (loops : Loops) : Addresses loops [] [] :=
  ⟨rfl, by simp [occurrencesList]⟩

theorem append (before : Addresses loops first accesses)
    (after : Addresses loops second others) :
    Addresses loops (first ++ second) (accesses ++ others) := by
  constructor
  · rw [occurrencesList_append, List.filterMap_append, before.listed,
      after.listed]
  · intro occurrence inside
    rw [occurrencesList_append] at inside
    rcases List.mem_append.mp inside with early | late
    · exact before.inScope occurrence early
    · exact after.inScope occurrence late

/-- A statement that moves a leaf. -/
theorem leaf {statement : Stmt} {access : Access}
    (alone : statement.occurrences loops = [⟨loops, statement⟩])
    (moves : Occurrence.access? ⟨loops, statement⟩ = some access)
    (inScope : Occurrence.Scoped ⟨loops, statement⟩) :
    Addresses loops [statement] [access] := by
  constructor
  · rw [occurrencesList, alone]
    exact List.filterMap_cons_some moves
  · intro occurrence inside
    rw [occurrencesList, alone] at inside
    rw [List.mem_singleton.mp inside]
    exact inScope

/-- A statement without a leaf in front. -/
theorem cons {statement : Stmt}
    (alone : statement.occurrences loops = [⟨loops, statement⟩])
    (plain : Occurrence.access? ⟨loops, statement⟩ = none)
    (inScope : Occurrence.Scoped ⟨loops, statement⟩)
    (after : Addresses loops second accesses) :
    Addresses loops (statement :: second) accesses := by
  constructor
  · rw [occurrencesList, alone, List.singleton_append,
      List.filterMap_cons_none plain, after.listed]
  · intro occurrence inside
    rw [occurrencesList, alone, List.singleton_append] at inside
    rcases List.mem_cons.mp inside with rfl | late
    · exact inScope
    · exact after.inScope occurrence late

theorem loop {letter : Char} {count : Nat} (fresh : letter ∉ loops.map Prod.fst)
    (body : Addresses ((letter, count) :: loops) first accesses) :
    Addresses loops [.forEach letter count first] accesses := by
  constructor
  · rw [occurrencesList, occurrences, occurrencesList, List.append_nil]
    exact body.listed
  · intro occurrence inside
    rw [occurrencesList, occurrences, occurrencesList, List.append_nil]
      at inside
    rcases List.mem_cons.mp inside with rfl | late
    · exact fresh
    · exact body.inScope occurrence late

end Addresses

end Stmt

namespace Layout

open Stmt (Addresses)

variable {loops : Loops} {next : Nat} {letters : List Char}

private theorem outMembers_addresses {fields : List Field}
    (members : ∀ member ∈ fields,
      ∀ place dest next, member.depth ≤ letters.length →
      Addresses loops (outField (.native place) dest next letters member)
        (member.accesses place loops letters))
    (place : Place) (parent : Handle) (next : Nat)
    (enough : membersDepth fields ≤ letters.length) :
    Addresses loops (outMembers (.native place) parent next letters fields)
      (membersAccesses place loops letters fields) := by
  induction fields with
  | nil => exact .nil loops
  | cons member rest induction =>
      have others := induction fun inner inside =>
        members inner (List.mem_cons_of_mem _ inside)
      by_cases hidden : member.isPrivate = true
      · rw [membersDepth, if_pos hidden] at enough
        rw [outMembers, if_pos hidden, membersAccesses, if_pos hidden]
        exact others enough
      · rw [membersDepth, if_neg hidden, Nat.max_le] at enough
        rw [outMembers, if_neg hidden, membersAccesses, if_neg hidden]
        apply Addresses.append
        · exact members member List.mem_cons_self _ _ _ enough.1
        · exact .cons rfl rfl trivial (others enough.2)

theorem outField_addresses (field : Field) (place : Place) (dest : Handle)
    (next : Nat) (distinct : letters.Nodup) (apart : loops.Apart letters)
    (enough : field.depth ≤ letters.length) :
    Addresses loops (outField (.native place) dest next letters field)
      (field.accesses place loops letters) := by
  induction field using Field.nested_induction
    generalizing place dest next letters loops with
  | step field induction =>
      have single : ∀ {loops letters} (place : Place) (dest : Handle)
          (next : Nat), letters.Nodup → Loops.Apart loops letters →
          field.type.depth ≤ letters.length →
          Addresses loops (outType (.native place) dest next letters field.type)
            (field.type.accesses place loops letters) := by
        intro loops letters place dest next distinct apart enough
        cases type : field.type with
        | leaf leaf => exact .leaf rfl rfl trivial
        | record record =>
            rw [type, depth_record] at enough
            rw [outType_record, accesses_record]
            refine .cons rfl rfl trivial ?_
            apply outMembers_addresses _ place dest next enough
            intro member inside place dest next enough
            exact induction record type member inside place dest next distinct
              apart enough
      rcases size : field.arraySize with _ | count
      · rw [depth_single size] at enough
        rw [outField_single size, accesses_single size]
        exact single place dest next distinct apart enough
      · rw [depth_array size] at enough
        obtain ⟨letter, free, rfl⟩ :=
          List.exists_cons_of_length_pos (Nat.zero_lt_of_lt enough)
        have fresh := (List.nodup_cons.mp distinct).1
        rw [outField_array size, accesses_array size]
        refine .cons rfl rfl trivial ?_
        apply Addresses.loop (apart letter List.mem_cons_self)
        rw [← List.append_nil (FieldType.accesses _ _ _ _)]
        apply Addresses.append
        · apply single
          · exact (List.nodup_cons.mp distinct).2
          · exact apart.enter fresh _
          · exact Nat.le_of_succ_le_succ enough
        · exact .cons rfl rfl List.mem_cons_self (.nil _)

private theorem inMembers_addresses {fields : List Field}
    (members : ∀ member ∈ fields,
      ∀ source place next, member.depth ≤ letters.length →
      Addresses loops (inField source place next letters member)
        (member.accesses place loops letters))
    (source : Handle) (place : Place) (next : Nat)
    (enough : membersDepth fields ≤ letters.length) :
    Addresses loops (inMembers source place next letters fields)
      (membersAccesses place loops letters fields) := by
  induction fields with
  | nil => exact .nil loops
  | cons member rest induction =>
      have others := induction fun inner inside =>
        members inner (List.mem_cons_of_mem _ inside)
      by_cases hidden : member.isPrivate = true
      · rw [membersDepth, if_pos hidden] at enough
        rw [inMembers, if_pos hidden, membersAccesses, if_pos hidden]
        exact others enough
      · rw [membersDepth, if_neg hidden, Nat.max_le] at enough
        rw [inMembers, if_neg hidden, membersAccesses, if_neg hidden]
        refine .cons rfl rfl trivial ?_
        apply Addresses.append
        · exact members member List.mem_cons_self _ _ _ enough.1
        · exact others enough.2

theorem inField_addresses (field : Field) (source : Handle) (place : Place)
    (next : Nat) (distinct : letters.Nodup) (apart : loops.Apart letters)
    (enough : field.depth ≤ letters.length) :
    Addresses loops (inField source place next letters field)
      (field.accesses place loops letters) := by
  induction field using Field.nested_induction
    generalizing source place next letters loops with
  | step field induction =>
      have single : ∀ {loops letters} (source : Handle) (place : Place)
          (next : Nat), letters.Nodup → Loops.Apart loops letters →
          field.type.depth ≤ letters.length →
          Addresses loops (inType source place next letters field.type)
            (field.type.accesses place loops letters) := by
        intro loops letters source place next distinct apart enough
        cases type : field.type with
        | leaf leaf => exact .leaf rfl rfl trivial
        | record record =>
            rw [type, depth_record] at enough
            rw [inType_record, accesses_record]
            apply inMembers_addresses _ source place next enough
            intro member inside source place next enough
            exact induction record type member inside source place next distinct
              apart enough
      rcases size : field.arraySize with _ | count
      · rw [depth_single size] at enough
        rw [inField_single size, accesses_single size]
        exact single source place next distinct apart enough
      · rw [depth_array size] at enough
        obtain ⟨letter, free, rfl⟩ :=
          List.exists_cons_of_length_pos (Nat.zero_lt_of_lt enough)
        have fresh := (List.nodup_cons.mp distinct).1
        rw [inField_array size, accesses_array size]
        apply Addresses.loop (apart letter List.mem_cons_self)
        refine .cons rfl rfl List.mem_cons_self ?_
        apply single
        · exact (List.nodup_cons.mp distinct).2
        · exact apart.enter fresh _
        · exact Nat.le_of_succ_le_succ enough

private theorem outDataset_addresses (dataset : Field) (place : Place)
    (dest : Handle)
    (next : Nat) (distinct : letters.Nodup)
    (enough : dataset.depth ≤ letters.length) :
    Addresses [] (outDataset (.native place) dest next letters dataset)
      (dataset.accesses place [] letters) := by
  have apart : Loops.Apart [] letters := fun _ _ => List.not_mem_nil
  unfold outDataset
  split
  · rename_i record type single
    rw [accesses_single single, type,
      ← List.append_nil (FieldType.accesses _ _ _ _)]
    apply Addresses.append
    · have inner :=
        outField_addresses dataset place (.slot next) (next + 1) distinct
          apart enough
      rwa [outField_single single, accesses_single single, type] at inner
    · exact .cons rfl rfl trivial (.nil [])
  · exact outField_addresses dataset place dest next distinct apart enough

private theorem inDataset_addresses (dataset : Field) (source : Handle)
    (place : Place)
    (next : Nat) (distinct : letters.Nodup)
    (enough : dataset.depth ≤ letters.length) :
    Addresses [] (inDataset source place next letters dataset)
      (dataset.accesses place [] letters) := by
  have apart : Loops.Apart [] letters := fun _ _ => List.not_mem_nil
  unfold inDataset
  split
  · rename_i record type single
    refine .cons rfl rfl trivial ?_
    have inner :=
      inField_addresses dataset (.slot next) place (next + 1) distinct
        apart enough
    rw [inField_single single, type] at inner
    exact inner
  · exact inField_addresses dataset source place next distinct apart enough

end Layout

namespace Access

variable {place : Place} {loops : Loops} {letters : List Char} {access : Access}
  {path : LeafPath}

/-- An access follows a path, within the loops for its arrays and those that a
program had opened before. -/
structure Reaches (place : Place) (loops : Loops) (letters : List Char)
    (access : Access) (path : LeafPath) : Prop where
  leaf : access.leaf = path.leaf
  walks : ∃ segments inner,
    access.place = { place with segments := place.segments ++ segments } ∧
    List.Forall₂ (Segment.Takes access.loops) segments path.steps ∧
    access.loops = inner ++ loops ∧
    inner.reverse = Segment.loopsAlong segments path.steps
  around : ∀ letter, letter ∉ letters →
    access.loops.lookup letter = loops.lookup letter

theorem Reaches.follows (reaches : access.Reaches place [] letters path) :
    access.Follows place path := by
  obtain ⟨segments, inner, equal, takes, loops, along⟩ := reaches.walks
  rw [List.append_nil] at loops
  subst loops
  exact ⟨reaches.leaf, segments, equal, takes, along⟩

theorem Reaches.member {name : String}
    (reaches : access.Reaches (place.field name) loops letters path) :
    access.Reaches place loops letters (path.under (.member name)) := by
  obtain ⟨segments, inner, equal, takes, opened, along⟩ := reaches.walks
  refine ⟨reaches.leaf, ⟨.field name :: segments, inner, ?_, ?_, opened, along⟩,
    reaches.around⟩
  · rw [equal]
    simp [Place.field]
  · exact .cons (.member name) takes

theorem Reaches.elements {letter : Char} {size : Nat} (fresh : letter ∉ letters)
    (reaches : access.Reaches (place.index letter) ((letter, size) :: loops)
      letters path) :
    access.Reaches place loops (letter :: letters)
      (path.under (.elements size)) := by
  obtain ⟨segments, inner, equal, takes, opened, along⟩ := reaches.walks
  have bound : access.loops.lookup letter = some size := by
    rw [reaches.around letter fresh]
    exact List.lookup_cons_self
  refine ⟨reaches.leaf,
    ⟨.index letter :: segments, inner ++ [(letter, size)], ?_, ?_, ?_, ?_⟩, ?_⟩
  · rw [equal]
    simp [Place.index]
  · exact .cons (.elements bound) takes
  · rw [opened, List.append_assoc, List.singleton_append]
  · rw [List.reverse_append, along]
    rfl
  · intro other outside
    rw [List.mem_cons, not_or] at outside
    have different : (other == letter) = false :=
      beq_eq_false_iff_ne.mpr outside.1
    rw [reaches.around other outside.2, List.lookup_cons, different]

end Access

private theorem membersAccesses_reach {fields : List Field} {loops : Loops}
    {letters : List Char}
    (members : ∀ member ∈ fields, ∀ place, member.depth ≤ letters.length →
      List.Forall₂ (Access.Reaches place loops letters)
        (member.accesses place loops letters) member.leafPaths)
    (place : Place) (enough : membersDepth fields ≤ letters.length) :
    List.Forall₂ (Access.Reaches place loops letters)
      (membersAccesses place loops letters fields)
      (membersLeafPaths fields) := by
  induction fields with
  | nil => exact .nil
  | cons member rest induction =>
      have others := induction fun inner inside =>
        members inner (List.mem_cons_of_mem _ inside)
      by_cases hidden : member.isPrivate = true
      · rw [membersDepth, if_pos hidden] at enough
        rw [membersAccesses, if_pos hidden, membersLeafPaths, if_pos hidden]
        exact others enough
      · rw [membersDepth, if_neg hidden, Nat.max_le] at enough
        rw [membersAccesses, if_neg hidden, membersLeafPaths, if_neg hidden]
        apply List.rel_append
        · rw [List.forall₂_map_right_iff]
          have inner :=
            members member List.mem_cons_self (place.field member.name) enough.1
          exact inner.imp fun _ _ => Access.Reaches.member
        · exact others enough.2

/-- The accesses of a field follow its leaf paths, one by one. -/
theorem Field.accesses_reach (field : Field) (place : Place) (loops : Loops)
    {letters : List Char} (distinct : letters.Nodup)
    (enough : field.depth ≤ letters.length) :
    List.Forall₂ (Access.Reaches place loops letters)
      (field.accesses place loops letters) field.leafPaths := by
  induction field using Field.nested_induction
      generalizing place loops letters with
  | step field induction =>
      have single : ∀ {letters} (place : Place) (loops : Loops), letters.Nodup →
          field.type.depth ≤ letters.length →
          List.Forall₂ (Access.Reaches place loops letters)
            (field.type.accesses place loops letters) field.type.leafPaths := by
        intro letters place loops distinct enough
        cases type : field.type with
        | leaf leaf =>
            have here : Access.Reaches place loops letters ⟨loops, leaf, place⟩
                ⟨[], leaf⟩ :=
              ⟨rfl, ⟨[], [], by simp, .nil, rfl, rfl⟩, fun _ _ => rfl⟩
            exact .cons here .nil
        | record record =>
            rw [type, Layout.depth_record] at enough
            rw [accesses_record, leafPaths_record]
            apply membersAccesses_reach _ place enough
            intro member inside place enough
            exact induction record type member inside place loops
              distinct enough
      rcases size : field.arraySize with _ | count
      · rw [Layout.depth_single size] at enough
        rw [accesses_single size, leafPaths_single size]
        exact single place loops distinct enough
      · rw [Layout.depth_array size] at enough
        obtain ⟨letter, free, rfl⟩ :=
          List.exists_cons_of_length_pos (Nat.zero_lt_of_lt enough)
        have split := List.nodup_cons.mp distinct
        rw [accesses_array size, leafPaths_array size,
          List.forall₂_map_right_iff]
        have inner :=
          single (place.index letter) ((letter, count + 1) :: loops) split.2
          (Nat.le_of_succ_le_succ enough)
        exact inner.imp fun _ _ => Access.Reaches.elements split.1

/-- A program for a field at a place: its leaf statements follow the leaf paths
of the field, which are the ways to its exchanged leaves, each listed once. -/
structure Emission.Covers (emission : Emission) (place : Place)
    (field : Field) : Prop where
  follows : List.Forall₂ (Access.Follows place) emission.accesses
    field.leafPaths
  once : (field.leafPaths.map LeafPath.steps).Nodup
  exchanged : ∀ path, path ∈ field.leafPaths ↔ field.LeadsTo path
  inScope : ∀ occurrence ∈ emission.occurrences, occurrence.Scoped

/-- Whichever way a program goes, it covers the field, and both ways visit the
same places in the same order. -/
structure Field.Covered (field : Field) (place : Place)
    (program : Direction → Except EmitError Emission) : Prop where
  covers : ∀ direction emission, program direction = .ok emission →
    emission.Covers place field
  sameOrder : ∀ outgoing incoming, program .outgoing = .ok outgoing →
    program .incoming = .ok incoming → outgoing.accesses = incoming.accesses

namespace Field

theorem emission_addresses {dataset : Field} {place : Place} {handle : Handle}
    {direction : Direction} {naming : Naming} {emission : Emission}
    (flattened : (dataset.emission place handle direction naming).1 =
      .ok emission) :
    dataset.depth ≤ naming.free.length ∧
      Stmt.Addresses [] emission.body
        (dataset.accesses place [] naming.free) := by
  obtain ⟨maxSlot, equal⟩ := dataset.emission_eq place handle direction naming
  rw [equal] at flattened
  split at flattened
  · rename_i enough
    cases flattened
    refine ⟨enough, ?_⟩
    cases direction with
    | outgoing =>
        exact Layout.outDataset_addresses dataset place handle
          _ naming.free_nodup enough
    | incoming =>
        exact Layout.inDataset_addresses dataset handle place
          _ naming.free_nodup enough
  · cases flattened

private theorem emission_covers {dataset : Field}
    (wellNamed : dataset.type.WellNamed)
    {place : Place} {handle : Handle} {direction : Direction} {naming : Naming}
    {emission : Emission}
    (flattened : (dataset.emission place handle direction naming).1 =
      .ok emission) :
    emission.Covers place dataset := by
  obtain ⟨enough, addresses⟩ := emission_addresses flattened
  have listed : emission.accesses = dataset.accesses place [] naming.free :=
    addresses.listed
  constructor
  · rw [listed]
    have reach := dataset.accesses_reach place [] naming.free_nodup enough
    exact reach.imp fun _ _ reaches => reaches.follows
  · exact leafPaths_nodup_of_type wellNamed.leafPaths_nodup
  · exact fun _ => mem_leafPaths_iff
  · exact addresses.inScope

theorem emission_covered {dataset : Field} (wellNamed : dataset.type.WellNamed)
    (place : Place) (handle : Handle) (naming : Naming) :
    dataset.Covered place fun direction =>
      (dataset.emission place handle direction naming).1 := by
  constructor
  · exact fun _ _ => emission_covers wellNamed
  · intro outgoing incoming out into
    exact (emission_addresses out).2.listed.trans
      (emission_addresses into).2.listed.symm

end Field

/-- Every program for a record of a resolver, or for a field of one, moves the
exchanged leaves of its type in declared order, each once and within the
bounds of the arrays around it. -/
theorem emission_covers_leaves (catalog : Catalog) (place : Place)
    (handle : Handle) (naming : Naming) :
    (∀ record, Resolver.Produces catalog record →
      record.asField.Covered place fun direction =>
        (record.emission place handle direction naming).1) ∧
    ∀ dataset, Resolver.ProducesField catalog dataset →
      dataset.Covered place fun direction =>
        (dataset.emission place handle direction naming).1 := by
  constructor
  · intro record produced
    have covered :=
      Field.emission_covered produced.wellNamed.asField place handle naming
    simp only [← Record.emission_eq_asField] at covered
    exact covered
  · intro dataset produced
    exact Field.emission_covered produced.wellNamed place handle naming

theorem plant_covered :
    Resolver.Produces Resolver.plantCatalog Resolver.plant ∧
      (∃ outgoing incoming,
        (Resolver.plant.emission
          { root := "plc" } (.external "message") .outgoing {}).1 =
          .ok outgoing ∧
        (Resolver.plant.emission
          { root := "plc" } (.external "message") .incoming {}).1 =
          .ok incoming ∧
        outgoing.Covers { root := "plc" } Resolver.plant.asField ∧
        outgoing.accesses = incoming.accesses ∧
        outgoing.accesses = [
          ⟨[], .string 4, ⟨"plc", [.field "label"]⟩⟩,
          ⟨[('i', 2)], .float .real,
            ⟨"plc", [.field "axes", .index 'i', .field "speed"]⟩⟩,
          ⟨[('j', 2), ('i', 2)], .integer .udint,
            ⟨"plc", [.field "axes", .index 'i', .field "ticks",
                .index 'j']⟩⟩]) ∧
      ∃ ticks, Resolver.ProducesField Resolver.plantCatalog ticks ∧
        ∃ incoming,
          (ticks.emission ⟨"plc", [.field "ticks"]⟩ (.external "message")
            .incoming { openLoops := 1 }).1 = .ok incoming ∧
          incoming.Covers ⟨"plc", [.field "ticks"]⟩ ticks ∧
          incoming.accesses =
            [⟨[('j', 2)], .integer .udint,
                ⟨"plc", [.field "ticks", .index 'j']⟩⟩] := by
  have produced := Resolver.plant_produced
  have covered :=
    (emission_covers_leaves Resolver.plantCatalog { root := "plc" }
    (.external "message") {}).1 _ produced
  have ticks : Resolver.ProducesField Resolver.plantCatalog
      { name := "ticks", type := .leaf (.integer .udint), arraySize := 2 } :=
    @Resolver.ProducesField.alone _ {}
      { name := "ticks", typeName := "UDINT", arraySize := 2 } _
      .fresh rfl
  have alone :=
    (emission_covers_leaves Resolver.plantCatalog ⟨"plc", [.field "ticks"]⟩
    (.external "message") { openLoops := 1 }).2 _ ticks
  refine ⟨produced, ⟨_, _, rfl, rfl, covered.covers .outgoing _ rfl,
    covered.sameOrder _ _ rfl rfl,
    rfl⟩, _, ticks, _, rfl, alone.covers .incoming _ rfl, rfl⟩

end DataBridge
