import DataBridge.Proofs.Naming.Script

/-!
# How deep the loops of a program nest

A program opens one loop for each array on the way to a leaf, whichever way the
values go.  Its loops nest as deep as the arrays of the exchanged members, so a
walk runs out of iterators exactly when these and the open loops are more than
there are iterators.
-/

namespace DataBridge

namespace Stmt

@[simp] theorem loopDepthList_nil : loopDepthList [] = 0 := rfl

@[simp] theorem loopDepthList_cons (first : Stmt) (rest : List Stmt) :
    loopDepthList (first :: rest) = max first.loopDepth (loopDepthList rest) :=
      rfl

@[simp] theorem loopDepthList_append (first second : List Stmt) :
    loopDepthList (first ++ second) =
      max (loopDepthList first) (loopDepthList second) := by
  induction first with
  | nil => exact (Nat.zero_max _).symm
  | cons statement rest induction =>
      rw [List.cons_append, loopDepthList_cons, loopDepthList_cons, induction,
        Nat.max_assoc]

@[simp] theorem loopDepth_forEach (iterator : Char) (count : Nat)
    (body : List Stmt) :
    (forEach iterator count body).loopDepth = 1 + loopDepthList body := rfl

/-- A statement that is no loop has no loop inside. -/
@[simp] theorem loopDepth_plain {statement : Stmt}
    (plain : ∀ iterator count body, statement ≠ .forEach iterator count body) :
    statement.loopDepth = 0 := by
  cases statement with
  | forEach iterator count body => exact (plain iterator count body rfl).elim
  | _ => rfl

end Stmt

@[simp] theorem Origin.leaf_loopDepth (origin : Origin) (leaf : Leaf)
    (target : Handle) : (origin.leaf leaf target).loopDepth = 0 := by
  cases origin <;> rfl

namespace Layout

open Stmt (loopDepthList)

private theorem outMembers_loopDepth {fields : List Field}
    (members : ∀ member ∈ fields, ∀ origin dest next letters,
      loopDepthList (outField origin dest next letters member) = member.depth)
    (origin : Origin) (parent : Handle) (next : Nat) (letters : List Char) :
    loopDepthList (outMembers origin parent next letters fields) =
      membersDepth fields := by
  induction fields with
  | nil => rfl
  | cons member rest induction =>
      have others := induction fun inner inside =>
        members inner (List.mem_cons_of_mem _ inside)
      rw [outMembers, membersDepth]
      split
      · exact others
      · simp [others, members member List.mem_cons_self]

theorem outType_loopDepth {type : FieldType}
    (members : ∀ record, type = .record record → ∀ member ∈ record.fields,
      ∀ origin dest next letters,
        loopDepthList (outField origin dest next letters member) = member.depth)
    (origin : Origin) (dest : Handle) (next : Nat) (letters : List Char) :
    loopDepthList (outType origin dest next letters type) = type.depth := by
  cases type with
  | leaf leaf => simp [outType, FieldType.depth]
  | record record =>
      have inside :=
        outMembers_loopDepth (members record rfl) origin dest next letters
      simp [outType_record, depth_record, inside]

/-- The loops that put a member into a handle nest as deep as its arrays. -/
theorem outField_loopDepth (field : Field) (origin : Origin) (dest : Handle)
    (next : Nat) (letters : List Char) :
    loopDepthList (outField origin dest next letters field) = field.depth := by
  induction field using Field.nested_induction
      generalizing origin dest next letters with
  | step field induction =>
      have value := outType_loopDepth induction
      cases size : field.arraySize with
      | zero => rw [outField_single size, depth_single size, value]
      | succ size' =>
          rw [outField_array size, depth_array size]
          simp [value, Nat.add_comm]

theorem outDataset_loopDepth (dataset : Field) (origin : Origin) (dest : Handle)
    (next : Nat) (letters : List Char) :
    loopDepthList (outDataset origin dest next letters dataset) =
      dataset.depth := by
  unfold outDataset
  split
  · rename_i record type size
    have value :
        loopDepthList
          (outType origin (.slot next) (next + 1) letters dataset.type) =
        dataset.type.depth :=
      outType_loopDepth (fun _ _ member _ => outField_loopDepth member) ..
    rw [type] at value
    simp [depth_single size, type, value]
  · exact outField_loopDepth dataset origin dest next letters

private theorem inMembers_loopDepth {fields : List Field}
    (members : ∀ member ∈ fields, ∀ source dest next letters,
      loopDepthList (inField source dest next letters member) = member.depth)
    (source : Handle) (dest : Place) (next : Nat) (letters : List Char) :
    loopDepthList (inMembers source dest next letters fields) =
      membersDepth fields := by
  induction fields with
  | nil => rfl
  | cons member rest induction =>
      have others := induction fun inner inside =>
        members inner (List.mem_cons_of_mem _ inside)
      rw [inMembers, membersDepth]
      split
      · exact others
      · simp [others, members member List.mem_cons_self]

theorem inType_loopDepth {type : FieldType}
    (members : ∀ record, type = .record record → ∀ member ∈ record.fields,
      ∀ source dest next letters,
        loopDepthList (inField source dest next letters member) = member.depth)
    (source : Handle) (dest : Place) (next : Nat) (letters : List Char) :
    loopDepthList (inType source dest next letters type) = type.depth := by
  cases type with
  | leaf leaf => rfl
  | record record =>
      rw [inType_record, depth_record]
      exact inMembers_loopDepth (members record rfl) source dest next letters

/-- The loops that read a member from a handle nest as deep as its arrays. -/
theorem inField_loopDepth (field : Field) (source : Handle) (dest : Place)
    (next : Nat) (letters : List Char) :
    loopDepthList (inField source dest next letters field) = field.depth := by
  induction field using Field.nested_induction
      generalizing source dest next letters with
  | step field induction =>
      have value := inType_loopDepth induction
      cases size : field.arraySize with
      | zero => rw [inField_single size, depth_single size, value]
      | succ size' =>
          rw [inField_array size, depth_array size]
          simp [value, Nat.add_comm]

private theorem inDataset_loopDepth (dataset : Field) (source : Handle)
    (dest : Place)
    (next : Nat) (letters : List Char) :
    loopDepthList (inDataset source dest next letters dataset) =
      dataset.depth := by
  unfold inDataset
  split
  · rename_i record type size
    have value :
        loopDepthList
          (inType (.slot next) dest (next + 1) letters dataset.type) =
        dataset.type.depth :=
      inType_loopDepth (fun _ _ member _ => inField_loopDepth member) ..
    rw [type] at value
    simp [depth_single size, type, value]
  · exact inField_loopDepth dataset source dest next letters

end Layout

namespace Naming

/-- A script never has more loops open than there are iterators. -/
theorem Script.visits_openLoops (script : Script) {here : Situation}
    (few : here.naming.openLoops ≤ 25) :
    ∀ visit ∈ script.visits here, visit.1.naming.openLoops ≤ 25 := by
  induction script generalizing here with
  | stop =>
      intro visit inside
      cases inside
  | call request rest induction =>
      have back := request.restores.openLoops here.naming
      intro visit known
      rcases List.mem_cons.mp known with rfl | later
      · exact few
      · exact induction (back ▸ few) visit later
  | slot inside rest inner induction =>
      have scope := Flattening.Restores.withSlot fun _ => inside.run_restores
      have back := scope.openLoops here.naming
      intro visit known
      rcases List.mem_append.mp known with deeper | later
      · refine inner ?_ visit deeper
        exact few
      · exact induction (back ▸ few) visit later
  | loop inside rest inner induction =>
      have scope := Flattening.Restores.withIterator fun _ =>
        inside.run_restores
      have back := scope.openLoops here.naming
      intro visit known
      rcases List.mem_append.mp known with deeper | later
      · split at deeper
        · cases deeper
        · rename_i letter taken
          have left : here.naming.openLoops < 25 :=
            (List.getElem?_eq_some_iff.mp taken).1
          refine inner ?_ visit deeper
          exact left
      · exact induction (back ▸ few) visit later

/-- A naming context that a script comes to, starting with no name in use. -/
def Reached (naming : Naming) : Prop :=
  ∃ script : Script, ∃ visit ∈ script.visits {}, visit.1.naming = naming

theorem Reached.openLoops {naming : Naming} (reached : naming.Reached) :
    naming.openLoops ≤ 25 := by
  obtain ⟨script, visit, inside, rfl⟩ := reached
  exact script.visits_openLoops (Nat.zero_le 25) visit inside

/-- Some calls inside of some loops. -/
def Script.inLoops (script : Script) : Nat → Script
  | 0 => script
  | loops + 1 => .loop (script.inLoops loops) .stop

theorem Script.visits_inLoops (request : Call) {loops : Nat} {here : Situation}
    (few : here.naming.openLoops + loops ≤ 25) :
    ∃ visit ∈ ((Script.call request .stop).inLoops loops).visits here,
      visit.1.naming =
        { here.naming with openLoops := here.naming.openLoops + loops } := by
  induction loops generalizing here with
  | zero => exact ⟨_, List.mem_cons_self, rfl⟩
  | succ loops induction =>
      have left : here.naming.openLoops < alphabet.length := by
        change here.naming.openLoops < 25
        omega
      have taken := List.getElem?_eq_getElem left
      let deeper : Situation :=
        { here with
          naming := { here.naming with openLoops := here.naming.openLoops + 1 }
          iterators := alphabet[here.naming.openLoops] :: here.iterators }
      have fits : deeper.naming.openLoops + loops ≤ 25 := by
        change here.naming.openLoops + 1 + loops ≤ 25
        omega
      obtain ⟨visit, inside, equal⟩ := induction fits
      refine ⟨visit, ?_, ?_⟩
      · rw [inLoops, visits, taken]
        exact List.mem_append_left _ inside
      · rw [equal]
        simp only [deeper, Nat.add_assoc, Nat.add_comm 1]

/-- Any number of loops up to the number of iterators comes to be open. -/
theorem reached_loops {loops : Nat} (few : loops ≤ 25) :
    Reached { openLoops := loops } := by
  obtain ⟨visit, inside, equal⟩ :=
    @Script.visits_inLoops (.defaults default "") loops {} (by simpa using few)
  exact ⟨_, visit, inside, by simp [equal]⟩

private theorem free_length (naming : Naming) :
    naming.free.length = 25 - naming.openLoops :=
  List.length_drop

end Naming

namespace Flattening

/-- A computation makes a program whose loops nest `depth` deep, unless these
and the open loops are more than there are iterators. -/
structure NestsTo (body : Flattening Emission) (depth : Nat) (naming : Naming) :
    Prop where
  fails_iff : (body naming).1 = .error (.loopNestingTooDeep 25) ↔
    25 < naming.openLoops + depth
  succeeds_iff : (∃ emission, (body naming).1 = .ok emission) ↔
    naming.openLoops + depth ≤ 25
  loopDepth : ∀ emission, (body naming).1 = .ok emission →
    emission.loopDepth = depth

theorem Computes.nestsTo {body : Flattening (List Stmt)} {depth : Nat}
    {value : Nat → List Char → List Stmt} (computes : body.Computes depth value)
    (nests : ∀ next letters, Stmt.loopDepthList (value next letters) = depth)
    (direction : Direction) {naming : Naming} (few : naming.openLoops ≤ 25) :
    (body >>= Flatten.finish direction).NestsTo depth naming := by
  obtain ⟨maxSlot, equal⟩ := computes.finish direction naming
  have limit : depth ≤ naming.free.length ↔ naming.openLoops + depth ≤ 25 := by
    rw [naming.free_length]
    omega
  by_cases enough : depth ≤ naming.free.length
  · rw [if_pos enough] at equal
    have fits := limit.mp enough
    constructor
    · simp [equal, fits]
    · simp [equal, fits]
    · intro emission done
      cases equal.symm.trans done
      exact nests _ _
  · rw [if_neg enough] at equal
    have exceeds := fun fits => enough (limit.mpr fits)
    constructor
    · exact iff_of_true equal (Nat.lt_of_not_le exceeds)
    · exact iff_of_false (by simp [equal]) exceeds
    · intro emission done
      cases equal.symm.trans done

end Flattening

theorem Field.emission_nestsTo (dataset : Field) (place : Place)
    (handle : Handle) (direction : Direction) {naming : Naming}
    (few : naming.openLoops ≤ 25) :
    (dataset.emission place handle direction).NestsTo dataset.depth naming := by
  cases direction with
  | outgoing =>
      have computes := Layout.outDataset_computes (.native place) handle dataset
      exact computes.nestsTo (Layout.outDataset_loopDepth dataset _ _)
        .outgoing few
  | incoming =>
      have computes := Layout.inDataset_computes handle place dataset
      exact computes.nestsTo (Layout.inDataset_loopDepth dataset _ _)
        .incoming few

theorem Record.depth_asField (record : Record) :
    record.asField.depth = membersDepth record.fields := by
  rw [Layout.depth_single rfl]
  exact Layout.depth_record record

/-- In every context that comes up, programs for a record, for a dataset in
either direction and for its defaults fail by the same rule: when the open loops
and the arrays of the exchanged members are more than the iterators.  The loops
of a program that is made nest as deep as these arrays. -/
theorem programs_nest_to_depth {naming : Naming} (reached : naming.Reached) :
    (∀ (record : Record) place handle direction,
      (record.emission place handle direction).NestsTo
        (membersDepth record.fields) naming) ∧
    (∀ (dataset : Field) place handle direction,
      (dataset.emission place handle direction).NestsTo dataset.depth naming) ∧
    ∀ (dataset : Field) handle,
      (dataset.defaultsEmission handle).NestsTo dataset.depth naming := by
  have few := reached.openLoops
  refine ⟨?_, ?_, ?_⟩
  · intro record place handle direction
    rw [Record.emission_eq_asField, ← record.depth_asField]
    exact record.asField.emission_nestsTo place handle direction few
  · intro dataset place handle direction
    exact dataset.emission_nestsTo place handle direction few
  · intro dataset handle
    have computes := Layout.outDataset_computes .defaults handle dataset
    exact computes.nestsTo (Layout.outDataset_loopDepth dataset _ _)
      .outgoing few

/-- The loops of the plant nest two deep: inside of 23 loops there are iterators
for them, inside of 24 there are not. -/
theorem plant_nests_to_two :
    Naming.Reached { openLoops := 23 } ∧ Naming.Reached { openLoops := 24 } ∧
    Resolver.plant.asField.depth = 2 ∧
    (∀ direction, ∃ emission, emission.loopDepth = 2 ∧
      (Resolver.plant.emission { root := "plc" } (.external "message") direction
        { openLoops := 23 }).1 = .ok emission) ∧
    (∀ direction,
      (Resolver.plant.asField.emission
        { root := "plc" } (.external "message") direction
        { openLoops := 24 }).1 = .error (.loopNestingTooDeep 25)) ∧
    (Resolver.plant.asField.defaultsEmission (.external "message")
      { openLoops := 24 }).1 =
      .error (.loopNestingTooDeep 25) := by
  have free : Naming.Reached { openLoops := 23 } :=
    Naming.reached_loops (by decide)
  have tight : Naming.Reached { openLoops := 24 } :=
    Naming.reached_loops (by decide)
  have fits := programs_nest_to_depth free
  have full := programs_nest_to_depth tight
  refine ⟨free, tight, rfl, ?_, ?_, ?_⟩
  · intro direction
    have nests :=
      fits.1 Resolver.plant { root := "plc" } (.external "message") direction
    obtain ⟨emission, done⟩ := nests.succeeds_iff.mpr (by decide)
    exact ⟨emission, nests.loopDepth emission done, done⟩
  · intro direction
    exact (full.2.1 _ _ _ direction).fails_iff.mpr (by decide)
  · exact (full.2.2 _ _).fails_iff.mpr (by decide)

end DataBridge
