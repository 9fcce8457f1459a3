import DataBridge.Program.Temp
import DataBridge.Proofs.Flatten.Layout

/-!
# Default values mirror the outgoing program

The initial value of a dataset has the shape of the value that leaves it.  The
program for it is the outgoing one with a shared default value in place of each
native leaf: it takes the same names and needs the same variables.
-/

namespace DataBridge

mutual

/-- The statement with a shared default value for each native leaf. -/
def Stmt.withDefaults : Stmt → Stmt
  | .leafOut leaf _ target => .default (.ofLeaf leaf) target
  | .forEach iterator count body =>
      .forEach iterator count (Stmt.withDefaultsList body)
  | statement => statement

/-- The statements with a shared default value for each native leaf. -/
def Stmt.withDefaultsList : List Stmt → List Stmt
  | [] => []
  | first :: rest => first.withDefaults :: Stmt.withDefaultsList rest

end

/-- The program with a shared default value for each native leaf. -/
def Emission.withDefaults (emission : Emission) : Emission :=
  { emission with body := Stmt.withDefaultsList emission.body }

@[simp] theorem Stmt.withDefaultsList_append (first second : List Stmt) :
    withDefaultsList (first ++ second) =
      withDefaultsList first ++ withDefaultsList second := by
  induction first with
  | nil => rfl
  | cons statement rest induction =>
      rw [List.cons_append, withDefaultsList, withDefaultsList, induction,
        List.cons_append]

@[simp] theorem Origin.leaf_withDefaults (place : Place) (leaf : Leaf)
    (target : Handle) : (Origin.leaf (.native place) leaf target).withDefaults =
      Origin.leaf .defaults leaf target :=
  rfl

mutual

/-- A default value arrives in the handle of its leaf, and neither needs a
scratch variable. -/
theorem Stmt.withDefaults_temps :
    ∀ statement : Stmt, statement.withDefaults.temps = statement.temps
  | .forEach _ _ body => Stmt.withDefaultsList_temps body
  | .createObject _ | .createArray _ | .setNamed _ _ _ | .setElement _ _ _ |
      .getNamed _ _ _
  | .getElement _ _ _ | .assign _ _ | .leafOut _ _ _ | .leafIn _ _ _ |
      .default _ _ => rfl

theorem Stmt.withDefaultsList_temps : ∀ statements : List Stmt,
    Stmt.tempsList (Stmt.withDefaultsList statements) =
      Stmt.tempsList statements
  | [] => rfl
  | first :: rest => by
      rw [Stmt.withDefaultsList, Stmt.tempsList, Stmt.tempsList,
        first.withDefaults_temps, Stmt.withDefaultsList_temps rest]

end

theorem Emission.withDefaults_temps (emission : Emission) :
    emission.withDefaults.temps = emission.temps :=
  congrArg Temp.ordered (Stmt.withDefaultsList_temps emission.body)

namespace Flattening

variable {α β : Type}

theorem map_apply (change : α → β) (body : Flattening α) (naming : Naming) :
    (change <$> body) naming = ((body naming).1.map change,
      (body naming).2) := by
  rw [← bind_pure_comp, stateful_bind]
  rcases body naming with ⟨_ | _, after⟩ <;> rfl

theorem withSlot_map (change : α → β) (body : Nat → Flattening α) :
    (Naming.withSlot fun slot => change <$> body slot) = change <$>
      Naming.withSlot body := by
  funext naming
  rw [map_apply, Naming.withSlot, Naming.withSlot, map_apply]
  rfl

theorem withIterator_map (change : α → β) (body : Char → Flattening α) :
    (Naming.withIterator fun iterator => change <$> body iterator) =
      change <$> Naming.withIterator body := by
  funext naming
  rw [map_apply, Naming.withIterator, Naming.withIterator]
  cases Naming.alphabet[naming.openLoops]? with
  | none => rfl
  | some letter =>
      dsimp only
      rw [map_apply]
      rfl

end Flattening

namespace Flatten

open Flattening (withSlot_map withIterator_map)
open Stmt (withDefaultsList)

/-- A walk over a member for its default value writes the outgoing statements
with default values in them. -/
def Mirrored (field : Field) : Prop :=
  ∀ place dest, outField .defaults dest field =
    Stmt.withDefaultsList <$> outField (.native place) dest field

/-- What is written first and what is written next may be changed on their
own. -/
theorem append_mirrored {first outgoing : Flattening (List Stmt)}
    (mirrored : first = withDefaultsList <$> outgoing)
    (others : Flattening (List Stmt)) :
    (do return (← first) ++ (← withDefaultsList <$> others)) =
      withDefaultsList <$> (do return (← outgoing) ++ (← others)) := by
  simp [mirrored]

theorem outMembers_mirrored {fields : List Field}
    (members : ∀ member ∈ fields, Mirrored member) (place : Place)
    (parent : Handle) : outMembers .defaults parent fields =
      withDefaultsList <$> outMembers (.native place) parent fields := by
  induction fields with
  | nil => rfl
  | cons member rest induction =>
      have others := induction fun inner inside =>
        members inner (List.mem_cons_of_mem _ inside)
      have ofMember :=
        members member List.mem_cons_self (place.field member.name)
      by_cases hidden : member.isPrivate = true
      · rw [outMembers, if_pos hidden, outMembers, if_pos hidden, others]
      · have slotted : (Naming.withSlot fun slot => do
              return (← outField .defaults (.slot slot) member) ++
                [.setNamed parent member.name (.slot slot)]) =
            withDefaultsList <$> Naming.withSlot fun slot => do
              return (← outField (.native (place.field member.name))
                (.slot slot) member) ++
                [.setNamed parent member.name (.slot slot)] := by
          rw [← withSlot_map]
          simp [ofMember, withDefaultsList, Stmt.withDefaults]
        rw [outMembers, if_neg hidden, outMembers, if_neg hidden, others]
        obtain ⟨name, type, size, flags, comment, enumName⟩ := member
        cases type <;> cases size
        case leaf.zero leaf =>
          have scratched : (pure [Origin.leaf .defaults leaf .property,
                .setNamed parent name .property] : Flattening (List Stmt)) =
              withDefaultsList <$>
                pure [Origin.leaf (.native (place.field name)) leaf .property,
                .setNamed parent name .property] := rfl
          exact append_mirrored scratched _
        all_goals exact append_mirrored slotted _

theorem outField_mirrored (field : Field) : Mirrored field := by
  induction field using Field.nested_induction with
  | step field induction =>
      intro place dest
      obtain ⟨name, type, size, flags, comment, enumName⟩ := field
      cases type with
      | leaf leaf =>
          cases size with
          | zero => rfl
          | succ size =>
              have loop : (Naming.withIterator fun letter => pure <|
                    Stmt.forEach letter (size + 1)
                      [Origin.leaf .defaults leaf .arrayItem,
                        .setElement dest letter .arrayItem]) =
                  Stmt.withDefaults <$> Naming.withIterator fun letter =>
                    pure <|
                    Stmt.forEach letter (size + 1)
                      [Origin.leaf (.native (place.index letter)) leaf
                        .arrayItem,
                        .setElement dest letter .arrayItem] := by
                rw [← withIterator_map]
                rfl
              simp [outField, Origin.index, loop, withDefaultsList,
                Stmt.withDefaults]
      | record record =>
          have members : ∀ place parent, outRecord .defaults parent record =
              withDefaultsList <$> outRecord (.native place) parent record := by
            intro place parent
            rw [Layout.outRecord_eq, Layout.outRecord_eq]
            exact outMembers_mirrored (induction record rfl) place parent
          cases size with
          | zero => simp [outField, members place, withDefaultsList,
              Stmt.withDefaults]
          | succ size =>
              have loop : (Naming.withSlot fun slot =>
                  Naming.withIterator fun letter => do
                    return Stmt.forEach letter (size + 1)
                      (.createObject (.slot slot) ::
                        (← outRecord .defaults (.slot slot) record) ++
                        [.setElement dest letter (.slot slot)])) =
                  Stmt.withDefaults <$> Naming.withSlot fun slot =>
                    Naming.withIterator fun letter => do
                      return Stmt.forEach letter (size + 1)
                        (.createObject (.slot slot) ::
                            (← outRecord (.native (place.index letter))
                              (.slot slot) record) ++
                          [.setElement dest letter (.slot slot)]) := by
                rw [← withSlot_map]
                refine congrArg _ (funext fun slot => ?_)
                rw [← withIterator_map]
                refine congrArg _ (funext fun letter => ?_)
                simp [members (place.index letter), withDefaultsList,
                  Stmt.withDefaults]
              simp only [outField, Origin.index, loop, bind_map_left, map_bind,
                map_pure, withDefaultsList, Stmt.withDefaults]

private theorem outRoot_mirrored (record : Record) (place : Place)
    (dest : Handle) :
    outRoot .defaults dest record = withDefaultsList <$>
      outRoot (.native place) dest record := by
  rw [outRoot, outRoot, ← withSlot_map]
  refine congrArg _ (funext fun slot => ?_)
  rw [Layout.outRecord_eq, Layout.outRecord_eq,
    outMembers_mirrored (fun member _ => outField_mirrored member) place]
  simp [withDefaultsList, Stmt.withDefaults]

private theorem outDataset_mirrored (dataset : Field) (place : Place)
    (dest : Handle) :
    outDataset .defaults dest dataset =
      withDefaultsList <$> outDataset (.native place) dest dataset := by
  unfold outDataset
  split
  · exact outRoot_mirrored _ place dest
  · exact outField_mirrored dataset place dest

end Flatten

namespace Field

variable (dataset : Field) (place : Place) (handle : Handle)

/-- The flattening for the default value is the outgoing one, changed at the
end. -/
theorem defaultsEmission_eq_map :
    dataset.defaultsEmission handle =
      Emission.withDefaults <$> dataset.emission place handle .outgoing := by
  simp only [defaultsEmission, emission,
    Flatten.outDataset_mirrored dataset place, Flatten.finish, bind_map_left,
    map_bind, map_pure, Emission.withDefaults]

/-- For every dataset the default program comes out as the outgoing one does,
with the same error or with a default value for each native leaf.  It leaves the
same names in use, and its variables are the same. -/
theorem defaults_mirror_outgoing (naming : Naming) :
    (dataset.defaultsEmission handle naming).1 =
      (dataset.emission place handle .outgoing naming).1.map
        Emission.withDefaults ∧
    (dataset.defaultsEmission handle naming).2 =
      (dataset.emission place handle .outgoing naming).2 ∧
    (dataset.defaultsEmission handle naming).1.map Emission.temps =
      (dataset.emission place handle .outgoing naming).1.map
        Emission.temps := by
  rw [defaultsEmission_eq_map dataset place, Flattening.map_apply]
  refine ⟨rfl, rfl, ?_⟩
  cases (dataset.emission place handle .outgoing naming).1 with
  | error error => rfl
  | ok emission => exact congrArg Except.ok emission.withDefaults_temps

end Field

end DataBridge
