import DataBridge.Program.Basic

/-!
# Statements in program order

A program's statements nest in its loops.  `Stmt.occurrences` lists them in
program order, each with the loops around it, and `Emission.accesses` picks
the statements that move a leaf.
-/

namespace DataBridge

/-- The loops around a statement, the innermost first: iterators and counts. -/
abbrev Loops := List (Char × Nat)

/-- A statement of a program with the loops around it. -/
structure Occurrence where
  loops : Loops
  statement : Stmt

mutual

/-- A statement and, if it is a loop, the statements of its body. -/
def Stmt.occurrences (loops : Loops) : Stmt → List Occurrence
  | .forEach iterator count body =>
      ⟨loops, .forEach iterator count body⟩ ::
        Stmt.occurrencesList ((iterator, count) :: loops) body
  | statement => [⟨loops, statement⟩]

/-- The statements of a list, and those of the loops in it. -/
def Stmt.occurrencesList (loops : Loops) : List Stmt → List Occurrence
  | [] => []
  | first :: rest => first.occurrences loops ++ Stmt.occurrencesList loops rest

end

/-- The statements of a program in order. -/
def Emission.occurrences (emission : Emission) : List Occurrence :=
  Stmt.occurrencesList [] emission.body

/-- An index belongs to a loop around the statement, and a loop has another
iterator than the loops around it. -/
def Occurrence.Scoped (occurrence : Occurrence) : Prop :=
  match occurrence.statement with
  | .setElement _ index _ | .getElement _ index _ =>
      index ∈ occurrence.loops.map Prod.fst
  | .forEach iterator _ _ => iterator ∉ occurrence.loops.map Prod.fst
  | _ => True

/-- The native place of a leaf that a statement moves, with the loops around
the statement. -/
structure Access where
  loops : Loops
  leaf : Leaf
  place : Place
deriving DecidableEq, Repr

/-- The native place that a statement reads a leaf from or writes one to. -/
def Occurrence.access? (occurrence : Occurrence) : Option Access :=
  match occurrence.statement with
  | .leafOut leaf source _ => some ⟨occurrence.loops, leaf, source⟩
  | .leafIn leaf _ target => some ⟨occurrence.loops, leaf, target⟩
  | _ => none

/-- The native places of a program's leaf statements, in program order. -/
def Emission.accesses (emission : Emission) : List Access :=
  emission.occurrences.filterMap Occurrence.access?

theorem Stmt.occurrencesList_append (loops : Loops) (first second : List Stmt) :
    Stmt.occurrencesList loops (first ++ second) =
      Stmt.occurrencesList loops first ++
        Stmt.occurrencesList loops second := by
  induction first with
  | nil => rfl
  | cons statement rest induction =>
      rw [List.cons_append, Stmt.occurrencesList, Stmt.occurrencesList,
        induction, List.append_assoc]

end DataBridge
