/-!
# Fresh names

Numbers for container slots and letters for loop iterators.  A name is handed
to a scope and taken back when the scope ends, also when it fails; only the
largest slot ever handed out is kept.
-/

namespace DataBridge

/-- Why no program can be made for a record, or no module for a datamodel. -/
inductive EmitError where
  | loopNestingTooDeep (limit : Nat)
  | identifierCollision (identifier : String)
deriving DecidableEq, Repr

def EmitError.message : EmitError → String
  | .loopNestingTooDeep limit =>
      "arrays nest deeper than the " ++ toString limit ++
        " available loop iterators"
  | .identifierCollision identifier =>
      "generated identifier '" ++ identifier ++
        "' has the name of a type declared in the header"

structure Naming where
  openLoops : Nat := 0
  /-- The slot of the innermost open container. -/
  slot : Option Nat := none
  /-- The largest slot handed out so far. -/
  highWater : Option Nat := none
deriving DecidableEq, Repr

/-- A computation that takes names for its scopes. -/
abbrev Flattening := ExceptT EmitError (StateM Naming)

namespace Naming

/-- The loop iterators, the outermost first. -/
def alphabet : List Char :=
  ['i', 'j', 'k', 'l', 'm', 'n', 'o', 'p', 'q', 'r', 's', 't', 'u', 'v', 'w',
    'x', 'y', 'a', 'b', 'c', 'd', 'e', 'f', 'g', 'h']

def nextSlot (naming : Naming) : Nat :=
  match naming.slot with
  | none => 0
  | some index => index + 1

/-- The names in use inside the next slot. -/
def enterSlot (naming : Naming) : Naming :=
  { naming with
    slot := some naming.nextSlot
    highWater := some (max (naming.highWater.getD 0) naming.nextSlot) }

def withSlot {α : Type} (body : Nat → Flattening α) : Flattening α :=
  fun naming =>
    let (result, after) := body naming.nextSlot naming.enterSlot
    (result, { after with slot := naming.slot })

/-- Runs a computation inside one more loop, whose iterator no loop inside it
gets.  It fails when every iterator is taken. -/
def withIterator {α : Type} (body : Char → Flattening α) : Flattening α :=
  fun naming =>
    match alphabet[naming.openLoops]? with
    | none => (.error (.loopNestingTooDeep alphabet.length), naming)
    | some iterator =>
        let (result, after) :=
          body iterator { naming with openLoops := naming.openLoops + 1 }
        (result, { after with openLoops := naming.openLoops })

theorem alphabet_nodup : alphabet.Nodup := by decide

end Naming

end DataBridge
