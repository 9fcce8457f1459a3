import DataBridge.Proofs.Flatten.Slots

/-!
# The largest slot of a pass

Every flattening gives back the slots and iterators that it took, also when it
fails, and only the mark of the largest slot can rise.  A flattening that
succeeds raises the mark to the end of its block of slots and no further.
-/

namespace DataBridge

namespace Naming

/-- The mark after `count` slots from `next` on were handed out. -/
def raise (mark : Option Nat) (next : Nat) : Nat → Option Nat
  | 0 => mark
  | count + 1 => some (max (mark.getD 0) (next + count))

/-- The first mark is not above the second. -/
def AtMost (mark later : Option Nat) : Prop :=
  ∀ index, mark = some index → ∃ other, later = some other ∧ index ≤ other

theorem AtMost.refl (mark : Option Nat) : AtMost mark mark :=
  fun index equal => ⟨index, equal, Nat.le_refl index⟩

theorem AtMost.trans {mark middle later : Option Nat}
    (first : AtMost mark middle) (second : AtMost middle later) :
    AtMost mark later := by
  intro index equal
  obtain ⟨other, reached, order⟩ := first index equal
  obtain ⟨last, final, further⟩ := second other reached
  exact ⟨last, final, Nat.le_trans order further⟩

private theorem atMost_enterSlot (naming : Naming) :
    AtMost naming.highWater naming.enterSlot.highWater := by
  intro index equal
  refine ⟨_, rfl, ?_⟩
  rw [equal]
  exact Nat.le_max_left _ _

private theorem raise_raise (mark : Option Nat) (next first second : Nat) :
    raise (raise mark next first) next second =
      raise mark next (max first second) := by
  cases first with
  | zero => rw [Nat.zero_max, raise]
  | succ first =>
      cases second with
      | zero => rw [Nat.max_zero, raise]
      | succ second =>
          rw [Nat.succ_max_succ]
          simp only [raise, Option.getD_some, Option.some.injEq]
          omega

private theorem raise_enterSlot (naming : Naming) (count : Nat) :
    raise naming.enterSlot.highWater naming.enterSlot.nextSlot count =
      raise naming.highWater naming.nextSlot (count + 1) := by
  cases count with
  | zero => simp [raise, enterSlot]
  | succ count =>
      simp only [raise, enterSlot, nextSlot, Option.getD_some,
        Option.some.injEq]
      omega

end Naming

open Naming (AtMost raise)

namespace Flattening

variable {α β : Type}

theorem bind_cases (body : Flattening α) (next : α → Flattening β)
    (naming : Naming) : (∃ value, (body naming).1 = .ok value ∧
      (body >>= next) naming = next value (body naming).2) ∨
    ∃ error, (body >>= next) naming = (.error error, (body naming).2) := by
  rw [stateful_bind]
  rcases body naming with ⟨error | value, after⟩
  · exact .inr ⟨error, rfl⟩
  · exact .inl ⟨value, rfl, rfl⟩

theorem withIterator_cases (body : Char → Flattening α) (naming : Naming) :
    (Naming.alphabet[naming.openLoops]? = none ∧
      Naming.withIterator body naming =
      (.error (.loopNestingTooDeep Naming.alphabet.length), naming)) ∨
    ∃ letter inner after, Naming.alphabet[naming.openLoops]? = some letter ∧
      body letter { naming with openLoops := naming.openLoops + 1 } =
        (inner, after) ∧
      Naming.withIterator body naming =
        (inner, { after with openLoops := naming.openLoops }) := by
  unfold Naming.withIterator
  split
  · exact .inl ⟨‹_›, rfl⟩
  · exact .inr ⟨_, _, _, ‹_›, rfl, rfl⟩

/-- A computation gives back the names that it took. -/
structure Restores (body : Flattening α) : Prop where
  slot : ∀ naming, (body naming).2.slot = naming.slot
  openLoops : ∀ naming, (body naming).2.openLoops = naming.openLoops

namespace Restores

theorem pure (value : α) : Restores (Pure.pure value : Flattening α) :=
  ⟨fun _ => rfl, fun _ => rfl⟩

theorem bind {body : Flattening α} {next : α → Flattening β}
    (before : Restores body) (after : ∀ value, Restores (next value)) :
    Restores (body >>= next) := by
  constructor
  · intro naming
    obtain ⟨value, _, continued⟩ | ⟨error, failed⟩ :=
      bind_cases body next naming
    · rw [continued, (after value).slot, before.slot]
    · rw [failed, before.slot]
  · intro naming
    obtain ⟨value, _, continued⟩ | ⟨error, failed⟩ :=
      bind_cases body next naming
    · rw [continued, (after value).openLoops, before.openLoops]
    · rw [failed, before.openLoops]

theorem withSlot {body : Nat → Flattening α}
    (restores : ∀ slot, Restores (body slot)) :
    Restores (Naming.withSlot body) := by
  constructor
  · exact fun _ => rfl
  · exact fun naming => (restores naming.nextSlot).openLoops naming.enterSlot

theorem withIterator {body : Char → Flattening α}
    (restores : ∀ letter, Restores (body letter)) :
    Restores (Naming.withIterator body) := by
  constructor
  · intro naming
    obtain ⟨_, exhausted⟩ | ⟨letter, inner, after, _, ran, entered⟩ :=
      withIterator_cases body naming
    · rw [exhausted]
    · have kept :=
        (restores letter).slot { naming with openLoops := naming.openLoops + 1 }
      rw [ran] at kept
      rw [entered]
      exact kept
  · intro naming
    obtain ⟨_, exhausted⟩ | ⟨letter, inner, after, _, ran, entered⟩ :=
      withIterator_cases body naming
    · rw [exhausted]
    · rw [entered]

end Restores

/-- A computation gives back its names, and a successful one leaves the mark at
the end of a block of `count` slots. -/
structure Allots (count : Nat) (body : Flattening α) : Prop where
  restores : body.Restores
  rises : ∀ naming, AtMost naming.highWater (body naming).2.highWater
  mark : ∀ naming value, (body naming).1 = .ok value →
    (body naming).2.highWater = raise naming.highWater naming.nextSlot count

namespace Allots

variable {first second : Nat}

theorem pure (value : α) : Allots 0 (Pure.pure value : Flattening α) :=
  ⟨.pure value, fun naming => .refl naming.highWater, fun _ _ _ => rfl⟩

theorem bind {body : Flattening α} {next : α → Flattening β}
    (before : Allots first body) (after : ∀ value, Allots second (next value)) :
    Allots (max first second) (body >>= next) := by
  constructor
  · exact before.restores.bind fun value => (after value).restores
  · intro naming
    have early := before.rises naming
    obtain ⟨value, _, continued⟩ | ⟨error, failed⟩ :=
      bind_cases body next naming
    · rw [continued]
      exact early.trans ((after value).rises _)
    · rw [failed]
      exact early
  · intro naming result done
    obtain ⟨value, given, continued⟩ | ⟨error, failed⟩ :=
      bind_cases body next naming
    · have sameNext : (body naming).2.nextSlot = naming.nextSlot := by
        rw [Naming.nextSlot, before.restores.slot, Naming.nextSlot]
      rw [continued] at done ⊢
      rw [(after value).mark _ result done, sameNext,
        before.mark naming value given, Naming.raise_raise]
    · rw [failed] at done
      cases done

theorem map {body : Flattening α} (allots : Allots first body)
    (change : α → β) : Allots first (do return change (← body)) := by
  have both := allots.bind fun value => pure (change value)
  rw [Nat.max_zero] at both
  exact both

theorem withSlot {body : Nat → Flattening α}
    (allots : ∀ slot, Allots first (body slot)) :
    Allots (first + 1) (Naming.withSlot body) := by
  constructor
  · exact .withSlot fun slot => (allots slot).restores
  · intro naming
    have inner := (allots naming.nextSlot).rises naming.enterSlot
    exact (Naming.atMost_enterSlot naming).trans inner
  · intro naming value done
    have inner := (allots naming.nextSlot).mark naming.enterSlot value done
    rw [Naming.raise_enterSlot] at inner
    exact inner

theorem withIterator {body : Char → Flattening α}
    (allots : ∀ letter, Allots first (body letter)) :
    Allots first (Naming.withIterator body) := by
  constructor
  · exact .withIterator fun letter => (allots letter).restores
  · intro naming
    obtain ⟨_, exhausted⟩ | ⟨letter, inner, after, _, ran, entered⟩ :=
      withIterator_cases body naming
    · rw [exhausted]
      exact .refl _
    · have risen :=
        (allots letter).rises { naming with openLoops := naming.openLoops + 1 }
      rw [ran] at risen
      rw [entered]
      exact risen
  · intro naming value done
    obtain ⟨_, exhausted⟩ | ⟨letter, inner, after, _, ran, entered⟩ :=
      withIterator_cases body naming
    · rw [exhausted] at done
      cases done
    · have marked :=
        (allots letter).mark
          { naming with openLoops := naming.openLoops + 1 } value
      rw [ran] at marked
      rw [entered] at done ⊢
      exact marked done

end Allots

end Flattening

namespace Flatten

open Flattening (Allots)

theorem outMembers_allots {fields : List Field}
    (members : ∀ member ∈ fields, ∀ origin dest,
      Allots (member.slots .outgoing) (outField origin dest member))
    (origin : Origin) (parent : Handle) :
    Allots (membersSlots .outgoing fields)
      (outMembers origin parent fields) := by
  induction fields with
  | nil => exact .pure []
  | cons member rest induction =>
      have others := induction fun inner inside =>
        members inner (List.mem_cons_of_mem _ inside)
      have ofMember := members member List.mem_cons_self
      rw [outMembers, membersSlots]
      by_cases hidden : member.isPrivate = true
      · rw [if_pos hidden, if_pos hidden]
        exact others
      · rw [if_neg hidden, if_neg hidden]
        have throughSlot := Allots.withSlot fun slot =>
          (ofMember (origin.field member.name) (.slot slot)).map
            (· ++ [Stmt.setNamed parent member.name (.slot slot)])
        have slotted := throughSlot.bind fun statements =>
          others.map (statements ++ ·)
        obtain ⟨name, type, size, flags, comment, enumName⟩ := member
        cases type <;> cases size
        case leaf.zero leaf =>
          exact (Allots.pure [_, _]).bind fun statements =>
            others.map (statements ++ ·)
        all_goals exact slotted

theorem outField_allots (field : Field) (origin : Origin) (dest : Handle) :
    Allots (field.slots .outgoing) (outField origin dest field) := by
  induction field using Field.nested_induction generalizing origin dest with
  | step field induction =>
      obtain ⟨name, type, size, flags, comment, enumName⟩ := field
      cases type with
      | leaf leaf =>
          cases size with
          | zero => exact .pure _
          | succ size =>
              have loop := Allots.withIterator fun letter =>
                Allots.pure (Stmt.forEach letter (size + 1)
                  [(origin.index letter).leaf leaf .arrayItem,
                    .setElement dest letter .arrayItem])
              exact loop.map fun statement => [.createArray dest, statement]
      | record record =>
          have members := outMembers_allots (induction record rfl)
          simp only [← Layout.outRecord_eq, ← slots_record] at members
          cases size with
          | zero =>
              exact (members origin dest).map (Stmt.createObject dest :: ·)
          | succ size =>
              have loop := Allots.withSlot fun slot =>
                  Allots.withIterator fun letter =>
                (members (origin.index letter) (.slot slot)).map fun members =>
                  Stmt.forEach letter (size + 1)
                    (.createObject (.slot slot) :: members ++
                      [.setElement dest letter (.slot slot)])
              exact loop.map fun statement => [.createArray dest, statement]

theorem inMembers_allots {fields : List Field}
    (members : ∀ member ∈ fields, ∀ source dest,
      Allots (member.slots .incoming) (inField source dest member))
    (source : Handle) (dest : Place) :
    Allots (membersSlots .incoming fields) (inMembers source dest fields) := by
  induction fields with
  | nil => exact .pure []
  | cons member rest induction =>
      have others := induction fun inner inside =>
        members inner (List.mem_cons_of_mem _ inside)
      rw [inMembers, membersSlots]
      by_cases hidden : member.isPrivate = true
      · rw [if_pos hidden, if_pos hidden]
        exact others
      · rw [if_neg hidden, if_neg hidden]
        have throughSlot := Allots.withSlot fun slot =>
          (members member List.mem_cons_self (.slot slot)
            (dest.field member.name)).map
            (Stmt.getNamed source member.name (.slot slot) :: ·)
        exact throughSlot.bind fun statements => others.map (statements ++ ·)

theorem inField_allots (field : Field) (source : Handle) (dest : Place) :
    Allots (field.slots .incoming) (inField source dest field) := by
  induction field using Field.nested_induction generalizing source dest with
  | step field induction =>
      obtain ⟨name, type, size, flags, comment, enumName⟩ := field
      cases type with
      | leaf leaf =>
          cases size with
          | zero => exact .pure _
          | succ size =>
              exact Allots.withIterator fun letter =>
                Allots.pure [Stmt.forEach letter (size + 1)
                  [.getElement source letter .arrayItem,
                    .leafIn leaf .arrayItem (dest.index letter)]]
      | record record =>
          have members := inMembers_allots (induction record rfl)
          simp only [← Layout.inRecord_eq, ← slots_record] at members
          cases size with
          | zero => exact members source dest
          | succ size =>
              exact Allots.withSlot fun slot =>
                  Allots.withIterator fun letter =>
                (members (.slot slot) (dest.index letter)).map fun members =>
                  [Stmt.forEach letter (size + 1)
                    (.getElement source letter (.slot slot) :: members)]

theorem outDataset_allots (dataset : Field) (origin : Origin) (dest : Handle) :
    Allots (dataset.datasetSlots .outgoing)
      (outDataset origin dest dataset) := by
  obtain ⟨name, type, size, flags, comment, enumName⟩ := dataset
  cases type <;> cases size
  case record.zero record =>
    have members : ∀ parent, _ := fun parent =>
      @outMembers_allots record.fields (fun member _ => outField_allots member)
        origin parent
    simp only [← Layout.outRecord_eq, ← slots_record] at members
    exact Allots.withSlot fun slot => (members (.slot slot)).map fun members =>
      Stmt.createObject (.slot slot) :: members ++ [.assign dest (.slot slot)]
  all_goals exact outField_allots _ origin dest

theorem inDataset_allots (dataset : Field) (source : Handle) (dest : Place) :
    Allots (dataset.datasetSlots .incoming)
      (inDataset source dest dataset) := by
  obtain ⟨name, type, size, flags, comment, enumName⟩ := dataset
  cases type <;> cases size
  case record.zero record =>
    have members : ∀ parent, _ := fun parent =>
      @inMembers_allots record.fields (fun member _ => inField_allots member)
        parent dest
    simp only [← Layout.inRecord_eq, ← slots_record] at members
    exact Allots.withSlot fun slot => (members (.slot slot)).map
      (Stmt.assign (.slot slot) source :: ·)
  all_goals exact inField_allots _ source dest

end Flatten

end DataBridge
