import DataBridge.Proofs.Marshal.Reference
import Mathlib.Data.List.Count
import Mathlib.Data.List.Forall2

/-!
# Values in a heap

What a change of the heap does to the values behind references.  A container
that is not stored is held by nothing in the heap, so changing it changes no
other value; a stored container has only stored ones below it, so a value is
never deeper than the stored containers and one more.
-/

namespace DataBridge

theorem mapM_eq_some_iff {α β : Type} {read : α → Option β} {xs : List α}
    {ys : List β} :
    xs.mapM read = some ys ↔
      List.Forall₂ (fun x y => read x = some y) xs ys := by
  induction xs generalizing ys with
  | nil => simp [eq_comm]
  | cons x xs induction =>
      simp only [List.mapM_cons, Option.bind_eq_bind, Option.bind_eq_some_iff,
        induction, List.forall₂_cons_left_iff, Option.pure_def,
        Option.some.injEq]
      constructor
      · rintro ⟨y, first, rest, later, rfl⟩
        exact ⟨y, rest, first, later, rfl⟩
      · rintro ⟨y, rest, first, later, rfl⟩
        exact ⟨y, first, rest, later, rfl⟩

namespace Contents

variable {read other : Reference → Option Wire} {wire value : Wire}
  {part : Reference}

/-- A member with a reference has the name and the value of the other member. -/
def Matches (read : Reference → Option Wire) (member : String × Reference)
    (shown : String × Wire) : Prop :=
  member.1 = shown.1 ∧ read member.2 = some shown.2

theorem tree_object_iff {members : List (String × Reference)} :
    (object members).tree read = some wire ↔
      ∃ shown, wire = .object shown ∧
        List.Forall₂ (Matches read) members shown := by
  have entry : ∀ (member : String × Reference) (shown : String × Wire),
      (read member.2 >>= fun inner => some (member.1, inner)) = some shown ↔
        Matches read member shown := by
    rintro ⟨name, part⟩ ⟨key, inner⟩
    cases found : read part <;> simp [Matches, found]
  constructor
  · intro whole
    obtain ⟨shown, mapped, done⟩ := Option.bind_eq_some_iff.mp whole
    cases done
    refine ⟨shown, rfl, (mapM_eq_some_iff.mp mapped).imp ?_⟩
    exact fun member shown => (entry member shown).mp
  · rintro ⟨shown, rfl, same⟩
    apply Option.bind_eq_some_iff.mpr
    refine ⟨shown, mapM_eq_some_iff.mpr (same.imp ?_), rfl⟩
    exact fun member shown => (entry member shown).mpr

theorem tree_array_iff {items : List Reference} :
    (array items).tree read = some wire ↔
      ∃ shown, wire = .array shown ∧
        List.Forall₂ (fun item inner => read item = some inner) items
          shown := by
  simp only [tree, Option.bind_eq_bind, Option.bind_eq_some_iff,
    mapM_eq_some_iff, Option.pure_def, Option.some.injEq]
  simp only [and_comm, eq_comm]

theorem tree_mono {contents : Contents}
    (stronger : ∀ part ∈ contents.parts, ∀ value, read part = some value →
      other part = some value)
    (shown : contents.tree read = some wire) :
    contents.tree other = some wire := by
  cases contents with
  | object members =>
      obtain ⟨values, rfl, same⟩ := tree_object_iff.mp shown
      refine tree_object_iff.mpr ⟨values, rfl, ?_⟩
      have inside : ∀ member ∈ members, member.2 ∈ (object members).parts :=
        fun member taken => List.mem_map_of_mem taken
      apply ((List.forall₂_and_left _ _).mpr ⟨inside, same⟩).imp
      rintro member inner ⟨taken, named, found⟩
      exact ⟨named, stronger _ taken _ found⟩
  | array items =>
      obtain ⟨values, rfl, same⟩ := tree_array_iff.mp shown
      refine tree_array_iff.mpr ⟨values, rfl, ?_⟩
      apply ((List.forall₂_and_left _ _).mpr ⟨stronger, same⟩).imp
      exact fun item inner both => both.1 inner both.2

theorem tree_insert {members : List (String × Reference)}
    {shown : List (String × Wire)}
    (before : (object members).tree read = some (.object shown)) (name : String)
    (found : read part = some value) :
    (object (Reference.insert name part members)).tree read =
      some (.object (Wire.insert name value shown)) := by
  obtain ⟨_, ⟨⟩, same⟩ := tree_object_iff.mp before
  refine tree_object_iff.mpr ⟨_, rfl, ?_⟩
  induction same with
  | nil => exact .cons ⟨rfl, found⟩ .nil
  | @cons member inner rest others here later induction =>
      obtain ⟨first, old⟩ := member
      obtain ⟨key, shown⟩ := inner
      obtain ⟨rfl, read⟩ := here
      rw [Reference.insert, Wire.insert]
      split
      · exact .cons ⟨rfl, found⟩ later
      · exact .cons ⟨rfl, read⟩
          (induction (tree_object_iff.mpr ⟨_, rfl, later⟩))

theorem tree_setElement {items : List Reference} {shown : List Wire}
    (before : (array items).tree read = some (.array shown)) (index : Nat)
    (found : read part = some value) (missing : read .null = some .null) :
    (array (Reference.setElement part index items)).tree read =
      some (.array (Wire.setElement value index shown)) := by
  obtain ⟨_, ⟨⟩, same⟩ := tree_array_iff.mp before
  refine tree_array_iff.mpr ⟨_, rfl, ?_⟩
  clear before
  induction index generalizing items shown with
  | zero =>
      cases same with
      | nil => exact .cons found .nil
      | cons here later => exact .cons found later
  | succ index induction =>
      cases same with
      | nil => exact .cons missing (induction .nil)
      | cons here later => exact .cons here (induction later)

theorem mem_parts_insert {members : List (String × Reference)} {name : String}
    {inner : Reference}
    (inside : inner ∈ (object (Reference.insert name part members)).parts) :
    inner = part ∨ inner ∈ (object members).parts := by
  induction members with
  | nil => exact .inl (List.mem_singleton.mp inside)
  | cons member rest induction =>
      obtain ⟨first, old⟩ := member
      simp only [parts, Reference.insert, List.map_cons, List.mem_cons]
        at inside induction ⊢
      split at inside
      · simp only [List.map_cons, List.mem_cons] at inside
        tauto
      · simp only [List.map_cons, List.mem_cons] at inside
        tauto

theorem mem_parts_setElement {items : List Reference} {index : Nat}
    {inner : Reference}
    (inside : inner ∈ (array (Reference.setElement part index items)).parts) :
    inner = part ∨ inner = .null ∨ inner ∈ (array items).parts := by
  simp only [parts] at inside ⊢
  induction index generalizing items with
  | zero =>
      cases items with
      | nil => exact .inl (List.mem_singleton.mp inside)
      | cons first rest =>
          rcases List.mem_cons.mp inside with rfl | later
          · exact .inl rfl
          · exact .inr (.inr (List.mem_cons_of_mem _ later))
  | succ index induction =>
      cases items with
      | nil =>
          rcases List.mem_cons.mp inside with rfl | later
          · exact .inr (.inl rfl)
          · exact induction later
      | cons first rest =>
          rcases List.mem_cons.mp inside with rfl | later
          · exact .inr (.inr List.mem_cons_self)
          · rcases induction later with here | missing | old
            · exact .inl here
            · exact .inr (.inl missing)
            · exact .inr (.inr (List.mem_cons_of_mem _ old))

end Contents

namespace Heap

variable {heap after : Heap} {reference : Reference} {wire : Wire}
  {address depth : Nat} {cell : Cell}

theorem tree_primitive (heap : Heap) (depth : Nat) (value : Wire)
    (plain : value.isPrimitive = true) :
    heap.tree depth (.primitive value plain) = some value := by
  cases depth <;> rfl

theorem tree_container (found : heap[address]? = some cell) (depth : Nat) :
    heap.tree (depth + 1) (.container address) =
      cell.contents.tree (heap.tree depth) := by
  rw [tree, found]

theorem tree_container_eq_some
    (shown : heap.tree (depth + 1) (.container address) = some wire) :
    ∃ cell, heap[address]? = some cell ∧ cell.contents.tree (heap.tree depth) =
      some wire := by
  rw [tree] at shown
  split at shown
  · exact ⟨_, ‹_›, shown⟩
  · cases shown

/-- After a change of some containers that nothing in the heap holds, every
other reference has the value that it had. -/
theorem tree_transfer (changed : Nat → Prop)
    (kept : ∀ (address : Nat) (cell : Cell),
      ¬ changed address → heap[address]? = some cell →
      ∃ other, after[address]? = some other ∧ other.contents = cell.contents)
    (apart : ∀ (address : Nat) (cell : Cell), heap[address]? = some cell →
      ∀ inner,
      .container inner ∈ cell.contents.parts → ¬ changed inner)
    (outside : ∀ address, reference = .container address → ¬ changed address)
    (shown : heap.tree depth reference = some wire) :
    after.tree depth reference = some wire := by
  induction depth generalizing reference wire with
  | zero =>
      cases reference with
      | primitive value plain => exact shown
      | container address => cases shown
  | succ depth induction =>
      cases reference with
      | primitive value plain => exact shown
      | container address =>
          obtain ⟨cell, found, below⟩ := tree_container_eq_some shown
          obtain ⟨other, present, same⟩ :=
            kept address cell (outside address rfl) found
          rw [tree_container present, same]
          apply Contents.tree_mono _ below
          intro part inside value read
          refine induction ?_ read
          rintro inner rfl
          exact apart address cell found inner inside

private theorem tree_succ (shown : heap.tree depth reference = some wire) :
    heap.tree (depth + 1) reference = some wire := by
  induction depth generalizing reference wire with
  | zero =>
      cases reference with
      | primitive value plain => exact shown
      | container address => cases shown
  | succ depth induction =>
      cases reference with
      | primitive value plain => exact shown
      | container address =>
          obtain ⟨cell, found, below⟩ := tree_container_eq_some shown
          rw [tree_container found]
          exact Contents.tree_mono (fun part _ value read =>
            induction read) below

theorem tree_le {more : Nat} (shown : heap.tree depth reference = some wire)
    (order : depth ≤ more) : heap.tree more reference = some wire := by
  induction order with
  | refl => exact shown
  | step _ induction => exact tree_succ induction

/-- A reference to a stored container, or none at all. -/
def Settled (heap : Heap) (reference : Reference) : Prop :=
  ∀ address, reference = .container address →
    ∃ cell, heap[address]? = some cell ∧ cell.stored = true

/-- The address of a container that is not stored. -/
def Fresh (heap : Heap) (address : Nat) : Prop :=
  ∃ cell, heap[address]? = some cell ∧ cell.stored = false

def storedCount (heap : Heap) : Nat :=
  heap.countP Cell.stored

/-- The value behind a reference, which is no deeper than the stored containers
and one that is not stored. -/
structure Shows (heap : Heap) (reference : Reference) (wire : Wire) : Prop where
  whole : heap.tree (heap.storedCount + 1) reference = some wire
  settled : heap.Settled reference → heap.tree heap.storedCount reference =
    some wire

/-- Containers hold only what is stored, and none was changed late. -/
structure Sound (heap : Heap) : Prop where
  parts : ∀ (address : Nat) (cell : Cell), heap[address]? = some cell →
    ∀ part ∈ cell.contents.parts, heap.Settled part
  punctual : ∀ (address : Nat) (cell : Cell), heap[address]? = some cell →
    cell.changedLate = false

theorem settled_primitive (heap : Heap) (value : Wire)
    (plain : value.isPrimitive = true) :
    heap.Settled (.primitive value plain) :=
  nofun

theorem shows_primitive (heap : Heap) (value : Wire)
    (plain : value.isPrimitive = true) :
    heap.Shows (.primitive value plain) value :=
  ⟨tree_primitive heap _ value plain, fun _ =>
    tree_primitive heap _ value plain⟩

theorem Settled.ne_of_fresh (settled : heap.Settled reference)
    (fresh : heap.Fresh address) : reference ≠ .container address := by
  intro equal
  obtain ⟨cell, found, unstored⟩ := fresh
  obtain ⟨other, present, stored⟩ := settled address equal
  cases found.symm.trans present
  cases unstored.symm.trans stored

theorem Shows.fresh_of_not_settled (visible : heap.Shows reference wire)
    (unsettled : ¬ heap.Settled reference) :
    ∃ address, reference = .container address ∧ heap.Fresh address := by
  cases reference with
  | primitive value plain =>
      exact (unsettled (settled_primitive heap value plain)).elim
  | container address =>
      obtain ⟨cell, found, _⟩ := tree_container_eq_some visible.whole
      refine ⟨address, rfl, cell, found, ?_⟩
      rw [← Bool.not_eq_true]
      intro stored
      apply unsettled
      rintro _ ⟨⟩
      exact ⟨cell, found, stored⟩

/-- The value of a reference within as many levels as there are containers. -/
theorem Shows.tree_length (visible : heap.Shows reference wire) :
    heap.tree heap.length reference = some wire := by
  by_cases settled : heap.Settled reference
  · exact tree_le (visible.settled settled) List.countP_le_length
  · obtain ⟨_, _, cell, found, unstored⟩ := visible.fresh_of_not_settled settled
    apply tree_le visible.whole
    exact List.countP_lt_length_iff.mpr ⟨cell, List.mem_of_getElem? found,
      unstored⟩

section Append

variable {fresh : Cell}

theorem getElem?_append_of_some (found : heap[address]? = some cell) :
    (heap ++ [fresh])[address]? = some cell := by
  rw [List.getElem?_append_left (List.getElem?_eq_some_iff.mp found).1, found]

theorem getElem?_append_self :
    (heap ++ [fresh])[heap.length]? = some fresh := by
  rw [List.getElem?_append_right (Nat.le_refl _), Nat.sub_self]
  rfl

theorem getElem?_append_cases
    (found : (heap ++ [fresh])[address]? = some cell) :
    heap[address]? = some cell ∨ (address = heap.length ∧ cell = fresh) := by
  rcases Nat.lt_trichotomy address heap.length with inside | rfl | outside
  · rw [List.getElem?_append_left inside] at found
    exact .inl found
  · rw [getElem?_append_self] at found
    cases found
    exact .inr ⟨rfl, rfl⟩
  · have bound := (List.getElem?_eq_some_iff.mp found).1
    rw [List.length_append, List.length_singleton] at bound
    omega

theorem storedCount_append (unstored : fresh.stored = false) :
    storedCount (heap ++ [fresh]) = heap.storedCount := by
  simp [storedCount, unstored]

theorem fresh_append_iff (inside : address < heap.length) :
    Fresh (heap ++ [fresh]) address ↔ heap.Fresh address := by
  rw [Fresh, Fresh, List.getElem?_append_left inside]

theorem Settled.append (settled : heap.Settled reference) :
    Settled (heap ++ [fresh]) reference := by
  intro address equal
  obtain ⟨cell, found, stored⟩ := settled address equal
  exact ⟨cell, getElem?_append_of_some found, stored⟩

theorem tree_append (shown : heap.tree depth reference = some wire) :
    tree (heap ++ [fresh]) depth reference = some wire := by
  apply tree_transfer (fun _ => False) _ _ _ shown
  · exact fun address cell _ found => ⟨cell, getElem?_append_of_some found, rfl⟩
  · exact fun _ _ _ _ _ => id
  · exact fun _ _ => id

theorem Shows.append (visible : heap.Shows reference wire)
    (unstored : fresh.stored = false) :
    Shows (heap ++ [fresh]) reference wire := by
  constructor
  · rw [storedCount_append unstored]
    exact tree_append visible.whole
  · intro settled
    rw [storedCount_append unstored]
    apply tree_append
    apply visible.settled
    by_contra unsettled
    obtain ⟨address, rfl, empty⟩ := visible.fresh_of_not_settled unsettled
    have bound := (List.getElem?_eq_some_iff.mp empty.choose_spec.1).1
    exact settled.ne_of_fresh ((fresh_append_iff bound).mpr empty) rfl

/-- A new container without parts shows what it is made of. -/
theorem shows_append (unstored : fresh.stored = false)
    (empty : fresh.contents.parts = [])
    (shown : fresh.contents.tree (heap.tree heap.storedCount) = some wire) :
    Shows (heap ++ [fresh]) (.container heap.length) wire := by
  constructor
  · rw [storedCount_append unstored, tree_container getElem?_append_self]
    apply Contents.tree_mono _ shown
    rw [empty]
    exact nofun
  · intro settled
    exact (settled.ne_of_fresh ⟨fresh, getElem?_append_self, unstored⟩ rfl).elim

theorem Sound.append (sound : heap.Sound) (empty : fresh.contents.parts = [])
    (unchanged : fresh.changedLate = false) : Sound (heap ++ [fresh]) := by
  constructor
  · intro address cell found part inside
    rcases getElem?_append_cases found with old | ⟨_, rfl⟩
    · exact (sound.parts address cell old part inside).append
    · rw [empty] at inside
      cases inside
  · intro address cell found
    rcases getElem?_append_cases found with old | ⟨_, rfl⟩
    · exact sound.punctual address cell old
    · exact unchanged

end Append

section Modify

variable {change : Cell → Cell} {other : Nat}

theorem getElem?_modify_self (found : heap[address]? = some cell) :
    (heap.modify address change)[address]? = some (change cell) := by
  simp [found]

theorem getElem?_modify_of_ne (different : address ≠ other) :
    (heap.modify address change)[other]? = heap[other]? := by
  simp [different]

/-- A cell of a heap with one container changed is that container or an old
one. -/
theorem getElem?_modify_cases
    (found : (heap.modify address change)[other]? = some cell) :
    (address = other ∧ ∃ old, heap[address]? = some old ∧ cell = change old) ∨
      (address ≠ other ∧ heap[other]? = some cell) := by
  by_cases same : address = other
  · subst same
    left
    rw [List.getElem?_modify] at found
    cases present : heap[address]? with
    | none => simp [present] at found
    | some old =>
        simp only [present, Option.map_eq_map, Option.map_some, if_true,
          Option.some.injEq] at found
        exact ⟨rfl, old, rfl, found.symm⟩
  · rw [getElem?_modify_of_ne same] at found
    exact .inr ⟨same, found⟩

theorem storedCount_modify (change : Cell → Cell)
    (found : heap[address]? = some cell) :
    storedCount (heap.modify address change) + cell.stored.toNat =
      heap.storedCount + (change cell).stored.toNat := by
  obtain ⟨inside, equal⟩ := List.getElem?_eq_some_iff.mp found
  obtain ⟨before, old, rest, split, length, changed⟩ :=
    List.exists_of_modify change inside
  have same : old = cell := by
    rw [split, List.getElem?_append_right (Nat.le_of_eq length), length,
      Nat.sub_self] at found
    simpa using found
  subst same
  rw [storedCount, storedCount, changed, split]
  simp only [List.countP_append, List.countP_cons]
  cases old.stored <;> cases (change old).stored <;> simp <;> omega

end Modify

section MarkStored

theorem markStored_getElem? (found : heap[address]? = some cell)
    (reference : Reference) :
    ∃ later, (heap.markStored reference)[address]? = some later ∧
      later.contents = cell.contents ∧
        (cell.stored = true → later.stored = true) := by
  cases reference with
  | primitive value plain => exact ⟨cell, found, rfl, id⟩
  | container target =>
      by_cases same : target = address
      · subst same
        exact ⟨_, getElem?_modify_self found, rfl, fun _ => rfl⟩
      · exact ⟨cell, (getElem?_modify_of_ne same).trans found, rfl, id⟩

theorem of_markStored_getElem?
    (found : (heap.markStored reference)[address]? = some cell) :
    ∃ old, heap[address]? = some old ∧ cell.contents = old.contents ∧
      cell.changedLate = old.changedLate := by
  cases reference with
  | primitive value plain => exact ⟨cell, found, rfl, rfl⟩
  | container target =>
      rcases getElem?_modify_cases found with ⟨rfl, old, present, rfl⟩ |
        ⟨_, present⟩
      · exact ⟨old, present, rfl, rfl⟩
      · exact ⟨cell, present, rfl, rfl⟩

theorem length_markStored (heap : Heap) (reference : Reference) :
    (heap.markStored reference).length = heap.length := by
  cases reference with
  | primitive value plain => rfl
  | container target => exact List.length_modify _ _ _

theorem fresh_markStored_iff :
    (heap.markStored reference).Fresh address ↔
      heap.Fresh address ∧ reference ≠ .container address := by
  cases reference with
  | primitive value plain => simp [markStored]
  | container target =>
      constructor
      · rintro ⟨cell, found, unstored⟩
        rcases getElem?_modify_cases found with ⟨rfl, old, present, rfl⟩ |
          ⟨different, present⟩
        · cases unstored
        · exact ⟨⟨cell, present, unstored⟩, by simpa using different⟩
      · rintro ⟨⟨cell, found, unstored⟩, different⟩
        have apart : target ≠ address := by simpa using different
        exact ⟨cell, (getElem?_modify_of_ne apart).trans found, unstored⟩

theorem Settled.markStored {other : Reference} (settled : heap.Settled other)
    (reference : Reference) : (heap.markStored reference).Settled other := by
  intro address equal
  obtain ⟨cell, found, stored⟩ := settled address equal
  obtain ⟨later, present, _, kept⟩ := markStored_getElem? found reference
  exact ⟨later, present, kept stored⟩

theorem settled_markStored (visible : heap.Shows reference wire) :
    (heap.markStored reference).Settled reference := by
  rintro address rfl
  obtain ⟨cell, found, _⟩ := tree_container_eq_some visible.whole
  exact ⟨_, getElem?_modify_self found, rfl⟩

theorem storedCount_le_markStored (heap : Heap) (reference : Reference) :
    heap.storedCount ≤ (heap.markStored reference).storedCount := by
  cases reference with
  | primitive value plain => exact Nat.le_refl _
  | container target =>
      rw [Heap.markStored]
      cases found : heap[target]? with
      | none =>
          have outside : heap.length ≤ target :=
            List.getElem?_eq_none_iff.mp found
          exact Nat.le_of_eq
            (congrArg storedCount (List.modify_eq_self outside).symm)
      | some cell =>
          have counted :=
            storedCount_modify (fun cell => { cell with stored := true }) found
          simp only [Bool.toNat_true] at counted
          have small := Bool.toNat_le cell.stored
          omega

private theorem storedCount_markStored (fresh : heap.Fresh address) :
    (heap.markStored (.container address)).storedCount =
      heap.storedCount + 1 := by
  obtain ⟨cell, found, unstored⟩ := fresh
  have counted :=
    storedCount_modify (fun cell => { cell with stored := true }) found
  rw [unstored] at counted
  exact counted

theorem tree_markStored (shown : heap.tree depth reference = some wire)
    (stored : Reference) :
    (heap.markStored stored).tree depth reference = some wire := by
  apply tree_transfer (fun _ => False) _ _ _ shown
  · intro address cell _ found
    obtain ⟨later, present, same, _⟩ := markStored_getElem? found stored
    exact ⟨later, present, same⟩
  · exact fun _ _ _ _ _ => id
  · exact fun _ _ => id

theorem Shows.markStored (visible : heap.Shows reference wire)
    (stored : Reference) : (heap.markStored stored).Shows reference wire := by
  have grown := storedCount_le_markStored heap stored
  constructor
  · exact tree_le (tree_markStored visible.whole stored)
      (Nat.succ_le_succ grown)
  · intro settled
    by_cases before : heap.Settled reference
    · exact tree_le (tree_markStored (visible.settled before) stored) grown
    · -- The reference is the one stored now, and there is one level more.
      obtain ⟨address, rfl, fresh⟩ := visible.fresh_of_not_settled before
      have here : stored = .container address := by
        by_contra different
        exact settled.ne_of_fresh (fresh_markStored_iff.mpr ⟨fresh, different⟩)
          rfl
      subst here
      rw [storedCount_markStored fresh]
      exact tree_markStored visible.whole _

theorem Shows.stored (visible : heap.Shows reference wire) :
    (heap.markStored reference).tree (heap.markStored reference).storedCount
      reference =
      some wire :=
  (visible.markStored reference).settled (settled_markStored visible)

theorem contents_markStored {contents : Contents}
    (shown : contents.tree (heap.tree heap.storedCount) = some wire)
    (stored : Reference) :
    contents.tree
      ((heap.markStored stored).tree (heap.markStored stored).storedCount) =
      some wire := by
  apply Contents.tree_mono _ shown
  intro part _ value read
  exact tree_le (tree_markStored read stored)
    (storedCount_le_markStored heap stored)

theorem Sound.markStored (sound : heap.Sound) (reference : Reference) :
    (heap.markStored reference).Sound := by
  constructor
  · intro address cell found part inside
    obtain ⟨old, present, same, _⟩ := of_markStored_getElem? found
    rw [same] at inside
    exact (sound.parts address old present part inside).markStored reference
  · intro address cell found
    obtain ⟨old, present, _, same⟩ := of_markStored_getElem? found
    exact same.trans (sound.punctual address old present)

end MarkStored

section Change

variable {contents : Contents}

theorem fresh_change_iff {other : Nat} :
    Fresh (heap.modify address (Cell.change contents)) other ↔
      heap.Fresh other := by
  constructor
  · rintro ⟨cell, found, unstored⟩
    rcases getElem?_modify_cases found with ⟨rfl, old, present, rfl⟩ |
      ⟨_, present⟩
    · exact ⟨old, present, unstored⟩
    · exact ⟨cell, present, unstored⟩
  · rintro ⟨cell, found, unstored⟩
    by_cases same : address = other
    · subst same
      exact ⟨_, getElem?_modify_self found, unstored⟩
    · exact ⟨cell, (getElem?_modify_of_ne same).trans found, unstored⟩

theorem storedCount_change (fresh : heap.Fresh address) :
    storedCount (heap.modify address (Cell.change contents)) =
      heap.storedCount := by
  obtain ⟨cell, found, _⟩ := fresh
  exact Nat.add_right_cancel (storedCount_modify (Cell.change contents) found)

theorem Settled.change (settled : heap.Settled reference)
    (fresh : heap.Fresh address) :
    Settled (heap.modify address (Cell.change contents)) reference := by
  rintro other rfl
  obtain ⟨cell, found, stored⟩ := settled other rfl
  have different : address ≠ other := by
    rintro rfl
    exact settled.ne_of_fresh fresh rfl
  exact ⟨cell, (getElem?_modify_of_ne different).trans found, stored⟩

/-- A change of a container that is not stored shows in no other reference. -/
theorem tree_change (sound : heap.Sound) (fresh : heap.Fresh address)
    (different : reference ≠ .container address)
    (shown : heap.tree depth reference = some wire) :
    tree (heap.modify address (Cell.change contents)) depth reference =
      some wire := by
  apply tree_transfer (· = address) _ _ _ shown
  · intro other old apart present
    exact ⟨old, (getElem?_modify_of_ne (Ne.symm apart)).trans present, rfl⟩
  · rintro other old present _ inside rfl
    exact (sound.parts other old present _ inside).ne_of_fresh fresh rfl
  · rintro _ rfl rfl
    exact different rfl

theorem Shows.change (visible : heap.Shows reference wire) (sound : heap.Sound)
    (fresh : heap.Fresh address) (different : reference ≠ .container address) :
    Shows (heap.modify address (Cell.change contents)) reference wire := by
  constructor
  · rw [storedCount_change fresh]
    exact tree_change sound fresh different visible.whole
  · intro settled
    rw [storedCount_change fresh]
    apply tree_change sound fresh different
    apply visible.settled
    by_contra unsettled
    obtain ⟨other, rfl, unstored⟩ := visible.fresh_of_not_settled unsettled
    exact settled.ne_of_fresh (fresh_change_iff.mpr unstored) rfl

/-- The changed container shows its new parts. -/
theorem shows_change (sound : heap.Sound) (fresh : heap.Fresh address)
    (settled : ∀ part ∈ contents.parts, heap.Settled part)
    (shown : contents.tree (heap.tree heap.storedCount) = some wire) :
    Shows (heap.modify address (Cell.change contents)) (.container address)
      wire := by
  constructor
  · have found := fresh.choose_spec.1
    rw [storedCount_change fresh, tree_container (getElem?_modify_self found)]
    apply Contents.tree_mono _ shown
    intro part inside value read
    exact tree_change sound fresh ((settled part inside).ne_of_fresh fresh) read
  · intro stored
    exact (stored.ne_of_fresh (fresh_change_iff.mpr fresh) rfl).elim

theorem Sound.change (sound : heap.Sound) (fresh : heap.Fresh address)
    (settled : ∀ part ∈ contents.parts, heap.Settled part) :
    Sound (heap.modify address (Cell.change contents)) := by
  constructor
  · intro other later found part inside
    apply Settled.change _ fresh
    rcases getElem?_modify_cases found with ⟨rfl, old, _, rfl⟩ | ⟨_, before⟩
    · exact settled part inside
    · exact sound.parts other later before part inside
  · intro other later found
    rcases getElem?_modify_cases found with ⟨rfl, old, before, rfl⟩ |
      ⟨_, before⟩
    · obtain ⟨cell, present, unstored⟩ := fresh
      cases before.symm.trans present
      simp [Cell.change, sound.punctual address old before, unstored]
    · exact sound.punctual other later before

end Change

end Heap

end DataBridge
