import DataBridge.Proofs.Flatten.Layout
import DataBridge.Proofs.Marshal.Machine

/-!
# Native values that differ in private members

An outgoing program reads exchanged leaves only.  So two runs of it, on native
values that are alike but for private members, go through the same states and
end in the same JavaScript value or in the same fault.
-/

namespace DataBridge

/-- Two computations fail alike, or give values that are related. -/
inductive Agree {ε α β : Type} (related : α → β → Prop) :
    Except ε α → Except ε β → Prop where
  | ok {one : α} {other : β} (holds : related one other) :
      Agree related (.ok one) (.ok other)
  | error (error : ε) : Agree related (.error error) (.error error)

namespace Agree

variable {ε α β γ δ : Type} {related : α → β → Prop} {further : γ → δ → Prop}

theorem refl {related : α → α → Prop} {result : Except ε α}
    (holds : ∀ value, result = .ok value → related value value) :
    Agree related result result := by
  cases result with
  | error error => exact .error error
  | ok value => exact .ok (holds value rfl)

theorem bind {one : Except ε α} {other : Except ε β} {next : α → Except ε γ}
    {later : β → Except ε δ} (agree : Agree related one other)
    (continues : ∀ first second, related first second →
      Agree further (next first) (later second)) :
    Agree further (one >>= next) (other >>= later) := by
  cases agree with
  | ok holds => exact continues _ _ holds
  | error error => exact .error error

theorem bind_same (result : Except ε α) {next : α → Except ε γ}
    {later : α → Except ε δ}
    (continues : ∀ value, Agree further (next value) (later value)) :
    Agree further (result >>= next) (result >>= later) := by
  cases result with
  | ok value => exact continues value
  | error error => exact .error error

theorem mono {weaker : α → β → Prop} {one : Except ε α} {other : Except ε β}
    (agree : Agree related one other)
    (imp : ∀ first second, related first second →
      weaker first second) : Agree weaker one other := by
  cases agree with
  | ok holds => exact .ok (imp _ _ holds)
  | error error => exact .error error

theorem eq {one other : Except ε α} (agree : Agree Eq one other) :
    one = other := by
  cases agree with
  | ok same => rw [same]
  | error error => rfl

end Agree

/-- Native values of a type and an array size that differ in private members
only, or are the same whatever their shape. -/
inductive Native.Alike : FieldType → Nat → Native → Native → Prop where
  | same (type : FieldType) (size : Nat) (value : Native) :
      Native.Alike type size value value
  | record {record : Record} {first second : List (String × Native)}
      (present : ∀ member ∈ record.exchanged,
        (first.lookup member.name).isSome = (second.lookup member.name).isSome)
      (alike : ∀ member ∈ record.exchanged, ∀ one other,
        first.lookup member.name = some one →
          second.lookup member.name = some other →
          Native.Alike member.type member.arraySize one other) :
      Native.Alike (.record record) 0 (.record first) (.record second)
  | array {type : FieldType} {size : Nat} {first second : List Native}
      (length : first.length = second.length)
      (alike : ∀ (index : Nat) one other, first[index]? = some one →
        second[index]? = some other →
        Native.Alike type 0 one other) :
      Native.Alike type (size + 1) (.array first) (.array second)

namespace Native.Alike

variable {type : FieldType} {one other : Native}

theorem leaf {leaf : Leaf} (alike : Alike (.leaf leaf) 0 one other) :
    one = other := by
  cases alike
  rfl

theorem member {record : Record} {member : Field}
    (alike : Alike (.record record) 0 one other)
    (inside : member ∈ record.exchanged) (path : String) :
    Agree (Alike member.type member.arraySize)
      (part path (.member member.name) one)
      (part path (.member member.name) other) := by
  cases alike with
  | same => exact .refl fun value _ => .same _ _ value
  | @record _ first second present alike =>
      have both := present member inside
      simp only [part]
      cases found : first.lookup member.name with
      | none =>
          cases also : second.lookup member.name with
          | none => exact .error _
          | some twin => simp [found, also] at both
      | some value =>
          cases also : second.lookup member.name with
          | none => simp [found, also] at both
          | some twin => exact .ok (alike member inside value twin found also)

theorem element {size : Nat} (alike : Alike type (size + 1) one other)
    (path : String) (index : Nat) :
    Agree (Alike type 0) (part path (.element index) one)
      (part path (.element index) other) := by
  cases alike with
  | same => exact .refl fun value _ => .same _ _ value
  | @array _ _ first second length alike =>
      simp only [part]
      cases found : first[index]? with
      | none =>
          have outside := List.getElem?_eq_none_iff.mp found
          rw [length] at outside
          rw [List.getElem?_eq_none_iff.mpr outside, length]
          exact .error _
      | some value =>
          obtain ⟨inside, _⟩ := List.getElem?_eq_some_iff.mp found
          rw [length] at inside
          have also := List.getElem?_eq_getElem inside
          rw [also]
          exact .ok (alike index value _ found also)

end Native.Alike

/-- Whatever the indices, the values at a place are alike or cannot be reached
for the same reason. -/
def Place.Alike (place : Place) (type : FieldType) (size : Nat)
    (one other : Native) : Prop :=
  ∀ path (machine : Machine) steps, machine.steps place.segments = .ok steps →
    Agree (Native.Alike type size) (one.get path steps) (other.get path steps)

theorem Native.get_concat (path : String) (steps : List Step) (step : Step)
    (value : Native) :
    get path (steps ++ [step]) value =
      get path steps value >>= part path step := by
  induction steps generalizing value with
  | nil =>
      rw [List.nil_append, get, get, ok_bind]
      cases part path step value <;> rfl
  | cons first rest induction =>
      rw [List.cons_append, get, get]
      cases part path first value with
      | error fault => rfl
      | ok inner => exact induction inner

namespace Place.Alike

variable {place : Place} {type : FieldType} {one other : Native}

theorem root {root : String} {size : Nat}
    (alike : Native.Alike type size one other) :
    Place.Alike { root } type size one other := by
  intro path machine steps located
  cases located
  exact .ok alike

theorem field {record : Record} {member : Field}
    (alike : place.Alike (.record record) 0 one other)
    (inside : member ∈ record.exchanged) :
    (place.field member.name).Alike member.type member.arraySize one other := by
  intro path machine steps located
  rw [Place.field, Machine.steps_append] at located
  obtain ⟨before, reached, ended⟩ := bind_eq_ok_iff.mp located
  cases ended
  rw [Native.get_concat, Native.get_concat]
  apply (alike path machine before reached).bind
  exact fun _ _ both => both.member inside path

theorem index {size : Nat} (alike : place.Alike type (size + 1) one other)
    (iterator : Char) : (place.index iterator).Alike type 0 one other := by
  intro path machine steps located
  rw [Place.index, Machine.steps_append] at located
  obtain ⟨before, reached, further⟩ := bind_eq_ok_iff.mp located
  obtain ⟨after, looped, ended⟩ := bind_eq_ok_iff.mp further
  cases ended
  obtain ⟨position, found, ended⟩ := bind_eq_ok_iff.mp looped
  cases ended
  rw [Native.get_concat, Native.get_concat]
  apply (alike path machine before reached).bind
  exact fun _ _ both => both.element path position

end Place.Alike

/-- The values that an origin gives are alike. -/
def Origin.Alike (type : FieldType) (size : Nat) (one other : Native) :
    Origin → Prop
  | .native place => place.Alike type size one other
  | .defaults => True

namespace Origin.Alike

variable {origin : Origin} {type : FieldType} {one other : Native}

theorem field {record : Record} {member : Field}
    (alike : origin.Alike (.record record) 0 one other)
    (inside : member ∈ record.exchanged) :
    (origin.field member.name).Alike member.type member.arraySize one
      other := by
  cases origin with
  | native place => exact Place.Alike.field alike inside
  | defaults => trivial

theorem index {size : Nat} (alike : origin.Alike type (size + 1) one other)
    (iterator : Char) : (origin.index iterator).Alike type 0 one other := by
  cases origin with
  | native place => exact Place.Alike.index alike iterator
  | defaults => trivial

end Origin.Alike

namespace Machine

def withNative (machine : Machine) (native : Native) : Machine :=
  { machine with native }

private theorem steps_over (machine : Machine) (native : Native)
    (place : Place) :
    (machine.withNative native).steps place.segments =
      machine.steps place.segments := by
  have frame : Frame (fun _ => True) [] machine (machine.withNative native) :=
    ⟨fun _ _ => rfl, fun _ _ => rfl⟩
  exact frame.steps fun _ _ => List.not_mem_nil

/-- Machines in the same state over two native values. -/
structure Twins (one other : Native) (machine twin : Machine) : Prop where
  native : machine.native = one
  same : twin = machine.withNative other

end Machine

open Machine

/-- Statements that do the same over two native values, and change neither. -/
def Stmt.Blind (one other : Native) (statements : List Stmt) : Prop :=
  ∀ machine twin, Twins one other machine twin →
    Agree (Twins one other) (run statements machine) (run statements twin)

namespace Stmt.Blind

variable {one other : Native} {first second : List Stmt} {statement : Stmt}

theorem nil (one other : Native) : Blind one other [] :=
  fun _ _ twins => .ok twins

theorem append (before : Blind one other first)
    (after : Blind one other second) : Blind one other (first ++ second) := by
  intro machine twin twins
  rw [run_append, run_append]
  exact (before machine twin twins).bind after

theorem single
    (steps : ∀ machine twin, Twins one other machine twin →
      Agree (Twins one other) (step statement machine) (step statement twin)) :
    Blind one other [statement] := by
  intro machine twin twins
  rw [run_single, run_single]
  exact steps machine twin twins

theorem cons (before : Blind one other [statement])
    (after : Blind one other second) : Blind one other (statement :: second) :=
  before.append after

theorem createObject (target : Handle) :
    Blind one other [.createObject target] := by
  apply single
  rintro machine _ ⟨native, rfl⟩
  exact .ok ⟨native, rfl⟩

theorem createArray (target : Handle) :
    Blind one other [.createArray target] := by
  apply single
  rintro machine _ ⟨native, rfl⟩
  exact .ok ⟨native, rfl⟩

theorem assign (target value : Handle) :
    Blind one other [.assign target value] := by
  apply single
  rintro machine _ ⟨native, rfl⟩
  rw [step, step]
  apply Agree.bind_same (machine.read value)
  exact fun wire => .ok ⟨native, rfl⟩

theorem setNamed (object : Handle) (name : String) (value : Handle) :
    Blind one other [.setNamed object name value] := by
  apply single
  rintro machine _ ⟨native, rfl⟩
  rw [step, step]
  apply Agree.bind_same (machine.read value)
  intro wire
  apply Agree.bind_same (machine.object object)
  exact fun members => .ok ⟨native, rfl⟩

theorem setElement (array : Handle) (iterator : Char) (value : Handle) :
    Blind one other [.setElement array iterator value] := by
  apply single
  rintro machine _ ⟨native, rfl⟩
  rw [step, step]
  apply Agree.bind_same (machine.index iterator)
  intro position
  apply Agree.bind_same (machine.read value)
  intro wire
  apply Agree.bind_same (machine.array array)
  exact fun items => .ok ⟨native, rfl⟩

theorem leaf {origin : Origin} {leaf : Leaf}
    (alike : origin.Alike (.leaf leaf) 0 one other) (target : Handle) :
    Blind one other [origin.leaf leaf target] := by
  apply single
  rintro machine _ ⟨native, rfl⟩
  cases origin with
  | defaults => exact .ok ⟨native, rfl⟩
  | native place =>
      subst native
      have loads : (machine.withNative other).load place =
          machine.load place := by
        symm
        rw [load, load, steps_over]
        cases located : machine.steps place.segments with
        | error fault => rfl
        | ok steps =>
            apply Agree.eq
            apply (alike place.text machine steps located).mono
            exact fun _ _ both => both.leaf
      rw [Origin.leaf, step, step, loads]
      apply Agree.bind_same (machine.load place)
      intro value
      apply Agree.bind_same (leaf.toWire value place)
      exact fun wire => .ok ⟨rfl, rfl⟩

theorem forEach {body : List Stmt} (blind : Blind one other body)
    (iterator : Char) (count : Nat) :
    Blind one other [.forEach iterator count body] := by
  have rounds : ∀ count next machine twin, Twins one other machine twin →
      Agree (Twins one other) (repeated iterator (run body) count next machine)
        (repeated iterator (run body) count next twin) := by
    intro count
    induction count with
    | zero => exact fun _ _ _ twins => .ok twins
    | succ count induction =>
        rintro next machine _ ⟨native, rfl⟩
        rw [repeated, repeated]
        apply (blind (machine.enter iterator next) _ ⟨native, rfl⟩).bind
        exact fun after image twins => induction (next + 1) after image twins
  apply single
  intro machine twin twins
  rw [step, step]
  apply (rounds count 0 machine twin twins).bind
  rintro after _ ⟨native, rfl⟩
  exact .ok ⟨native, rfl⟩

end Stmt.Blind

namespace Layout

open Stmt (Blind)

variable {one other : Native}

private theorem outMembers_blind {fields : List Field} {origin : Origin}
    {parent : Handle} {next : Nat} {letters : List Char}
    (members : ∀ member ∈ fields, member.isPrivate = false → ∀ dest next,
      Blind one other
        (outField (origin.field member.name) dest next letters member)) :
    Blind one other (outMembers origin parent next letters fields) := by
  induction fields with
  | nil => exact .nil one other
  | cons member rest induction =>
      have others := induction fun inner inside =>
        members inner (List.mem_cons_of_mem _ inside)
      by_cases hidden : member.isPrivate = true
      · rw [outMembers, if_pos hidden]
        exact others
      · rw [outMembers, if_neg hidden]
        apply Blind.append
        · exact members member List.mem_cons_self (by simpa using hidden) _ _
        · exact .cons (.setNamed parent member.name _) others

theorem outField_blind (field : Field) {origin : Origin}
    (alike : origin.Alike field.type field.arraySize one other) (dest : Handle)
    (next : Nat) (letters : List Char) :
    Blind one other (outField origin dest next letters field) := by
  induction field using Field.nested_induction
      generalizing origin dest next letters with
  | step field induction =>
      have single : ∀ {origin : Origin}, origin.Alike field.type 0 one other →
          ∀ dest next letters,
            Blind one other (outType origin dest next letters field.type) := by
        intro origin alike dest next letters
        cases type : field.type with
        | leaf leaf =>
            rw [type] at alike
            exact .leaf alike dest
        | record record =>
            rw [type] at alike
            rw [outType_record]
            apply Blind.cons (.createObject dest)
            apply outMembers_blind
            intro member inside exchanged
            have taken : member ∈ record.exchanged := by
              simp [Record.exchanged, inside, exchanged]
            exact fun dest next =>
              induction record type member inside (alike.field taken) dest
                next letters
      rcases size : field.arraySize with _ | count
      · rw [size] at alike
        rw [outField_single size]
        exact single alike dest next letters
      · rw [size] at alike
        rw [outField_array size]
        apply Blind.cons (.createArray dest)
        apply Blind.forEach
        apply Blind.append
        · exact single (alike.index _) _ _ _
        · exact .setElement dest _ _

private theorem outDataset_blind (dataset : Field) {origin : Origin}
    (alike : origin.Alike dataset.type dataset.arraySize one other)
    (dest : Handle) (next : Nat) (letters : List Char) :
    Blind one other (outDataset origin dest next letters dataset) := by
  unfold outDataset
  split
  · rename_i record type single
    apply Blind.append
    · have inner := outField_blind dataset alike (.slot next) (next + 1) letters
      rwa [outField_single single, type] at inner
    · exact .assign dest (.slot next)
  · exact outField_blind dataset alike dest next letters

end Layout

/-- A program of blind statements gives the same over both native values. -/
theorem Emission.marshalOut_eq_of_blind {emission : Emission}
    {one other : Native} (blind : Stmt.Blind one other emission.body) :
    emission.marshalOut one = emission.marshalOut other := by
  unfold marshalOut
  cases emission.wireRoot? with
  | none => rfl
  | some root =>
      apply Agree.eq
      apply (blind { native := one } { native := other } ⟨rfl, rfl⟩).bind
      rintro machine _ ⟨_, rfl⟩
      exact .refl fun _ _ => rfl

/-- The outgoing program of a field does not tell native values apart that are
alike at its place. -/
theorem Field.marshalOut_alike {dataset : Field} {place : Place}
    {handle : Handle} {naming : Naming} {emission : Emission}
    {one other : Native}
    (flattened : (dataset.emission place handle .outgoing naming).1 =
      .ok emission)
    (alike : place.Alike dataset.type dataset.arraySize one other) :
    emission.marshalOut one = emission.marshalOut other := by
  obtain ⟨maxSlot, equal⟩ := dataset.emission_eq place handle .outgoing naming
  rw [equal] at flattened
  split at flattened
  · cases flattened
    have origin :
        (Origin.native place).Alike dataset.type dataset.arraySize one other :=
      alike
    apply Emission.marshalOut_eq_of_blind
    exact Layout.outDataset_blind dataset origin handle _ _
  · cases flattened

end DataBridge
