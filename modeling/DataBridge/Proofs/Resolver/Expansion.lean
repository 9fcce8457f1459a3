import DataBridge.Proofs.Resolver.Content

/-!
# What a key stands for

Expanding a key walks every struct anew, with no memory and with no regard for
the structs around it.  The memory of a resolver goes by the names of structs
and its questions go by keys, so in a keyed catalog expanding is what its
answers are measured by.
-/

namespace DataBridge

namespace Catalog

/-- What a key stands for when structs are nested at most `depth` deep. -/
def expandWithin (catalog : Catalog) :
    Nat → String → Except ResolveError Resolution
  | 0, key => .error (.unboundedNesting key)
  | depth + 1, key =>
      match Scalar.ofName? key with
      | some scalar => .ok (.scalar scalar)
      | none =>
          match catalog.find? key with
          | none => .error (.schemaNotFound key)
          | some ⟨_, .enum _⟩ => .ok (.enum .dint)
          | some ⟨name, .struct decl⟩ => do
              let fields ← unfoldFields (catalog.expandWithin depth) name
                [] decl.fields
              return .record { name, comment := decl.comment, fields }

/-- The definition under a key, with all that it is made of, is this. -/
def Expands (catalog : Catalog) (key : String) (resolution : Resolution) :
    Prop :=
  ∃ depth, catalog.expandWithin depth key = .ok resolution

/-- A declared field of a struct is this member. -/
def ExpandsField (catalog : Catalog) (owner : String) (decl : FieldDecl)
    (member : Field) : Prop :=
  ∃ resolution, catalog.Expands decl.typeName resolution ∧
    Resolver.field owner decl resolution = .ok member

variable {catalog : Catalog} {key other name owner : String} {depth more : Nat}
  {resolution : Resolution} {record : Record}

/-- A key that expands is an elementary type, or it is defined. -/
theorem expandWithin_eq_ok_iff :
    catalog.expandWithin (depth + 1) key = .ok resolution ↔
      (∃ scalar, Scalar.ofName? key = some scalar ∧ resolution =
        .scalar scalar) ∨
        Scalar.ofName? key = none ∧
          catalog.Defines (fun _ => catalog.expandWithin depth) key
            resolution := by
  rw [expandWithin]
  cases scalar : Scalar.ofName? key with
  | some kind => simp [eq_comm]
  | none =>
      rw [← lookUp_eq_ok_iff, lookUp]
      simp only [reduceCtorEq, false_and, exists_false, false_or, true_and]
      rfl

theorem expandWithin_mono (order : depth ≤ more)
    (expanded : catalog.expandWithin depth key = .ok resolution) :
    catalog.expandWithin more key = .ok resolution := by
  induction depth generalizing more key resolution with
  | zero => cases expanded
  | succ depth induction =>
      obtain ⟨more, rfl⟩ : ∃ fewer, more = fewer + 1 := ⟨more - 1, by omega⟩
      apply expandWithin_eq_ok_iff.mpr
      rcases expandWithin_eq_ok_iff.mp expanded with scalar | ⟨unnamed, defines⟩
      · exact .inl scalar
      refine .inr ⟨unnamed, ?_⟩
      cases defines with
      | enum found => exact .enum found
      | struct found members =>
          exact .struct found (unfoldFields_ok_of_forall
            (fun field _ _ => induction (Nat.le_of_succ_le_succ order)) members)

theorem Expands.unique {answer : Resolution}
    (expands : catalog.Expands key resolution)
    (also : catalog.Expands key answer) : answer = resolution := by
  obtain ⟨depth, one⟩ := expands
  obtain ⟨more, other⟩ := also
  have first := expandWithin_mono (Nat.le_max_left depth more) one
  have second := expandWithin_mono (Nat.le_max_right depth more) other
  exact Except.ok.inj (second.symm.trans first)

theorem Expands.scalar {scalar : Scalar}
    (named : Scalar.ofName? key = some scalar) :
    catalog.Expands key (.scalar scalar) :=
  ⟨1, expandWithin_eq_ok_iff.mpr (.inl ⟨scalar, named, rfl⟩)⟩

theorem Expands.enum {decl : EnumDecl} (unnamed : Scalar.ofName? key = none)
    (found : catalog.find? key = some ⟨name, .enum decl⟩) :
    catalog.Expands key (.enum .dint) :=
  ⟨1, expandWithin_eq_ok_iff.mpr (.inr ⟨unnamed, .enum found⟩)⟩

/-- What an expansion is of, whatever depth it needs. -/
theorem Expands.cases (expands : catalog.Expands key resolution) :
    (∃ scalar, Scalar.ofName? key = some scalar ∧ resolution = .scalar scalar) ∨
      Scalar.ofName? key = none ∧
        ∃ depth,
          catalog.Defines (fun _ => catalog.expandWithin depth) key
            resolution := by
  obtain ⟨_ | depth, expanded⟩ := expands
  · cases expanded
  · apply (expandWithin_eq_ok_iff.mp expanded).imp_right
    exact fun ⟨unnamed, defines⟩ => ⟨unnamed, depth, defines⟩

theorem Defines.expands (unnamed : Scalar.ofName? key = none)
    (defines : catalog.Defines (fun _ => catalog.expandWithin depth) key
      resolution) :
    catalog.Expands key resolution :=
  ⟨depth + 1, expandWithin_eq_ok_iff.mpr (.inr ⟨unnamed, defines⟩)⟩

/-- Keys of the same definition stand for the same. -/
theorem Expands.of_find?_eq (expands : catalog.Expands key resolution)
    (unnamed : Scalar.ofName? key = none) (also : Scalar.ofName? other = none)
    (same : catalog.find? other = catalog.find? key) :
    catalog.Expands other resolution := by
  rcases expands.cases with ⟨scalar, named, _⟩ | ⟨_, depth, defines⟩
  · cases named.symm.trans unnamed
  have moved : catalog.Defines (fun _ => catalog.expandWithin depth) other
      resolution := by
    cases defines with
    | enum found => exact .enum (same.trans found)
    | struct found members => exact .struct (same.trans found) members
  exact moved.expands also

/-- Some depth suffices for all members of a struct. -/
theorem exists_depth {decls : List FieldDecl} {members : List Field}
    (expand : List.Forall₂ (catalog.ExpandsField owner) decls members) :
    ∃ depth,
      List.Forall₂ (UnfoldsTo (catalog.expandWithin depth) owner) decls
        members := by
  induction expand with
  | nil => exact ⟨0, .nil⟩
  | cons here _ induction =>
      obtain ⟨resolution, ⟨depth, expanded⟩, typed⟩ := here
      obtain ⟨more, others⟩ := induction
      have first := expandWithin_mono (Nat.le_max_left depth more) expanded
      refine ⟨max depth more, .cons ⟨resolution, first, typed⟩ (others.imp ?_)⟩
      rintro decl member ⟨resolution, expanded, typed⟩
      exact ⟨resolution,
        expandWithin_mono (Nat.le_max_right depth more) expanded, typed⟩

/-- A key stands for a record when it has a struct of that name with these
members. -/
theorem expands_record_iff :
    catalog.Expands key (.record record) ↔
      Scalar.ofName? key = none ∧
        ∃ decl, catalog.find? key = some ⟨record.name, .struct decl⟩ ∧
          record.comment = decl.comment ∧
            (decl.fields.map FieldDecl.name).Nodup ∧
          List.Forall₂ (catalog.ExpandsField record.name) decl.fields
            record.fields := by
  constructor
  · intro expands
    rcases expands.cases with ⟨scalar, _, other⟩ | ⟨unnamed, depth, defines⟩
    · cases other
    cases defines with
    | struct found members =>
        obtain ⟨distinct, _, each⟩ := unfoldFields_eq_ok_iff.mp members
        refine ⟨unnamed, _, found, rfl, distinct, each.imp ?_⟩
        exact fun decl member ⟨resolution, expanded, typed⟩ =>
          ⟨resolution, ⟨depth, expanded⟩, typed⟩
  · rintro ⟨unnamed, decl, found, comment, distinct, each⟩
    obtain ⟨name, _, fields⟩ := record
    obtain ⟨depth, members⟩ := exists_depth each
    cases comment
    apply Defines.expands unnamed
    exact .struct found
      (unfoldFields_eq_ok_iff.mpr ⟨distinct, fun _ _ => List.not_mem_nil,
        members⟩)

theorem not_enum_of_struct {decl : StructDecl}
    (struct : catalog.struct? key = some decl) :
    ¬ (catalog.enum? key).isSome := by
  rw [Resolver.enum?_eq_none_of_struct? struct]
  exact nofun

/-- The sort of definition that a key has to have for a resolution. -/
def Sorts (catalog : Catalog) (key : String) : Resolution → Prop
  | .scalar scalar => Scalar.ofName? key = some scalar
  | .enum _ => (catalog.enum? key).isSome
  | .record _ => (catalog.struct? key).isSome

theorem Expands.sorts (expands : catalog.Expands key resolution) :
    catalog.Sorts key resolution := by
  rcases expands.cases with ⟨scalar, named, rfl⟩ | ⟨unnamed, depth, defines⟩
  · exact named
  cases defines with
  | enum found =>
      exact Option.isSome_iff_exists.mpr ⟨_,
        enum?_eq_some_iff.mpr ⟨unnamed, _, found⟩⟩
  | struct found _ =>
      exact Option.isSome_iff_exists.mpr ⟨_,
        struct?_eq_some_iff.mpr ⟨unnamed, _, found⟩⟩

theorem Expands.names (expands : catalog.Expands key (.record record)) :
    catalog.Names key record.name := by
  obtain ⟨unnamed, decl, found, _⟩ := expands_record_iff.mp expands
  exact ⟨unnamed, decl, found⟩

theorem Expands.exists_member {inner : String}
    (expands : catalog.Expands key (.record record))
    (uses : catalog.Uses key inner) : ∃ decl, decl.typeName = inner ∧
      ∃ member ∈ record.fields,
        catalog.ExpandsField record.name decl member := by
  obtain ⟨unnamed, decl, found, _, _, each⟩ := expands_record_iff.mp expands
  obtain ⟨other, struct, field, part, named⟩ := uses
  cases struct.symm.trans
    (struct?_eq_some_iff.mpr ⟨unnamed, record.name, found⟩)
  exact ⟨field, named, exists_of_forall₂ each part⟩

theorem Expands.exists_field {member : Field}
    (expands : catalog.Expands key (.record record))
    (part : member ∈ record.fields) :
    ∃ decl, catalog.Uses key decl.typeName ∧
      catalog.ExpandsField record.name decl member := by
  obtain ⟨unnamed, decl, found, _, _, each⟩ := expands_record_iff.mp expands
  obtain ⟨field, listed, here⟩ := exists_of_forall₂ each.flip part
  have struct := struct?_eq_some_iff.mpr ⟨unnamed, record.name, found⟩
  exact ⟨field, ⟨decl, struct, field, listed, rfl⟩, here⟩

end Catalog

end DataBridge
