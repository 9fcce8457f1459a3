import DataBridge.Resolver
import Mathlib.Data.List.Chain
import Mathlib.Data.List.Nodup

/-!
# Well-formed catalogs

Which type names a catalog defines well, and what each error says about it.
Both are stated over the graph of the structs that use one another and not over
the search that a resolver makes.
-/

namespace DataBridge

section Chain

variable {α : Type} {related : α → α → Prop} {first last : α} {between : List α}

theorem reflTransGen_of_isChain (chain : (first :: between).IsChain related)
    (inside : last ∈ first :: between) :
    Relation.ReflTransGen related first last := by
  induction between generalizing first with
  | nil =>
      cases List.mem_singleton.mp inside
      exact .refl
  | cons second rest induction =>
      obtain ⟨step, later⟩ := List.isChain_cons_cons.mp chain
      rcases List.mem_cons.mp inside with rfl | deeper
      · exact .refl
      · exact .head step (induction later deeper)

theorem transGen_of_isChain
    (chain : (first :: (between ++ [last])).IsChain related) :
    Relation.TransGen related first last := by
  induction between generalizing first with
  | nil =>
      obtain ⟨step, _⟩ := List.isChain_cons_cons.mp chain
      exact .single step
  | cons second rest induction =>
      obtain ⟨step, later⟩ := List.isChain_cons_cons.mp chain
      exact .head step (induction later)

end Chain

def FieldDecl.IsString (decl : FieldDecl) : Prop :=
  Scalar.ofName? decl.typeName = some .string

/-- A string has a length other than zero, and nothing else has a length. -/
structure FieldDecl.LengthFits (decl : FieldDecl) : Prop where
  string : decl.IsString → ∃ length, decl.stringLength = some (length + 1)
  other : ¬ decl.IsString → decl.stringLength = none

namespace Catalog

/-- The struct of a name.  The name of an elementary type stands for no
struct. -/
def struct? (catalog : Catalog) (name : String) : Option StructDecl :=
  match Scalar.ofName? name, catalog.find? name with
  | none, some { kind := .struct decl, .. } => some decl
  | _, _ => none

/-- The enumeration of a name.  The name of an elementary type stands for
none. -/
def enum? (catalog : Catalog) (name : String) : Option EnumDecl :=
  match Scalar.ofName? name, catalog.find? name with
  | none, some { kind := .enum decl, .. } => some decl
  | _, _ => none

/-- The name belongs to an elementary type or to a definition. -/
def Knows (catalog : Catalog) (name : String) : Prop :=
  (Scalar.ofName? name).isSome ∨ (catalog.find? name).isSome

/-- A struct has a field of a type, private fields included. -/
def Uses (catalog : Catalog) (outer inner : String) : Prop :=
  ∃ decl, catalog.struct? outer = some decl ∧ ∃ field ∈ decl.fields,
    field.typeName = inner

/-- A type is another or is used in it, at any depth. -/
def Reaches (catalog : Catalog) : String → String → Prop :=
  Relation.ReflTransGen catalog.Uses

end Catalog

/-- The fields of a struct have different names, known types, and a length where
one belongs. -/
structure StructDecl.WellFormed (catalog : Catalog) (decl : StructDecl) :
    Prop where
  distinct : (decl.fields.map FieldDecl.name).Nodup
  known : ∀ field ∈ decl.fields, catalog.Knows field.typeName
  lengths : ∀ field ∈ decl.fields, field.LengthFits

namespace Catalog

/-- The structs that a type reaches are well formed, and none reaches itself
through a field. -/
structure WellFormed (catalog : Catalog) (root : String) : Prop where
  structs : ∀ name decl, catalog.Reaches root name →
    catalog.struct? name = some decl →
    decl.WellFormed catalog
  acyclic : ∀ name, catalog.Reaches root name →
    ¬ Relation.TransGen catalog.Uses name name

/-- The name of an elementary type, of an enumeration, or of a struct that is
well formed throughout. -/
def Accepts (catalog : Catalog) (name : String) : Prop :=
  (Scalar.ofName? name).isSome ∨
    (∃ definition,
      catalog.find? name = some definition ∧ definition.isEnum = true) ∨
      ((catalog.struct? name).isSome ∧ catalog.WellFormed name)

/-- What a name has to be for a resolution. -/
def Denotes (catalog : Catalog) (name : String) : Resolution → Prop
  | .scalar scalar => Scalar.ofName? name = some scalar
  | .enum _ => Scalar.ofName? name = none ∧
      ∃ definition,
        catalog.find? name = some definition ∧ definition.isEnum = true
  | .record _ => (catalog.struct? name).isSome ∧ catalog.WellFormed name

/-- What an error says about a type that cannot be resolved. -/
def Explains (catalog : Catalog) (root : String) : ResolveError → Prop
  | .schemaNotFound name => catalog.Reaches root name ∧ ¬ catalog.Knows name
  | .duplicateField owner name =>
      ∃ decl, catalog.Reaches root owner ∧ catalog.struct? owner = some decl ∧
        1 < (decl.fields.map FieldDecl.name).count name
  | .missingStringLength owner name =>
      ∃ decl, catalog.Reaches root owner ∧ catalog.struct? owner = some decl ∧
        ∃ field ∈ decl.fields, field.name = name ∧ field.IsString ∧
          (field.stringLength = none ∨ field.stringLength = some 0)
  | .unexpectedStringLength owner name =>
      ∃ decl, catalog.Reaches root owner ∧ catalog.struct? owner = some decl ∧
        ∃ field ∈ decl.fields, field.name = name ∧ ¬ field.IsString ∧
          field.stringLength.isSome
  | .circularReference chain =>
      chain.head? = some root ∧ chain.IsChain catalog.Uses ∧
        ∃ walk last, chain = walk ++ [last] ∧ walk.Nodup ∧ last ∈ walk
  | .notARecord _ | .unboundedNesting _ => False

variable {catalog : Catalog} {root name : String} {decl : StructDecl}

theorem struct?_eq_some_iff :
    catalog.struct? name = some decl ↔
      Scalar.ofName? name = none ∧
        ∃ declared, catalog.find? name = some ⟨declared, .struct decl⟩ := by
  unfold struct?
  split
  · rename_i declared struct scalar found
    simp [scalar, found]
  · rename_i different
    constructor
    · exact nofun
    · rintro ⟨scalar, declared, found⟩
      exact (different declared decl scalar found).elim

theorem enum?_eq_some_iff {decl : EnumDecl} :
    catalog.enum? name = some decl ↔
      Scalar.ofName? name = none ∧
        ∃ declared, catalog.find? name = some ⟨declared, .enum decl⟩ := by
  unfold enum?
  split
  · rename_i declared enum scalar found
    simp [scalar, found]
  · rename_i different
    constructor
    · exact nofun
    · rintro ⟨scalar, declared, found⟩
      exact (different declared decl scalar found).elim

theorem knows_of_struct (found : catalog.struct? name = some decl) :
    catalog.Knows name := by
  obtain ⟨_, declared, known⟩ := struct?_eq_some_iff.mp found
  right
  rw [known]
  rfl

/-- A name that stands for no struct reaches only itself. -/
theorem wellFormed_of_none (none : catalog.struct? name = none) :
    catalog.WellFormed name := by
  have leaf : ∀ deeper, ¬ catalog.Uses name deeper := by
    rintro deeper ⟨decl, found, _⟩
    cases none.symm.trans found
  have alone : ∀ deeper, catalog.Reaches name deeper → deeper = name := by
    intro deeper reached
    rcases Relation.ReflTransGen.cases_head reached with same | ⟨next, step, _⟩
    · exact same.symm
    · exact (leaf next step).elim
  constructor
  · intro deeper decl reached found
    rw [alone deeper reached, none] at found
    cases found
  · intro deeper reached cycle
    rw [alone deeper reached] at cycle
    obtain ⟨next, step, _⟩ := Relation.TransGen.head'_iff.mp cycle
    exact leaf next step

/-- A struct is well formed throughout if it is so itself and its fields are of
such types. -/
theorem wellFormed_of_struct (found : catalog.struct? name = some decl)
    (wellFormed : decl.WellFormed catalog)
    (fields : ∀ field ∈ decl.fields, catalog.WellFormed field.typeName) :
    catalog.WellFormed name := by
  have children : ∀ child, catalog.Uses name child →
      catalog.WellFormed child := by
    rintro child ⟨other, present, field, inside, rfl⟩
    cases found.symm.trans present
    exact fields field inside
  constructor
  · intro deeper other reached present
    rcases Relation.ReflTransGen.cases_head reached with
      rfl | ⟨child, step, rest⟩
    · cases found.symm.trans present
      exact wellFormed
    · exact (children child step).structs deeper other rest present
  · intro deeper reached cycle
    rcases Relation.ReflTransGen.cases_head reached with
      rfl | ⟨child, step, rest⟩
    · -- A cycle through the struct is one through the first of its fields.
      obtain ⟨child, step, back⟩ := Relation.TransGen.head'_iff.mp cycle
      exact (children child step).acyclic child .refl (.tail' back step)
    · exact (children child step).acyclic deeper rest cycle

theorem accepts_iff :
    catalog.Accepts name ↔ catalog.Knows name ∧ catalog.WellFormed name := by
  constructor
  · rintro (scalar | ⟨definition, found, enum⟩ | ⟨isStruct, wellFormed⟩)
    · refine ⟨.inl scalar, wellFormed_of_none ?_⟩
      obtain ⟨kind, named⟩ := Option.isSome_iff_exists.mp scalar
      simp [struct?, named]
    · refine ⟨.inr (by simp [found]), wellFormed_of_none ?_⟩
      obtain ⟨declared, kind⟩ := definition
      cases kind with
      | struct decl => cases enum
      | enum decl => simp [struct?, found]
    · obtain ⟨decl, found⟩ := Option.isSome_iff_exists.mp isStruct
      exact ⟨knows_of_struct found, wellFormed⟩
  · rintro ⟨scalar | defined, wellFormed⟩
    · exact .inl scalar
    · cases scalar : Scalar.ofName? name with
      | some kind => exact .inl (by simp [scalar])
      | none =>
          obtain ⟨⟨declared, kind⟩, found⟩ :=
            Option.isSome_iff_exists.mp defined
          cases kind with
          | enum decl => exact .inr (.inl ⟨_, found, rfl⟩)
          | struct decl =>
              have isStruct := struct?_eq_some_iff.mpr ⟨scalar, declared, found⟩
              exact .inr (.inr ⟨by simp [isStruct], wellFormed⟩)

theorem Denotes.accepts {resolution : Resolution}
    (denotes : catalog.Denotes name resolution) : catalog.Accepts name := by
  cases resolution with
  | scalar scalar =>
      have named : Scalar.ofName? name = some scalar := denotes
      exact .inl (by simp [named])
  | enum underlying => exact .inr (.inl denotes.2)
  | record record => exact .inr (.inr denotes)

private theorem knows_of_reaches (known : catalog.Knows root)
    (structs : ∀ owner decl, catalog.Reaches root owner →
      catalog.struct? owner = some decl → decl.WellFormed catalog)
    (reached : catalog.Reaches root name) : catalog.Knows name := by
  rcases Relation.ReflTransGen.cases_tail reached with
    rfl | ⟨owner, before, decl, found, uses⟩
  · exact known
  · obtain ⟨field, inside, rfl⟩ := uses
    exact (structs owner decl before found).known field inside

/-- All that can be wrong with well-formed structs is a cycle. -/
theorem Explains.circular {error : ResolveError}
    (explains : catalog.Explains root error) (known : catalog.Knows root)
    (structs : ∀ owner decl, catalog.Reaches root owner →
      catalog.struct? owner = some decl →
      decl.WellFormed catalog) : ∃ chain, error = .circularReference chain := by
  cases error with
  | circularReference chain => exact ⟨chain, rfl⟩
  | schemaNotFound name =>
      obtain ⟨reached, unknown⟩ := explains
      exact (unknown (knows_of_reaches known structs reached)).elim
  | missingStringLength owner name =>
      obtain ⟨decl, reached, found, field, inside, _, string, length⟩ :=
        explains
      obtain ⟨size, present⟩ :=
        ((structs owner decl reached found).lengths field inside).string string
      rcases length with missing | zero
      · cases missing.symm.trans present
      · cases zero.symm.trans present
  | unexpectedStringLength owner name =>
      obtain ⟨decl, reached, found, field, inside, _, other, length⟩ := explains
      have absent :=
        ((structs owner decl reached found).lengths field inside).other other
      rw [absent] at length
      cases length
  | duplicateField owner name =>
      obtain ⟨decl, reached, found, twice⟩ := explains
      have once :=
        List.nodup_iff_count_le_one.mp
          (structs owner decl reached found).distinct name
      exact (Nat.not_lt.mpr once twice).elim
  | notARecord name => exact explains.elim
  | unboundedNesting name => exact explains.elim

/-- No error speaks of a type that is accepted. -/
theorem Explains.not_accepts {error : ResolveError}
    (explains : catalog.Explains root error) : ¬ catalog.Accepts root := by
  intro accepts
  obtain ⟨known, wellFormed⟩ := accepts_iff.mp accepts
  obtain ⟨chain, rfl⟩ := explains.circular known wellFormed.structs
  obtain ⟨start, steps, walk, last, equal, _, inside⟩ := explains
  obtain ⟨rest, whole⟩ := List.head?_eq_some_iff.mp start
  have reached : catalog.Reaches root last := by
    rw [whole] at steps equal
    apply reflTransGen_of_isChain steps
    rw [equal]
    exact List.mem_append_left _ inside
  obtain ⟨before, after, rfl⟩ := List.append_of_mem inside
  rw [equal, List.append_assoc] at steps
  exact wellFormed.acyclic last reached
    (transGen_of_isChain steps.right_of_append)

end Catalog

end DataBridge
