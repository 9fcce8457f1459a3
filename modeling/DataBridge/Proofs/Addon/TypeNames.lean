import DataBridge.Addon.Module
import DataBridge.Proofs.Resolver.Content

/-!
# Names of types in a module and in its header

The walk over a resolved record meets the types that its struct reaches.  So the
names that a module keeps clear of are those that the header of a fresh resolver
defines, and the check of its objects fails at each of them.
-/

namespace DataBridge

namespace Addon

variable {catalog : Catalog} {inside : String → Prop}
  {known middle result : List String} {name : String}

/-- From known names a walk went on to names that are `inside`, each with the
types that it uses. -/
structure Walked (catalog : Catalog) (inside : String → Prop)
    (known result : List String) : Prop where
  keeps : known ⊆ result
  added : ∀ name ∈ result,
    name ∈ known ∨ inside name ∧ Scalar.ofName? name = none ∧
    ∀ inner, catalog.Uses name inner → Scalar.ofName? inner = none →
      inner ∈ result

/-- The walk has met a type, unless it is an elementary one. -/
def Met (name : String) (result : List String) : Prop :=
  Scalar.ofName? name = none → name ∈ result

theorem Walked.refl (catalog : Catalog) (inside : String → Prop)
    (known : List String) : Walked catalog inside known known :=
  ⟨List.Subset.refl known, fun _ => .inl⟩

theorem Walked.trans (first : Walked catalog inside known middle)
    (second : Walked catalog inside middle result) :
    Walked catalog inside known result where
  keeps := List.Subset.trans first.keeps second.keeps
  added name present := by
    rcases second.added name present with before | new
    · rcases first.added name before with before | ⟨within, unnamed, uses⟩
      · exact .inl before
      · exact .inr ⟨within, unnamed, fun inner use other =>
          second.keeps (uses inner use other)⟩
    · exact .inr new

private theorem walked_addEnumType {decl : EnumDecl} (here : inside name)
    (enum : catalog.enum? name = some decl) (known : List String) :
    Walked catalog inside known (addEnumType known (some name)) ∧
      name ∈ addEnumType known (some name) := by
  have unnamed := (Catalog.enum?_eq_some_iff.mp enum).1
  rw [addEnumType]
  split
  · rename_i present
    exact ⟨.refl catalog inside known, List.contains_iff_mem.mp present⟩
  · refine ⟨⟨List.subset_cons_self _ _, ?_⟩, List.mem_cons_self⟩
    intro other present
    rcases List.mem_cons.mp present with rfl | before
    · right
      refine ⟨here, unnamed, ?_⟩
      rintro inner ⟨struct, found, _⟩
      cases (Resolver.enum?_eq_none_of_struct? found).symm.trans enum
    · exact .inl before

/-- What the walk does at a member of a declared field. -/
def WalksField (catalog : Catalog) (inside : String → Prop) (field : Field) :
    Prop :=
  ∀ decl known, catalog.Makes decl field → inside decl.typeName →
    Walked catalog inside known (addTypesOf known field) ∧
      Met decl.typeName (addTypesOf known field)

private theorem walked_addFieldTypes {decls : List FieldDecl}
    {fields : List Field}
    (made : List.Forall₂ catalog.Makes decls fields)
    (within : ∀ decl ∈ decls, inside decl.typeName)
    (walks : ∀ field ∈ fields, WalksField catalog inside field)
    (known : List String) :
    Walked catalog inside known (addFieldTypes known fields) ∧
      ∀ decl ∈ decls, Met decl.typeName (addFieldTypes known fields) := by
  induction made generalizing known with
  | nil => exact ⟨.refl catalog inside known, nofun⟩
  | @cons decl field decls fields makes made induction =>
      obtain ⟨here, later⟩ := List.forall_mem_cons.mp within
      obtain ⟨first, others⟩ := List.forall_mem_cons.mp walks
      obtain ⟨walked, met⟩ := first decl known makes here
      obtain ⟨rest, behind⟩ := induction later others (addTypesOf known field)
      rw [addFieldTypes]
      refine ⟨walked.trans rest, ?_⟩
      rw [List.forall_mem_cons]
      exact ⟨fun unnamed => rest.keeps (met unnamed), behind⟩

theorem walked_addRecordTypes (byName : catalog.ByName)
    (closed : ∀ outer inner, inside outer → catalog.Uses outer inner →
      inside inner)
    {record : Record} (builds : catalog.Builds name record) (here : inside name)
    (walks : ∀ field ∈ record.fields, WalksField catalog inside field)
    (known : List String) :
    Walked catalog inside known (addRecordTypes known record) ∧
      name ∈ addRecordTypes known record := by
  obtain ⟨named, decl, struct, made⟩ := builds.struct byName
  obtain ⟨title, _, fields⟩ := record
  obtain rfl : name = title := named.symm
  rw [addRecordTypes]
  split
  · rename_i present
    exact ⟨.refl catalog inside known, List.contains_iff_mem.mp present⟩
  · have within : ∀ field ∈ decl.fields, inside field.typeName := by
      intro field part
      exact closed name field.typeName here ⟨decl, struct, field, part, rfl⟩
    obtain ⟨walked, met⟩ :=
      walked_addFieldTypes made within walks (name :: known)
    refine ⟨⟨?_, ?_⟩, walked.keeps List.mem_cons_self⟩
    · exact List.Subset.trans (List.subset_cons_self _ _) walked.keeps
    · intro other present
      rcases walked.added other present with before | new
      · -- The record's own name came first, before the types that it uses.
        rcases List.mem_cons.mp before with rfl | before
        · right
          refine ⟨here, (Catalog.struct?_eq_some_iff.mp struct).1, ?_⟩
          rintro inner ⟨again, found, field, part, rfl⟩
          cases struct.symm.trans found
          exact met field part
        · exact .inl before
      · exact .inr new

private theorem walksField (byName : catalog.ByName)
    (closed : ∀ outer inner, inside outer → catalog.Uses outer inner →
      inside inner)
    (field : Field) : WalksField catalog inside field := by
  induction field using Field.nested_induction with
  | step field induction =>
      intro decl known makes here
      have typed := makes.typed
      clear makes
      obtain ⟨_, type, _, _, _, enumName⟩ := field
      cases typed with
      | scalar named =>
          refine ⟨.refl catalog inside known, ?_⟩
          intro unnamed
          cases unnamed.symm.trans named
      | enum enumeration =>
          obtain ⟨enum, found⟩ := Option.isSome_iff_exists.mp enumeration
          obtain ⟨walked, met⟩ := walked_addEnumType here found known
          exact ⟨walked, fun _ => met⟩
      | @record record builds =>
          obtain ⟨walked, met⟩ :=
            walked_addRecordTypes byName closed builds here
              (induction record rfl) known
          exact ⟨walked, fun _ => met⟩

/-- The names of a module's types are those that its root reaches. -/
theorem mem_typeNames_iff (byName : catalog.ByName) {model : Datamodel}
    {root : String} (builds : catalog.Builds root model.root) :
    name ∈ typeNames model ↔ catalog.Reaches root name ∧ Scalar.ofName? name =
      none := by
  have closed : ∀ outer inner, catalog.Reaches root outer →
      catalog.Uses outer inner → catalog.Reaches root inner :=
    fun _ _ reached uses => reached.tail uses
  obtain ⟨walked, start⟩ := walked_addRecordTypes byName closed builds .refl
    (fun field _ => walksField byName closed field) []
  rw [typeNames, List.mem_mergeSort]
  constructor
  · intro present
    rcases walked.added name present with before | ⟨reached, unnamed, _⟩
    · cases before
    · exact ⟨reached, unnamed⟩
  · rintro ⟨reached, unnamed⟩
    induction reached with
    | refl => exact start
    | @tail outer inner reached use induction =>
        have ⟨decl, struct, _⟩ := use
        have outside := (Catalog.struct?_eq_some_iff.mp struct).1
        rcases walked.added outer (induction outside) with before | ⟨_, _, each⟩
        · cases before
        · exact each inner use unnamed

theorem checkIdentifiers_eq_ok_iff {model : Datamodel} :
    checkIdentifiers model = .ok () ↔
      ∀ identifier ∈ identifiers model, identifier ∉ typeNames model := by
  unfold checkIdentifiers
  split
  · rename_i identifier found
    constructor
    · exact nofun
    · intro apart
      have taken : (typeNames model).contains identifier = true :=
        List.find?_some found
      exact (apart identifier (List.mem_of_find?_eq_some found)
        (List.contains_iff_mem.mp taken)).elim
  · rename_i none
    simpa [List.find?_eq_none] using none

/-- A module without a collision is made when its functions are. -/
theorem exists_source {model : Datamodel} {functions : List Function}
    (options : Options)
    (apart : ∀ identifier ∈ identifiers model,
      identifier ∉ addRecordTypes [] model.root)
    (built : Addon.functions model = .ok functions) :
    ∃ source, lines model options = .ok source ∧ text model options =
      .ok (Source.render source) := by
  have passed : checkIdentifiers model = .ok () := by
    apply checkIdentifiers_eq_ok_iff.mpr
    intro identifier listed taken
    exact apart identifier listed (List.mem_mergeSort.mp taken)
  have made : lines model options =
      .ok (preamble model options ++ functionLines functions ++
          hook model) := by
    rw [lines, passed, ok_bind, built]
    rfl
  refine ⟨_, made, ?_⟩
  rw [text, made]
  rfl

end Addon

namespace Header

def typeNames (resolver : Resolver) : List String :=
  (declarations resolver).map Declaration.name

theorem typeNames_eq {stack : List String} {resolver : Resolver}
    (tidy : Resolver.Tidy stack resolver) :
    typeNames resolver = resolver.knownTypes := by
  rw [Resolver.knownTypes, ← tidy.names_of_recordsInOrder, typeNames,
    declarations, List.map_append, List.map_map, List.map_map]
  rfl

/-- The header of a fresh resolver defines the types that the root reaches. -/
theorem mem_typeNames_iff {catalog : Catalog} (byName : catalog.ByName)
    {root name : String} {record : Record}
    (resolved : (Resolver.resolve catalog root {}).1 = .ok (.record record)) :
    name ∈ typeNames (Resolver.resolve catalog root {}).2 ↔
      catalog.Reaches root name ∧ Scalar.ofName? name = none := by
  have reachable :
      Resolver.Reachable catalog
          (Resolver.afterCall catalog {} (.resolve root)) :=
    .call .fresh _
  have holding := Resolver.fresh_holding byName root
  have known := (Resolver.Reachable.fresh.root_mem_order byName resolved).2
  rw [Resolver.afterCall] at reachable
  rw [typeNames_eq (reachable.tidy byName)]
  constructor
  · intro present
    rcases List.mem_append.mp present with enumeration | finished
    · obtain ⟨entry, inside, rfl⟩ := List.mem_map.mp enumeration
      obtain ⟨reached, enum⟩ := holding.enums entry inside
      exact ⟨reached, (Catalog.enum?_eq_some_iff.mp enum).1⟩
    · obtain ⟨record, inside, struct⟩ :=
        reachable.struct_of_mem_order byName finished
      obtain ⟨decl, struct⟩ := Option.isSome_iff_exists.mp struct
      exact ⟨holding.records _ inside,
        (Catalog.struct?_eq_some_iff.mp struct).1⟩
  · rintro ⟨reached, unnamed⟩
    exact reachable.mem_knownTypes byName known reached unnamed

end Header

/-- With a fresh resolver, the types that a module keeps clear of are those that
its header defines. -/
theorem mem_typeNames_iff_header {catalog : Catalog} (byName : catalog.ByName)
    {root : String} {model : Datamodel} {resolver : Resolver}
    (resolved : Resolver.resolveDatamodel catalog root {} =
      (.ok model, resolver)) {name : String} :
    name ∈ Addon.typeNames model ↔ name ∈ Header.typeNames resolver := by
  obtain ⟨record, _⟩ :=
    Resolver.resolveDatamodel_eq_ok_iff.mp (congrArg Prod.fst resolved)
  have memory : resolver = (Resolver.resolve catalog root {}).2 := by
    rw [← Resolver.resolveDatamodel_snd, resolved]
  rw [Addon.mem_typeNames_iff byName
    (Resolver.Reachable.fresh.builds_of_resolve byName record),
    memory, Header.mem_typeNames_iff byName record]

end DataBridge
