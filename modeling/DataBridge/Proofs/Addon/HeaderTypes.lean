import DataBridge.Proofs.Addon.TypeNames
import DataBridge.Proofs.Header.Complete

/-!
# The types that a module keeps clear of

A module collects the names of types by a walk over its root, which turns back
at a name that it has met.  The header lists what the resolver has met on its
own way.  With a fresh resolver both are the same names, each once, and they are
the names that are read in the text of the header.
-/

namespace DataBridge

namespace Addon

variable {known : List String}

private theorem addEnumType_nodup (distinct : known.Nodup)
    (enumName : Option String) :
    (addEnumType known enumName).Nodup := by
  unfold addEnumType
  split
  · split
    · exact distinct
    · rename_i new
      exact distinct.cons fun inside => new (List.contains_iff_mem.mpr inside)
  · exact distinct

private theorem addFieldTypes_nodup {fields : List Field}
    (each : ∀ field ∈ fields,
      ∀ known : List String, known.Nodup → (addTypesOf known field).Nodup)
    (distinct : known.Nodup) : (addFieldTypes known fields).Nodup := by
  induction fields generalizing known with
  | nil => exact distinct
  | cons field rest induction =>
      obtain ⟨first, later⟩ := List.forall_mem_cons.mp each
      exact induction later (first known distinct)

theorem addRecordTypes_nodup {record : Record}
    (each : ∀ field ∈ record.fields, ∀ known : List String, known.Nodup →
      (addTypesOf known field).Nodup)
    (distinct : known.Nodup) : (addRecordTypes known record).Nodup := by
  obtain ⟨name, _, fields⟩ := record
  rw [addRecordTypes]
  split
  · exact distinct
  · rename_i new
    apply addFieldTypes_nodup each
    exact distinct.cons fun inside => new (List.contains_iff_mem.mpr inside)

private theorem addTypesOf_nodup (field : Field) (known : List String)
    (distinct : known.Nodup) : (addTypesOf known field).Nodup := by
  induction field using Field.nested_induction generalizing known with
  | step field induction =>
      obtain ⟨_, type, _, _, _, enumName⟩ := field
      have enum := addEnumType_nodup distinct enumName
      cases type with
      | leaf leaf => exact enum
      | record record => exact addRecordTypes_nodup (induction record rfl) enum

private theorem typeNames_nodup (model : Datamodel) :
    (typeNames model).Nodup := by
  have walked : (addRecordTypes [] model.root).Nodup :=
    addRecordTypes_nodup (fun field _ => addTypesOf_nodup field) List.nodup_nil
  exact (List.mergeSort_perm _ _).nodup_iff.mpr walked

end Addon

/-- With a fresh resolver, the types that a module keeps clear of are those that
the resolver has met, and those that its header defines, each once.  Where the
names of the catalog can be read they are also what is read in the header. -/
theorem typeNames_perm_header {catalog : Catalog} (byName : catalog.ByName)
    {root : String} {model : Datamodel} {resolver : Resolver}
    (resolved : Resolver.resolveDatamodel catalog root {} =
      (.ok model, resolver)) :
    (Addon.typeNames model).Perm
      (resolver.enums.map Prod.fst ++ resolver.order) ∧
        (Addon.typeNames model).Perm
          ((Header.declarations resolver).map Header.Declaration.name) ∧
      (catalog.Spelled → ∀ sourceFile, ∃ body types,
        Header.text model resolver sourceFile =
          Header.banner sourceFile ++ body ∧
          Header.read? body = some types ∧
          (Addon.typeNames model).Perm (types.map Header.Typedef.name)) := by
  have reachable : Resolver.Reachable catalog resolver := by
    have after : Resolver.afterCall catalog {} (.resolveDatamodel root) =
        resolver :=
      congrArg Prod.snd resolved
    exact after ▸ .call .fresh _
  have tidy := reachable.tidy byName
  have known : Header.typeNames resolver = resolver.knownTypes :=
    Header.typeNames_eq tidy
  have header : (Addon.typeNames model).Perm (Header.typeNames resolver) := by
    rw [List.perm_ext_iff_of_nodup (Addon.typeNames_nodup model)
      (known ▸ reachable.knownTypes_nodup byName)]
    exact fun name => mem_typeNames_iff_header byName resolved
  have met : (Addon.typeNames model).Perm resolver.knownTypes := known ▸ header
  refine ⟨met, header, ?_⟩
  intro spelled sourceFile
  obtain ⟨record, title⟩ :=
    Resolver.resolveDatamodel_eq_ok_iff.mp (congrArg Prod.fst resolved)
  obtain ⟨_, decl, struct, _⟩ :=
    (Resolver.Reachable.fresh.builds_of_resolve byName record).struct byName
  have named := (Catalog.struct?_spelled spelled byName struct).1
  obtain ⟨body, text, read⟩ := Header.exists_read? (title ▸ named.oneLine)
    (reachable.readable byName spelled) sourceFile
  refine ⟨body, _, text, read, ?_⟩
  have names : resolver.typedefs.map Header.Typedef.name =
      resolver.knownTypes :=
    tidy.names_of_typedefs
  exact names ▸ met

/-- A yard with a crane and a cart, which have a motor in common.  The mode of
the motor is private. -/
def yardCatalog : Catalog :=
  .ofList [
    { name := "Mode",
      kind := .enum { variants := [{ name := "Idle" }, { name := "Jog" }] } },
    { name := "Motor", kind := .struct { fields := [
      { name := "speed", typeName := "REAL" },
      { name := "mode", typeName := "Mode", isPrivate := true }] } },
    { name := "Crane",
      kind :=
        .struct { fields := [{ name := "hoist", typeName := "Motor" }] } },
    { name := "Cart", kind := .struct { fields := [
      { name := "wheels", typeName := "Motor", arraySize := 4,
        isPrivate := true }] } },
    { name := "Yard", kind := .struct { fields := [
      { name := "cart", typeName := "Cart" },
      { name := "crane", typeName := "Crane" }] } }]

theorem yardCatalog_spelled : yardCatalog.Spelled := by
  intro entry inside
  obtain ⟨definition, listed, rfl⟩ := List.mem_map.mp inside
  simp only [List.mem_cons, List.not_mem_nil, or_false] at listed
  rcases listed with rfl | structs
  · exact ⟨by decide, nofun, by rintro _ ⟨⟩; decide⟩
  · rcases structs with rfl | rfl | rfl | rfl
    all_goals exact ⟨by decide, by rintro _ ⟨⟩; decide, nofun⟩

theorem yard_typeNames :
    ∃ model resolver body types, yardCatalog.ByName ∧ yardCatalog.Spelled ∧
      Resolver.resolveDatamodel yardCatalog "Yard" {} = (.ok model, resolver) ∧
      (Addon.typeNames model).Perm ["Mode", "Motor", "Cart", "Crane", "Yard"] ∧
      Header.text model resolver "yard.yaml" =
        Header.banner "yard.yaml" ++ body ∧
      Header.read? body = some types ∧
      (Addon.typeNames model).Perm (types.map Header.Typedef.name) := by
  have byName : yardCatalog.ByName := Catalog.byName_ofList _
  have resolved : ∃ model resolver,
      Resolver.resolveDatamodel yardCatalog "Yard" {} = (.ok model, resolver) ∧
        resolver.enums.map Prod.fst ++ resolver.order =
          ["Mode", "Motor", "Cart", "Crane", "Yard"] := ⟨_, _, rfl, rfl⟩
  obtain ⟨model, resolver, resolved, listed⟩ := resolved
  obtain ⟨met, -, written⟩ := typeNames_perm_header byName resolved
  obtain ⟨body, types, text, read, same⟩ :=
    written yardCatalog_spelled "yard.yaml"
  exact ⟨model, resolver, body, types, byName, yardCatalog_spelled, resolved,
    listed ▸ met, text, read, same⟩

end DataBridge
