import DataBridge.Header
import DataBridge.Proofs.Resolver.Upkeep

/-!
# Schemas that differ in comments

A comment decides how a member takes part in the exchange, and it is kept with
the member; no name is looked up for it.  So schemas that differ in nothing but
the comments of fields are resolved step by step alike, and what is declared
for them differs in the comments alone.
-/

namespace DataBridge

section Uncommented

def FieldDecl.uncommented (decl : FieldDecl) : FieldDecl :=
  { decl with comment := none }

theorem FieldDecl.eq_of_uncommented {decl also : FieldDecl}
    (same : decl.uncommented = also.uncommented) :
    ∃ comment, also = { decl with comment } := by
  cases decl
  cases also
  cases same
  exact ⟨_, rfl⟩

/-- The definition without the comments of its fields. -/
def TypeDef.uncommented : TypeDef → TypeDef
  | { name, kind := .struct decl } =>
      { name, kind := .struct { decl with
          fields := decl.fields.map FieldDecl.uncommented } }
  | { name, kind := .enum decl } => { name, kind := .enum decl }

/-- The catalog without the comments of fields. -/
def Catalog.uncommented (catalog : Catalog) : Catalog :=
  ⟨catalog.entries.map fun entry => (entry.1, entry.2.uncommented)⟩

theorem Catalog.find?_uncommented (catalog : Catalog) (name : String) :
    catalog.uncommented.find? name =
      (catalog.find? name).map TypeDef.uncommented :=
  lookup_map_value catalog.entries TypeDef.uncommented name

end Uncommented

section Outlines

/-- What a declaration shows of the type: of a record its name. -/
def FieldType.outlined : FieldType → FieldType
  | .leaf kind => .leaf kind
  | .record whole => .record { name := whole.name, fields := [] }

/-- What a declaration shows of the member, without its comment. -/
def Field.outlined (field : Field) : Field :=
  { field with type := field.type.outlined, flags := {}, comment := none }

/-- What a declaration shows of the record, without the comments of members. -/
def Record.outlined (record : Record) : Record :=
  { record with fields := record.fields.map Field.outlined }

/-- What declarations show of a resolution. -/
def Resolution.outlined : Resolution → Resolution
  | .scalar kind => .scalar kind
  | .enum underlying => .enum underlying
  | .record whole => .record whole.outlined

theorem Resolution.eq_or_records {one other : Resolution}
    (alike : one.outlined = other.outlined) : one = other ∨
      ∃ record also, one = .record record ∧ other = .record also ∧
        record.outlined = also.outlined := by
  cases one <;> cases other
  case record.record record also =>
    exact .inr ⟨record, also, rfl, rfl, Resolution.record.inj alike⟩
  case scalar.scalar => exact .inl alike
  case enum.enum => exact .inl alike
  all_goals cases alike

namespace Resolver

/-- What declarations show of what the resolver has met. -/
def outlined (resolver : Resolver) : Resolver :=
  { resolver with records := resolver.records.map fun entry =>
    (entry.1, entry.2.outlined) }

variable {resolver : Resolver} {name : String}

theorem record?_outlined :
    resolver.outlined.record? name =
      (resolver.record? name).map Record.outlined := by
  unfold record? outlined
  induction resolver.records with
  | nil => rfl
  | cons entry rest induction =>
      rw [List.map_cons, List.lookup_cons, List.lookup_cons]
      cases name == entry.1 with
      | true => rfl
      | false => exact induction

theorem recordsInOrder_outlined :
    resolver.outlined.recordsInOrder =
      resolver.recordsInOrder.map Record.outlined := by
  have found : resolver.outlined.record? = fun name =>
      (resolver.record? name).map Record.outlined :=
    funext fun _ => record?_outlined
  rw [recordsInOrder, recordsInOrder, List.map_filterMap, found]
  rfl

theorem noteRecord_outlined (record : Record) :
    (noteRecord record resolver).outlined =
      noteRecord record.outlined resolver.outlined :=
  rfl

theorem noteEnum_outlined (decl : EnumDecl) :
    (noteEnum name decl resolver).outlined =
      noteEnum name decl resolver.outlined := by
  unfold noteEnum
  split <;> rename_i known
  · exact (if_pos known).symm
  · exact (if_neg known).symm

end Resolver

end Outlines

/-- Two outcomes of resolving show the same, failures included. -/
def Resolving.Alike {α β : Type} (shown : α → β)
    (one other : Except ResolveError α × Resolver) : Prop :=
  one.1.map shown = other.1.map shown ∧ one.2.outlined = other.2.outlined

namespace Resolving.Alike

variable {α β γ δ : Type} {shown : α → γ} {last : β → δ}
  {resolver second : Resolver}

theorem pure {value also : α} (same : shown value = shown also)
    (states : resolver.outlined = second.outlined) :
    Alike shown ((Pure.pure value : Resolving α) resolver)
      ((Pure.pure also : Resolving α) second) :=
  ⟨congrArg Except.ok same, states⟩

theorem throw {error : ResolveError}
    (states : resolver.outlined = second.outlined) :
    Alike shown ((throw error : Resolving α) resolver)
      ((throw error : Resolving α) second) :=
  ⟨rfl, states⟩

theorem lift {result also : Except ResolveError α}
    (same : result.map shown = also.map shown)
    (states : resolver.outlined = second.outlined) :
    Alike shown ((liftM result : Resolving α) resolver)
      ((liftM also : Resolving α) second) := by
  cases result <;> cases also
  · cases same
    exact ⟨rfl, states⟩
  · cases same
  · cases same
  · exact ⟨same, states⟩

theorem bind {body also : Resolving α} {next later : α → Resolving β}
    (first : Alike shown (body resolver) (also second))
    (onward : ∀ value otherValue after afterwards,
      shown value = shown otherValue →
      after.outlined = afterwards.outlined →
        Alike last (next value after) (later otherValue afterwards)) :
    Alike last ((body >>= next) resolver) ((also >>= later) second) := by
  rw [stateful_bind, stateful_bind]
  revert first
  rcases body resolver with ⟨error | value, after⟩ <;>
    rcases also second with ⟨otherError | otherValue, afterwards⟩ <;>
    rintro ⟨results, states⟩
  · cases results
    exact ⟨rfl, states⟩
  · cases results
  · cases results
  · exact onward value otherValue after afterwards
      (Except.ok.inj results) states

end Resolving.Alike

namespace Resolver

open Resolving (Alike)

section Members

variable {decl also : FieldDecl} {resolution other : Resolution}

theorem field_outlined (owner : String) (decl : FieldDecl)
    (resolution : Resolution) :
    (field owner decl resolution).map Field.outlined =
      ((fieldType owner decl resolution).map FieldType.outlined).map fun type =>
        { name := decl.name, type, arraySize := decl.arraySize,
          enumName := enumName decl resolution } := by
  rw [field]
  cases fieldType owner decl resolution <;> rfl

private theorem fieldType_alike (alike : resolution.outlined = other.outlined)
    (owner : String) (comment : Option String) :
    (fieldType owner decl resolution).map FieldType.outlined =
      (fieldType owner { decl with comment } other).map FieldType.outlined := by
  obtain rfl | ⟨record, also, rfl, rfl, same⟩ := Resolution.eq_or_records alike
  · rfl
  · have name : record.outlined.name = also.outlined.name := by rw [same]
    have types : (FieldType.record record).outlined =
        (FieldType.record also).outlined :=
      congrArg (fun name => FieldType.record { name, fields := [] }) name
    rw [fieldType, fieldType]
    split
    · rfl
    · exact congrArg Except.ok types

private theorem enumName_alike (alike : resolution.outlined = other.outlined)
    (comment : Option String) :
    enumName decl resolution = enumName { decl with comment } other := by
  obtain rfl | ⟨record, also, rfl, rfl, _⟩ := Resolution.eq_or_records alike
  · rfl
  · rfl

private theorem field_alike (same : decl.uncommented = also.uncommented)
    (alike : resolution.outlined = other.outlined) (owner : String) :
    (field owner decl resolution).map Field.outlined =
      (field owner also other).map Field.outlined := by
  obtain ⟨comment, rfl⟩ := FieldDecl.eq_of_uncommented same
  rw [field_outlined, field_outlined, fieldType_alike alike owner comment,
    enumName_alike alike comment]

private theorem fieldsWith_alike {one two : String → Resolving Resolution}
    (resolves : ∀ name (resolver second : Resolver),
      resolver.outlined = second.outlined →
      Alike Resolution.outlined (one name resolver) (two name second))
    (owner : String) (seen : List String) {decls others : List FieldDecl}
    (same : decls.map FieldDecl.uncommented = others.map FieldDecl.uncommented)
    {resolver second : Resolver}
    (states : resolver.outlined = second.outlined) :
    Alike (List.map Field.outlined) (fieldsWith one owner seen decls resolver)
      (fieldsWith two owner seen others second) := by
  induction decls generalizing seen others resolver second with
  | nil =>
      cases List.map_eq_nil_iff.mp same.symm
      exact .pure rfl states
  | cons decl rest induction =>
      cases others with
      | nil => cases same
      | cons also others =>
          obtain ⟨here, later⟩ := List.cons.inj same
          obtain ⟨comment, rfl⟩ := FieldDecl.eq_of_uncommented here
          rw [fieldsWith, fieldsWith]
          dsimp only
          split
          · exact .throw states
          · apply Alike.bind (resolves decl.typeName _ _ states)
            intro resolution other after afterwards alike states
            apply Alike.bind (.lift (field_alike here alike owner) states)
            intro member otherMember after afterwards shown states
            apply Alike.bind (induction (decl.name :: seen) later states)
            intro members otherMembers after afterwards shownRest states
            apply Alike.pure _ states
            rw [List.map_cons, List.map_cons, shown, shownRest]

end Members

private theorem inside_alike {α β : Type} {shown : α → β}
    {body also : Resolving α}
    {name : String} {resolver second : Resolver}
    (states : resolver.outlined = second.outlined)
    (bodies : ∀ resolver second : Resolver,
      resolver.outlined = second.outlined →
      Alike shown (body resolver) (also second)) :
    Alike shown (inside name body resolver) (inside name also second) := by
  have entered :
      outlined { resolver with visiting := resolver.visiting ++ [name] } =
        outlined { second with visiting := second.visiting ++ [name] } :=
    congrArg (fun known : Resolver =>
      { known with visiting := known.visiting ++ [name] }) states
  obtain ⟨results, left⟩ := bodies _ _ entered
  exact ⟨results,
    congrArg (fun known : Resolver =>
      { known with visiting := known.visiting.dropLast }) left⟩

section Catalogs

variable {one other : Catalog} {resolver second : Resolver} {key name : String}
  {depth : Nat}

theorem record?_alike (states : resolver.outlined = second.outlined)
    (key : String) :
    (resolver.record? key).map Record.outlined =
      (second.record? key).map Record.outlined := by
  rw [← record?_outlined, ← record?_outlined, states]

theorem visiting_alike (states : resolver.outlined = second.outlined) :
    resolver.visiting = second.visiting :=
  show resolver.outlined.visiting = second.outlined.visiting by rw [states]

theorem Enters.alike (enters : Enters key resolver)
    (states : resolver.outlined = second.outlined) : Enters key second where
  unnamed := enters.unnamed
  unknown := by simpa [enters.unknown] using (record?_alike states key).symm
  outside := visiting_alike states ▸ enters.outside

theorem find?_alike (same : one.uncommented = other.uncommented)
    (key : String) :
    (one.find? key).map TypeDef.uncommented =
      (other.find? key).map TypeDef.uncommented := by
  rw [← Catalog.find?_uncommented, ← Catalog.find?_uncommented, same]

private theorem missing_alike (same : one.uncommented = other.uncommented)
    (absent : one.find? key = none) : other.find? key = none := by
  simpa [absent] using (find?_alike same key).symm

private theorem enum_alike (same : one.uncommented = other.uncommented)
    {decl : EnumDecl} (found : one.find? key = some ⟨name, .enum decl⟩) :
    other.find? key = some ⟨name, .enum decl⟩ := by
  have alike := find?_alike same key
  rw [found] at alike
  obtain ⟨⟨also, kind⟩, there, equal⟩ := Option.map_eq_some_iff.mp alike.symm
  cases kind with
  | struct otherDecl => cases equal
  | enum otherDecl =>
      cases equal
      exact there

theorem struct_alike (same : one.uncommented = other.uncommented)
    {decl : StructDecl} (found : one.find? key = some ⟨name, .struct decl⟩) :
    ∃ also : StructDecl, other.find? key = some ⟨name, .struct also⟩ ∧
      decl.comment = also.comment ∧
      decl.fields.map FieldDecl.uncommented =
        also.fields.map FieldDecl.uncommented := by
  have alike := find?_alike same key
  rw [found] at alike
  obtain ⟨⟨also, kind⟩, there, equal⟩ := Option.map_eq_some_iff.mp alike.symm
  cases kind with
  | enum otherDecl => cases equal
  | struct otherDecl =>
      injection equal with names kinds
      injection kinds with decls
      injection decls with comments fields
      subst names
      exact ⟨otherDecl, there, comments.symm, fields.symm⟩

theorem membersWithin_alike {decl also : StructDecl} (name : String)
    (resolves : ∀ key (resolver second : Resolver),
      resolver.outlined = second.outlined →
        Alike Resolution.outlined (resolveWithin one depth key resolver)
          (resolveWithin other depth key second))
    (fields : decl.fields.map FieldDecl.uncommented =
      also.fields.map FieldDecl.uncommented)
    (states : resolver.outlined = second.outlined) :
    Alike (List.map Field.outlined) (membersWithin one depth name decl resolver)
      (membersWithin other depth name also second) :=
  inside_alike states fun _ _ entered =>
    fieldsWith_alike resolves name [] fields entered

/-- Catalogs that differ in comments alone resolve every name alike. -/
theorem resolveWithin_alike (same : one.uncommented = other.uncommented)
    (depth : Nat) (key : String) (resolver second : Resolver)
    (states : resolver.outlined = second.outlined) :
    Alike Resolution.outlined (resolveWithin one depth key resolver)
      (resolveWithin other depth key second) := by
  induction depth generalizing key resolver second with
  | zero => exact .throw states
  | succ depth induction =>
      obtain ⟨result, after, runs⟩ := exists_runs one depth key resolver
      rw [runs.eq]
      cases runs with
      | scalar named =>
          rw [(Runs.scalar named).eq]
          exact ⟨rfl, states⟩
      | @known record unnamed found =>
          have alike := record?_alike states key
          rw [found] at alike
          obtain ⟨also, there, equal⟩ := Option.map_eq_some_iff.mp alike.symm
          rw [(Runs.known unnamed there).eq]
          exact ⟨congrArg (Except.ok ∘ Resolution.record) equal.symm, states⟩
      | circular unnamed unknown again =>
          have absent : second.record? key = none := by
            simpa [unknown] using (record?_alike states key).symm
          rw [(Runs.circular unnamed absent (visiting_alike states ▸ again)).eq]
          exact ⟨by rw [visiting_alike states], states⟩
      | missing enters absent =>
          rw [(Runs.missing (enters.alike states)
            (missing_alike same absent)).eq]
          exact ⟨rfl, states⟩
      | enum enters found =>
          rw [(Runs.enum (enters.alike states) (enum_alike same found)).eq]
          refine ⟨rfl, ?_⟩
          rw [noteEnum_outlined, noteEnum_outlined, states]
      | @failed name decl error after enters found members =>
          obtain ⟨also, there, _, fields⟩ := struct_alike same found
          have alike := membersWithin_alike name induction fields states
          rw [members] at alike
          rcases ran : membersWithin other depth name also second with
            ⟨otherError | _, afterwards⟩
          all_goals
            rw [ran] at alike
            obtain ⟨results, left⟩ := alike
            cases results
          rw [(Runs.failed (enters.alike states) there ran).eq]
          exact ⟨rfl, left⟩
      | @struct name decl fields after enters found members =>
          obtain ⟨also, there, comment, declared⟩ := struct_alike same found
          have alike := membersWithin_alike name induction declared states
          rw [members] at alike
          rcases ran : membersWithin other depth name also second with
            ⟨_ | otherFields, afterwards⟩
          all_goals
            rw [ran] at alike
            obtain ⟨results, left⟩ := alike
          · cases results
          · have shown : (recordOf name decl fields).outlined =
                (recordOf name also otherFields).outlined := by
              rw [recordOf, recordOf, Record.outlined, Record.outlined, comment,
                Except.ok.inj results]
            rw [(Runs.struct (enters.alike states) there ran).eq]
            refine ⟨congrArg (Except.ok ∘ Resolution.record) shown, ?_⟩
            rw [noteRecord_outlined, noteRecord_outlined, shown, left]

end Catalogs

theorem resolveDatamodel_alike {one other : Catalog}
    (same : one.uncommented = other.uncommented) (name : String)
    {resolver second : Resolver}
    (states : resolver.outlined = second.outlined) :
    Alike Datamodel.name (resolveDatamodel one name resolver)
      (resolveDatamodel other name second) := by
  have bound : depthBound one = depthBound other := by
    have size := congrArg (fun catalog : Catalog => catalog.entries.length) same
    simp only [Catalog.uncommented, List.length_map] at size
    rw [depthBound, depthBound, size]
  have resolved : Alike Resolution.outlined (resolve one name resolver)
      (resolve other name second) := by
    rw [resolve, resolve, bound]
    exact resolveWithin_alike same _ name resolver second states
  apply Alike.bind resolved
  intro resolution also after afterwards alike states
  obtain rfl | ⟨record, otherRecord, rfl, rfl, _⟩ :=
    Resolution.eq_or_records alike
  · cases resolution with
    | record root => exact .pure rfl states
    | scalar kind => exact .throw states
    | enum underlying => exact .throw states
  · exact .pure rfl states

end Resolver

end DataBridge
