import DataBridge.Proofs.Resolver.Search

/-!
# The memory of a resolver

A resolver finishes the parts of a record before the record, and it forgets
nothing.  So its finished records stand in an order in which every record comes
behind its parts, also when a search breaks off in the middle: what is finished
by then stays, and the structs that the search was inside of are left.
-/

namespace DataBridge

namespace Resolver

variable {catalog : Catalog} {resolver before after : Resolver}
  {stack : List String} {name owner : String}

/-- What a later memory keeps of an earlier one. -/
structure Grows (before after : Resolver) : Prop where
  records : before.records <:+ after.records
  order : before.order <+: after.order
  enums : before.enums <+: after.enums

theorem Grows.refl (resolver : Resolver) : Grows resolver resolver :=
  ⟨List.suffix_rfl, List.prefix_rfl, List.prefix_rfl⟩

theorem Grows.trans {middle : Resolver} (first : Grows before middle)
    (second : Grows middle after) : Grows before after :=
  ⟨first.records.trans second.records, first.order.trans second.order,
    first.enums.trans second.enums⟩

theorem grows_visiting (resolver : Resolver) (names : List String) :
    Grows resolver { resolver with visiting := names } :=
  ⟨List.suffix_rfl, List.prefix_rfl, List.prefix_rfl⟩

theorem grows_noteEnum (resolver : Resolver) (name : String) (decl : EnumDecl) :
    Grows resolver (resolver.noteEnum name decl) := by
  unfold noteEnum
  split
  · exact .refl resolver
  · exact ⟨List.suffix_rfl, List.prefix_rfl, List.prefix_append _ _⟩

theorem grows_noteRecord (resolver : Resolver) (record : Record) :
    Grows resolver (resolver.noteRecord record) :=
  ⟨List.suffix_cons _ _, List.prefix_append _ _, List.prefix_rfl⟩

theorem records_noteEnum (resolver : Resolver) (name : String)
    (decl : EnumDecl) :
    (resolver.noteEnum name decl).records = resolver.records := by
  unfold noteEnum
  split
  · rfl
  · rfl

theorem mem_enums_noteEnum (resolver : Resolver) (name : String)
    (decl : EnumDecl) :
    name ∈ (resolver.noteEnum name decl).enums.map Prod.fst := by
  unfold noteEnum
  split
  · rename_i known
    obtain ⟨entry, inside, same⟩ := List.any_eq_true.mp known
    exact List.mem_map.mpr ⟨entry, inside, by simpa using same⟩
  · simp

/-- The memory holds what a name stands for. -/
def Holds (resolver : Resolver) (name : String) : Resolution → Prop
  | .scalar _ => True
  | .enum _ => name ∈ resolver.enums.map Prod.fst
  | .record record => (record.name, record) ∈ resolver.records

/-- The memory holds the record, or the enumeration, that a member is made
of. -/
structure Backs (resolver : Resolver) (member : Field) : Prop where
  record : ∀ inner, member.type = .record inner →
    (inner.name, inner) ∈ resolver.records
  enum : ∀ name, member.enumName = some name →
    name ∈ resolver.enums.map Prod.fst

theorem Backs.grow {member : Field} (backs : before.Backs member)
    (grows : Grows before after) : after.Backs member where
  record inner typed := grows.records.subset (backs.record inner typed)
  enum name declared :=
    List.map_subset Prod.fst grows.enums.subset (backs.enum name declared)

theorem type_of_field {decl : FieldDecl} {resolution : Resolution}
    {member : Field} (resolved : field owner decl resolution = .ok member) :
    (∀ inner, member.type = .record inner → resolution = .record inner) ∧
      member.enumName = enumName decl resolution := by
  obtain ⟨type, typed, same⟩ := bind_eq_ok_iff.mp resolved
  cases same
  refine ⟨?_, rfl⟩
  rintro inner rfl
  unfold fieldType at typed
  split at typed
  · split at typed <;> cases typed
  · split at typed
    · cases typed
    · split at typed <;> cases typed
  · split at typed <;> cases typed
  · split at typed <;> cases typed
    rfl

private theorem backs_of_field {decl : FieldDecl} {resolution : Resolution}
    {member : Field} (holds : resolver.Holds decl.typeName resolution)
    (resolved : field owner decl resolution = .ok member) :
    resolver.Backs member := by
  obtain ⟨typed, declared⟩ := type_of_field resolved
  constructor
  · intro inner isRecord
    rw [typed inner isRecord] at holds
    exact holds
  · intro name isEnum
    rw [declared] at isEnum
    cases resolution with
    | enum underlying =>
        cases isEnum
        exact holds
    | scalar scalar => cases isEnum
    | record record => cases isEnum

/-- A memory in the middle of a search: the structs of the stack are not
finished, and every finished record stands on older ones. -/
structure Tidy (stack : List String) (resolver : Resolver) : Prop where
  visiting : resolver.visiting = stack
  outside : ∀ name ∈ stack, name ∉ resolver.order
  order : resolver.order = (resolver.records.map Prod.fst).reverse
  distinct : resolver.order.Nodup
  named : ∀ entry ∈ resolver.records, entry.1 = entry.2.name
  founded : ∀ entry older, entry :: older <:+ resolver.records →
    ∀ member ∈ entry.2.fields,
    ∀ inner, member.type = .record inner → (inner.name, inner) ∈ older
  backed : ∀ entry ∈ resolver.records,
    ∀ member ∈ entry.2.fields, resolver.Backs member

theorem Tidy.fresh : Tidy [] {} where
  visiting := rfl
  outside := nofun
  order := rfl
  distinct := List.nodup_nil
  named := nofun
  founded entry older suffix := by cases List.suffix_nil.mp suffix
  backed := nofun

theorem Tidy.mem_order_iff (tidy : Tidy stack resolver) :
    name ∈ resolver.order ↔ (resolver.record? name).isSome := by
  rw [tidy.order, List.mem_reverse, ← Option.ne_none_iff_isSome, record?, ne_eq,
    List.lookup_eq_none_iff]
  simp only [List.mem_map, bne_iff_ne, ne_eq, not_forall, not_not]
  constructor
  · rintro ⟨entry, inside, rfl⟩
    exact ⟨entry, inside, rfl⟩
  · rintro ⟨entry, inside, same⟩
    exact ⟨entry, inside, same.symm⟩

theorem Tidy.enter (tidy : Tidy stack resolver)
    (fresh : name ∉ resolver.order) :
    Tidy (stack ++ [name])
      { resolver with visiting := resolver.visiting ++ [name] } where
  visiting := by rw [tidy.visiting]
  outside outer inside := by
    rcases List.mem_append.mp inside with before | here
    · exact tidy.outside outer before
    · cases List.mem_singleton.mp here
      exact fresh
  order := tidy.order
  distinct := tidy.distinct
  named := tidy.named
  founded := tidy.founded
  backed entry inside member part :=
    (tidy.backed entry inside member part).grow (grows_visiting resolver _)

theorem Tidy.leave (tidy : Tidy (stack ++ [name]) resolver) :
    Tidy stack { resolver with visiting := resolver.visiting.dropLast } where
  visiting := by rw [tidy.visiting, List.dropLast_concat]
  outside outer inside := tidy.outside outer (List.mem_append_left _ inside)
  order := tidy.order
  distinct := tidy.distinct
  named := tidy.named
  founded := tidy.founded
  backed entry inside member part :=
    (tidy.backed entry inside member part).grow (grows_visiting resolver _)

theorem Tidy.noteEnum (tidy : Tidy stack resolver) (name : String)
    (decl : EnumDecl) : Tidy stack (resolver.noteEnum name decl) := by
  have grows := grows_noteEnum resolver name decl
  have records := records_noteEnum resolver name decl
  have same : (resolver.noteEnum name decl).visiting = resolver.visiting ∧
      (resolver.noteEnum name decl).order = resolver.order := by
    unfold Resolver.noteEnum
    split
    · exact ⟨rfl, rfl⟩
    · exact ⟨rfl, rfl⟩
  obtain ⟨visiting, order⟩ := same
  constructor
  · rw [visiting, tidy.visiting]
  · rw [order]
    exact tidy.outside
  · rw [order, records, tidy.order]
  · rw [order]
    exact tidy.distinct
  · rw [records]
    exact tidy.named
  · rw [records]
    exact tidy.founded
  · rw [records]
    exact fun entry inside member part =>
      (tidy.backed entry inside member part).grow grows

theorem Tidy.noteRecord (tidy : Tidy stack resolver) {record : Record}
    (fresh : record.name ∉ resolver.order) (outside : record.name ∉ stack)
    (backs : ∀ member ∈ record.fields, resolver.Backs member) :
    Tidy stack (resolver.noteRecord record) where
  visiting := tidy.visiting
  outside outer inside := by
    intro known
    rcases List.mem_append.mp known with before | here
    · exact tidy.outside outer inside before
    · cases List.mem_singleton.mp here
      exact outside inside
  order := by simp [Resolver.noteRecord, tidy.order]
  distinct := by
    apply List.nodup_append.mpr
    refine ⟨tidy.distinct, List.nodup_singleton _, ?_⟩
    rintro other known _ here rfl
    cases List.mem_singleton.mp here
    exact fresh known
  named entry inside := by
    rcases List.mem_cons.mp inside with rfl | known
    · rfl
    · exact tidy.named entry known
  founded entry older suffix member part inner typed := by
    rcases List.suffix_cons_iff.mp suffix with same | deeper
    · cases same
      exact (backs member part).record inner typed
    · exact tidy.founded entry older deeper member part inner typed
  backed entry inside member part := by
    rcases List.mem_cons.mp inside with rfl | known
    · exact (backs member part).grow (grows_noteRecord resolver record)
    · exact (tidy.backed entry known member part).grow
        (grows_noteRecord resolver record)

/-- From one memory to a later one, in the middle of the same search. -/
structure Advances (stack : List String) (before after : Resolver) : Prop
    extends Grows before after where
  tidy : Tidy stack after

theorem Advances.refl (tidy : Tidy stack resolver) :
    Advances stack resolver resolver :=
  ⟨.refl resolver, tidy⟩

theorem Advances.trans {middle : Resolver}
    (first : Advances stack before middle)
    (second : Advances stack middle after) : Advances stack before after :=
  ⟨first.toGrows.trans second.toGrows, second.tidy⟩

/-- From a memory in the middle of a search a computation goes to a later one,
which holds what is `held` of the value that it gives. -/
def Remembers {α : Type} (stack : List String) (held : Resolver → α → Prop)
    (body : Resolving α) (resolver : Resolver) : Prop :=
  EndsIn body resolver (fun value after =>
    Advances stack resolver after ∧ held after value)
    fun _ after => Advances stack resolver after

namespace Remembers

variable {α β : Type} {held : Resolver → α → Prop} {kept : Resolver → β → Prop}
  {body : Resolving α}

theorem pure {value : α} (tidy : Tidy stack resolver)
    (isHeld : held resolver value) :
    Remembers stack held (Pure.pure value) resolver :=
  EndsIn.pure ⟨.refl tidy, isHeld⟩

theorem throw {error : ResolveError} (tidy : Tidy stack resolver) :
    Remembers stack held (throw error : Resolving α) resolver :=
  EndsIn.throw (.refl tidy)

theorem lift {result : Except ResolveError α} (tidy : Tidy stack resolver)
    (isHeld : ∀ value, result = .ok value → held resolver value) :
    Remembers stack held (liftM result) resolver :=
  EndsIn.lift (fun value equal => ⟨.refl tidy, isHeld value equal⟩) fun _ _ =>
    .refl tidy

theorem bind {next : α → Resolving β}
    (first : Remembers stack held body resolver)
    (second : ∀ value after, Advances stack resolver after → held after value →
      Remembers stack kept (next value) after) :
    Remembers stack kept (body >>= next) resolver :=
  EndsIn.seq Advances.trans first second

theorem advances (remembers : Remembers stack held body resolver) :
    Advances stack resolver (body resolver).2 := by
  apply EndsIn.after
  exact remembers.mono (fun _ _ => And.left) fun _ _ advances => advances

end Remembers

private theorem fieldsWith_remembers {resolve : String → Resolving Resolution}
    (resolves : ∀ name resolver, Tidy stack resolver →
      Remembers stack (Holds · name) (resolve name) resolver)
    (decls : List FieldDecl) (seen : List String) (tidy : Tidy stack resolver) :
    Remembers stack (fun after members =>
      ∀ member ∈ members, after.Backs member)
      (fieldsWith resolve owner seen decls) resolver := by
  induction decls generalizing seen resolver with
  | nil => exact .pure tidy nofun
  | cons decl rest induction =>
      rw [fieldsWith]
      by_cases known : seen.contains decl.name = true
      · rw [if_pos known]
        exact EndsIn.throw_bind (.refl tidy)
      · rw [if_neg known]
        apply Remembers.bind (resolves decl.typeName resolver tidy)
        intro resolution middle advances holds
        apply (Remembers.lift advances.tidy fun member resolved =>
          backs_of_field holds resolved).bind
        intro first later advances backs
        apply Remembers.bind (induction (decl.name :: seen) advances.tidy)
        intro others last advances deeper
        apply Remembers.pure advances.tidy
        intro member inside
        rcases List.mem_cons.mp inside with rfl | other
        · exact backs.grow advances.toGrows
        · exact deeper member other

private theorem inside_remembers {body : Resolving (List Field)}
    (tidy : Tidy stack resolver) (fresh : name ∉ resolver.order)
    (remembers : ∀ resolver, Tidy (stack ++ [name]) resolver →
      Remembers (stack ++ [name]) (fun after members =>
        ∀ member ∈ members, after.Backs member)
        body resolver) :
    Remembers stack
      (fun after members =>
        name ∉ after.order ∧ ∀ member ∈ members, after.Backs member)
      (inside name body) resolver := by
  have inner := remembers _ (tidy.enter fresh)
  have left : ∀ {after},
      Advances (stack ++ [name])
        { resolver with visiting := resolver.visiting ++ [name] } after →
        Advances stack resolver
          { after with visiting := after.visiting.dropLast } :=
    fun advances => ⟨((grows_visiting resolver _).trans advances.toGrows).trans
      (grows_visiting _ _), advances.tidy.leave⟩
  constructor
  · intro members result
    obtain ⟨advances, backs⟩ := inner.value members result
    refine ⟨left advances, ?_, ?_⟩
    · exact advances.tidy.outside name
        (List.mem_append_right _ (List.mem_singleton_self name))
    · exact fun member inside => (backs member inside).grow (grows_visiting _ _)
  · exact fun error result => left (inner.error error result)

theorem resolveWithin_remembers (byName : catalog.ByName) (depth : Nat)
    (tidy : Tidy stack resolver) :
    Remembers stack (Holds · name) (resolveWithin catalog depth name)
      resolver := by
  induction depth generalizing stack name resolver with
  | zero => exact .throw tidy
  | succ depth induction =>
      have members : ∀ decl, Enters name resolver →
          Remembers stack
            (fun after members =>
              name ∉ after.order ∧ ∀ member ∈ members, after.Backs member)
            (membersWithin catalog depth name decl) resolver := by
        intro decl enters
        have fresh : name ∉ resolver.order := by
          simp [tidy.mem_order_iff, enters.unknown]
        apply inside_remembers tidy fresh
        intro inner tidy
        exact fieldsWith_remembers (fun name resolver => induction)
          decl.fields [] tidy
      apply endsIn_of_runs
      · intro resolution after runs
        cases runs with
        | scalar => exact ⟨.refl tidy, trivial⟩
        | @known record _ found =>
            have inside := mem_of_lookup found
            have named : name = record.name := tidy.named _ inside
            exact ⟨.refl tidy, named ▸ inside⟩
        | @enum declared decl enters found =>
            obtain rfl := byName.name_eq found
            have grows := grows_noteEnum resolver declared decl
            exact ⟨⟨grows, tidy.noteEnum declared decl⟩,
              mem_enums_noteEnum resolver declared decl⟩
        | @struct declared decl fields middle enters found run =>
            obtain rfl := byName.name_eq found
            have outside : declared ∉ stack := tidy.visiting ▸ enters.outside
            obtain ⟨advances, fresh, backs⟩ := (members decl enters).of_ok run
            have last : Advances stack middle
                (middle.noteRecord (recordOf declared decl fields)) :=
              ⟨grows_noteRecord middle _,
                advances.tidy.noteRecord fresh outside backs⟩
            exact ⟨advances.trans last, List.mem_cons_self⟩
      · intro error after runs
        cases runs with
        | circular => exact .refl tidy
        | missing => exact .refl tidy
        | @failed declared decl _ _ enters found run =>
            obtain rfl := byName.name_eq found
            exact (members decl enters).of_error run

theorem afterCall_advances (byName : catalog.ByName) (tidy : Tidy [] resolver)
    (call : Call) : Advances [] resolver (resolver.afterCall catalog call) := by
  have resolves : ∀ name,
      Remembers [] (Holds · name) (resolve catalog name) resolver :=
    fun _ => resolveWithin_remembers byName _ tidy
  cases call with
  | resolve name => exact (resolves name).advances
  | resolveField decl =>
      have remembers :
          Remembers [] (fun _ _ => True) (resolveField catalog decl)
              resolver := by
        apply (resolves decl.typeName).bind
        exact fun _ _ advances _ => .lift advances.tidy fun _ _ => trivial
      exact remembers.advances
  | resolveDatamodel name =>
      have remembers :
          Remembers [] (fun _ _ => True) (resolveDatamodel catalog name)
            resolver := by
        apply (resolves name).bind
        intro resolution middle advances _
        cases resolution with
        | record root => exact .pure advances.tidy trivial
        | scalar scalar => exact .throw advances.tidy
        | enum underlying => exact .throw advances.tidy
      exact remembers.advances

theorem Reachable.tidy (byName : catalog.ByName)
    (reachable : Reachable catalog resolver) : Tidy [] resolver := by
  induction reachable with
  | fresh => exact .fresh
  | call _ call induction =>
      exact (afterCall_advances byName induction call).tidy

/-- The memory of a resolver between two calls. -/
structure Consistent (resolver : Resolver) : Prop where
  idle : resolver.visiting = []
  distinct : resolver.order.Nodup
  listed : ∀ name, name ∈ resolver.order ↔ (resolver.record? name).isSome
  /-- A finished record stands behind the records of its members, and these are
  the finished ones. -/
  founded : ∀ before name after, resolver.order = before ++ name :: after →
    ∃ record, resolver.record? name = some record ∧ record.name = name ∧
      ∀ member ∈ record.fields, ∀ inner, member.type = .record inner →
        inner.name ∈ before ∧ resolver.record? inner.name = some inner
  enums : ∀ name record, resolver.record? name = some record →
    ∀ member ∈ record.fields,
    ∀ enum, member.enumName = some enum → enum ∈ resolver.enums.map Prod.fst

theorem Tidy.record?_of_mem (tidy : Tidy stack resolver) {record : Record}
    (inside : (name, record) ∈ resolver.records) :
    resolver.record? name = some record := by
  have distinct := tidy.distinct
  rw [tidy.order, List.nodup_reverse] at distinct
  obtain ⟨newer, older, split⟩ := List.append_of_mem inside
  rw [split, List.map_append, List.map_cons, List.nodup_append] at distinct
  rw [record?, split, List.lookup_eq_some_iff]
  refine ⟨newer, older, rfl, ?_⟩
  intro entry earlier
  rw [bne_iff_ne]
  exact (distinct.2.2 entry.1 (List.mem_map_of_mem earlier) name
    List.mem_cons_self).symm

theorem Tidy.consistent (tidy : Tidy [] resolver) : resolver.Consistent where
  idle := tidy.visiting
  distinct := tidy.distinct
  listed name := tidy.mem_order_iff
  founded before name after split := by
    rw [tidy.order, List.reverse_eq_iff, List.reverse_append, List.reverse_cons,
      List.append_assoc, List.singleton_append, List.map_eq_append_iff] at split
    obtain ⟨newer, rest, records, -, names⟩ := split
    obtain ⟨entry, older, rfl, rfl, earlier⟩ := List.map_eq_cons_iff.mp names
    have suffix : entry :: older <:+ resolver.records := ⟨newer, records.symm⟩
    have inside := suffix.subset List.mem_cons_self
    refine ⟨entry.2, tidy.record?_of_mem inside, (tidy.named entry inside).symm,
      ?_⟩
    intro member part inner typed
    have founded := tidy.founded entry older suffix member part inner typed
    have deeper := (List.suffix_cons entry older).trans suffix
    refine ⟨?_, tidy.record?_of_mem (deeper.subset founded)⟩
    rw [← List.mem_reverse, ← earlier]
    exact List.mem_map_of_mem founded
  enums name record found member part :=
    (tidy.backed _ (mem_of_lookup found) member part).enum

end Resolver

/-- Between two calls a resolver stands outside of every struct, its finished
records are in an order with the parts first, and a call only adds to that order
and to the enumerations.  So it is after failures. -/
theorem resolver_consistent {catalog : Catalog} (byName : catalog.ByName)
    {resolver : Resolver} (reachable : Resolver.Reachable catalog resolver) :
    resolver.Consistent ∧ ∀ call,
      resolver.order <+: (resolver.afterCall catalog call).order ∧
        resolver.enums <+: (resolver.afterCall catalog call).enums := by
  have tidy := reachable.tidy byName
  refine ⟨tidy.consistent, ?_⟩
  intro call
  have advances := Resolver.afterCall_advances byName tidy call
  exact ⟨advances.order, advances.enums⟩

/-- A struct whose first member is sound and whose second has no type. -/
def dockCatalog : Catalog :=
  .ofList [
    { name := "Mode",
      kind := .enum { variants := [{ name := "Idle" }, { name := "Jog" }] } },
    { name := "Arm", kind := .struct { fields := [
      { name := "angle", typeName := "LREAL" },
      { name := "mode", typeName := "Mode" }] } },
    { name := "Bay", kind := .struct { fields := [
      { name := "arms", typeName := "Arm", arraySize := 2,
        isPrivate := true }] } },
    { name := "Dock", kind := .struct { fields := [
      { name := "bay", typeName := "Bay" },
      { name := "crane", typeName := "Crane" }] } }]

/-- The memory of a resolver that has failed on the dock. -/
def dockMemory : Resolver :=
  Resolver.afterCall dockCatalog {} (.resolve "Dock")

theorem dock_consistent :
    dockCatalog.ByName ∧ Resolver.Reachable dockCatalog dockMemory ∧
      dockMemory.order = ["Arm", "Bay"] ∧ dockMemory.Consistent ∧
      dockMemory.enums <+:
        (dockMemory.afterCall dockCatalog (.resolve "Dock")).enums := by
  have byName : dockCatalog.ByName := Catalog.byName_ofList _
  have reachable : Resolver.Reachable dockCatalog dockMemory := .call .fresh _
  obtain ⟨consistent, appends⟩ := resolver_consistent byName reachable
  exact ⟨byName, reachable, rfl, consistent, (appends _).2⟩

end DataBridge
