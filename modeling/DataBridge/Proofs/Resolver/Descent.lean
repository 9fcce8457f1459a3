import DataBridge.Proofs.Resolver.Search
import Mathlib.Data.Finset.Card

/-!
# How deep a resolution descends

In a keyed catalog a struct may carry another name than the key it stands
under.  A resolver keeps the names of the structs that it is inside of, but it
asks for the key at hand, so a key may come again inside itself.  A resolution
that runs out of depth has gone down along as many keys, none of which is the
name of a struct entered before it.  Such a descent is short when the structs
on cycles have their keys for names, and it ends when every cycle has a struct
whose name is a key of the cycle.
-/

namespace DataBridge

/-- A list with a repetition splits around two equal elements. -/
theorem exists_split_of_not_nodup {α : Type} {items : List α}
    (repeated : ¬ items.Nodup) :
    ∃ before item between after,
      items = before ++ item :: (between ++ item :: after) := by
  induction items with
  | nil => exact (repeated List.nodup_nil).elim
  | cons first rest induction =>
      by_cases again : first ∈ rest
      · obtain ⟨between, after, rfl⟩ := List.append_of_mem again
        exact ⟨[], first, between, after, rfl⟩
      · have later : ¬ rest.Nodup := fun distinct =>
          repeated (distinct.cons again)
        obtain ⟨before, item, between, after, rfl⟩ := induction later
        exact ⟨first :: before, item, between, after, rfl⟩

/-- A list that is longer than its keys are many repeats one of them early. -/
theorem exists_early_repetition {α : Type} [DecidableEq α] {items : List α}
    {keys : Finset α} (known : ∀ item ∈ items, item ∈ keys)
    (long : keys.card < items.length) :
    ∃ before item between rest,
      items = (before ++ item :: between) ++ item :: rest ∧
      (before ++ item :: between).length ≤ keys.card := by
  have repeated : ¬ (items.take (keys.card + 1)).Nodup := by
    intro distinct
    have subset : (items.take (keys.card + 1)).toFinset ⊆ keys := by
      intro item inside
      exact known item (List.mem_of_mem_take (List.mem_toFinset.mp inside))
    have fewer := Finset.card_le_card subset
    rw [List.toFinset_card_of_nodup distinct, List.length_take] at fewer
    omega
  obtain ⟨before, item, between, after, split⟩ :=
    exists_split_of_not_nodup repeated
  refine ⟨before, item, between, after ++ items.drop (keys.card + 1), ?_, ?_⟩
  · calc items = items.take (keys.card + 1) ++ items.drop (keys.card + 1) :=
          (List.take_append_drop _ _).symm
      _ = (before ++ item :: between) ++ item ::
          (after ++ items.drop (keys.card + 1)) := by
          rw [split]
          simp
  · have size := congrArg List.length split
    rw [List.length_take] at size
    simp only [List.length_append, List.length_cons] at size ⊢
    omega

namespace Catalog

variable {catalog : Catalog} {root key name : String}
  {visiting path : List String}

theorem Names.unique (names : catalog.Names key name) {other : String}
    (also : catalog.Names key other) : other = name := by
  obtain ⟨_, decl, found⟩ := names
  obtain ⟨_, same, again⟩ := also
  cases found.symm.trans again
  rfl

/-- The keys on the way down from a resolver that is inside of some structs.
Each is the type of a field of the struct before it, and none is the name of a
struct that was entered by then. -/
structure Descent (catalog : Catalog) (visiting path : List String) : Prop where
  steps : path.IsChain catalog.Uses
  structs : ∀ key ∈ path, (catalog.struct? key).isSome
  unvisited : ∀ key ∈ path, key ∉ visiting
  unnamed : path.Pairwise fun outer inner => ¬ catalog.Names outer inner

/-- Every cycle that a type reaches has a struct whose name is a key of the
cycle. -/
def CyclesGuarded (catalog : Catalog) (root : String) : Prop :=
  ∀ key between, catalog.Reaches root key →
    (key :: (between ++ [key])).IsChain catalog.Uses →
    ∃ outer ∈ key :: between,
      ∃ inner ∈ key :: between, catalog.Names outer inner

namespace Descent

theorem nil : catalog.Descent visiting [] :=
  ⟨.nil, nofun, nofun, .nil⟩

theorem cons (descent : catalog.Descent (visiting ++ [name]) path)
    (names : catalog.Names key name) (fresh : key ∉ visiting)
    (uses : ∀ next ∈ path.head?, catalog.Uses key next) :
    catalog.Descent visiting (key :: path) := by
  obtain ⟨unscalar, decl, found⟩ := id names
  have isStruct := struct?_eq_some_iff.mpr ⟨unscalar, name, found⟩
  constructor
  · exact descent.steps.cons uses
  · intro other inside
    rcases List.mem_cons.mp inside with same | deeper
    · simp [same, isStruct]
    · exact descent.structs other deeper
  · intro other inside
    rcases List.mem_cons.mp inside with same | deeper
    · exact same ▸ fresh
    · intro before
      exact descent.unvisited other deeper (List.mem_append_left _ before)
  · apply List.pairwise_cons.mpr
    refine ⟨?_, descent.unnamed⟩
    intro inner inside also
    apply descent.unvisited inner inside
    simp [names.unique also]

theorem suffix {before after : List String}
    (descent : catalog.Descent visiting (before ++ after)) :
    catalog.Descent visiting after where
  steps := descent.steps.right_of_append
  structs key inside := descent.structs key (List.mem_append_right _ inside)
  unvisited key inside := descent.unvisited key (List.mem_append_right _ inside)
  unnamed := (List.pairwise_append.mp descent.unnamed).2.1

/-- A key that comes again has gone around a cycle of structs, so one of them is
met below its own entry if its name is its key. -/
theorem nodup (descent : catalog.Descent visiting path)
    (named : ∀ key ∈ path, Relation.TransGen catalog.Uses key key →
      catalog.Names key key) :
    path.Nodup := by
  by_contra repeated
  obtain ⟨before, key, between, after, rfl⟩ :=
    exists_split_of_not_nodup repeated
  have whole := descent.suffix
  have steps : ((key :: (between ++ [key])) ++ after).IsChain catalog.Uses := by
    simpa using whole.steps
  have cycle := transGen_of_isChain steps.left_of_append
  have below := (List.pairwise_cons.mp whole.unnamed).1 key (by simp)
  exact below (named key (by simp) cycle)

/-- The guard that a round meets has a name that is not met afterwards. -/
theorem exists_gone {before between rest : List String}
    (descent : catalog.Descent visiting
      ((before ++ key :: between) ++ key :: rest))
    (reached : catalog.Reaches root key)
    (guarded : catalog.CyclesGuarded root) :
    ∃ inner ∈ key :: between, ∀ later ∈ key :: rest, later ≠ inner := by
  have steps : (before ++ ((key :: (between ++ [key])) ++ rest)).IsChain
      catalog.Uses := by
    simpa using descent.steps
  obtain ⟨outer, here, inner, there, names⟩ :=
    guarded key between reached steps.right_of_append.left_of_append
  refine ⟨inner, there, ?_⟩
  rintro later inside rfl
  have apart := (List.pairwise_append.mp descent.unnamed).2.2 outer
    (List.mem_append_right _ here) later inside
  exact apart names

/-- Going around a cycle meets a guard, whose name no later key is.  So each
round has fewer keys to choose from. -/
theorem length_le (keys : Finset String)
    (descent : catalog.Descent visiting path) (known : ∀ key ∈ path, key ∈ keys)
    (reached : ∀ key ∈ path, catalog.Reaches root key)
    (guarded : catalog.CyclesGuarded root) :
    2 * path.length ≤ keys.card * (keys.card + 1) := by
  induction size : keys.card generalizing keys path with
  | zero =>
      cases path with
      | nil => simp
      | cons key rest =>
          have inside := known key List.mem_cons_self
          rw [Finset.card_eq_zero.mp size] at inside
          exact absurd inside (Finset.notMem_empty key)
  | succ count induction =>
      by_cases short : path.length ≤ count + 1
      · have :=
          Nat.mul_le_mul_left (count + 1) (show 2 ≤ count + 1 + 1 by omega)
        omega
      obtain ⟨before, key, between, rest, rfl, front⟩ :=
        exists_early_repetition known (by omega)
      obtain ⟨inner, there, gone⟩ :=
        descent.exists_gone (reached key (by simp)) guarded
      have fewer : (keys.erase inner).card = count := by
        have inside :=
          known inner (List.mem_append_left _ (List.mem_append_right _ there))
        rw [Finset.card_erase_of_mem inside, size]
        rfl
      have later := induction (keys.erase inner) descent.suffix
        (fun other inside => Finset.mem_erase.mpr
          ⟨gone other inside, known other (List.mem_append_right _ inside)⟩)
        (fun other inside => reached other (List.mem_append_right _ inside))
          fewer
      have product : (count + 1) * (count + 1 + 1) =
          count * (count + 1) + 2 * (count + 1) :=
        (Nat.mul_comm _ _).trans (Nat.add_mul count 2 (count + 1))
      rw [List.length_append]
      omega

end Descent

end Catalog

namespace Resolver

open Resolving (Ensures)

variable {catalog : Catalog} {visiting : List String}

/-- The error comes from running out of depth only at the end of a descent. -/
def Sinks (catalog : Catalog) (visiting : List String) (depth : Nat)
    (key : String) (error : ResolveError) : Prop :=
  ∀ typeName, error = .unboundedNesting typeName →
    ∃ path, path.length = depth ∧ (∀ first ∈ path.head?, first = key) ∧
      catalog.Descent visiting path

private theorem field_ne_unboundedNesting {owner : String} {decl : FieldDecl}
    {resolution : Resolution} {typeName : String} :
    field owner decl resolution ≠ .error (.unboundedNesting typeName) := by
  unfold field fieldType
  rcases resolution with scalar | underlying | record
  · cases scalar
    all_goals
      dsimp only
      repeat' split
      all_goals exact nofun
  · dsimp only
    split <;> exact nofun
  · dsimp only
    split <;> exact nofun

/-- What the members of a struct sink to, the struct does one level above. -/
theorem membersWithin_sinks {depth : Nat} {key name : String}
    {decl : StructDecl} (unnamed : Scalar.ofName? key = none)
    (outside : key ∉ visiting)
    (found : catalog.find? key = some ⟨name, .struct decl⟩)
    (sinks : ∀ key visiting, (resolveWithin catalog depth key).Ensures
      (fun resolver => resolver.visiting = visiting) (fun _ => True)
      (Sinks catalog visiting depth key)) :
    (membersWithin catalog depth name decl).Ensures
      (fun resolver => resolver.visiting = visiting) (fun _ => True)
      (Sinks catalog visiting (depth + 1) key) := by
  have deeper : ∀ field ∈ decl.fields,
      (resolveWithin catalog depth field.typeName).Ensures
        (fun resolver => resolver.visiting = visiting ++ [name]) (fun _ => True)
        (Sinks catalog visiting (depth + 1) key) := by
    intro field member
    apply (sinks field.typeName (visiting ++ [name])).mono
    intro error sinks typeName same
    obtain ⟨path, length, start, descent⟩ := sinks typeName same
    refine ⟨key :: path, by simp [length], by simp, ?_⟩
    apply descent.cons ⟨unnamed, decl, found⟩ outside
    intro next first
    rw [start next first]
    exact ⟨decl, Catalog.struct?_eq_some_iff.mpr ⟨unnamed, name, found⟩, field,
      member, rfl⟩
  have members :=
    @fieldsWith_ensures _ name _ (fun _ _ => True) (fun _ _ => True) _
    decl.fields [] deeper (fun _ _ _ _ _ _ => trivial)
    (fun _ _ _ _ _ failed typeName same =>
      absurd (same ▸ failed) field_ne_unboundedNesting)
    (by rintro _ _ _ _ _ _ ⟨⟩)
  have whole : (membersWithin catalog depth name decl).Ensures
      (fun resolver => resolver.visiting = visiting)
          _ (Sinks catalog visiting (depth + 1) key) :=
    .inside (fun _ visits => by simp [visits])
      (fun _ visits => by simp [visits]) members
  exact ⟨whole.keeps, fun _ _ _ _ => trivial, whole.error⟩

/-- A resolution that runs out of depth has descended through as many
structs. -/
theorem resolveWithin_sinks (catalog : Catalog) (depth : Nat) (key : String)
    (visiting : List String) :
    (resolveWithin catalog depth key).Ensures (fun resolver =>
      resolver.visiting = visiting)
      (fun _ => True) (Sinks catalog visiting depth key) := by
  induction depth generalizing key visiting with
  | zero =>
      apply Ensures.throw
      intro typeName _
      exact ⟨[], rfl, by simp, .nil⟩
  | succ depth induction =>
      apply ensures_of_runs
      · intro resolver resolution after visits runs
        refine ⟨?_, trivial⟩
        cases runs with
        | scalar => exact visits
        | known => exact visits
        | enum =>
            unfold noteEnum
            split <;> exact visits
        | struct enters found run =>
            have members :=
              membersWithin_sinks enters.unnamed (visits ▸ enters.outside) found
              induction
            exact ((members.endsIn visits).of_ok run).1
      · intro resolver error after visits runs
        cases runs with
        | circular => exact ⟨visits, nofun⟩
        | missing => exact ⟨visits, nofun⟩
        | failed enters found run =>
            have members :=
              membersWithin_sinks enters.unnamed (visits ▸ enters.outside) found
              induction
            exact (members.endsIn visits).of_error run

/-- The resolution of a name needs no more than this depth, and it does the same
at every greater one. -/
structure EndsWithin (catalog : Catalog) (depth : Nat) (name : String)
    (resolver : Resolver) : Prop where
  bounded : ∀ typeName,
    (resolveWithin catalog depth name resolver).1 ≠
      .error (.unboundedNesting typeName)
  stable : ∀ more, depth ≤ more →
    resolveWithin catalog more name resolver =
      resolveWithin catalog depth name resolver

/-- A resolution ends if no descent from its name is as long as its depth. -/
theorem endsWithin_of_descents {depth : Nat} {name : String}
    {resolver : Resolver}
    (shorter : ∀ path, catalog.Descent resolver.visiting path →
      (∀ key ∈ path, catalog.Reaches name key) → path.length ≠ depth) :
    EndsWithin catalog depth name resolver := by
  have bounded : ∀ typeName,
      (resolveWithin catalog depth name resolver).1 ≠
          .error (.unboundedNesting typeName) := by
    intro typeName unbounded
    obtain ⟨path, length, start, descent⟩ :=
      (resolveWithin_sinks catalog depth name _).error resolver rfl _ unbounded
        typeName rfl
    refine shorter path descent ?_ length
    cases path with
    | nil => exact nofun
    | cons first rest =>
        cases start first rfl
        exact fun key inside => reflTransGen_of_isChain descent.steps inside
  exact ⟨bounded, fun more order => resolveWithin_eq_of_le order bounded⟩

end Resolver

namespace Catalog

variable {catalog : Catalog} {root name : String}

/-- Structs whose first fields lead from one of them to another, while none has
the key of one for its name. -/
structure Trap (catalog : Catalog) (keys : String → Prop) : Prop where
  structs : ∀ key, keys key → ∃ name comment field rest,
    Scalar.ofName? key = none ∧
    catalog.find? key =
      some ⟨name, .struct { comment, fields := field :: rest }⟩ ∧
      keys field.typeName ∧ ¬ keys name

/-- A resolution that enters a trap runs out of every depth. -/
theorem Trap.unbounded {keys : String → Prop} (trap : catalog.Trap keys)
    (depth : Nat) {key : String} (inside : keys key) {resolver : Resolver}
    (unfinished : ∀ other, keys other → resolver.record? other = none)
    (unvisited : ∀ other, keys other → other ∉ resolver.visiting) : ∃ typeName,
      (Resolver.resolveWithin catalog depth key resolver).1 =
        .error (.unboundedNesting typeName) := by
  induction depth generalizing key resolver with
  | zero => exact ⟨key, rfl⟩
  | succ depth induction =>
      obtain ⟨name, comment, field, rest, unscalar, found, next, other⟩ :=
        trap.structs key inside
      obtain ⟨typeName, failed⟩ := @induction field.typeName next
        { resolver with visiting := resolver.visiting ++ [name] } unfinished (by
          intro later trapped
          simp only [List.mem_append, List.mem_singleton, not_or]
          exact ⟨unvisited later trapped, fun same => other (same ▸ trapped)⟩)
      have stopped : (Resolver.membersWithin catalog depth name
          { comment, fields := field :: rest } resolver).1 =
              .error (.unboundedNesting typeName) :=
        stateful_bind_error failed
      have enters : Resolver.Enters key resolver :=
        ⟨unscalar, unfinished key inside, unvisited key inside⟩
      refine ⟨typeName, ?_⟩
      rw [(Resolver.Runs.failed enters found (Resolver.run_eq stopped)).eq]

end Catalog

/-- A resolution is never nested deeper than there are definitions, and one
more, when the structs on cycles have their keys for names.  It ends within its
bound when every cycle has a struct whose name is a key of the cycle, and it
ends in a circular reference when it reaches a cycle and has nothing else to
report. -/
theorem resolution_ends (catalog : Catalog) (name : String) :
    ((∀ key, catalog.Reaches name key → Relation.TransGen catalog.Uses key key →
        catalog.Names key key) →
      ∀ resolver,
      Resolver.EndsWithin catalog (catalog.entries.length + 1) name resolver) ∧
    (catalog.CyclesGuarded name →
      ∀ resolver,
      Resolver.EndsWithin catalog (Resolver.depthBound catalog) name resolver) ∧
    (catalog.NamedByKey name →
      (∀ owner decl, catalog.Reaches name owner →
        catalog.struct? owner = some decl →
        decl.WellFormed catalog) →
      (∃ key, catalog.Reaches name key ∧
        Relation.TransGen catalog.Uses key key) →
      ∃ chain, (Resolver.resolve catalog name {}).1 =
          .error (.circularReference chain)) := by
  refine ⟨?_, ?_, ?_⟩
  · intro named resolver
    apply Resolver.endsWithin_of_descents
    intro path descent reached length
    have distinct := descent.nodup fun key inside =>
      named key (reached key inside)
    have := Catalog.length_le_of_structs distinct descent.structs
    omega
  · intro guarded resolver
    apply Resolver.endsWithin_of_descents
    intro path descent reached length
    have short := descent.length_le (catalog.entries.map Prod.fst).toFinset
      (fun key inside =>
        List.mem_toFinset.mpr (Catalog.keys_of_structs descent.structs inside))
      reached guarded
    have fewer := List.toFinset_card_le (catalog.entries.map Prod.fst)
    rw [List.length_map] at fewer
    have := Nat.mul_le_mul fewer (Nat.succ_le_succ fewer)
    have product : Resolver.depthBound catalog =
        2 * (catalog.entries.length * (catalog.entries.length + 1)) +
          2 * (catalog.entries.length + 1) := by
      rw [Resolver.depthBound, Nat.add_mul, Nat.mul_assoc]
    simp only [Nat.succ_eq_add_one] at this
    omega
  · intro named structs cycle
    obtain ⟨key, reached, cycle⟩ := cycle
    have search := Resolver.resolve_search named
    have fresh : Resolver.Searching catalog [] {} := ⟨rfl, nofun⟩
    have rejected : ¬ catalog.Accepts name := fun accepts =>
      (Catalog.accepts_iff.mp accepts).2.acyclic key reached cycle
    cases result : (Resolver.resolve catalog name {}).1 with
    | ok resolution =>
        exact (rejected (search.value {} fresh _ result).accepts).elim
    | error error =>
        obtain ⟨decl, found⟩ : ∃ decl, catalog.struct? name = some decl := by
          rcases Relation.ReflTransGen.cases_head reached with
            rfl | ⟨_, step, _⟩
          · obtain ⟨_, step, _⟩ := Relation.TransGen.head'_iff.mp cycle
            exact ⟨step.choose, step.choose_spec.1⟩
          · exact ⟨step.choose, step.choose_spec.1⟩
        obtain ⟨chain, rfl⟩ := (search.error {} fresh _ result).circular
          (Catalog.knows_of_struct found) structs
        exact ⟨chain, rfl⟩

theorem Catalog.Uses.entry {catalog : Catalog} {outer inner : String}
    (uses : catalog.Uses outer inner) :
    ∃ name decl, (outer, ⟨name, .struct decl⟩) ∈ catalog.entries ∧
      inner ∈ decl.fields.map FieldDecl.typeName := by
  obtain ⟨decl, found, field, inside, rfl⟩ := uses
  obtain ⟨_, name, entry⟩ := Catalog.struct?_eq_some_iff.mp found
  exact ⟨name, decl, mem_of_lookup entry, List.mem_map_of_mem inside⟩

/-- A struct under another key than its name, on a cycle with one that keeps to
its key. -/
def craneCatalog : Catalog :=
  ⟨[("Crane", { name := "Hoist", kind := .struct { fields := [
      { name := "hook", typeName := "Hook" }] } }),
    ("Hook", { name := "Hook", kind := .struct { fields := [
      { name := "crane", typeName := "Crane" }] } })]⟩

/-- A struct under another key than its name, which leads to a cycle of its own
making. -/
def pierCatalog : Catalog :=
  ⟨[("Pier", { name := "Jetty", kind := .struct { fields := [
      { name := "berth", typeName := "Boat" }] } }),
    ("Boat", { name := "Boat", kind := .struct { fields := [
      { name := "tender", typeName := "Boat" }] } })]⟩

/-- A struct under another key than its name, which holds itself. -/
def ladderCatalog : Catalog :=
  ⟨[("Ladder", { name := "Rung", kind := .struct { fields := [
      { name := "next", typeName := "Ladder" }] } })]⟩

theorem crane_uses {outer inner : String}
    (uses : craneCatalog.Uses outer inner) :
    (outer = "Crane" ∧ inner = "Hook") ∨
      (outer = "Hook" ∧ inner = "Crane") := by
  obtain ⟨name, decl, entry, inside⟩ := uses.entry
  simp only [craneCatalog, List.mem_cons, Prod.mk.injEq, List.not_mem_nil,
    or_false] at entry
  rcases entry with ⟨rfl, same⟩ | ⟨rfl, same⟩
  · cases same
    exact .inl ⟨rfl, by simpa using inside⟩
  · cases same
    exact .inr ⟨rfl, by simpa using inside⟩

theorem pier_uses {outer inner : String} (uses : pierCatalog.Uses outer inner) :
    inner = "Boat" := by
  obtain ⟨name, decl, entry, inside⟩ := uses.entry
  simp only [pierCatalog, List.mem_cons, Prod.mk.injEq, List.not_mem_nil,
    or_false] at entry
  rcases entry with ⟨_, same⟩ | ⟨_, same⟩
  · cases same
    simpa using inside
  · cases same
    simpa using inside

private theorem crane_guarded : craneCatalog.CyclesGuarded "Crane" := by
  intro key between _ cycle
  have hook : craneCatalog.Names "Hook" "Hook" := ⟨rfl, _, rfl⟩
  have met : "Hook" ∈ key :: between := by
    cases between with
    | nil =>
        rcases crane_uses (List.isChain_pair.mp cycle) with
          ⟨rfl, other⟩ | ⟨rfl, _⟩
        · exact absurd other (by decide)
        · exact List.mem_cons_self
    | cons second rest =>
        rcases crane_uses (List.isChain_cons_cons.mp cycle).1 with
          ⟨_, rfl⟩ | ⟨rfl, _⟩
        · simp
        · exact List.mem_cons_self
  exact ⟨"Hook", met, "Hook", met, hook⟩

theorem boat_reaches {key : String} (reached : pierCatalog.Reaches "Boat" key) :
    key = "Boat" := by
  rcases Relation.ReflTransGen.cases_tail reached with same | ⟨_, _, last⟩
  · exact same
  · exact pier_uses last

private theorem boat_wellFormed {owner : String} {decl : StructDecl}
    (reached : pierCatalog.Reaches "Boat" owner)
    (found : pierCatalog.struct? owner = some decl) :
    decl.WellFormed pierCatalog := by
  cases boat_reaches reached
  cases found
  constructor
  · exact List.nodup_singleton _
  · intro field inside
    cases List.mem_singleton.mp inside
    exact .inr rfl
  · intro field inside
    cases List.mem_singleton.mp inside
    exact ⟨nofun, fun _ => rfl⟩

/-- A misnamed struct off the cycles costs nothing, one on a guarded cycle costs
depth, and the cycle below the first is told. -/
theorem pier_resolution_ends :
    Resolver.EndsWithin pierCatalog 3 "Pier" {} ∧
      Resolver.EndsWithin craneCatalog 18 "Crane" {} ∧
      ∃ chain, (Resolver.resolve pierCatalog "Boat" {}).1 =
        .error (.circularReference chain) := by
  have boat : pierCatalog.Uses "Boat" "Boat" :=
    ⟨_, rfl, _, List.mem_cons_self, rfl⟩
  refine ⟨?_, ?_, ?_⟩
  · apply (resolution_ends pierCatalog "Pier").1
    intro key _ cycle
    obtain ⟨_, _, last⟩ := Relation.TransGen.tail'_iff.mp cycle
    rw [pier_uses last]
    exact ⟨rfl, _, rfl⟩
  · exact (resolution_ends craneCatalog "Crane").2.1 crane_guarded {}
  · apply (resolution_ends pierCatalog "Boat").2.2
    · intro key name reached names
      cases boat_reaches reached
      obtain ⟨_, _, found⟩ := names
      cases found
      rfl
    · exact fun _ _ => boat_wellFormed
    · exact ⟨"Boat", .refl, .single boat⟩

/-- The guard looks for keys and is given names.  So a resolution through two
definitions nests four deep before it is told circular, and one through a single
definition never ends. -/
theorem ladder_resolution_unbounded :
    craneCatalog.entries.length = 2 ∧
      (Resolver.resolve craneCatalog "Crane" {}).1 =
        .error (.circularReference ["Hoist", "Hook", "Hoist", "Hook"]) ∧
      ¬ Resolver.EndsWithin craneCatalog 3 "Crane" {} ∧
      ladderCatalog.Uses "Ladder" "Ladder" ∧
      ∀ depth, ¬ Resolver.EndsWithin ladderCatalog depth "Ladder" {} := by
  refine ⟨rfl, rfl, ?_, ?_, ?_⟩
  · intro ends
    exact ends.bounded "Hook" rfl
  · exact ⟨_, rfl, _, List.mem_cons_self, rfl⟩
  · intro depth ends
    have trap : ladderCatalog.Trap (· = "Ladder") := by
      constructor
      rintro key rfl
      exact ⟨_, _, _, _, rfl, rfl, rfl, by decide⟩
    have fresh : ({} : Resolver).record? = fun _ => none := rfl
    obtain ⟨typeName, unbounded⟩ :=
      trap.unbounded depth rfl (fun other _ => congrFun fresh other)
      (fun _ _ => List.not_mem_nil)
    exact ends.bounded typeName unbounded

end DataBridge
