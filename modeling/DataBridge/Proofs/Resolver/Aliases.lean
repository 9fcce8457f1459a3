import DataBridge.Proofs.Resolver.Expansion
import DataBridge.Proofs.Resolver.Settled

/-!
# Keys that are not names

A resolver finishes a record under the name of its struct, and it looks for the
key that it is asked for.  Where the two differ it can take one struct for
another.  It never does when asking for the name of a struct leads to that
struct.
-/

namespace DataBridge

namespace Resolver

variable {catalog : Catalog} {resolver after : Resolver} {depth : Nat}
  {key : String} {record : Record}

theorem Reachable.named (reachable : Reachable catalog resolver) :
    ∀ entry ∈ resolver.records, entry.1 = entry.2.name := by
  have upkeep : Upkeep catalog (fun _ => True) (depthBound catalog)
      (fun resolver => ∀ entry ∈ resolver.records, entry.1 = entry.2.name)
          fun _ _ _ => True := by
    constructor
    case struct =>
      intro _ middle _ _ name decl fields _ _ named _ _ _ _ _
      exact ⟨List.forall_mem_cons.mpr ⟨rfl, named⟩, trivial⟩
    case enum =>
      intro resolver _ _ name decl _ named _ _ _
      rw [records_noteEnum]
      exact ⟨named, trivial⟩
    case visiting => exact fun named _ => named
    all_goals
      intros
      trivial
  exact reachable.upkept upkeep nofun

/-- Every property of memories that is kept up, and of which a memory holds only
what their keys stand for, makes resolutions give what their keys stand for. -/
theorem upkeep_expands {limit : Nat} {holds : Resolver → Prop}
    (visiting : ∀ {resolver : Resolver}, holds resolver →
      ∀ names, holds { resolver with visiting := names })
    (known : ∀ {resolver : Resolver} {key record},
      holds resolver → Scalar.ofName? key = none →
      resolver.record? key = some record → catalog.Expands key (.record record))
    (enum : ∀ {resolver : Resolver} {depth key name decl},
      depth < limit → holds resolver →
      Enters key resolver → catalog.find? key = some ⟨name, .enum decl⟩ →
        holds (resolver.noteEnum name decl))
    (struct : ∀ {start middle : Resolver} {depth key name decl fields},
      depth < limit →
      holds start → holds middle → Enters key start →
      catalog.find? key = some ⟨name, .struct decl⟩ →
      membersWithin catalog depth name decl start = (.ok fields, middle) →
      catalog.Expands key (.record (recordOf name decl fields)) →
        holds (middle.noteRecord (recordOf name decl fields))) :
    Upkeep catalog (fun _ => True) limit holds fun _ key resolution =>
      catalog.Expands key resolution where
  closed _ _ := trivial
  visiting := visiting
  grow _ _ _ expands := expands
  scalar := .scalar
  known start _ := known start
  enum bound start _ enters found :=
    ⟨enum bound start enters found, .enum enters.unnamed found⟩
  struct bound start holding _ enters found run members := by
    have expands : catalog.Expands _ (.record (recordOf _ _ _)) :=
      Catalog.expands_record_iff.mpr
      ⟨enters.unnamed, _, found, rfl, members.distinct, members.each⟩
    exact ⟨struct bound start holding enters found run expands, expands⟩

theorem depthBound_eq_succ (catalog : Catalog) :
    ∃ depth, depthBound catalog = depth + 1 :=
  ⟨depthBound catalog - 1, by have := lt_depthBound catalog; omega⟩

theorem resolve_known (unnamed : Scalar.ofName? key = none)
    (found : resolver.record? key = some record) :
    resolve catalog key resolver = (.ok (.record record), resolver) := by
  obtain ⟨depth, bound⟩ := depthBound_eq_succ catalog
  rw [resolve, bound]
  exact (Runs.known unnamed found).eq

/-- A record that is handed out is what its own name gives from then on. -/
theorem Reachable.record?_of_resolve (reachable : Reachable catalog resolver)
    (resolved : resolve catalog key resolver = (.ok (.record record), after)) :
    after.record? record.name = some record := by
  obtain ⟨depth, bound⟩ := depthBound_eq_succ catalog
  rw [resolve, bound] at resolved
  cases resolveWithin_eq_iff.mp resolved with
  | known unnamed found =>
      have named : key = record.name := reachable.named _ (mem_of_lookup found)
      exact named ▸ found
  | struct enters found members => exact List.lookup_cons_self

/-- What is found in a memory has been handed out under its own name. -/
theorem Reachable.produces (reachable : Reachable catalog resolver)
    (unnamed : Scalar.ofName? key = none)
    (found : resolver.record? key = some record) :
    Produces catalog record ∧ record.name = key :=
  ⟨⟨resolver, key, reachable, by rw [resolve_known unnamed found]⟩,
    (reachable.named _ (mem_of_lookup found)).symm⟩

end Resolver

open Resolver

/-- A resolver hands out what the key stands for that it is asked for. -/
def Catalog.Resolves (catalog : Catalog) : Prop :=
  ∀ resolver key record, Reachable catalog resolver →
    (resolve catalog key resolver).1 = .ok (.record record) →
      catalog.Expands key (.record record)

theorem Resolver.Upkeep.resolves {catalog : Catalog} {holds : Resolver → Prop}
    (upkeep : Upkeep catalog (fun _ => True) (depthBound catalog) holds
      fun _ key resolution => catalog.Expands key resolution)
    (fresh : holds {}) : catalog.Resolves := by
  intro resolver key record reachable resolved
  exact ((upkeep.resolve trivial (reachable.upkept upkeep fresh)).value
    _ resolved).2

/-- Whatever was resolved before, a key gives what it stands for exactly when
every record that can be handed out is what its own name stands for.  It is so
when the catalog finds each struct by its name as well.  Calls that fail, for
any reason, lead to no memories that successful ones do not lead to. -/
theorem resolves_iff (catalog : Catalog) :
    (catalog.Resolves ↔
      ∀ record, Produces catalog record → Scalar.ofName? record.name = none →
      catalog.Expands record.name (.record record)) ∧
    ((∀ key name, catalog.Names key name → Scalar.ofName? name = none →
      catalog.find? name = catalog.find? key) → catalog.Resolves) ∧
    ∀ resolver, Reachable catalog resolver ↔ Settled catalog resolver := by
  refine ⟨⟨?_, ?_⟩, ?_, fun resolver => ⟨Reachable.settled, Settled.reachable⟩⟩
  · intro resolves record produced unnamed
    obtain ⟨resolver, key, reachable, resolved⟩ := produced
    -- The second call asks for the name, and is answered from the memory of the
    -- first.
    have found := reachable.record?_of_resolve (run_eq resolved)
    apply resolves _ record.name record (reachable.call (.resolve key))
    rw [afterCall, resolve_known unnamed found]
  · intro own
    have upkeep :
        Upkeep catalog (fun _ => True) (depthBound catalog) (Underway catalog)
          fun _ key resolution => catalog.Expands key resolution := by
      apply upkeep_expands
      · exact fun underway _ => underway
      · intro resolver key record underway unnamed found
        obtain ⟨produced, rfl⟩ := underway.reachable.produces unnamed found
        exact own record produced unnamed
      · exact fun bound start enters found =>
          start.step bound (Runs.enum enters found).eq
      · exact fun bound start _ enters found members _ =>
          start.step bound (Runs.struct enters found members).eq
    exact upkeep.resolves .fresh
  · intro finds
    have upkeep : Upkeep catalog (fun _ => True) (depthBound catalog)
        (fun resolver =>
          ∀ entry ∈ resolver.records, Scalar.ofName? entry.1 = none →
          catalog.Expands entry.1 (.record entry.2))
        fun _ key resolution => catalog.Expands key resolution := by
      apply upkeep_expands
      · exact fun remembered _ => remembered
      · exact fun remembered unnamed found =>
          remembered _ (mem_of_lookup found) unnamed
      · intro resolver _ _ name decl _ remembered _ _
        rw [records_noteEnum]
        exact remembered
      · intro _ middle _ key name decl fields _ _ remembered enters found
          _ expands
        refine List.forall_mem_cons.mpr ⟨?_, remembered⟩
        intro unnamed
        exact expands.of_find?_eq enters.unnamed unnamed
          (finds key name expands.names unnamed)
    exact upkeep.resolves (List.forall_mem_nil _)

/-- A raft that is also known as a float, and as a part of a fleet by either
key. -/
def raftCatalog : Catalog :=
  ⟨[("Raft", { name := "Raft", kind := .struct { fields := [
      { name := "load", typeName := "REAL" }] } }),
    ("Float", { name := "Raft", kind := .struct { fields := [
      { name := "load", typeName := "REAL" }] } }),
    ("Fleet", { name := "Fleet", kind := .struct { fields := [
      { name := "first", typeName := "Float" },
      { name := "second", typeName := "Raft" }] } })]⟩

/-- The memory of a resolver that knows the raft as a float. -/
def floatMemory : Resolver :=
  Resolver.afterCall raftCatalog {} (.resolve "Float")

theorem raft_found_by_name (key name : String)
    (names : raftCatalog.Names key name) :
    raftCatalog.find? name = raftCatalog.find? key := by
  obtain ⟨_, decl, found⟩ := names
  have entry := mem_of_lookup found
  simp only [raftCatalog, List.mem_cons, Prod.mk.injEq, List.not_mem_nil,
    or_false] at entry
  rcases entry with ⟨rfl, same⟩ | ⟨rfl, same⟩ | ⟨rfl, same⟩
  all_goals
    cases same
    rfl

theorem raft_resolves :
    ∃ fleet raft, Reachable raftCatalog floatMemory ∧ floatMemory.order =
      ["Raft"] ∧ (resolve raftCatalog "Fleet" floatMemory).1 =
        .ok (.record fleet) ∧
      fleet.fields.map Field.type = [.record raft, .record raft] ∧
      raftCatalog.Expands "Fleet" (.record fleet) ∧
      (resolve raftCatalog "Raft" floatMemory).1 = .ok (.record raft) ∧
      raftCatalog.Expands "Raft" (.record raft) := by
  have resolves := (resolves_iff raftCatalog).2.1 fun key name names _ =>
    raft_found_by_name key name names
  have reachable : Reachable raftCatalog floatMemory := .call .fresh _
  exact ⟨_, _, reachable, rfl, rfl, rfl, resolves _ "Fleet" _ reachable rfl,
    rfl, resolves _ "Raft" _ reachable rfl⟩

/-- An anchor whose definition has the key of the chain for its name, and a
chain whose definition has the name of a rope. -/
def mooringCatalog : Catalog :=
  ⟨[("Anchor", { name := "Chain", kind := .struct { fields := [
      { name := "links", typeName := "UDINT" }] } }),
    ("Chain", { name := "Rope", kind := .struct { fields := [
      { name := "length", typeName := "REAL" }] } }),
    ("Mooring", { name := "Mooring", kind := .struct { fields := [
      { name := "anchor", typeName := "Anchor" },
      { name := "chain", typeName := "Chain" }] } })]⟩

/-- The record of the struct under the key of the anchor. -/
def chain : Record where
  name := "Chain"
  fields := [{ name := "links", type := .leaf (.integer .udint) }]

/-- The record of the struct under the key of the chain. -/
def rope : Record where
  name := "Rope"
  fields := [{ name := "length", type := .leaf (.float .real) }]

/-- Once the anchor is finished the key of the chain gives the anchor, to a call
and to a member. -/
theorem chain_mistaken :
    (resolve mooringCatalog "Chain" {}).1 = .ok (.record rope) ∧
      mooringCatalog.Expands "Chain" (.record rope) ∧
      (resolve mooringCatalog "Chain"
        (afterCall mooringCatalog {} (.resolve "Anchor"))).1 =
        .ok (.record chain) ∧
      (∃ mooring, (resolve mooringCatalog "Mooring" {}).1 =
        .ok (.record mooring) ∧
        mooring.fields.map Field.type = [.record chain, .record chain]) ∧
      ¬ mooringCatalog.Resolves := by
  have stands : mooringCatalog.Expands "Chain" (.record rope) := ⟨2, rfl⟩
  have given : (resolve mooringCatalog "Chain"
      (afterCall mooringCatalog {} (.resolve "Anchor"))).1 = .ok (.record
        chain) := rfl
  refine ⟨rfl, stands, given, ⟨_, rfl, rfl⟩, ?_⟩
  intro resolves
  have same := stands.unique (resolves _ "Chain" chain (.call .fresh _) given)
  exact absurd (congrArg Record.name (Resolution.record.inj same)) (by decide)

end DataBridge
