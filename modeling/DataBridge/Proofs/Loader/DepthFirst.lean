import Mathlib.Data.List.Nodup
import Mathlib.Logic.Relation

/-!
# Depth first

Visiting the nodes of a graph depth first.  A node counts as visited before its
successors are visited, and it stands behind them in the order in which the
visits end.  The graph may have cycles: a node that was visited is passed over.
-/

namespace DataBridge

/-- From the nodes that were `seen`, visiting nodes in turn ends with more seen
nodes, and the visits end in an order. -/
inductive DepthFirst {α : Type} (next : α → List α) :
    (seen todo after order : List α) → Prop
  | done {seen : List α} : DepthFirst next seen [] seen []
  | again {seen rest after order : List α} {node : α} (known : node ∈ seen)
      (later : DepthFirst next seen rest after order) :
      DepthFirst next seen (node :: rest) after order
  | enter {seen middle rest after below order : List α} {node : α}
      (fresh : node ∉ seen)
      (inside : DepthFirst next (seen ++ [node]) (next node) middle below)
      (later : DepthFirst next middle rest after order) :
      DepthFirst next seen (node :: rest) after (below ++ node :: order)

namespace DepthFirst

variable {α : Type} {next : α → List α} {seen todo after order : List α}

/-- A node leads to those that can be reached through successors. -/
def Leads (next : α → List α) : α → α → Prop :=
  Relation.ReflTransGen fun node successor => successor ∈ next node

theorem append {others last more : List α}
    (visits : DepthFirst next seen todo after order)
    (later : DepthFirst next after others last more) :
    DepthFirst next seen (todo ++ others) last (order ++ more) := by
  induction visits with
  | done => exact later
  | again known _ induction => exact .again known (induction later)
  | enter fresh inside _ _ second =>
      rw [List.append_assoc, List.cons_append]
      exact .enter fresh inside (second later)

private theorem seen_prefix (visits : DepthFirst next seen todo after order) :
    seen <+: after := by
  induction visits with
  | done => exact List.prefix_rfl
  | again known later induction => exact induction
  | enter fresh inside later first second =>
      exact (List.prefix_append _ _).trans (first.trans second)

theorem head?_of_root {root : α}
    (visits : DepthFirst next [] [root] after order) :
    after.head? = some root := by
  cases visits with
  | again known _ => cases known
  | enter fresh inside later =>
      cases later with
      | done =>
          obtain ⟨rest, rfl⟩ := inside.seen_prefix
          rfl

theorem perm (visits : DepthFirst next seen todo after order) :
    after.Perm (seen ++ order) := by
  induction visits with
  | done => rw [List.append_nil]
  | again known later induction => exact induction
  | @enter seen middle rest after below order node fresh inside later
        first second =>
      have moved : (node :: (below ++ order)).Perm (below ++ node :: order) :=
        List.perm_middle.symm
      calc
        after.Perm (middle ++ order) := second
        (middle ++ order).Perm (seen ++ [node] ++ below ++ order) :=
          first.append_right order
        (seen ++ [node] ++ below ++ order).Perm
            (seen ++ (below ++ node :: order)) := by
          simpa using moved.append_left seen

theorem nodup (visits : DepthFirst next seen todo after order)
    (distinct : seen.Nodup) : after.Nodup := by
  induction visits with
  | done => exact distinct
  | again known later induction => exact induction distinct
  | enter fresh inside later first second =>
      apply second
      apply first
      exact List.nodup_middle.mpr (by simpa using ⟨fresh, distinct⟩)

theorem nodup_append (visits : DepthFirst next seen todo after order)
    (distinct : seen.Nodup) : (seen ++ order).Nodup :=
  visits.perm.nodup_iff.mp (visits.nodup distinct)

theorem not_mem_order (visits : DepthFirst next seen todo after order)
    (distinct : seen.Nodup) {node : α} (known : node ∈ seen) :
    node ∉ order := by
  intro visited
  have apart := (List.nodup_append.mp (visits.nodup_append distinct)).2.2
  exact apart node known node visited rfl

theorem mem_after (visits : DepthFirst next seen todo after order) {node : α} :
    node ∈ after ↔ node ∈ seen ∨ node ∈ order := by
  rw [visits.perm.mem_iff, List.mem_append]

theorem todo_subset (visits : DepthFirst next seen todo after order) {node : α}
    (asked : node ∈ todo) : node ∈ after := by
  induction visits with
  | done => cases asked
  | again known later induction =>
      rcases List.mem_cons.mp asked with rfl | asked
      · exact later.mem_after.mpr (.inl known)
      · exact induction asked
  | enter fresh inside later _ second =>
      rcases List.mem_cons.mp asked with rfl | asked
      · have visited := inside.mem_after.mpr (.inl (List.mem_concat_self))
        exact later.mem_after.mpr (.inl visited)
      · exact second asked

/-- The successors of a visited node are visited. -/
theorem closed (visits : DepthFirst next seen todo after order)
    {node successor : α} (visited : node ∈ order)
    (follows : successor ∈ next node) : successor ∈ after := by
  induction visits with
  | done => cases visited
  | again known later induction => exact induction visited
  | enter fresh inside later first second =>
      rcases List.mem_append.mp visited with below | visited
      · exact later.mem_after.mpr (.inl (first below))
      · rcases List.mem_cons.mp visited with rfl | visited
        · exact later.mem_after.mpr (.inl (inside.todo_subset follows))
        · exact second visited

/-- What is visited was asked for, or follows from what was. -/
theorem exists_leads (visits : DepthFirst next seen todo after order) {node : α}
    (visited : node ∈ order) : ∃ start ∈ todo, Leads next start node := by
  induction visits with
  | done => cases visited
  | again known later induction =>
      obtain ⟨start, asked, leads⟩ := induction visited
      exact ⟨start, List.mem_cons_of_mem _ asked, leads⟩
  | enter fresh inside later first second =>
      rcases List.mem_append.mp visited with below | visited
      · obtain ⟨start, follows, leads⟩ := first below
        exact ⟨_, List.mem_cons_self, .head follows leads⟩
      · rcases List.mem_cons.mp visited with rfl | visited
        · exact ⟨_, List.mem_cons_self, .refl⟩
        · obtain ⟨start, asked, leads⟩ := second visited
          exact ⟨start, List.mem_cons_of_mem _ asked, leads⟩

/-- Visits from one node reach what the node leads to. -/
theorem mem_order_iff {root : α}
    (visits : DepthFirst next [] [root] after order) {node : α} :
    node ∈ order ↔ Leads next root node := by
  have all : ∀ {node}, node ∈ after ↔ node ∈ order := by simp [visits.mem_after]
  constructor
  · intro visited
    obtain ⟨start, asked, leads⟩ := visits.exists_leads visited
    exact List.mem_singleton.mp asked ▸ leads
  · intro leads
    induction leads with
    | refl => exact all.mp (visits.todo_subset List.mem_cons_self)
    | tail _ follows visited => exact all.mp (visits.closed visited follows)

end DepthFirst

end DataBridge
