import DataBridge.Proofs.Loader.Schema

/-!
# Further directories

An import is looked for beside its importer and then in each directory in turn,
and the first file that is found counts.  Directories behind those in which all
imports have been found are not looked into, whatever files they have.
-/

namespace DataBridge

section TwoRuns

/-- Where `body` ends well, `other` does so from a changed state: with the same
value, and in a state that is changed alike. -/
def Carries {ε σ α : Type} (change : σ → σ)
    (body other : ExceptT ε (StateM σ) α) : Prop :=
  ∀ state value after, body state = (.ok value, after) →
    other (change state) = (.ok value, change after)

namespace Carries

variable {ε σ α β : Type} {change : σ → σ} {body other : ExceptT ε (StateM σ) α}

theorem pure (value : α) :
    Carries change (Pure.pure value : ExceptT ε (StateM σ) α)
      (Pure.pure value) := by
  intro state result after run
  cases run
  rfl

theorem throw (error : ε) :
    Carries change (throw error : ExceptT ε (StateM σ) α) other := by
  intro state result after run
  cases run

theorem lift {result again : Except ε α}
    (same : ∀ value, result = .ok value → again = .ok value) :
    Carries change (liftM result : ExceptT ε (StateM σ) α) (liftM again) := by
  cases result with
  | error error => exact throw error
  | ok value =>
      rw [same value rfl]
      exact pure value

theorem bind {next further : α → ExceptT ε (StateM σ) β}
    (first : Carries change body other)
    (rest : ∀ value, Carries change (next value) (further value)) :
    Carries change (body >>= next) (other >>= further) := by
  intro state result after run
  rw [stateful_bind] at run
  rcases here : body state with ⟨error | value, middle⟩
  · rw [here] at run
    cases run
  · rw [here] at run
    rw [stateful_bind, first state value middle here]
    exact rest value middle result after run

theorem get_bind {next further : σ → ExceptT ε (StateM σ) α}
    (rest : ∀ state, Carries change (next state) (further (change state))) :
    Carries change (get >>= next) (get >>= further) :=
  fun state => rest state state

theorem modify {step : σ → σ}
    (commutes : ∀ state, step (change state) = change (step state)) :
    Carries change (modify step : ExceptT ε (StateM σ) PUnit)
      (modify step) := by
  intro state result after run
  cases run
  exact congrArg (Prod.mk _) (commutes state)

theorem forM {items : List α} {step again : α → ExceptT ε (StateM σ) PUnit}
    (each : ∀ item, Carries change (step item) (again item)) :
    Carries change (items.forM step) (items.forM again) := by
  induction items with
  | nil => exact pure _
  | cons item rest induction => exact (each item).bind fun _ => induction

end Carries

end TwoRuns

namespace Loader

variable {fs : FileSystem} {dirs more : List String}

/-- The loader with further directories for imports. -/
def widen (more : List String) (loader : Loader) : Loader :=
  { loader with includeDirs := loader.includeDirs ++ more }

/-- An import that is found stays the same. -/
theorem importPath_append {imported importer found : String}
    (means : importPath fs dirs imported importer = .ok found) :
    importPath fs (dirs ++ more) imported importer = .ok found := by
  have longer : candidates (dirs ++ more) imported importer =
      candidates dirs imported importer ++ more.map (Path.join · imported) := by
    rw [candidates, ← List.append_assoc, List.map_append, ← candidates]
  rw [importPath] at means
  cases first : (candidates dirs imported importer).find? fs.pathExists with
  | none =>
      rw [first] at means
      cases means
  | some path =>
      rw [first] at means
      rw [importPath, longer, List.find?_append, first]
      exact means

private theorem declare_carries (definition : TypeDef) (path : String) :
    Carries (widen more) (declare definition path)
      (declare definition path) := by
  apply Carries.get_bind
  intro loader
  dsimp only [widen]
  split
  · exact .throw _
  · exact .modify fun _ => rfl

/-- What a file brings in does not depend on the further directories. -/
theorem loadWithin_carries (fs : FileSystem) (more : List String) (depth : Nat)
    (path : String) :
    Carries (widen more) (loadWithin fs depth path)
      (loadWithin fs depth path) := by
  induction depth generalizing path with
  | zero => exact .throw _
  | succ depth induction =>
      have imports : ∀ imported,
          Carries (widen more) (loadImport fs depth path imported)
            (loadImport fs depth path imported) := by
        intro imported
        apply Carries.get_bind
        intro loader
        exact (Carries.lift fun _ => importPath_append).bind induction
      rw [loadWithin]
      apply Carries.bind (.lift fun _ => id)
      intro place
      apply Carries.get_bind
      intro loader
      dsimp only [widen]
      split
      · exact .pure _
      · have visited :
            Carries (widen more) (modify (visit place) : Loading Unit) _ :=
          .modify fun _ => rfl
        apply visited.bind
        intro _
        apply Carries.bind (.lift fun _ => id)
        intro file
        have offered :
            Carries (widen more) (modify (offerRoot place file) : Loading Unit)
                _ :=
          .modify fun _ => rfl
        apply offered.bind
        intro _
        apply Carries.bind (.forM imports)
        intro _
        exact .forM fun definition => declare_carries definition place

private theorem finish_widen (more : List String) (loader : Loader) :
    (widen more loader).finish = loader.finish :=
  rfl

end Loader

/-- Further directories behind those with which a datamodel can be loaded change
nothing of what is loaded. -/
theorem Schema.load_append {fs : FileSystem} {path : String}
    {dirs : List String} {schema : Schema}
    (loads : Schema.load fs path dirs = .ok schema) (more : List String) :
    Schema.load fs path (dirs ++ more) = .ok schema := by
  rw [Loader.load_eq] at loads ⊢
  obtain ⟨value, first, finished⟩ := bind_eq_ok_iff.mp loads
  have carried :
      Loader.loadFile fs path (Loader.widen more { includeDirs := dirs }) = _ :=
    Loader.loadWithin_carries fs more (Loader.depthBound fs) path
      { includeDirs := dirs } value _ (Prod.ext first rfl)
  rw [show ({ includeDirs := dirs ++ more } : Loader) =
      Loader.widen more { includeDirs := dirs } from rfl, carried, ok_bind,
      Loader.finish_widen]
  exact finished

/-- The harbor with another winch in a further directory. -/
def dockFiles : FileSystem where
  entries := harborFiles.entries ++ [
    (["q"], .directory),
    (["q", "w"],
      .file "types: [{name: Anchor, kind: {enum: {variants: []}}}]".toUTF8)]

/-- The other winch would be taken if its directory came first. -/
theorem dock_keeps_first_winch :
    ∃ schema, Schema.load dockFiles "d/./b" ["p"] = .ok schema ∧
      schema.types.map TypeDef.name = ["Winch"] ∧
      Schema.load dockFiles "d/./b" (["p"] ++ ["missing", "q"]) = .ok schema ∧
      (Schema.load dockFiles "d/./b" ["q", "p"]).toOption.map
        (fun other => other.types.map TypeDef.name) = some ["Anchor"] := by
  have names : (Schema.load dockFiles "d/./b" ["p"]).toOption.map
      (fun schema => schema.types.map TypeDef.name) = some ["Winch"] := by
    decide +kernel
  obtain ⟨schema, loaded, listed⟩ := Option.map_eq_some_iff.mp names
  have loaded := toOption_eq_some_iff.mp loaded
  exact ⟨schema, loaded, listed, Schema.load_append loaded ["missing", "q"],
    by decide +kernel⟩

end DataBridge
