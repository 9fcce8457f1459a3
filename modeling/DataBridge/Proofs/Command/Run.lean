import DataBridge.Command.Run
import DataBridge.Proofs.Artifacts
import DataBridge.Proofs.Ending

/-!
# What a failed run leaves behind

Everything is generated before the first file is written.  So a run that fails
before that changes nothing, and one that fails in writing has written the files
in front of the one that fails, and changed no other file.
-/

namespace DataBridge

/-- The choices of a request against the datamodel file. -/
def GenerateRequest.options (request : GenerateRequest) :
    Component.Options where
  typeName := request.subject.typeName
  packaging := request.packaging
  addon := request.addon

/-- The files that a request generates in memory. -/
def GenerateRequest.Makes (request : GenerateRequest) (fs : FileSystem)
    (made : Artifacts) : Prop :=
  ∃ schema,
    Schema.load fs request.subject.file request.subject.includeDirs =
      .ok schema ∧
    Component.generate schema request.options = .ok made

namespace GenerateRequest

variable {request : GenerateRequest} {fs : FileSystem} {made : Artifacts}

private theorem not_makes_of_load {error : LoadError}
    (failed : Schema.load fs request.subject.file request.subject.includeDirs =
      .error error) :
    ¬ request.Makes fs made := by
  rintro ⟨schema, loaded, -⟩
  rw [failed] at loaded
  cases loaded

private theorem not_makes_of_generate {schema : Schema} {error : GenerateError}
    (loaded : Schema.load fs request.subject.file request.subject.includeDirs =
      .ok schema)
    (failed : Component.generate schema request.options = .error error) :
    ¬ request.Makes fs made := by
  rintro ⟨other, found, generated⟩
  rw [loaded] at found
  cases found
  rw [failed] at generated
  cases generated

/-- What a request generates is determined by the files. -/
theorem Makes.unique {others : Artifacts} (makes : request.Makes fs made)
    (again : request.Makes fs others) : made = others := by
  obtain ⟨schema, loaded, generated⟩ := makes
  obtain ⟨other, found, same⟩ := again
  rw [loaded] at found
  cases found
  rw [generated] at same
  exact Except.ok.inj same

/-- What is left of the files when a request has failed: all of them as they
were if nothing had been generated, and otherwise what a failed write leaves. -/
structure Leaves (request : GenerateRequest) (fs : FileSystem)
    (failure : Failure) (left : FileSystem) : Prop where
  unmade : (∀ made, ¬ request.Makes fs made) → left = fs
  unwritten : ∀ made, request.Makes fs made → ∃ failed,
    failure = Failure.ofWrite failed ∧
    Artifacts.Stopped request.output fs made.files failed left

theorem Leaves.of_unmade {failure : Failure} {left : FileSystem}
    (nothing : ∀ made, ¬ request.Makes fs made) (same : left = fs) :
    request.Leaves fs failure left where
  unmade := fun _ => same
  unwritten := fun made makes => (nothing made makes).elim

end GenerateRequest

namespace Running

variable {session : Session}

theorem say_ends (line : String) {failed : Failure → Session → Prop} :
    EndsIn (say line) session (fun _ after => after.fs = session.fs) failed :=
  .modify rfl

theorem sayAll_ends (lines : List String) {failed : Failure → Session → Prop} :
    EndsIn (sayAll lines) session (fun _ after => after.fs = session.fs)
      failed := by
  refine EndsIn.forM (fun _ (after : Session) => after.fs = session.fs) rfl ?_
  intro first line rest state _ same
  exact (say_ends line).mono (fun _ _ kept => kept.trans same) fun _ _ => id

theorem attempt_ends {ε α : Type} {failure : ε → Failure} {result : Except ε α}
    {done : α → Session → Prop} {failed : Failure → Session → Prop}
    (well : ∀ value, result = .ok value → done value session)
    (badly : ∀ error, result = .error error → failed (failure error) session) :
    EndsIn (attempt failure result) session done failed := by
  cases result with
  | error error => exact .throw (badly error rfl)
  | ok value => exact .pure (well value rfl)

theorem loadSchema_ends (subject : Subject) (verbose : Bool) :
    EndsIn (loadSchema subject verbose) session
      (fun schema after => after.fs = session.fs ∧
        Schema.load session.fs subject.file subject.includeDirs = .ok schema)
      fun _ after => after.fs = session.fs ∧ ∃ error,
        Schema.load session.fs subject.file subject.includeDirs =
          .error error := by
  apply EndsIn.bind
  apply (sayAll_ends _).mono _ fun _ _ => id
  intro _ told same
  apply EndsIn.get_bind
  apply EndsIn.bind
  rw [same]
  apply attempt_ends
  · intro schema loaded
    apply EndsIn.bind
    apply (sayAll_ends _).mono _ fun _ _ => id
    intro _ after kept
    exact .pure ⟨kept.trans same, loaded⟩
  · exact fun error failed => ⟨same, error, failed⟩

private theorem writeAll_ends (tree : session.fs.IsTree) {made : Artifacts}
    (named : Artifacts.Named made.files) (output : String) :
    EndsIn (writeAll made output) session
      (fun _ after => Artifacts.Progress output session.fs made.files after.fs)
      fun failure after => ∃ failed, failure = Failure.ofWrite failed ∧
        Artifacts.Stopped output session.fs made.files failed after.fs := by
  have attempted := Artifacts.writeFiles_attempted tree named output
  apply EndsIn.get_bind
  change EndsIn (do
    set { session with fs := (made.write output session.fs).2 }
    attempt Failure.ofWrite (made.write output session.fs).1) session _ _
  rw [Artifacts.write]
  revert attempted
  rcases Artifacts.writeFiles output made.files session.fs with ⟨result, fs⟩
  intro attempted
  apply EndsIn.bind
  apply EndsIn.set
  apply attempt_ends
  · rintro ⟨⟩ rfl
    exact attempted
  · rintro failed rfl
    exact ⟨failed, rfl, attempted⟩

private theorem generate_ends (tree : session.fs.IsTree)
    (request : GenerateRequest) :
    EndsIn (generate request) session (fun _ _ => True) fun failure after =>
      request.Leaves session.fs failure after.fs := by
  apply EndsIn.bind
  apply (loadSchema_ends _ _).mono
  case badly =>
    rintro failure after ⟨same, error, failed⟩
    exact .of_unmade (fun _ => GenerateRequest.not_makes_of_load failed) same
  intro schema loaded ⟨same, found⟩
  apply EndsIn.bind
  apply (say_ends _).mono _ fun _ _ => id
  intro _ told kept
  have unchanged : told.fs = session.fs := kept.trans same
  apply EndsIn.bind
  apply attempt_ends
  · intro made generated
    apply EndsIn.bind
    have named := Component.generate_named generated
    apply (writeAll_ends (unchanged ▸ tree) named request.output).mono
    · intro _ written _
      apply EndsIn.bind
      apply (sayAll_ends _).mono _ fun _ _ => id
      exact fun _ _ _ => (say_ends _).mono (fun _ _ _ => trivial) fun _ _ => id
    · intro failure after ⟨failed, reported, stopped⟩
      rw [unchanged] at stopped
      have makes : request.Makes session.fs made := ⟨schema, found, generated⟩
      refine ⟨fun nothing => (nothing made makes).elim, fun others again => ?_⟩
      rw [← makes.unique again]
      exact ⟨failed, reported, stopped⟩
  · intro error failed
    refine .of_unmade (fun _ => ?_) unchanged
    exact GenerateRequest.not_makes_of_generate found failed

private theorem analyze_ends (request : AnalyzeRequest) :
    EndsIn (analyze request) session (fun _ after => after.fs = session.fs)
      fun _ after => after.fs = session.fs := by
  apply EndsIn.bind
  apply (sayAll_ends _).mono _ fun _ _ => id
  intro _ begun same
  apply EndsIn.bind
  apply (loadSchema_ends _ _).mono _ fun _ _ kept => kept.1.trans same
  intro schema loaded ⟨kept, _⟩
  have unchanged : loaded.fs = session.fs := kept.trans same
  apply EndsIn.bind
  apply attempt_ends _ fun _ _ => unchanged
  intro datamodel _
  apply EndsIn.bind
  apply (sayAll_ends _).mono _ fun _ _ => id
  intro _ told kept
  have unchanged : told.fs = session.fs := kept.trans unchanged
  dsimp only
  split
  · exact .throw_bind unchanged
  · split
    · apply EndsIn.bind
      apply attempt_ends _ fun _ _ => unchanged
      intro programs _
      split
      · exact (say_ends _).mono (fun _ _ same => same.trans unchanged)
          fun _ _ => id
      · exact (say_ends _).mono (fun _ _ same => same.trans unchanged)
          fun _ _ => id
    · exact .pure unchanged

/-- A request that fails leaves what its stage leaves, and only one for the
files of a component has a stage that changes them. -/
theorem request_fails (session : Session) (tree : session.fs.IsTree)
    (request : Request) :
    EndsIn (Running.request request) session (fun _ _ => True)
      fun failure after =>
        (∃ generating, request = .generate generating ∧
          generating.Leaves session.fs failure after.fs) ∨
        (∀ generating, request ≠ .generate generating) ∧
          after.fs = session.fs := by
  cases request with
  | generate generating =>
      apply (generate_ends tree generating).mono fun _ _ => id
      exact fun failure after leaves => .inl ⟨generating, rfl, leaves⟩
  | analyze asked =>
      apply (analyze_ends asked).mono fun _ _ _ => trivial
      exact fun failure after same => .inr ⟨fun _ => nofun, same⟩
  | help => exact (say_ends usage).mono (fun _ _ _ => trivial) fun _ _ => id

end Running

/-- A run that fails before its files are generated changes nothing.  One that
fails with its files generated has failed in writing them, and leaves what the
failed write leaves. -/
theorem failed_run_leaves {fs : FileSystem} (tree : fs.IsTree)
    (arguments : List String) (failed : (run arguments fs).status ≠ 0) :
    ((∀ request made,
        Request.ofArguments arguments = .ok (.generate request) →
        ¬ request.Makes fs made) →
      (run arguments fs).fs = fs) ∧
    ∀ request made,
      Request.ofArguments arguments = .ok (.generate request) →
      request.Makes fs made →
      ∃ failure,
        (run arguments fs).complaint = (Failure.ofWrite failure).report ∧
        Artifacts.Stopped request.output fs made.files failure
          (run arguments fs).fs := by
  cases asked : Request.ofArguments arguments with
  | error error =>
      refine ⟨fun _ => by rw [run, asked], ?_⟩
      rintro request made ⟨⟩
  | ok request =>
      have ends := (Running.request_fails { fs := fs } tree request).error
      have same : run arguments fs = request.run fs := by rw [run, asked]
      rw [same] at failed ⊢
      unfold Request.run at failed ⊢
      rcases ran : (Running.request request).run.run { fs := fs } with
        ⟨failure | _, session⟩
      all_goals rw [ran] at failed
      · have ended : Running.request request { fs := fs } =
            (.error failure, session) := ran
        rw [ended] at ends
        rcases ends failure rfl with ⟨generating, rfl, leaves⟩ | ⟨other, same⟩
        · constructor
          · exact fun nothing => leaves.unmade fun made => nothing _ made rfl
          · rintro _ made ⟨⟩ makes
            obtain ⟨written, rfl, stopped⟩ := leaves.unwritten made makes
            exact ⟨written, rfl, stopped⟩
        · refine ⟨fun _ => same, ?_⟩
          rintro generating made ⟨⟩
          exact (other generating rfl).elim
      · exact (failed rfl).elim

section Lantern

/-- The files of a lantern, where a directory is in the way of one that is
generated. -/
def lanternFiles : FileSystem where
  entries :=
    [(["lantern.yaml"], .file ("datamodel: {name: Lantern}\n" ++
        "options: {packaging: none}\n" ++
        "types: [{name: Lantern, kind: {struct: {fields: []}}}]").toUTF8),
      (["out"], .directory),
      (["out", "Lantern"], .directory),
      (["out", "Lantern", "Linux"], .directory),
      (["out", "Lantern", "Linux", "binding.gyp"], .directory)]

private theorem lanternFiles_isTree : lanternFiles.IsTree where
  named := by simp [lanternFiles, Path.isName_iff]
  nested := by
    intro entry inside
    simp only [lanternFiles, List.mem_cons, List.not_mem_nil, or_false]
      at inside
    rcases inside with rfl | rfl | rfl | rfl | rfl
    all_goals rfl
  working := rfl

/-- The arguments that ask for the files of the lantern. -/
def lanternArguments : List String :=
  ["codegen", "-f", "lantern.yaml", "-o", "out"]

theorem lantern_run :
    (run lanternArguments lanternFiles).status = 1 ∧
    (lanternFiles.readBytes "out/Lantern/Linux/Linux.pkg").isOk = false ∧
    ((run lanternArguments lanternFiles).fs.readBytes
      "out/Lantern/Linux/Linux.pkg").isOk := by
  decide +kernel

/-- The directory stops the files behind it. -/
theorem lantern_stopped :
    ∃ request made failure,
      Request.ofArguments lanternArguments = .ok (.generate request) ∧
      request.Makes lanternFiles made ∧
      (run lanternArguments lanternFiles).complaint =
        (Failure.ofWrite failure).report ∧
      Artifacts.Stopped request.output lanternFiles made.files failure
        (run lanternArguments lanternFiles).fs := by
  obtain ⟨status, before, after⟩ := lantern_run
  obtain ⟨unmade, unwritten⟩ := failed_run_leaves lanternFiles_isTree
    lanternArguments (by simp [status])
  -- A file was written, so that the run had come to its last stage.
  have makes : ∃ request made,
      Request.ofArguments lanternArguments = .ok (.generate request) ∧
      request.Makes lanternFiles made := by
    by_contra nothing
    push Not at nothing
    rw [unmade nothing, before] at after
    cases after
  obtain ⟨request, made, asked, makes⟩ := makes
  obtain ⟨failure, reported, stopped⟩ := unwritten request made asked makes
  exact ⟨request, made, failure, asked, makes, reported, stopped⟩

/-- The run fails, but a file is there that was not. -/
theorem lantern_half_written :
    (run lanternArguments lanternFiles).status ≠ 0 ∧
    ∃ bytes, (lanternFiles.readBytes "out/Lantern/Linux/Linux.pkg").toOption =
      none ∧
      (run lanternArguments lanternFiles).fs.readBytes
        "out/Lantern/Linux/Linux.pkg" =
        .ok bytes := by
  obtain ⟨status, before, after⟩ := lantern_run
  refine ⟨by simp [status], ?_⟩
  cases read : (run lanternArguments lanternFiles).fs.readBytes
      "out/Lantern/Linux/Linux.pkg" with
  | error failure =>
      rw [read] at after
      cases after
  | ok bytes =>
      refine ⟨bytes, ?_, rfl⟩
      cases former : lanternFiles.readBytes "out/Lantern/Linux/Linux.pkg" with
      | error failure => rfl
      | ok others =>
          rw [former] at before
          cases before

end Lantern

end DataBridge
