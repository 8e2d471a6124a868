import CapabilityGate.Proofs.Build.Outcome
import CapabilityGate.Proofs.Run.Cleanup
import CapabilityGate.Proofs.Run.Order

/-!
# The artifact of a run

The compiler is told a path for the program that it makes, below the workspace by its name. If that
name stays in the workspace, then so does all that is made at that path: nothing is there before
the program is compiled, so that a program that is reported to be built has been written by the
compiler, and nothing is left when the workspace is torn down.

The check of the settings does not look at the name of the artifact. So there are accepted settings
with which the artifact is not in the workspace at all, and stays behind.

## Main definitions

* `CompilerConfig.keepsArtifact`: whether the name of the artifact stays in the workspace.
* `Files.LeadsBelow`: a path leads below a directory.
* `StaysInWorkspace`: what is promised of the artifact of a run.

## Main results

* `Made.isThere_artifact`: there is no artifact in a workspace that has just been made.
* `Compiler.wrote_of_built`: what was not there and is built has been written by the compiler.
* `artifact_stays_in_workspace`: every run keeps its artifact in its workspace, if the name does.
* `escaped_artifact_left_behind`: an accepted name that does not.
-/

namespace CapabilityGate

/-! ### Names that stay in a workspace -/

/-- A path leads strictly **below** the directory that another one leads to, whatever the files
are. -/
def Files.LeadsBelow (directory path : String) : Prop :=
  ∀ f : Files, ∃ inner, inner ≠ [] ∧ f.placeOf path = f.placeOf directory ++ inner

namespace CompilerConfig

/-- Where in the workspace the artifact lands, if its name never leads out of there. -/
def landing? (c : CompilerConfig) : Option (List String) :=
  if FilePath.isAbsolute c.artifactName then none
  else Files.descend [] (FilePath.names c.artifactName)

/-- Whether the name of the artifact **stays in the workspace**: it leads neither out of it nor to
the workspace itself or its support file. -/
def keepsArtifact (c : CompilerConfig) : Bool :=
  match c.landing? with
  | none => false
  | some inner => inner != [] && inner != [Workspace.supportName]

example : ({} : CompilerConfig).keepsArtifact = true := by decide

variable {c : CompilerConfig}

/-- What is known of a name that stays in the workspace. -/
theorem of_keepsArtifact (h : c.keepsArtifact = true) :
    FilePath.isAbsolute c.artifactName = false ∧
      ∃ inner, Files.descend [] (FilePath.names c.artifactName) = some inner ∧
        inner ≠ [] ∧ inner ≠ [Workspace.supportName] := by
  rw [keepsArtifact, landing?] at h
  cases habsolute : FilePath.isAbsolute c.artifactName with
  | true => rw [habsolute] at h; exact Bool.noConfusion h
  | false =>
      rw [habsolute, if_neg Bool.false_ne_true] at h
      cases hinner : Files.descend [] (FilePath.names c.artifactName) with
      | none => rw [hinner] at h; exact Bool.noConfusion h
      | some inner =>
          rw [hinner] at h
          obtain ⟨hne, hsupport⟩ := Bool.and_eq_true_iff.mp h
          exact ⟨rfl, inner, rfl, bne_iff_ne.mp hne, bne_iff_ne.mp hsupport⟩

/-- A name that stays in the workspace leads **to one place in it**, whatever workspace it is. -/
theorem placeOf_artifact (h : c.keepsArtifact = true) :
    ∃ inner, inner ≠ [] ∧ inner ≠ [Workspace.supportName] ∧ ∀ (f : Files) (directory : String),
      f.placeOf (FilePath.join directory c.artifactName) = f.placeOf directory ++ inner := by
  obtain ⟨hname, inner, hinner, hne, hsupport⟩ := of_keepsArtifact h
  refine ⟨inner, hne, hsupport, fun f directory => ?_⟩
  have hwalk := Files.walk_of_descend hinner (f.placeOf directory)
  rwa [List.append_nil, ← Files.placeOf_join hname] at hwalk

/-- Where there is no directory, there is **no artifact** in it. -/
theorem isThere_artifact_of_none {f : Files} {directory : String} (h : c.keepsArtifact = true)
    (hdirectory : directory ≠ "") (hnone : f.isThere directory = false) :
    f.isThere (FilePath.join directory c.artifactName) = false := by
  obtain ⟨hname, inner, hinner, hne, -⟩ := of_keepsArtifact h
  have hnames : FilePath.names c.artifactName ≠ [] := by
    intro hnil
    rw [hnil] at hinner
    exact hne (Option.some.inj hinner).symm
  rw [Bool.eq_false_iff]
  intro hthere
  have habove := Files.isDirectory_of_isThere_join hdirectory hname hnames hthere
  exact Bool.noConfusion (hnone.symm.trans (Files.isThere_of_isDirectory habove))

end CompilerConfig

/-! ### Before and after compiling -/

section

variable {c : Config} {s : Scene} {w : Workspace} {files : Files}

/-- There is **no artifact** in a workspace that has just been made. -/
theorem Made.isThere_artifact (hmade : Made c s w files)
    (h : c.compiler.keepsArtifact = true) :
    files.isThere (w.join c.compiler.artifactName) = false := by
  obtain ⟨-, e, he, hholds⟩ := Workspace.find?_of_create_ok hmade
  obtain ⟨inner, hne, hsupport, hplace⟩ := CompilerConfig.placeOf_artifact h
  rw [Bool.eq_false_iff]
  intro hthere
  obtain ⟨-, hsome⟩ := Files.isThere_iff.mp hthere
  rw [Workspace.join, hplace, Entry.find?_append, hholds, Option.bind_some,
    Entry.find?_of_single he hne hsupport] at hsome
  exact Bool.noConfusion hsome

end

/-- The compiler that is found has **written** a program at the path `output`. -/
def Compiler.Wrote (c : CompilerConfig) (f : Files) (output : String) (after : Files) : Prop :=
  ∃ tool script program, Tool.find? f c.program = some (tool, .compiler script) ∧
    script.artifact = some program ∧ f.write output (.executable (.program program)) = .ok after

/-- What was not there and is built **has been written** by the compiler, at the path that it was
told. -/
theorem Compiler.wrote_of_built {c : CompilerConfig} {f : Files} {source output path : String}
    {libraries : List Library} (hvacant : f.isThere output = false)
    (h : (compile c f source libraries output).result = .ok (.built path)) :
    path = output ∧ Wrote c f output (compile c f source libraries output).files := by
  rw [compile, compileWith] at h ⊢
  split at h
  next tool script hfind =>
    rw [start] at h ⊢
    split at h
    next => cases h
    next hplain =>
      rw [if_neg hplain]
      obtain ⟨rfl, hthere, -⟩ := of_judge h
      refine ⟨rfl, ?_⟩
      -- The compiler leaves the files as they were unless it writes its program.
      rw [filesAfter] at hthere ⊢
      cases hartifact : script.artifact with
      | none =>
          rw [hartifact] at hthere
          exact Bool.noConfusion (hvacant.symm.trans hthere)
      | some program =>
          rw [hartifact] at hthere
          cases hwrite : f.write path (.executable (.program program)) with
          | error e =>
              simp only [hwrite] at hthere
              exact Bool.noConfusion (hvacant.symm.trans hthere)
          | ok after => exact ⟨tool, script, program, hfind, hartifact, by simp only [hwrite]⟩
  next => cases h
  next => cases h

/-- If the support file is named as the artifact, a compiler that ends well is judged to have
**built the program without writing one**. -/
theorem Made.judge_of_support_file {c : Config} {s : Scene} {w : Workspace} {files : Files}
    {ending : Ending} (hmade : Made c s w files)
    (hname : c.compiler.artifactName = Workspace.supportName) (hends : ending.isSuccess = true)
    (decode : Message.Decoding) (written : String) :
    Compiler.judge decode c.compiler files (w.join c.compiler.artifactName) written ending =
      .ok (.built (w.join c.compiler.artifactName)) := by
  obtain ⟨hthere, -⟩ := Workspace.find?_of_create_ok hmade
  rw [← hname] at hthere
  cases ending with
  | never => exact Bool.noConfusion hends
  | exit code | signal n =>
      rw [Compiler.judge, if_pos hends, if_pos hthere]
      intro hnever
      cases hnever

/-! ### Whole runs -/

/-- The path of the artifact of a run that starts at the scene. -/
def Scene.artifactPath (c : Config) (s : Scene) : String :=
  FilePath.join (s.workspacePath c) c.compiler.artifactName

/-- What is **promised of the artifact** of a run that starts at the scene `s`, ends at the scene
`last`, and does the events `events` on the way. -/
structure StaysInWorkspace (t : Toolchain) (c : Config) (s : Scene) (events : List Event)
    (last : Scene) : Prop where
  /-- What the compiler is told is the path of the artifact. -/
  told : ∀ libraries output found, .compile libraries output found ∈ events →
    output = s.artifactPath c
  /-- The artifact is in the workspace. -/
  inside : Files.LeadsBelow (s.workspacePath c) (s.artifactPath c)
  /-- It is not the support file. -/
  apart : ∀ f : Files, f.placeOf (s.artifactPath c) ≠
    f.placeOf (FilePath.join (s.workspacePath c) Workspace.supportName)
  /-- When the program is compiled, nothing is there. -/
  vacant : ∀ w p libraries u, Stage.Reaches t c .claiming s (.compiling w p libraries) u →
    u.files.isThere (s.artifactPath c) = false
  /-- What is built by the compiler of the settings has been written there by it. -/
  written : t = .ofConfig c → ∀ w p libraries u after path,
    Stage.Reaches t c .claiming s (.compiling w p libraries) u →
      compiling t c w u.files p libraries = (after, .ok (.built path)) →
        path = s.artifactPath c ∧ Compiler.Wrote c.compiler u.files (s.artifactPath c) after
  /-- A run that compiles its program tears down its workspace as the last thing that it does to
  the files. If that goes well, the path of the artifact leads nowhere, and if the workspace is
  taken away, nothing is left at the place to which the path led. -/
  removed : ∀ libraries output found, .compile libraries output found ∈ events →
    ∃ w result u, Stage.Reaches t c .claiming s (.removing w result) u ∧
      w.path = s.workspacePath c ∧ last.files = (w.destroy u.files).1 ∧
        ((w.destroy u.files).2 = .ok () → last.files.isThere (s.artifactPath c) = false) ∧
          ((u.files.removeAll w.path).2 = .ok () →
            last.files.root.find? (last.files.placeOf (s.artifactPath c)) = none)

section

variable {t : Toolchain} {c : Config} {s last : Scene}

/-- The artifact **does not outlast** the workspace. -/
theorem TornDown.artifact {files : Files} {w : Workspace} {result : Except Fault Unit}
    (h : TornDown t c s (.ended result) last)
    (hcreate : Workspace.create c.workspace s.session.id s.files = (files, .ok w))
    (hkeeps : c.compiler.keepsArtifact = true) :
    ∃ w result u, Stage.Reaches t c .claiming s (.removing w result) u ∧
      w.path = s.workspacePath c ∧ last.files = (w.destroy u.files).1 ∧
        ((w.destroy u.files).2 = .ok () → last.files.isThere (s.artifactPath c) = false) ∧
          ((u.files.removeAll w.path).2 = .ok () →
            last.files.root.find? (last.files.placeOf (s.artifactPath c)) = none) := by
  obtain ⟨-, -, after, hmakes⟩ := Workspace.of_create_ok hcreate
  obtain ⟨w, result, u, hreaches, hpath, hfiles⟩ := h
  refine ⟨w, result, u, hreaches, hpath, hfiles, ?_, ?_⟩
  · intro hdestroyed
    refine CompilerConfig.isThere_artifact_of_none hkeeps hmakes.usable.nonempty ?_
    rw [hfiles]
    exact Workspace.isThere_destroy hpath hmakes (Workspace.removeAll_of_destroy hdestroyed)
  · intro hremoved
    obtain ⟨front, name, hnames, hdot, hdots⟩ := hmakes.exists_name
    obtain ⟨inner, -, -, hplace⟩ := CompilerConfig.placeOf_artifact hkeeps
    rw [Scene.artifactPath, hplace, hfiles, Workspace.destroy, Workspace.remove_files, hpath]
    rw [hpath] at hremoved
    exact Files.find?_removeAll hnames hdot hdots hremoved inner

end

/-- **Every run keeps its artifact in its workspace**, if the name of the artifact stays there,
whatever else the settings are: it is made where nothing was, and nothing is left of it. A session
that does not wait is not run. -/
theorem artifact_stays_in_workspace (t : Toolchain) (c : Config) (elapsedMs : Nat) (s : Scene)
    (hs : s.session.Reachable) (hkeeps : c.compiler.keepsArtifact = true) :
    (s.session.phase ≠ .pending →
      s.run t c elapsedMs = (s, .error (.alreadyRun s.session.id))) ∧
    (s.session.phase = .pending → ∃ events, (s.run t c elapsedMs).1.log = s.log ++ events ∧
      StaysInWorkspace t c s events (s.run t c elapsedMs).1) := by
  refine ⟨Scene.run_of_not_pending t c elapsedMs s, fun hpending => ?_⟩
  obtain ⟨hended, -, -⟩ := hs.fresh hpending
  obtain ⟨result, last, hreaches, hrun⟩ := Scene.run_eq t c elapsedMs s
  obtain ⟨events, hlog, haccount, -⟩ := recorded_of_reaches hended hreaches
  obtain ⟨inner, hne, hsupport, hplace⟩ := CompilerConfig.placeOf_artifact hkeeps
  have hmade : ∀ {w : Workspace} {files : Files}, Made c s w files →
      w.join c.compiler.artifactName = s.artifactPath c := by
    intro w files hmade
    rw [Workspace.join, (Workspace.of_create_ok hmade).1, Scene.artifactPath, Scene.workspacePath]
  have hvacant : ∀ w p libraries u,
      Stage.Reaches t c .claiming s (.compiling w p libraries) u →
        w.join c.compiler.artifactName = s.artifactPath c ∧
          u.files.isThere (s.artifactPath c) = false := by
    intro w p libraries u hstage
    obtain ⟨hmakes, -⟩ := (knows_of_reaches hended hstage).known
    have hnone := hmakes.isThere_artifact hkeeps
    rw [hmade hmakes] at hnone
    exact ⟨hmade hmakes, hnone⟩
  rw [hrun]
  refine ⟨events, hlog, ?_⟩
  exact
    { told := by
        intro libraries output found hcompile
        obtain ⟨w, files, p, rfl, hmakes, -⟩ := Account.of_compile haccount hcompile
        exact hmade hmakes
      inside := fun f => ⟨inner, hne, hplace f _⟩
      apart := by
        intro f heq
        have hsame : f.placeOf (s.workspacePath c) ++ inner =
            f.placeOf (s.workspacePath c) ++ [Workspace.supportName] := by
          rw [← hplace, ← Scene.artifactPath, heq]
          exact Files.placeOf_join_name (by decide) (by decide) (by decide) (by decide)
        exact hsupport (List.append_cancel_left hsame)
      vacant := fun w p libraries u hstage => (hvacant w p libraries u hstage).2
      written := by
        rintro rfl w p libraries u after path hstage hbuilt
        obtain ⟨hpath, hnone⟩ := hvacant w p libraries u hstage
        rw [compiling, hpath] at hbuilt
        obtain ⟨hfiles, hresult⟩ := Prod.mk.inj hbuilt
        rw [← hfiles]
        exact Compiler.wrote_of_built hnone hresult
      removed := by
        intro libraries output found hcompile
        obtain ⟨w, files, p, -, hmakes, -⟩ := Account.of_compile haccount hcompile
        exact (tornDown_of_reaches hpending hmakes hreaches).artifact hmakes hkeeps }

/-- A session with a program, where the compiler makes a program that does nothing of it. -/
def compiledScene : Scene :=
  ⟨.ofSource ⟨"00000000000040008000000000000001".toList⟩ "fn main() {}",
    ⟨.directory [("bin", .directory
      [("rustc", .executable (.compiler ⟨[], some default, .exit 0⟩))])], []⟩, []⟩

/-- Settings with a name for the artifact. -/
def namingConfig : Config :=
  { compiler := { artifactName := "program" } }

/-- Whether an event is that a program is executed at the path. -/
def Event.executes (path : String) : Event → Bool
  | .execute p => p == path
  | _ => false

/-- The artifact of a program that **is compiled and executed** stays in its workspace, under the
name that it is given. -/
theorem artifact_of_compiled_run_stays :
    compiledScene.session.Reachable ∧ namingConfig.compiler.keepsArtifact = true ∧
      compiledScene.session.phase = .pending ∧
        (∃ events, (compiledScene.run (.ofConfig namingConfig) namingConfig 0).1.log =
            compiledScene.log ++ events ∧
          StaysInWorkspace (.ofConfig namingConfig) namingConfig compiledScene events
            (compiledScene.run (.ofConfig namingConfig) namingConfig 0).1) ∧
        (compiledScene.run (.ofConfig namingConfig) namingConfig 0).1.log.any
          (Event.executes (compiledScene.artifactPath namingConfig)) = true := by
  have hkeeps : namingConfig.compiler.keepsArtifact = true := by decide
  have hstays := artifact_stays_in_workspace (.ofConfig namingConfig) namingConfig 0 compiledScene
    (.made _ _) hkeeps
  exact ⟨.made _ _, hkeeps, rfl, hstays.2 rfl, by decide +kernel⟩

/-- Settings with an artifact **beside the workspace**. -/
def escapingConfig : Config :=
  { compiler := { artifactName := "../escaped" } }

/-- A toolchain that compiles every program to one that does nothing. -/
def idleToolchain : Toolchain :=
  .planned [("", { (default : Plan) with program := some default })] fun _ _ => .ok []

/-- With **accepted settings** a program is written beside the workspace, where there was nothing,
and is still there when the workspace is gone. -/
theorem escaped_artifact_left_behind :
    escapingConfig.validate = .ok () ∧ emptyScene.session.phase = .pending ∧
      emptyScene.files.isThere "/tmp/escaped" = false ∧
        (let last := (emptyScene.run idleToolchain escapingConfig 0).1
        last.files.isThere (emptyScene.workspacePath escapingConfig) = false ∧
          last.files.isThere "/tmp/escaped" = true ∧
            last.files.placeOf (emptyScene.artifactPath escapingConfig) = ["tmp", "escaped"]) := by
  refine ⟨rfl, rfl, ?_, ?_, ?_, ?_⟩
  · decide +kernel
  · decide +kernel
  · decide +kernel
  · decide +kernel

end CapabilityGate
