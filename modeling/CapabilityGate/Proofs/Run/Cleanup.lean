import CapabilityGate.Proofs.Run.Ending
import CapabilityGate.Proofs.Run.Phases

/-!
# Cleaning up after a run

A run leaves nothing at the path of its workspace, however it ends, unless there is something once
there is a directory that holds workspaces: that is left as it is, and the run breaks off.

## Main definitions

* `BreaksOff`, `Housed`, `TornDown`: how far a run is that gets no workspace, and one that does.
* `Toolchain.LeavesFiles`: a toolchain that changes no files.
* `CleansUp`: what is promised of the workspace of a run.

## Main results

* `breaksOff_of_reaches`: a run that gets no workspace breaks off.
* `tornDown_of_reaches`, `housed_of_reaches`: a run that gets one holds it or has removed it.
* `Toolchain.LeavesFiles.removes`: if a toolchain changes no files, workspaces can be removed.
* `run_cleans_up`: a run keeps what is promised of its workspace.
-/

namespace CapabilityGate

/-! ### What a run leaves -/

namespace Scene

/-- The path of the workspace of a run that starts at the scene. -/
def workspacePath (c : Config) (s : Scene) : String :=
  Workspace.pathFor c.workspace s.session.id

/-- The files of the scene once there is a directory that holds workspaces. -/
def prepared (c : Config) (s : Scene) : Files :=
  Workspace.prepared c.workspace s.files

end Scene

variable {t : Toolchain} {c : Config} {s : Scene} {stage : Stage}

/-- How far a run is that **does not get its workspace** but the fault `e`, and leaves the files
`files`. -/
def BreaksOff (s : Scene) (files : Files) (e : Fault) : Stage → Scene → Prop
  | .claiming, u => u = s
  | .creating, u => u.files = s.files ∧ u.session.id = s.session.id ∧
    u.log = s.log ++ [.enter .parsing]
  | .closing result, u => result = .error e ∧ u.files = files ∧
    u.log = s.log ++ [.enter .parsing]
  | .ended result, u => result = .error e ∧ u.files = files ∧
    u.log = s.log ++ [.enter .parsing, .enter .finished]
  | _, _ => False

/-- A step of a run that does not get its workspace **leads to its end**. -/
theorem BreaksOff.step {files : Files} {e : Fault} {a b : Stage} {u v : Scene}
    (hpending : s.session.phase = .pending)
    (hcreate : Workspace.create c.workspace s.session.id s.files = (files, .error e))
    (hstep : Stage.Step t c a u b v) (h : BreaksOff s files e a u) : BreaksOff s files e b v := by
  cases hstep with
  | claim hphase =>
      obtain rfl : u = s := h
      exact ⟨rfl, rfl, rfl⟩
  | refuse hphase =>
      obtain rfl : u = s := h
      exact absurd hpending hphase
  | create hmade =>
      obtain ⟨hfiles, hid, -⟩ := h
      rw [hfiles, hid, hcreate] at hmade
      exact nomatch (Prod.mk.inj hmade).2
  | createFailed hfailed =>
      obtain ⟨hfiles, hid, hlog⟩ := h
      rw [hfiles, hid, hcreate] at hfailed
      obtain ⟨rfl, he⟩ := Prod.mk.inj hfailed
      exact ⟨congrArg _ (Except.error.inj he).symm, rfl, hlog⟩
  | close =>
      obtain ⟨hresult, hfiles, hlog⟩ := h
      refine ⟨hresult, hfiles, ?_⟩
      rw [Scene.enter, Scene.note, hlog, List.append_assoc]
      rfl
  | stay => exact h
  | _ => exact h.elim

/-- A run that does not get its workspace **breaks off**. -/
theorem breaksOff_of_reaches {files : Files} {e : Fault} {u : Scene}
    (hpending : s.session.phase = .pending)
    (hcreate : Workspace.create c.workspace s.session.id s.files = (files, .error e))
    (h : Stage.Reaches t c .claiming s stage u) : BreaksOff s files e stage u :=
  h.invariant (P := BreaksOff s files e) rfl (BreaksOff.step hpending hcreate)

/-- How far a run is that **gets its workspace**: it holds it, until that is removed. -/
def Housed (c : Config) (s : Scene) : Stage → Scene → Prop
  | .claiming, u => u = s
  | .creating, u => u.files = s.files ∧ u.session.id = s.session.id
  | .parsing w, _ | .resolving w _, _ | .auditing w _ _, _ | .checking w _ _, _
  | .linking w _ _, _ | .compiling w _ _, _ | .executing w _, _ | .removing w _, _ =>
    w.path = s.workspacePath c
  | .settling _ _, u | .closing _, u | .ended _, u => u.files.isThere (s.workspacePath c) = false

/-- How far a run is that **gets its workspace**: it holds it, until it has torn it down as the last
thing that it does to the files. -/
def TornDown (t : Toolchain) (c : Config) (s : Scene) : Stage → Scene → Prop
  | .claiming, u => u = s
  | .creating, u => u.files = s.files ∧ u.session.id = s.session.id
  | .parsing w, _ | .resolving w _, _ | .auditing w _ _, _ | .checking w _ _, _
  | .linking w _ _, _ | .compiling w _ _, _ | .executing w _, _ | .removing w _, _ =>
    w.path = s.workspacePath c
  | .settling _ _, u | .closing _, u | .ended _, u => ∃ w result v,
    Stage.Reaches t c .claiming s (.removing w result) v ∧ w.path = s.workspacePath c ∧
      u.files = (w.destroy v.files).1

/-- A step of a run **holds the workspace or tears it down**. -/
theorem TornDown.step {files : Files} {w : Workspace} {a b : Stage} {u v : Scene}
    (hpending : s.session.phase = .pending)
    (hcreate : Workspace.create c.workspace s.session.id s.files = (files, .ok w))
    (hreaches : Stage.Reaches t c .claiming s a u) (hstep : Stage.Step t c a u b v)
    (h : TornDown t c s a u) : TornDown t c s b v := by
  cases hstep with
  | claim hphase =>
      obtain rfl : u = s := h
      exact ⟨rfl, rfl⟩
  | refuse hphase =>
      obtain rfl : u = s := h
      exact absurd hpending hphase
  | create hmade =>
      obtain ⟨hfiles, hid⟩ := h
      rw [hfiles, hid, hcreate] at hmade
      obtain ⟨-, hw⟩ := Prod.mk.inj hmade
      rw [← Except.ok.inj hw]
      exact (Workspace.of_create_ok hcreate).1
  | createFailed hfailed =>
      obtain ⟨hfiles, hid⟩ := h
      rw [hfiles, hid, hcreate] at hfailed
      exact nomatch (Prod.mk.inj hfailed).2
  | remove => exact ⟨_, _, _, hreaches, h, rfl⟩
  | _ => exact h

/-- A run that gets its workspace **holds it or has torn it down**. -/
theorem tornDown_of_reaches {files : Files} {w : Workspace} {u : Scene}
    (hpending : s.session.phase = .pending)
    (hcreate : Workspace.create c.workspace s.session.id s.files = (files, .ok w))
    (h : Stage.Reaches t c .claiming s stage u) : TornDown t c s stage u := by
  have hboth : Stage.Reaches t c .claiming s stage u ∧ TornDown t c s stage u := by
    refine h.invariant (P := fun a u => Stage.Reaches t c .claiming s a u ∧ TornDown t c s a u)
      ⟨.here, rfl⟩ ?_
    intro a b u v hstep hreached
    exact ⟨hreached.1.next hstep, hreached.2.step hpending hcreate hreached.1 hstep⟩
  exact hboth.2

/-- A run that gets its workspace **holds it or has removed it**, if that fails only when there is
none. -/
theorem housed_of_reaches {files : Files} {w : Workspace} {u : Scene}
    (hpending : s.session.phase = .pending)
    (hcreate : Workspace.create c.workspace s.session.id s.files = (files, .ok w))
    (hremoves : ∀ w result u e, Stage.Reaches t c .claiming s (.removing w result) u →
      (u.files.removeAll w.path).2 = .error e → e = .notFound)
    (h : Stage.Reaches t c .claiming s stage u) : Housed c s stage u := by
  obtain ⟨-, -, after, hmakes⟩ := Workspace.of_create_ok hcreate
  have htorn := tornDown_of_reaches hpending hcreate h
  cases stage with
  | settling _ _ | closing _ | ended _ =>
      obtain ⟨w, result, v, hreaches, hpath, hfiles⟩ := htorn
      rw [Housed, hfiles]
      exact Workspace.isThere_destroy hpath hmakes fun e he => hremoves w result v e hreaches he
  | _ => exact htorn

/-! ### Toolchains that leave the files -/

/-- A toolchain that **leaves the files** as they are. -/
structure Toolchain.LeavesFiles (t : Toolchain) : Prop where
  /-- Compiling changes no files. -/
  compile : ∀ p libraries output f, (t.compile p libraries output f).1 = f
  /-- Neither do programs. -/
  aftermath : ∀ path directory f, t.aftermath path directory f = f

/-- What a toolchain compiles **leaves the files**, if the toolchain does. -/
theorem Toolchain.LeavesFiles.files_eq (ht : t.LeavesFiles) {p : ParsedProgram}
    {libraries : List Library} {output : String} {f files : Files}
    {result : Except Fault CompileOutcome}
    (hcompile : t.compile p libraries output f = (files, result)) : files = f := by
  have hsame := ht.compile p libraries output f
  rwa [hcompile] at hsame

/-- The files of a run are as they were when its workspace **was made**. -/
def Unchanged (c : Config) (s : Scene) : Stage → Scene → Prop
  | .claiming, u | .creating, u => u.files = s.files ∧ u.session.id = s.session.id
  | .parsing w, u | .resolving w _, u | .auditing w _ _, u | .checking w _ _, u
  | .linking w _ _, u | .compiling w _ _, u | .executing w _, u | .removing w _, u =>
    Made c s w u.files
  | _, _ => True

/-- Until a workspace is removed, a toolchain that leaves the files leaves it **as it was made**. -/
theorem Toolchain.LeavesFiles.unchanged (ht : t.LeavesFiles) {u : Scene}
    (h : Stage.Reaches t c .claiming s stage u) : Unchanged c s stage u := by
  refine h.invariant (P := Unchanged c s) ⟨rfl, rfl⟩ ?_
  intro a b u v hstep hkept
  cases hstep with
  | claim hphase => exact hkept
  | create hmade =>
      obtain ⟨hfiles, hid⟩ := hkept
      rw [hfiles, hid] at hmade
      exact hmade
  | compile hcompile =>
      obtain rfl := ht.files_eq hcompile
      exact hkept
  | compileFailed hcompile =>
      obtain rfl := ht.files_eq hcompile
      exact hkept
  | compileBroken hcompile =>
      obtain rfl := ht.files_eq hcompile
      exact hkept
  | @execute u w path x hexecute =>
      have hsame := ht.aftermath path w.path u.files
      rw [Unchanged, hsame]
      exact hkept
  | refuse | createFailed | remove | settle | settleFailed | close | stay => trivial
  | _ => exact hkept

/-- A workspace **can be removed** after a toolchain that leaves the files. -/
theorem Toolchain.LeavesFiles.removes (ht : t.LeavesFiles) {w : Workspace}
    {result : Except Fault Outcome} {u : Scene}
    (h : Stage.Reaches t c .claiming s (.removing w result) u) :
    (u.files.removeAll w.path).2 = .ok () := by
  have hmade : Made c s w u.files := ht.unchanged h
  obtain ⟨hpath, hdirectory, after, hmakes⟩ := Workspace.of_create_ok hmade
  rw [hpath]
  exact Workspace.removeAll_eq_ok hmakes hdirectory

/-! ### Whole runs -/

/-- What is **promised of the workspace** of a run that starts at the scene `s` and ends at the
scene `last` with a result. -/
structure CleansUp (c : Config) (s last : Scene) (result : Except Fault RunReport) : Prop where
  /-- The run is over. -/
  finished : last.session.phase = .finished
  /-- There is nothing at the path of the workspace, if there was nothing when there was a
  directory that holds workspaces. -/
  absent : (s.prepared c).isThere (s.workspacePath c) = false →
    last.files.isThere (s.workspacePath c) = false
  /-- If there was something, all files are left as they were, and the run breaks off before
  anything else. -/
  untouched : (s.prepared c).isThere (s.workspacePath c) = true →
    last.files = s.prepared c ∧ (∃ e, result = .error e ∧ e.kind = .workspace) ∧
      last.log = s.log ++ [.enter .parsing, .enter .finished]
  /-- If there was something before the run, no directory had to be made to hold workspaces. -/
  standing : FilePath.isAbsolute (Workspace.nameFor c.workspace s.session.id) = false →
    s.files.isThere (s.workspacePath c) = true → s.prepared c = s.files
  /-- If there was something only then, the path of the directory has two dots, or the name of the
  workspace has a slash. -/
  vacant : '/' ∉ (Workspace.nameFor c.workspace s.session.id).toList →
    ".." ∉ FilePath.names (Workspace.root c.workspace) →
      (s.prepared c).isThere (s.workspacePath c) = true →
        s.files.isThere (s.workspacePath c) = true

/-- **Every run cleans up**, if removing its workspace fails only when there is none. A run that
finds something at the path of its workspace leaves it as it is and breaks off, and there is
nothing at that path after any other run, however it ends. -/
theorem run_cleans_up (t : Toolchain) (c : Config) (elapsedMs : Nat) (s : Scene)
    (hpending : s.session.phase = .pending)
    (hremoves : ∀ w result u e, Stage.Reaches t c .claiming s (.removing w result) u →
      (u.files.removeAll w.path).2 = .error e → e = .notFound) :
    CleansUp c s (s.run t c elapsedMs).1 (s.run t c elapsedMs).2 := by
  obtain ⟨result, last, hreaches, hrun⟩ := Scene.run_eq t c elapsedMs s
  obtain ⟨events, -, hphased⟩ := phased_of_reaches hpending hreaches
  rw [hrun]
  exact
    { finished := hphased.finished result rfl
      absent := by
        intro hvacant
        cases hcreate : Workspace.create c.workspace s.session.id s.files with
        | mk files made =>
            cases made with
            | ok w => exact housed_of_reaches hpending hcreate hremoves hreaches
            | error e =>
                obtain ⟨-, hfiles, -⟩ := breaksOff_of_reaches hpending hcreate hreaches
                rw [hfiles]
                exact Workspace.of_create_error hcreate hvacant
      untouched := by
        intro hthere
        obtain ⟨e, hcreate, hkind⟩ := Workspace.create_of_isThere hthere
        obtain ⟨rfl, hfiles, hlog⟩ := breaksOff_of_reaches hpending hcreate hreaches
        exact ⟨hfiles, ⟨e, rfl, hkind⟩, hlog⟩
      standing := Workspace.prepared_of_isThere
      vacant := Workspace.isThere_of_prepared }

/-- A session with an empty program, where there are no files. -/
def emptyScene : Scene :=
  ⟨.ofSource ⟨"00000000000040008000000000000001".toList⟩ "", ⟨.directory [], []⟩, []⟩

/-- An empty program that is run with the usual settings, and with a toolchain that finds no
library, is cleaned up after. -/
theorem empty_run_cleans_up :
    emptyScene.session.phase = .pending ∧
      CleansUp {} emptyScene
        (emptyScene.run (.planned [] fun _ _ => .ok []) {} 0).1
        (emptyScene.run (.planned [] fun _ _ => .ok []) {} 0).2 := by
  have hleaves : (Toolchain.planned [] fun _ _ => .ok []).LeavesFiles :=
    ⟨fun _ _ _ _ => rfl, fun _ _ _ => rfl⟩
  refine ⟨rfl, run_cleans_up _ {} 0 emptyScene rfl ?_⟩
  intro w result u e hreaches he
  rw [hleaves.removes hreaches] at he
  exact nomatch he

/-- Settings whose directory for workspaces is reached **through the path** of one. -/
def windingConfig : Config :=
  { workspace := { tempRoot := some "root/sandbox-00000000-0000-4000-8000-000000000001/.." } }

/-- A directory is left at the path of a workspace, and was not there before the run, if the
directory that holds workspaces is reached **through that path**. -/
theorem workspace_left_behind :
    emptyScene.session.phase = .pending ∧
      emptyScene.files.isThere (emptyScene.workspacePath windingConfig) = false ∧
        ∀ t, (∀ w result u,
          ¬ Stage.Reaches t windingConfig .claiming emptyScene (.removing w result) u) ∧
            (emptyScene.run t windingConfig 0).1.files.isThere
              (emptyScene.workspacePath windingConfig) = true := by
  have hthere : (emptyScene.prepared windingConfig).isThere
      (emptyScene.workspacePath windingConfig) = true := by decide +kernel
  obtain ⟨e, hcreate, -⟩ := Workspace.create_of_isThere hthere
  refine ⟨rfl, by decide +kernel, fun t => ⟨?_, ?_⟩⟩
  · intro w result u h
    exact breaksOff_of_reaches rfl hcreate h
  obtain ⟨result, last, hreaches, hrun⟩ := Scene.run_eq t windingConfig 0 emptyScene
  obtain ⟨-, hfiles, -⟩ := breaksOff_of_reaches rfl hcreate hreaches
  rw [hrun, hfiles]
  exact hthere

end CapabilityGate
