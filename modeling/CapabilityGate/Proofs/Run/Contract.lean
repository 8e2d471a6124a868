import CapabilityGate.Proofs.Run.Cleanup
import CapabilityGate.Proofs.Run.Order

/-!
# What a run hands back

A run that comes to an outcome leaves it to its session before it is known whether its workspace
could be removed, and a run that does not leaves none. A report is made of the outcome that the
session has. Where a workspace is not removed, the run breaks off although its session has an
outcome.

## Main definitions

* `Removed`: how removing the workspace ends in a run that comes to an outcome.
* `Concluded`: what a session has when its run closes.
* `HandsBack`: what a run hands back, and what it leaves to its session.

## Main results

* `Stops.isTerminal`: the outcome of a run is one of its ends.
* `concluded_of_reaches`: a run that is over has come to an outcome or has broken off.
* `run_hands_back`: what every run hands back.
* `run_hides_outcome`: a run breaks off although its session has an outcome.
-/

namespace CapabilityGate

variable {t : Toolchain} {c : Config} {s : Scene} {stage : Stage} {outcome : Outcome}

/-! ### Outcomes -/

/-- A stage that stops a run **ends** it. -/
theorem Stops.isTerminal {session : Session} {w : Workspace} {files : Files}
    (h : Stops t c session w files outcome) : outcome.isTerminal = true := by
  cases h with
  | parsing | resolving | auditing | compiling => rfl
  | executing hlinked hcompile hexecute hend =>
      rcases hend with htimed | ⟨code, hcode⟩
      · rw [htimed]
        rfl
      · rw [hcode]
        rfl

/-- The outcome of a run is **one of its ends**. -/
theorem EndsWith.isTerminal (h : EndsWith t c s outcome) : outcome.isTerminal = true := by
  obtain ⟨w, files, -, hstops⟩ := h
  exact hstops.isTerminal

/-! ### The end of a run -/

/-- In the run that starts at the scene `s`, **removing the workspace** after the outcome
`outcome` ends with `cleanup`. -/
def Removed (t : Toolchain) (c : Config) (s : Scene) (outcome : Outcome)
    (cleanup : Except Fault Unit) : Prop :=
  ∃ w u, Stage.Reaches t c .claiming s (.removing w (.ok outcome)) u ∧
    (w.destroy u.files).2 = cleanup

/-- What a session has **when its run closes**, and with what result it does. -/
inductive Concluded (t : Toolchain) (c : Config) (s : Scene) :
    Option Outcome → Except Fault Unit → Prop
  /-- The run broke off without an outcome. -/
  | broken {e : Fault} (h : Aborts t c s) : Concluded t c s none (.error e)
  /-- It came to one, and all that can go wrong then is to remove its workspace. -/
  | decided {outcome : Outcome} {cleanup : Except Fault Unit} (h : EndsWith t c s outcome)
      (hremoved : Removed t c s outcome cleanup) : Concluded t c s (some outcome) cleanup

/-- What is known of the end of a run once its workspace is removed. -/
def Concludes (t : Toolchain) (c : Config) (s : Scene) : Stage → Scene → Prop
  | .settling (.ok outcome) cleanup, _ => Removed t c s outcome cleanup
  | .closing result, u => Concluded t c s u.session.ended result
  | .ended result, u => Concluded t c s u.session.ended result
  | _, _ => True

/-- A step of a run **leads to its conclusion**. -/
theorem Concludes.step {a b : Stage} {u v : Scene} (hpending : s.session.phase = .pending)
    (hstep : Stage.Step t c a u b v) (hreached : Stage.Reaches t c .claiming s a u)
    (hknows : Knows t c s a u) (h : Concludes t c s a u) : Concludes t c s b v := by
  have hknown := hknows.known
  cases hstep with
  | refuse hphase =>
      obtain rfl : u = s := hknown
      exact absurd hpending hphase
  | createFailed hcreate =>
      have hnone : u.session.ended = none := hknows.unsettled rfl
      have hfiles : u.files = s.files := hknown
      rw [hknows.id, hfiles] at hcreate
      have haborts : Aborts t c s := aborts_of_create hcreate
      rw [Concludes, hnone]
      exact .broken haborts
  | @remove u w result =>
      cases result with
      | ok outcome => exact ⟨w, u, hreached, rfl⟩
      | error e => trivial
  | @settle u outcome cleanup =>
      have hnone : u.session.ended = none := hknows.unsettled rfl
      have hsettled : (u.session.settle outcome).ended = some outcome := by
        rw [Session.settle, hnone]
        rfl
      rw [Concludes, hsettled]
      exact .decided hknown.1 h
  | settleFailed =>
      have hnone : u.session.ended = none := hknows.unsettled rfl
      have haborts : Aborts t c s := hknown.1
      rw [Concludes, hnone]
      exact .broken haborts
  | close => exact h
  | stay => exact h
  | _ => trivial

/-- A run that is over **has come to an outcome or has broken off**. -/
theorem concluded_of_reaches {result : Except Fault Unit} {u : Scene}
    (hpending : s.session.phase = .pending) (hended : s.session.ended = none)
    (h : Stage.Reaches t c .claiming s (.ended result) u) :
    Concluded t c s u.session.ended result := by
  have hall := h.invariant
    (P := fun a u => Stage.Reaches t c .claiming s a u ∧ Concludes t c s a u) ⟨.here, trivial⟩ ?_
  · exact hall.2
  · intro a b u v hstep hboth
    exact ⟨hboth.1.next hstep,
      Concludes.step hpending hstep hboth.1 (knows_of_reaches hended hboth.1) hboth.2⟩

/-! ### Whole runs -/

/-- **What a run hands back** that starts at the scene `s` and ends at the scene `last` with a
result, and what it leaves to its session. -/
structure HandsBack (t : Toolchain) (c : Config) (elapsedMs : Nat) (s last : Scene)
    (result : Except Fault RunReport) : Prop where
  /-- A report is of an outcome that the run can end with, which is that of the session. -/
  reported : ∀ report, result = .ok report →
    report.outcome.isTerminal = true ∧ report.outcome = last.session.outcome
  /-- If a run breaks off, its session has no outcome, unless it had one and its workspace could
  not be removed. -/
  broken : ∀ e, result = .error e →
    last.session.outcome = .notRun ∨ Removed t c s last.session.outcome (.error e)
  /-- A run without an outcome breaks off and leaves none. -/
  aborted : Aborts t c s → (∃ e, result = .error e) ∧ last.session.outcome = .notRun
  /-- A run with an outcome leaves it, and hands back a report once its workspace is removed. -/
  decided : ∀ outcome, EndsWith t c s outcome → last.session.outcome = outcome ∧
    ∃ cleanup, Removed t c s outcome cleanup ∧ result = last.session.reportOf elapsedMs cleanup

/-- What is handed back at the end **follows from how the run concludes**. -/
theorem Concluded.handsBack {last : Scene} {result : Except Fault Unit}
    (h : Concluded t c s last.session.ended result) (elapsedMs : Nat) :
    HandsBack t c elapsedMs s last (last.session.reportOf elapsedMs result) := by
  generalize hended : last.session.ended = ended at h
  have houtcome : last.session.outcome = ended.getD .notRun := congrArg (·.getD .notRun) hended
  cases h with
  | @broken e haborts =>
      exact
        { reported := by
            intro report hreport
            cases hreport
          broken := fun e _ => Or.inl houtcome
          aborted := fun _ => ⟨⟨e, rfl⟩, houtcome⟩
          decided := fun outcome hends => absurd hends (haborts outcome) }
  | @decided outcome cleanup hends hremoved =>
      have hlast : last.session.outcome = outcome := houtcome
      exact
        { reported := by
            intro report hreport
            obtain ⟨-, rfl⟩ := Session.of_reportOf hreport
            refine ⟨?_, rfl⟩
            rw [Session.report, hlast]
            exact hends.isTerminal
          broken := by
            intro e he
            right
            cases hcleanup : result with
            | ok value =>
                rw [hcleanup] at he
                cases he
            | error fault =>
                rw [hcleanup] at he hremoved
                obtain rfl : fault = e := Except.error.inj he
                rwa [hlast]
          aborted := fun haborts => absurd hends (haborts outcome)
          decided := by
            intro other hother
            obtain rfl := hends.unique hother
            exact ⟨hlast, result, hremoved, rfl⟩ }

/-- **What every run hands back**: a session that does not wait is refused and stays as it is, and
of one that waits a report is made of its outcome, unless its run breaks off. -/
theorem run_hands_back (t : Toolchain) (c : Config) (elapsedMs : Nat) (s : Scene)
    (hs : s.session.Reachable) :
    (s.session.phase ≠ .pending →
      s.run t c elapsedMs = (s, .error (.alreadyRun s.session.id))) ∧
    (s.session.phase = .pending →
      HandsBack t c elapsedMs s (s.run t c elapsedMs).1 (s.run t c elapsedMs).2) := by
  refine ⟨Scene.run_of_not_pending t c elapsedMs s, fun hpending => ?_⟩
  obtain ⟨hended, -, -⟩ := hs.fresh hpending
  obtain ⟨result, last, hreaches, hrun⟩ := Scene.run_eq t c elapsedMs s
  rw [hrun]
  exact (concluded_of_reaches hpending hended hreaches).handsBack elapsedMs

/-- What is handed back when an empty program is run with a toolchain that finds no library. -/
theorem empty_run_hands_back :
    emptyScene.session.Reachable ∧
      (emptyScene.session.phase = .pending →
        HandsBack (.planned [] fun _ _ => .ok []) {} 0 emptyScene
          (emptyScene.run (.planned [] fun _ _ => .ok []) {} 0).1
          (emptyScene.run (.planned [] fun _ _ => .ok []) {} 0).2) :=
  ⟨.made _ _, (run_hands_back _ {} 0 emptyScene (.made _ _)).2⟩

/-! ### A workspace that is not removed -/

/-- A toolchain whose empty program, when it runs, puts a **file in the place of its directory**. -/
def replacingToolchain : Toolchain :=
  { Toolchain.planned [("", { (default : Plan) with program := some default })]
      fun _ _ => .ok [] with
    aftermath := fun _ directory f =>
      let emptied := (f.removeAll directory).1
      (emptied.write directory (.file [])).toOption.getD emptied }

/-- A run **breaks off although its session has an outcome**: the program has come to its end, and
there is a file where its directory was, which is not removed. A session that has an outcome keeps
it when it is refused. -/
theorem run_hides_outcome :
    let first := emptyScene.run replacingToolchain {} 0
    let second := first.1.run replacingToolchain {} 0
    emptyScene.session.Reachable ∧ emptyScene.session.phase = .pending ∧
      first.2 = .error (.removal "/tmp/sandbox-00000000-0000-4000-8000-000000000001"
        .notDirectory) ∧
      first.1.session.outcome = .completed 0 ∧
      second.2 = .error (.alreadyRun emptyScene.session.id) ∧
      second.1.session.outcome = .completed 0 := by
  intro first second
  have hfirst : first.2 = .error (.removal "/tmp/sandbox-00000000-0000-4000-8000-000000000001"
      .notDirectory) ∧ first.1.session.phase = .finished ∧
      first.1.session.outcome = .completed 0 ∧
      first.1.session.id = emptyScene.session.id := by decide +kernel
  obtain ⟨hresult, hphase, houtcome, hid⟩ := hfirst
  have hrefused : second = (first.1, .error (.alreadyRun first.1.session.id)) :=
    Scene.run_of_not_pending _ _ 0 first.1 (by rw [hphase]; decide)
  clear_value second first
  rw [hrefused, hid]
  exact ⟨.made _ _, rfl, hresult, houtcome, rfl, houtcome⟩

end CapabilityGate
