import CapabilityGate.Run.Stage

/-!
# The steps of a run

What one step of a run can do, case by case, and what follows for a whole run. All that is shown
of runs rests on this list of cases: what each of them keeps, every run keeps.

## Main definitions

* `Stage.Step`: the ways in which a run can go on by one step.
* `Stage.Reaches`: the stages and scenes that a run comes through.

## Main results

* `Stage.step_cases`: a step goes on in one of the ways listed.
* `Stage.Reaches.invariant`: what every step keeps, a run keeps.
* `Scene.run_eq`: a whole run comes to an end, and how it is reported.
* `Scene.run_of_not_pending`: a session that does not wait is not run.
-/

namespace CapabilityGate

open Program

namespace Stage

variable {t : Toolchain} {c : Config}

/-- The ways in which a run can **go on by one step** from a stage and a scene. -/
inductive Step (t : Toolchain) (c : Config) : Stage → Scene → Stage → Scene → Prop
  /-- A session that waits is taken. -/
  | claim {s : Scene} (h : s.session.phase = .pending) :
      Step t c claiming s creating (s.enter .parsing)
  /-- No other session is. -/
  | refuse {s : Scene} (h : s.session.phase ≠ .pending) :
      Step t c claiming s (ended (.error (.alreadyRun s.session.id))) s
  /-- The workspace is made. -/
  | create {s : Scene} {files : Files} {w : Workspace}
      (h : Workspace.create c.workspace s.session.id s.files = (files, .ok w)) :
      Step t c creating s (parsing w) { s with files, session := s.session.place w.path }
  /-- The workspace is not made. -/
  | createFailed {s : Scene} {files : Files} {e : Fault}
      (h : Workspace.create c.workspace s.session.id s.files = (files, .error e)) :
      Step t c creating s (closing (.error e)) { s with files }
  /-- The program is parsed. -/
  | parse {s : Scene} {w : Workspace} {p : ParsedProgram}
      (h : t.parse s.session.source = .ok p) :
      Step t c (parsing w) s (resolving w p) (s.note .parse)
  /-- The program is not parsed. -/
  | parseFailed {s : Scene} {w : Workspace} {ds : List Diagnostic}
      (h : t.parse s.session.source = .error ds) :
      Step t c (parsing w) s (removing w (.ok (.compileFailed ds))) (s.note .parse)
  /-- The program is resolved. -/
  | resolve {s : Scene} {w : Workspace} {p : ParsedProgram} {m : Model}
      (h : t.resolve p = .ok m) :
      Step t c (resolving w p) s (auditing w p m) (s.note (.resolve p))
  /-- The program is not resolved. -/
  | resolveFailed {s : Scene} {w : Workspace} {p : ParsedProgram} {ds : List Diagnostic}
      (h : t.resolve p = .error ds) :
      Step t c (resolving w p) s (removing w (.ok (.compileFailed ds))) (s.note (.resolve p))
  /-- Nothing in the program is denied. -/
  | audit {s : Scene} {w : Workspace} {p : ParsedProgram} {m : Model}
      (h : (m.verdict (denied c s.session)).offending? = none) :
      Step t c (auditing w p m) s (checking w p m) (s.enter .auditing)
  /-- A call site of the program is denied. -/
  | auditFailed {s : Scene} {w : Workspace} {p : ParsedProgram} {m : Model} {site : CallSite}
      (h : (m.verdict (denied c s.session)).offending? = some site) :
      Step t c (auditing w p m) s (removing w (.ok (.policyViolation site))) (s.enter .auditing)
  /-- The tools are there. -/
  | check {s : Scene} {w : Workspace} {p : ParsedProgram} {m : Model}
      (h : t.check s.files = .ok ()) :
      Step t c (checking w p m) s (linking w p m) ((s.enter .building).note .check)
  /-- The tools are not there. -/
  | checkFailed {s : Scene} {w : Workspace} {p : ParsedProgram} {m : Model} {e : Fault}
      (h : t.check s.files = .error e) :
      Step t c (checking w p m) s (removing w (.error e)) ((s.enter .building).note .check)
  /-- The libraries are found. -/
  | link {s : Scene} {w : Workspace} {p : ParsedProgram} {m : Model} {libraries : List Library}
      (h : t.libraries s.files m.namespaces = .ok libraries) :
      Step t c (linking w p m) s (compiling w p libraries) (s.note (.link m.namespaces))
  /-- The libraries are not found. -/
  | linkFailed {s : Scene} {w : Workspace} {p : ParsedProgram} {m : Model} {e : Fault}
      (h : t.libraries s.files m.namespaces = .error e) :
      Step t c (linking w p m) s (removing w (.error e)) (s.note (.link m.namespaces))
  /-- The program is compiled. -/
  | compile {s : Scene} {w : Workspace} {p : ParsedProgram} {libraries : List Library}
      {files : Files} {path : String}
      (h : t.compile p libraries (w.join c.compiler.artifactName) s.files =
        (files, .ok (.built path))) :
      Step t c (compiling w p libraries) s (executing w path)
        { s.note (.compile libraries (w.join c.compiler.artifactName) (s.files.below w.path)) with
          files }
  /-- The program is not compiled. -/
  | compileFailed {s : Scene} {w : Workspace} {p : ParsedProgram} {libraries : List Library}
      {files : Files} {ds : List Diagnostic}
      (h : t.compile p libraries (w.join c.compiler.artifactName) s.files =
        (files, .ok (.failed ds))) :
      Step t c (compiling w p libraries) s (removing w (.ok (.compileFailed ds)))
        { s.note (.compile libraries (w.join c.compiler.artifactName) (s.files.below w.path)) with
          files }
  /-- The compiler does not work. -/
  | compileBroken {s : Scene} {w : Workspace} {p : ParsedProgram} {libraries : List Library}
      {files : Files} {e : Fault}
      (h : t.compile p libraries (w.join c.compiler.artifactName) s.files =
        (files, .error e)) :
      Step t c (compiling w p libraries) s (removing w (.error e))
        { s.note (.compile libraries (w.join c.compiler.artifactName) (s.files.below w.path)) with
          files }
  /-- The program is executed. -/
  | execute {s : Scene} {w : Workspace} {path : String} {x : Execution}
      (h : Sandbox.execute c.limits s.files path [] w.path = .ok x) :
      Step t c (executing w path) s (removing w (.ok x.outcome))
        { (s.enter .executing).note (.execute path) with
          session := (s.enter .executing).session.write x.chunks
          files := t.aftermath path w.path s.files }
  /-- The program does not start. -/
  | executeFailed {s : Scene} {w : Workspace} {path : String} {e : Fault}
      (h : Sandbox.execute c.limits s.files path [] w.path = .error e) :
      Step t c (executing w path) s (removing w (.error e))
        ((s.enter .executing).note (.execute path))
  /-- The workspace is removed, as far as that is possible. -/
  | remove {s : Scene} {w : Workspace} {result : Except Fault Outcome} :
      Step t c (removing w result) s (settling result (w.destroy s.files).2)
        { s with files := (w.destroy s.files).1 }
  /-- The run has an outcome. -/
  | settle {s : Scene} {outcome : Outcome} {cleanup : Except Fault Unit} :
      Step t c (settling (.ok outcome) cleanup) s (closing cleanup)
        { s with session := s.session.settle outcome }
  /-- The run has none. -/
  | settleFailed {s : Scene} {e : Fault} {cleanup : Except Fault Unit} :
      Step t c (settling (.error e) cleanup) s (closing (.error e)) s
  /-- The run is over. -/
  | close {s : Scene} {result : Except Fault Unit} :
      Step t c (closing result) s (ended result) (s.enter .finished)
  /-- Nothing happens after that. -/
  | stay {s : Scene} {result : Except Fault Unit} :
      Step t c (ended result) s (ended result) s

/-- A step **goes on in one of the ways listed**. -/
theorem step_cases (t : Toolchain) (c : Config) (stage : Stage) (s : Scene) :
    Step t c stage s (stage.step t c s).1 (stage.step t c s).2 := by
  cases stage with
  | claiming =>
      simp only [step, Stage.claim, Session.claim?]
      by_cases h : s.session.phase = .pending
      · rw [if_pos h]
        exact .claim h
      · rw [if_neg h]
        exact .refuse h
  | creating =>
      simp only [step, Stage.create]
      split
      next h => exact .create h
      next h => exact .createFailed h
  | parsing w =>
      simp only [step, Stage.parse]
      split
      next h => exact .parse h
      next h => exact .parseFailed h
  | resolving w p =>
      simp only [step, Stage.resolve]
      split
      next h => exact .resolve h
      next h => exact .resolveFailed h
  | auditing w p m =>
      simp only [step, Stage.audit]
      split
      next h => exact .auditFailed h
      next h => exact .audit h
  | checking w p m =>
      simp only [step, Stage.check]
      split
      next h => exact .check h
      next h => exact .checkFailed h
  | linking w p m =>
      simp only [step, Stage.link]
      split
      next h => exact .link h
      next h => exact .linkFailed h
  | compiling w p libraries =>
      simp only [step, Stage.compile]
      split
      next h => exact .compile h
      next h => exact .compileFailed h
      next h => exact .compileBroken h
  | executing w path =>
      simp only [step, Stage.execute]
      split
      next h => exact .execute h
      next h => exact .executeFailed h
  | removing w result => exact .remove
  | settling result cleanup =>
      cases result with
      | ok outcome => exact .settle
      | error e => exact .settleFailed
  | closing result => exact .close
  | ended result => exact .stay

/-! ### Runs -/

/-- The stages and scenes that a run **comes through** after a stage and a scene. -/
inductive Reaches (t : Toolchain) (c : Config) (stage : Stage) (s : Scene) :
    Stage → Scene → Prop
  /-- The run is at the stage and scene itself. -/
  | here : Reaches t c stage s stage s
  /-- It goes on from there. -/
  | next {between after : Stage} {u v : Scene} (h : Reaches t c stage s between u)
      (hstep : Step t c between u after v) : Reaches t c stage s after v

/-- What every step **keeps**, a run keeps. -/
theorem Reaches.invariant {stage after : Stage} {s u : Scene} {P : Stage → Scene → Prop}
    (h : Reaches t c stage s after u) (hstart : P stage s)
    (hstep : ∀ {a b : Stage} {u v : Scene}, Step t c a u b v → P a u → P b v) :
    P after u := by
  induction h with
  | here => exact hstart
  | next h hnext ih => exact hstep hnext ih

/-- So many steps lead to something that the run comes through. -/
theorem reaches_steps (n : Nat) {start stage : Stage} {s u : Scene}
    (h : Reaches t c start s stage u) :
    Reaches t c start s (stage.steps t c n u).1 (stage.steps t c n u).2 := by
  induction n generalizing stage u with
  | zero => exact h
  | succ n ih => exact ih (h.next (step_cases t c stage u))

/-- Every step of a run that is not over leaves **fewer stages**. -/
theorem remaining_lt_of_step {a b : Stage} {u v : Scene} (h : Step t c a u b v)
    (hopen : 0 < a.remaining) : b.remaining < a.remaining := by
  cases h <;> simp_all [remaining]

/-- A stage with nothing left is the end of a run. -/
theorem exists_ended_of_remaining {stage : Stage} (h : stage.remaining = 0) :
    ∃ result, stage = ended result := by
  cases stage <;> simp_all [remaining]

/-- A run that takes as many steps as stages are left is over. -/
theorem remaining_steps (n : Nat) (stage : Stage) (s : Scene) (hn : stage.remaining ≤ n) :
    (stage.steps t c n s).1.remaining = 0 := by
  induction n generalizing stage s with
  | zero => exact Nat.le_zero.mp hn
  | succ n ih =>
      have hstep := step_cases t c stage s
      have hfewer : (stage.step t c s).1.remaining ≤ n := by
        rcases Nat.eq_zero_or_pos stage.remaining with hzero | hpos
        · obtain ⟨result, rfl⟩ := exists_ended_of_remaining hzero
          exact Nat.zero_le n
        · have hlt := remaining_lt_of_step hstep hpos
          omega
      exact ih _ _ hfewer

end Stage

/-- A whole run **comes to an end**, with a result that its report follows. -/
theorem Scene.run_eq (t : Toolchain) (c : Config) (elapsedMs : Nat) (s : Scene) :
    ∃ (result : Except Fault Unit) (last : Scene),
      Stage.Reaches t c .claiming s (.ended result) last ∧
        s.run t c elapsedMs = (last, last.session.reportOf elapsedMs result) := by
  have hstart : Stage.Reaches t c .claiming s .claiming s := .here
  have hreaches := Stage.reaches_steps Stage.claiming.remaining hstart
  obtain ⟨result, hresult⟩ := Stage.exists_ended_of_remaining
    (Stage.remaining_steps (t := t) (c := c) _ .claiming s (Nat.le_refl _))
  refine ⟨result, (Stage.claiming.toEnd t c s).2, ?_, ?_⟩
  · rw [← hresult]
    exact hreaches
  · have hend : (Stage.claiming.toEnd t c s).1 = .ended result := hresult
    simp only [Scene.run, hend, Stage.result?, Option.getD_some]

/-- A session that does not wait is **not run**: nothing changes. -/
theorem Scene.run_of_not_pending (t : Toolchain) (c : Config) (elapsedMs : Nat) (s : Scene)
    (h : s.session.phase ≠ .pending) :
    s.run t c elapsedMs = (s, .error (.alreadyRun s.session.id)) := by
  have hclaim : Stage.claiming.step t c s = (.ended (.error (.alreadyRun s.session.id)), s) := by
    simp [Stage.step, Stage.claim, Session.claim?, h]
  have hstay : ∀ n, (Stage.ended (.error (.alreadyRun s.session.id))).steps t c n s =
      (.ended (.error (.alreadyRun s.session.id)), s) := by
    intro n
    induction n with
    | zero => rfl
    | succ n ih => exact ih
  have hend : Stage.claiming.toEnd t c s = (.ended (.error (.alreadyRun s.session.id)), s) := by
    rw [Stage.toEnd, Stage.remaining, Stage.steps, hclaim]
    exact hstay _
  rw [Scene.run, hend]
  rfl

end CapabilityGate
