import CapabilityGate.Proofs.Run.Reach
import CapabilityGate.Proofs.Run.Workspace

/-!
# The outcome of a run

A run stops at the first stage that decides how it ends, and its outcome is the one of that stage.
What a run knows of its program when it comes to a stage is an invariant of its steps, from which
this follows.

## Main definitions

* `Admitted`, `Linked`: what is known of a program that may be compiled, and of its libraries.
* `Stops`, `firstStop`: the outcome of the first stage that stops a run, if one does.
* `EndsWith`, `Aborts`: how a run ends.
* `Known`, `Knows`: what a run knows at a stage.

## Main results

* `Sandbox.outcome_of_execute`: what is executed comes to its end or is stopped.
* `EndsWith.unique`: a run has one outcome at most.
* `Knows.step`: a step finds out what the next stage knows.
* `knows_of_reaches`: a run knows what its stages know.
-/

namespace CapabilityGate

open Program

/-! ### What a run knows -/

variable {t : Toolchain} {c : Config}

/-- A program that **may be compiled**: it is parsed and resolved, and nothing in it is denied. -/
structure Admitted (t : Toolchain) (c : Config) (session : Session) (p : ParsedProgram)
    (m : Model) : Prop where
  /-- The program is parsed. -/
  parsed : t.parse session.source = .ok p
  /-- It is resolved. -/
  resolved : t.resolve p = .ok m
  /-- No call site of it is denied. -/
  passed : (m.verdict (Stage.denied c session)).offending? = none

/-- A program that may be compiled, with the tools and libraries that are needed. -/
structure Linked (t : Toolchain) (c : Config) (session : Session) (files : Files)
    (p : ParsedProgram) (libraries : List Library) : Prop where
  /-- The program may be compiled. -/
  admitted : ∃ m, Admitted t c session p m ∧ t.libraries files m.namespaces = .ok libraries
  /-- The tools are there. -/
  checked : t.check files = .ok ()

/-- What compiling a program in a workspace leaves and yields. -/
def compiling (t : Toolchain) (c : Config) (w : Workspace) (files : Files) (p : ParsedProgram)
    (libraries : List Library) : Files × Except Fault CompileOutcome :=
  t.compile p libraries (w.join c.compiler.artifactName) files

/-- The outcome of the **first stage that stops** a run in the workspace `w`, where there are the
files `files` at first. -/
inductive Stops (t : Toolchain) (c : Config) (session : Session) (w : Workspace) (files : Files) :
    Outcome → Prop
  /-- The program is not parsed. -/
  | parsing {ds : List Diagnostic} (h : t.parse session.source = .error ds) :
      Stops t c session w files (.compileFailed ds)
  /-- It is not resolved. -/
  | resolving {p : ParsedProgram} {ds : List Diagnostic} (hparse : t.parse session.source = .ok p)
      (h : t.resolve p = .error ds) : Stops t c session w files (.compileFailed ds)
  /-- A call site of it is denied. -/
  | auditing {p : ParsedProgram} {m : Model} {site : CallSite}
      (hparse : t.parse session.source = .ok p) (hresolve : t.resolve p = .ok m)
      (h : (m.verdict (Stage.denied c session)).offending? = some site) :
      Stops t c session w files (.policyViolation site)
  /-- It is not compiled. -/
  | compiling {p : ParsedProgram} {libraries : List Library} {after : Files}
      {ds : List Diagnostic} (hlinked : Linked t c session files p libraries)
      (h : CapabilityGate.compiling t c w files p libraries = (after, .ok (.failed ds))) :
      Stops t c session w files (.compileFailed ds)
  /-- It is executed, to its end or its deadline. -/
  | executing {p : ParsedProgram} {libraries : List Library} {after : Files} {path : String}
      {x : Execution} (hlinked : Linked t c session files p libraries)
      (h : CapabilityGate.compiling t c w files p libraries = (after, .ok (.built path)))
      (hexecute : Sandbox.execute c.limits after path [] w.path = .ok x)
      (hend : x.outcome = .timedOut ∨ ∃ code, x.outcome = .completed code) :
      Stops t c session w files x.outcome

/-- A program that is executed comes to its **end or is stopped**. -/
theorem Sandbox.outcome_of_execute {limits : Limits} {f : Files} {path directory : String}
    {arguments : List String} {x : Execution}
    (h : Sandbox.execute limits f path arguments directory = .ok x) :
    x.outcome = .timedOut ∨ ∃ code, x.outcome = .completed code := by
  have hperform : ∃ surroundings script, x = Sandbox.perform limits surroundings script := by
    have hplain := eq_ok_of_mapError h
    split at hplain
    · exact nomatch hplain
    · cases henter : Sandbox.enter f directory with
      | error e => simp [henter, bind, Except.bind] at hplain
      | ok inside =>
          cases hstart : Sandbox.start inside path with
          | error e => simp [henter, hstart, bind, Except.bind] at hplain
          | ok script =>
              simp only [henter, hstart, bind, Except.bind, pure, Except.pure,
                Except.ok.injEq] at hplain
              exact ⟨_, script, hplain.symm⟩
  obtain ⟨surroundings, script, rfl⟩ := hperform
  simp only [Sandbox.perform]
  cases script.endingUnder limits.fileSize with
  | exit code => exact Or.inr ⟨_, rfl⟩
  | signal n => exact Or.inr ⟨_, rfl⟩
  | never => exact Or.inl rfl

/-- The outcome of the first stage that stops a run, **if one does**. -/
def firstStop (t : Toolchain) (c : Config) (session : Session) (w : Workspace) (files : Files) :
    Option Outcome :=
  match t.parse session.source with
  | .error ds => some (.compileFailed ds)
  | .ok p =>
    match t.resolve p with
    | .error ds => some (.compileFailed ds)
    | .ok m =>
      match (m.verdict (Stage.denied c session)).offending? with
      | some site => some (.policyViolation site)
      | none =>
        match t.check files, t.libraries files m.namespaces with
        | .ok (), .ok libraries =>
          match compiling t c w files p libraries with
          | (_, .ok (.failed ds)) => some (.compileFailed ds)
          | (after, .ok (.built path)) =>
            (Sandbox.execute c.limits after path [] w.path).toOption.map Execution.outcome
          | (_, .error _) => none
        | _, _ => none

/-- A stage that stops a run is **the first one**. -/
theorem Stops.firstStop_eq {session : Session} {w : Workspace} {files : Files} {outcome : Outcome}
    (h : Stops t c session w files outcome) : firstStop t c session w files = some outcome := by
  cases h with
  | parsing hparse => rw [firstStop, hparse]
  | resolving hparse hresolve => simp only [firstStop, hparse, hresolve]
  | auditing hparse hresolve hdenied => simp only [firstStop, hparse, hresolve, hdenied]
  | compiling hlinked hcompile =>
      obtain ⟨⟨m, hadmitted, hlibraries⟩, hcheck⟩ := hlinked
      simp only [firstStop, hadmitted.parsed, hadmitted.resolved, hadmitted.passed, hcheck,
        hlibraries, hcompile]
  | executing hlinked hcompile hexecute hend =>
      obtain ⟨⟨m, hadmitted, hlibraries⟩, hcheck⟩ := hlinked
      simp only [firstStop, hadmitted.parsed, hadmitted.resolved, hadmitted.passed, hcheck,
        hlibraries, hcompile, hexecute]
      rfl

/-! ### Outcomes -/

/-- The workspace of a run that starts at the scene `s` is made, which leaves the files `files`. -/
def Made (c : Config) (s : Scene) (w : Workspace) (files : Files) : Prop :=
  Workspace.create c.workspace s.session.id s.files = (files, .ok w)

/-- A run that starts at the scene `s` ends with the outcome of the **first stage that stops
it**. -/
def EndsWith (t : Toolchain) (c : Config) (s : Scene) (outcome : Outcome) : Prop :=
  ∃ w files, Made c s w files ∧ Stops t c s.session w files outcome

variable {s : Scene} {w : Workspace} {files : Files} {outcome : Outcome}

/-- The workspace that is made decides the first stage **that stops a run**. -/
theorem Made.firstStop_eq (hmade : Made c s w files) (h : EndsWith t c s outcome) :
    firstStop t c s.session w files = some outcome := by
  obtain ⟨w', files', hmade', hstops⟩ := h
  rw [Made, hmade'] at hmade
  obtain ⟨rfl, hw⟩ := Prod.mk.inj hmade
  rw [← Except.ok.inj hw]
  exact hstops.firstStop_eq

/-- A run has **one outcome** at most. -/
theorem EndsWith.unique {other : Outcome} (h : EndsWith t c s outcome)
    (hother : EndsWith t c s other) : outcome = other := by
  obtain ⟨w, files, hmade, hstops⟩ := h
  exact Option.some.inj (hstops.firstStop_eq.symm.trans (hmade.firstStop_eq hother))

/-- A run **aborts** if no stage stops it with an outcome. -/
def Aborts (t : Toolchain) (c : Config) (s : Scene) : Prop :=
  ∀ outcome, ¬ EndsWith t c s outcome

/-- A run that no stage stops **aborts**. -/
theorem Made.aborts (hmade : Made c s w files)
    (h : firstStop t c s.session w files = none) : Aborts t c s := by
  intro outcome hends
  rw [hmade.firstStop_eq hends] at h
  exact nomatch h

/-- A run without a workspace **aborts**. -/
theorem aborts_of_create {e : Fault}
    (hcreate : Workspace.create c.workspace s.session.id s.files = (files, .error e)) :
    Aborts t c s := by
  rintro outcome ⟨w, files', hmade, -⟩
  rw [Made, hcreate] at hmade
  exact nomatch (Prod.mk.inj hmade).2

/-- What is known of the **result** of a run before its workspace is removed. -/
def Comes (t : Toolchain) (c : Config) (s : Scene) : Except Fault Outcome → Prop
  | .ok outcome => EndsWith t c s outcome
  | .error _ => Aborts t c s

/-- What is known of the **result** of a run after that, at the scene `u`. -/
def Closes (t : Toolchain) (c : Config) (s u : Scene) : Except Fault Unit → Prop
  | .ok () => ∃ outcome, u.session.ended = some outcome ∧ EndsWith t c s outcome
  | .error e => s.session.phase = .pending →
    Aborts t c s ∨ ∃ path cause, e = .removal path cause

/-- What is known of the program and of the outcome at a stage of a run that starts at the scene
`s`. -/
def Known (t : Toolchain) (c : Config) (s : Scene) : Stage → Scene → Prop
  | .claiming, u => u = s
  | .creating, u => u.files = s.files
  | .parsing w, u => Made c s w u.files
  | .resolving w p, u => Made c s w u.files ∧ t.parse s.session.source = .ok p
  | .auditing w p m, u =>
    Made c s w u.files ∧ t.parse s.session.source = .ok p ∧ t.resolve p = .ok m
  | .checking w p m, u => Made c s w u.files ∧ Admitted t c s.session p m
  | .linking w p m, u =>
    Made c s w u.files ∧ Admitted t c s.session p m ∧ t.check u.files = .ok ()
  | .compiling w p libraries, u =>
    Made c s w u.files ∧ Linked t c s.session u.files p libraries
  | .executing w path, u => ∃ files p libraries, Made c s w files ∧
    Linked t c s.session files p libraries ∧
      compiling t c w files p libraries = (u.files, .ok (.built path))
  | .removing _ result, _ => Comes t c s result
  | .settling result cleanup, _ => Comes t c s result ∧
    ∀ e, cleanup = .error e → ∃ path cause, e = .removal path cause
  | .closing result, u => Closes t c s u result
  | .ended result, u => Closes t c s u result

/-- Whether it is still open at a stage how the run ends. -/
@[simp]
def Stage.isOpen : Stage → Bool
  | .closing _ | .ended _ => false
  | _ => true

/-- What a run knows at a stage, besides the session that it runs, **which stays the same** but for
what the run finds out. -/
structure Knows (t : Toolchain) (c : Config) (s : Scene) (stage : Stage) (u : Scene) : Prop where
  /-- The session has the same identifier. -/
  id : u.session.id = s.session.id
  /-- It has the same text. -/
  source : u.session.source = s.session.source
  /-- It denies the same. -/
  denylist : u.session.denylist = s.session.denylist
  /-- It has no outcome too soon. -/
  unsettled : stage.isOpen = true → u.session.ended = none
  /-- What is known of the program and of the outcome. -/
  known : Known t c s stage u

/-- A step finds out **what the next stage knows**. -/
theorem Knows.step {a b : Stage} {u v : Scene} (hstep : Stage.Step t c a u b v)
    (h : Knows t c s a u) : Knows t c s b v := by
  obtain ⟨hid, hsource, hdenylist, hunsettled, hknown⟩ := h
  have hdenied : Stage.denied c u.session = Stage.denied c s.session := by
    rw [Stage.denied, Stage.denied, hdenylist]
  cases hstep with
  | claim hpending =>
      obtain rfl : u = s := hknown
      exact ⟨hid, hsource, hdenylist, hunsettled, rfl⟩
  | refuse hphase =>
      obtain rfl : u = s := hknown
      exact ⟨hid, hsource, hdenylist, by simp, fun hpending => absurd hpending hphase⟩
  | @create u files w hcreate =>
      have hfiles : u.files = s.files := hknown
      rw [hid, hfiles] at hcreate
      exact ⟨hid, hsource, hdenylist, hunsettled, hcreate⟩
  | createFailed hcreate =>
      have hfiles : u.files = s.files := hknown
      rw [hid, hfiles] at hcreate
      exact ⟨hid, hsource, hdenylist, by simp, fun _ => Or.inl (aborts_of_create hcreate)⟩
  | parse hparse =>
      rw [hsource] at hparse
      exact ⟨hid, hsource, hdenylist, hunsettled, hknown, hparse⟩
  | @parseFailed u w ds hparse =>
      rw [hsource] at hparse
      have hends : EndsWith t c s _ := ⟨w, u.files, hknown, .parsing hparse⟩
      exact ⟨hid, hsource, hdenylist, hunsettled, hends⟩
  | resolve hresolve =>
      obtain ⟨hmade, hparse⟩ := hknown
      exact ⟨hid, hsource, hdenylist, hunsettled, hmade, hparse, hresolve⟩
  | @resolveFailed u w p ds hresolve =>
      obtain ⟨hmade, hparse⟩ := hknown
      have hends : EndsWith t c s _ := ⟨w, u.files, hmade, .resolving hparse hresolve⟩
      exact ⟨hid, hsource, hdenylist, hunsettled, hends⟩
  | audit haudit =>
      obtain ⟨hmade, hparse, hresolve⟩ := hknown
      rw [hdenied] at haudit
      exact ⟨hid, hsource, hdenylist, hunsettled, hmade, hparse, hresolve, haudit⟩
  | @auditFailed u w p m site haudit =>
      obtain ⟨hmade, hparse, hresolve⟩ := hknown
      rw [hdenied] at haudit
      have hends : EndsWith t c s _ := ⟨w, u.files, hmade, .auditing hparse hresolve haudit⟩
      exact ⟨hid, hsource, hdenylist, hunsettled, hends⟩
  | check hcheck =>
      obtain ⟨hmade, hadmitted⟩ := hknown
      exact ⟨hid, hsource, hdenylist, hunsettled, hmade, hadmitted, hcheck⟩
  | @checkFailed u w p m e hcheck =>
      obtain ⟨hmade, hadmitted⟩ := hknown
      have hnone : firstStop t c s.session w u.files = none := by
        simp only [firstStop, hadmitted.parsed, hadmitted.resolved, hadmitted.passed, hcheck]
      exact ⟨hid, hsource, hdenylist, hunsettled, hmade.aborts hnone⟩
  | link hlink =>
      obtain ⟨hmade, hadmitted, hcheck⟩ := hknown
      exact ⟨hid, hsource, hdenylist, hunsettled, hmade, ⟨_, hadmitted, hlink⟩, hcheck⟩
  | @linkFailed u w p m e hlink =>
      obtain ⟨hmade, hadmitted, hcheck⟩ := hknown
      have hnone : firstStop t c s.session w u.files = none := by
        simp only [firstStop, hadmitted.parsed, hadmitted.resolved, hadmitted.passed, hcheck,
          hlink]
      exact ⟨hid, hsource, hdenylist, hunsettled, hmade.aborts hnone⟩
  | compile hcompile =>
      obtain ⟨hmade, hlinked⟩ := hknown
      exact ⟨hid, hsource, hdenylist, hunsettled, _, _, _, hmade, hlinked, hcompile⟩
  | @compileFailed u w p libraries files ds hcompile =>
      obtain ⟨hmade, hlinked⟩ := hknown
      have hends : EndsWith t c s _ := ⟨w, u.files, hmade, .compiling hlinked hcompile⟩
      exact ⟨hid, hsource, hdenylist, hunsettled, hends⟩
  | @compileBroken u w p libraries files e hcompile =>
      obtain ⟨hmade, ⟨m, hadmitted, hlibraries⟩, hcheck⟩ := hknown
      have hbroken : CapabilityGate.compiling t c w u.files p libraries = (files, .error e) :=
        hcompile
      have hnone : firstStop t c s.session w u.files = none := by
        simp only [firstStop, hadmitted.parsed, hadmitted.resolved, hadmitted.passed, hcheck,
          hlibraries, hbroken]
      exact ⟨hid, hsource, hdenylist, hunsettled, hmade.aborts hnone⟩
  | @execute u w path x hexecute =>
      obtain ⟨files, p, libraries, hmade, hlinked, hcompile⟩ := hknown
      have hends : EndsWith t c s _ := ⟨w, files, hmade,
        .executing hlinked hcompile hexecute (Sandbox.outcome_of_execute hexecute)⟩
      exact ⟨hid, hsource, hdenylist, hunsettled, hends⟩
  | @executeFailed u w path e hexecute =>
      obtain ⟨files, p, libraries, hmade, ⟨⟨m, hadmitted, hlibraries⟩, hcheck⟩, hcompile⟩ := hknown
      have hnone : firstStop t c s.session w files = none := by
        simp only [firstStop, hadmitted.parsed, hadmitted.resolved, hadmitted.passed, hcheck,
          hlibraries, hcompile, hexecute]
        rfl
      exact ⟨hid, hsource, hdenylist, hunsettled, hmade.aborts hnone⟩
  | remove =>
      exact ⟨hid, hsource, hdenylist, hunsettled, hknown, fun _ => Workspace.fault_of_destroy⟩
  | @settle u outcome cleanup =>
      have hnone : u.session.ended = none := hunsettled rfl
      obtain ⟨hends, hcleanup⟩ := hknown
      refine ⟨hid, hsource, hdenylist, by simp, ?_⟩
      cases cleanup with
      | ok value => exact ⟨outcome, by simp [Session.settle, hnone], hends⟩
      | error e => exact fun _ => Or.inr (hcleanup e rfl)
  | settleFailed => exact ⟨hid, hsource, hdenylist, by simp, fun _ => Or.inl hknown.1⟩
  | @close u result =>
      refine ⟨hid, hsource, hdenylist, by simp, ?_⟩
      cases result with
      | ok value => exact hknown
      | error e => exact hknown
  | stay => exact ⟨hid, hsource, hdenylist, by simp, hknown⟩

/-- A run that starts with a session without outcome **knows** what its stages know. -/
theorem knows_of_reaches {s u : Scene} {stage : Stage} (hended : s.session.ended = none)
    (h : Stage.Reaches t c .claiming s stage u) : Knows t c s stage u :=
  h.invariant ⟨rfl, rfl, rfl, fun _ => hended, rfl⟩ Knows.step

end CapabilityGate
