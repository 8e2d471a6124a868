import CapabilityGate.Proofs.Run.Ending
import CapabilityGate.Proofs.Run.Phases

/-!
# The order of a run

The events of a run tell of compiling and executing only in their turn: a program is compiled once
at most, when nothing in it is denied, and executed once at most, after it has been built. Together
with the phases and the outcome of a run this is the law of the order of its stages.

## Main definitions

* `Account`: what the events of a run tell of compiling and executing.
* `Session.Reachable`: the sessions that there can be.
* `InOrder`: the law of the order of stages.

## Main results

* `recorded_of_reaches`: a run is recorded by its events.
* `run_in_order`: every run keeps the order of its stages.
-/

namespace CapabilityGate

open Program

variable {t : Toolchain} {c : Config} {events : List Event} {stage after : Stage}

/-! ### Compiling and executing -/

/-- Whether an event neither compiles nor executes anything. -/
def Event.isQuiet : Event → Bool
  | .compile .. | .execute _ => false
  | _ => true

/-- What the events of a run that starts at the scene `s` tell of **compiling and executing**: a
program is compiled once at most, when it may be, and executed once at most, right after it has
been built. -/
inductive Account (t : Toolchain) (c : Config) (s : Scene) : List Event → Prop
  /-- Nothing is compiled or executed. -/
  | neither {events : List Event} (h : events.all Event.isQuiet = true) : Account t c s events
  /-- A program is compiled. -/
  | compiled {before behind : List Event} {w : Workspace} {files : Files} {p : ParsedProgram}
      {libraries : List Library} {found : List String}
      (hbefore : before.all Event.isQuiet = true) (hbehind : behind.all Event.isQuiet = true)
      (hmade : Made c s w files) (hlinked : Linked t c s.session files p libraries) :
      Account t c s
        (before ++ .compile libraries (w.join c.compiler.artifactName) found :: behind)
  /-- A program is compiled, built and executed. -/
  | executed {before behind : List Event} {w : Workspace} {files after : Files}
      {p : ParsedProgram} {libraries : List Library} {path : String} {found : List String}
      (hbefore : before.all Event.isQuiet = true) (hbehind : behind.all Event.isQuiet = true)
      (hmade : Made c s w files) (hlinked : Linked t c s.session files p libraries)
      (hbuilt : compiling t c w files p libraries = (after, .ok (.built path))) :
      Account t c s
        (before ++ .compile libraries (w.join c.compiler.artifactName) found ::
          .enter .executing :: .execute path :: behind)

/-- What the events of a run tell when it has come to a stage. -/
def Accounted (t : Toolchain) (c : Config) (s : Scene) : Stage → List Event → Prop
  | .executing w path, events => ∃ before files p libraries found after,
    events = before ++ [.compile libraries (w.join c.compiler.artifactName) found] ∧
      before.all Event.isQuiet = true ∧ Made c s w files ∧
        Linked t c s.session files p libraries ∧
          compiling t c w files p libraries = (after, .ok (.built path))
  | .removing _ _, events => Account t c s events
  | .settling _ _, events => Account t c s events
  | .closing _, events => Account t c s events
  | .ended _, events => Account t c s events
  | _, events => events.all Event.isQuiet = true

/-- What else may happen after an account leaves it true. -/
theorem Account.append {s : Scene} {events more : List Event} (h : Account t c s events)
    (hmore : more.all Event.isQuiet = true) : Account t c s (events ++ more) := by
  cases h with
  | neither hquiet => exact .neither (by rw [List.all_append, hquiet, hmore]; rfl)
  | compiled hbefore hbehind hmade hlinked =>
      rw [List.append_assoc, List.cons_append]
      refine .compiled hbefore ?_ hmade hlinked
      rw [List.all_append, hbehind, hmore]
      rfl
  | executed hbefore hbehind hmade hlinked hbuilt =>
      rw [List.append_assoc, List.cons_append, List.cons_append, List.cons_append]
      refine .executed hbefore ?_ hmade hlinked hbuilt
      rw [List.all_append, hbehind, hmore]
      rfl

/-- What the events of a run since the scene `s` tell, and that nothing is written before the
program executes. -/
def RecordedSince (t : Toolchain) (c : Config) (s : Scene) (stage : Stage) (u : Scene) : Prop :=
  ∃ events, u.log = s.log ++ events ∧ Accounted t c s stage events ∧
    (u.session.output = s.session.output ∨ Event.enter .executing ∈ events)

/-- A step that writes nothing goes on with the record by what it notes. -/
theorem RecordedSince.more {s u v : Scene} {a b : Stage} {more : List Event}
    (h : RecordedSince t c s a u) (hlog : v.log = u.log ++ more)
    (houtput : v.session.output = u.session.output)
    (haccount : ∀ events, Accounted t c s a events → Accounted t c s b (events ++ more)) :
    RecordedSince t c s b v := by
  obtain ⟨events, hevents, haccounted, hwritten⟩ := h
  refine ⟨events ++ more, ?_, haccount events haccounted, ?_⟩
  · rw [hlog, hevents, List.append_assoc]
  · rcases hwritten with hsame | hentered
    · exact Or.inl (houtput.trans hsame)
    · exact Or.inr (List.mem_append_left _ hentered)

/-- Executing what has been built completes the record. -/
theorem RecordedSince.execute {s u v : Scene} {w : Workspace} {path : String}
    {result : Except Fault Outcome} (h : RecordedSince t c s (.executing w path) u)
    (hlog : v.log = u.log ++ [.enter .executing, .execute path]) :
    RecordedSince t c s (.removing w result) v := by
  obtain ⟨events, hevents, haccounted, -⟩ := h
  obtain ⟨before, files, p, libraries, found, after, rfl, hquiet, hmade, hlinked, hbuilt⟩ :=
    haccounted
  have haccount : Account t c s
      (before ++ .compile libraries (w.join c.compiler.artifactName) found ::
        .enter .executing :: [.execute path]) :=
    .executed hquiet List.all_nil hmade hlinked hbuilt
  refine ⟨_, ?_, haccount, Or.inr (by simp)⟩
  rw [hlog, hevents]
  simp

/-- Events that are quiet stay so with more that are. -/
theorem all_isQuiet_append {events more : List Event} (h : events.all Event.isQuiet = true)
    (hmore : more.all Event.isQuiet = true) : (events ++ more).all Event.isQuiet = true := by
  rw [List.all_append, h, hmore]
  rfl

/-- A step **goes on with the record** of its run. -/
theorem RecordedSince.step {s : Scene} {a b : Stage} {u v : Scene}
    (hstep : Stage.Step t c a u b v) (hknows : Knows t c s a u)
    (h : RecordedSince t c s a u) : RecordedSince t c s b v := by
  have hknown := hknows.known
  cases hstep with
  | claim hpending => exact h.more rfl rfl fun _ hquiet => all_isQuiet_append hquiet rfl
  | refuse hphase =>
      refine h.more (List.append_nil _).symm rfl fun _ hquiet => .neither ?_
      exact all_isQuiet_append hquiet rfl
  | create hcreate =>
      exact h.more (List.append_nil _).symm rfl fun _ hquiet => all_isQuiet_append hquiet rfl
  | createFailed hcreate =>
      refine h.more (List.append_nil _).symm rfl fun _ hquiet => .neither ?_
      exact all_isQuiet_append hquiet rfl
  | parse hparse => exact h.more rfl rfl fun _ hquiet => all_isQuiet_append hquiet rfl
  | parseFailed hparse =>
      exact h.more rfl rfl fun _ hquiet => .neither (all_isQuiet_append hquiet rfl)
  | resolve hresolve => exact h.more rfl rfl fun _ hquiet => all_isQuiet_append hquiet rfl
  | resolveFailed hresolve =>
      exact h.more rfl rfl fun _ hquiet => .neither (all_isQuiet_append hquiet rfl)
  | audit haudit => exact h.more rfl rfl fun _ hquiet => all_isQuiet_append hquiet rfl
  | auditFailed haudit =>
      exact h.more rfl rfl fun _ hquiet => .neither (all_isQuiet_append hquiet rfl)
  | check hcheck =>
      refine h.more (List.append_assoc _ _ _) rfl fun _ hquiet => ?_
      exact all_isQuiet_append hquiet rfl
  | checkFailed hcheck =>
      refine h.more (List.append_assoc _ _ _) rfl fun _ hquiet => .neither ?_
      exact all_isQuiet_append hquiet rfl
  | link hlink => exact h.more rfl rfl fun _ hquiet => all_isQuiet_append hquiet rfl
  | linkFailed hlink =>
      exact h.more rfl rfl fun _ hquiet => .neither (all_isQuiet_append hquiet rfl)
  | compile hcompile =>
      obtain ⟨hmade, hlinked⟩ := hknown
      exact h.more rfl rfl fun events hquiet =>
        ⟨events, _, _, _, _, _, rfl, hquiet, hmade, hlinked, hcompile⟩
  | compileFailed hcompile =>
      obtain ⟨hmade, hlinked⟩ := hknown
      exact h.more rfl rfl fun _ hquiet => .compiled hquiet rfl hmade hlinked
  | compileBroken hcompile =>
      obtain ⟨hmade, hlinked⟩ := hknown
      exact h.more rfl rfl fun _ hquiet => .compiled hquiet rfl hmade hlinked
  | execute hexecute => exact h.execute (List.append_assoc _ _ _)
  | executeFailed hexecute => exact h.execute (List.append_assoc _ _ _)
  | remove => exact h.more (List.append_nil _).symm rfl fun _ haccount => haccount.append rfl
  | settle => exact h.more (List.append_nil _).symm rfl fun _ haccount => haccount.append rfl
  | settleFailed => exact h.more (List.append_nil _).symm rfl fun _ haccount => haccount.append rfl
  | close => exact h.more rfl rfl fun _ haccount => haccount.append rfl
  | stay => exact h

/-- A run that starts with a session without outcome **is recorded** by its events. -/
theorem recorded_of_reaches {s u : Scene} (hended : s.session.ended = none)
    (h : Stage.Reaches t c .claiming s stage u) : RecordedSince t c s stage u := by
  have hboth : Knows t c s stage u ∧ RecordedSince t c s stage u := by
    have hstart : Knows t c s .claiming s := ⟨rfl, rfl, rfl, fun _ => hended, rfl⟩
    refine h.invariant (P := fun a u => Knows t c s a u ∧ RecordedSince t c s a u)
      ⟨hstart, [], (List.append_nil _).symm, rfl, Or.inl rfl⟩ ?_
    intro a b u v hstep hboth
    exact ⟨Knows.step hstep hboth.1, RecordedSince.step hstep hboth.1 hboth.2⟩
  exact hboth.2

/-! ### What the record tells -/

/-- Whether an event executes something. -/
def Event.isExecute : Event → Bool
  | .execute _ => true
  | _ => false

/-- Quiet events **execute nothing**. -/
theorem filter_isExecute_of_quiet (h : events.all Event.isQuiet = true) :
    events.filter Event.isExecute = [] := by
  rw [List.filter_eq_nil_iff]
  intro e he hexecute
  have hquiet := List.all_eq_true.mp h e he
  cases e with
  | execute path => exact Bool.noConfusion hquiet
  | _ => exact Bool.noConfusion hexecute

/-- An account tells of **one execution** at most. -/
theorem Account.execute_once {s : Scene} (h : Account t c s events) :
    (events.filter Event.isExecute).length ≤ 1 := by
  cases h with
  | neither hquiet =>
      rw [filter_isExecute_of_quiet hquiet]
      exact Nat.zero_le 1
  | compiled hbefore hbehind hmade hlinked =>
      rw [List.filter_append, filter_isExecute_of_quiet hbefore,
        List.filter_cons_of_neg (by simp [Event.isExecute]), filter_isExecute_of_quiet hbehind]
      exact Nat.zero_le 1
  | executed hbefore hbehind hmade hlinked hbuilt =>
      rw [List.filter_append, filter_isExecute_of_quiet hbefore,
        List.filter_cons_of_neg (by simp [Event.isExecute]),
        List.filter_cons_of_neg (by simp [Event.isExecute]), List.filter_cons_of_pos rfl,
        filter_isExecute_of_quiet hbehind]
      exact Nat.le_refl 1

/-- A program that an account tells to be compiled **may be**, and is compiled to the path of the
artifact. -/
theorem Account.of_compile {s : Scene} (h : Account t c s events)
    {libraries : List Library} {output : String} {found : List String}
    (hcompile : .compile libraries output found ∈ events) :
    ∃ w files p, output = w.join c.compiler.artifactName ∧ Made c s w files ∧
      Linked t c s.session files p libraries := by
  have hloud : ∀ {es : List Event}, es.all Event.isQuiet = true →
      .compile libraries output found ∉ es := by
    intro es hquiet hmem
    exact Bool.noConfusion (List.all_eq_true.mp hquiet _ hmem)
  cases h with
  | neither hquiet => exact absurd hcompile (hloud hquiet)
  | compiled hbefore hbehind hmade hlinked =>
      rcases List.mem_append.mp hcompile with hmem | hmem
      · exact absurd hmem (hloud hbefore)
      · rcases List.mem_cons.mp hmem with heq | hmem
        · obtain ⟨rfl, rfl, -⟩ := Event.compile.inj heq
          exact ⟨_, _, _, rfl, hmade, hlinked⟩
        · exact absurd hmem (hloud hbehind)
  | executed hbefore hbehind hmade hlinked hbuilt =>
      rcases List.mem_append.mp hcompile with hmem | hmem
      · exact absurd hmem (hloud hbefore)
      · simp only [List.mem_cons, reduceCtorEq, false_or] at hmem
        rcases hmem with heq | hmem
        · obtain ⟨rfl, rfl, -⟩ := Event.compile.inj heq
          exact ⟨_, _, _, rfl, hmade, hlinked⟩
        · exact absurd hmem (hloud hbehind)

/-- A program that an account tells to be compiled **may be**. -/
theorem Account.linked_of_compile {s : Scene} (h : Account t c s events)
    {libraries : List Library} {output : String} {found : List String}
    (hcompile : .compile libraries output found ∈ events) :
    ∃ w files p, Made c s w files ∧ Linked t c s.session files p libraries := by
  obtain ⟨w, files, p, -, hmade, hlinked⟩ := h.of_compile hcompile
  exact ⟨w, files, p, hmade, hlinked⟩

/-- A program at a path that is executed has been **built** there before, as the events tell. -/
def BuiltBefore (t : Toolchain) (c : Config) (s : Scene) (path : String)
    (events : List Event) : Prop :=
  ∃ before behind w files p libraries found after,
    events = before ++ .compile libraries (w.join c.compiler.artifactName) found :: behind ∧
      .execute path ∉ before ∧ Made c s w files ∧ Linked t c s.session files p libraries ∧
        compiling t c w files p libraries = (after, .ok (.built path))

/-- What an account tells to be executed has been **built** before. -/
theorem Account.built_of_execute {s : Scene} (h : Account t c s events) {path : String}
    (hexecute : .execute path ∈ events) : BuiltBefore t c s path events := by
  have hloud : ∀ {es : List Event}, es.all Event.isQuiet = true → .execute path ∉ es := by
    intro es hquiet hmem
    exact Bool.noConfusion (List.all_eq_true.mp hquiet _ hmem)
  cases h with
  | neither hquiet => exact absurd hexecute (hloud hquiet)
  | compiled hbefore hbehind hmade hlinked =>
      rcases List.mem_append.mp hexecute with hmem | hmem
      · exact absurd hmem (hloud hbefore)
      · simp only [List.mem_cons, reduceCtorEq, false_or] at hmem
        exact absurd hmem (hloud hbehind)
  | executed hbefore hbehind hmade hlinked hbuilt =>
      rcases List.mem_append.mp hexecute with hmem | hmem
      · exact absurd hmem (hloud hbefore)
      · simp only [List.mem_cons, reduceCtorEq, Event.execute.injEq, false_or] at hmem
        rcases hmem with rfl | hmem
        · exact ⟨_, _, _, _, _, _, _, _, rfl, hloud hbefore, hmade, hlinked, hbuilt⟩
        · exact absurd hmem (hloud hbehind)

/-! ### The sessions that there can be -/

/-- The **sessions that there can be**: one is made from a text, more may be denied to it, and it
may be anywhere in a run. -/
inductive Session.Reachable : Session → Prop
  /-- A session is made from a text. -/
  | made (id : RunId) (source : String) : Reachable (.ofSource id source)
  /-- More is denied to it. -/
  | denied {session : Session} (h : Reachable session) (more : List Descriptor) :
      Reachable (session.deny more)
  /-- A run with it comes to some stage. -/
  | passed {s u : Scene} {t : Toolchain} {c : Config} {stage : Stage} (h : Reachable s.session)
      (hreaches : Stage.Reaches t c .claiming s stage u) : Reachable u.session

/-- A session that is still waiting has **not been touched** by a run since the scene `s`: the run
has yet to take it, or is over. -/
def Untouched (s : Scene) (stage : Stage) (u : Scene) : Prop :=
  u.session.phase = .pending →
    u = s ∧ (stage = .claiming ∨ ∃ result, stage = .ended result)

/-- A step that enters another phase does not leave the session waiting. -/
theorem untouched_of_phase {s u : Scene} (h : u.session.phase ≠ .pending) :
    Untouched s stage u :=
  fun hpending => absurd hpending h

/-- A session **does not go back** to waiting. -/
theorem Untouched.step {s : Scene} {a b : Stage} {u v : Scene} (hstep : Stage.Step t c a u b v)
    (h : Untouched s a u) : Untouched s b v := by
  have hkeep : v.session.phase = u.session.phase → a ≠ .claiming →
      (∀ result, a ≠ .ended result) → Untouched s b v := by
    intro hphase hclaiming hended hpending
    obtain ⟨-, hbegin | ⟨result, hend⟩⟩ := h (hphase ▸ hpending)
    · exact absurd hbegin hclaiming
    · exact absurd hend (hended result)
  cases hstep with
  | claim hpending => exact untouched_of_phase (by simp [Scene.enter, Scene.note, Session.enter])
  | refuse hphase => exact untouched_of_phase hphase
  | audit haudit => exact untouched_of_phase (by simp [Scene.enter, Scene.note, Session.enter])
  | auditFailed haudit =>
      exact untouched_of_phase (by simp [Scene.enter, Scene.note, Session.enter])
  | check hcheck => exact untouched_of_phase (by simp [Scene.enter, Scene.note, Session.enter])
  | checkFailed hcheck =>
      exact untouched_of_phase (by simp [Scene.enter, Scene.note, Session.enter])
  | execute hexecute =>
      exact untouched_of_phase (by simp [Scene.enter, Scene.note, Session.enter, Session.write])
  | executeFailed hexecute =>
      exact untouched_of_phase (by simp [Scene.enter, Scene.note, Session.enter])
  | close => exact untouched_of_phase (by simp [Scene.enter, Scene.note, Session.enter])
  | stay => exact h
  | _ => exact hkeep rfl (by simp) (by simp)

/-- A session that waits has **no outcome, no workspace and no output**. -/
theorem Session.Reachable.fresh {session : Session} (h : session.Reachable)
    (hpending : session.phase = .pending) :
    session.ended = none ∧ session.workspace = none ∧ session.output = .empty := by
  induction h with
  | made id source => exact ⟨rfl, rfl, rfl⟩
  | denied h more ih => exact ih hpending
  | @passed s u t c stage h hreaches ih =>
      have hstart : Untouched s .claiming s := fun _ => ⟨rfl, Or.inl rfl⟩
      obtain ⟨rfl, -⟩ := hreaches.invariant hstart Untouched.step hpending
      exact ih hpending

/-! ### The law of order -/

/-- A report is made of a run that has **not broken off**. -/
theorem Session.of_reportOf {session : Session} {elapsedMs : Nat} {result : Except Fault Unit}
    {report : RunReport} (h : session.reportOf elapsedMs result = .ok report) :
    result = .ok () ∧ report = session.report elapsedMs := by
  cases result with
  | error e => exact nomatch h
  | ok value => exact ⟨rfl, (Except.ok.inj h).symm⟩

/-- The **law of the order of stages**, for a run that starts at the scene `s`, ends at the scene
`last` with a result, and does the events `events` on the way. -/
structure InOrder (t : Toolchain) (c : Config) (s : Scene) (events : List Event) (last : Scene)
    (result : Except Fault RunReport) : Prop where
  /-- The phases increase from the first one on. -/
  increasing : (Phase.pending :: entered events).Pairwise fun p q => p.rank < q.rank
  /-- The last one is that the run is over, and the session stays in it. -/
  finished : (entered events).getLast? = some .finished ∧ last.session.phase = .finished
  /-- On the way the session is always in the last phase entered so far. -/
  along : ∀ stage u, Stage.Reaches t c .claiming s stage u → PhasedSince s.log stage u
  /-- A program is only compiled when it is parsed and resolved and nothing in it is denied. -/
  admitted : ∀ libraries output found, .compile libraries output found ∈ events →
    ∃ p m, Admitted t c s.session p m
  /-- A program is executed once at most. -/
  once : (events.filter Event.isExecute).length ≤ 1
  /-- It is only executed after it has been built. -/
  built : ∀ path, .execute path ∈ events → BuiltBefore t c s path events
  /-- The outcome that is reported is the one of the first stage that stops the run. -/
  outcome : ∀ report, result = .ok report → EndsWith t c s report.outcome
  /-- If a stage stops the run, its outcome is reported, unless the workspace is not removed. -/
  reported : ∀ outcome, EndsWith t c s outcome →
    (∃ report, result = .ok report ∧ report.outcome = outcome) ∨
      ∃ path cause, result = .error (.removal path cause)
  /-- There is no output unless the program has come to be executed. -/
  silent : ∀ report, result = .ok report → .executing ∉ entered events →
    report.output = "" ∧ report.chunks = []

/-- **Every run keeps the order of its stages**: a session that does not wait is refused and
nothing happens, and one that waits is run in order. -/
theorem run_in_order (t : Toolchain) (c : Config) (elapsedMs : Nat) (s : Scene)
    (hs : s.session.Reachable) :
    (s.session.phase ≠ .pending →
      s.run t c elapsedMs = (s, .error (.alreadyRun s.session.id))) ∧
    (s.session.phase = .pending → ∃ events, (s.run t c elapsedMs).1.log = s.log ++ events ∧
      InOrder t c s events (s.run t c elapsedMs).1 (s.run t c elapsedMs).2) := by
  refine ⟨Scene.run_of_not_pending t c elapsedMs s, fun hpending => ?_⟩
  obtain ⟨hended, -, houtput⟩ := hs.fresh hpending
  obtain ⟨result, last, hreaches, hrun⟩ := Scene.run_eq t c elapsedMs s
  obtain ⟨events, hlog, hphased⟩ := phased_of_reaches hpending hreaches
  obtain ⟨recorded, hrecorded, haccount, hwritten⟩ := recorded_of_reaches hended hreaches
  obtain rfl : recorded = events := List.append_cancel_left (hrecorded.symm.trans hlog)
  have hknown := (knows_of_reaches hended hreaches).known
  rw [hrun]
  refine ⟨recorded, hlog, ?_⟩
  exact
    { increasing := hphased.increasing
      finished := by
        have hfinished := hphased.finished result rfl
        refine ⟨?_, hfinished⟩
        have hcurrent := hphased.current
        rw [hfinished] at hcurrent
        cases hentered : entered recorded with
        | nil => simp [hentered] at hcurrent
        | cons p ps => rwa [hentered, List.getLast?_cons_cons] at hcurrent
      along := fun stage u hstage => phased_of_reaches hpending hstage
      admitted := by
        intro libraries output found hcompile
        obtain ⟨w, files, p, -, hlinked⟩ := Account.linked_of_compile haccount hcompile
        obtain ⟨m, hadmitted, -⟩ := hlinked.admitted
        exact ⟨p, m, hadmitted⟩
      once := Account.execute_once haccount
      built := fun path hexecute => Account.built_of_execute haccount hexecute
      outcome := by
        intro report hreport
        obtain ⟨rfl, rfl⟩ := Session.of_reportOf hreport
        obtain ⟨outcome, hsettled, hends⟩ := hknown
        rwa [Session.report, Session.outcome, hsettled]
      reported := by
        intro outcome hends
        cases result with
        | ok value =>
            obtain ⟨settled, hsettled, hsettles⟩ := hknown
            refine Or.inl ⟨last.session.report elapsedMs, rfl, ?_⟩
            rw [hends.unique hsettles, Session.report, Session.outcome, hsettled]
            rfl
        | error e =>
            rcases hknown hpending with haborts | ⟨path, cause, rfl⟩
            · exact absurd hends (haborts outcome)
            · exact Or.inr ⟨path, cause, rfl⟩
      silent := by
        intro report hreport hquiet
        obtain ⟨rfl, rfl⟩ := Session.of_reportOf hreport
        rcases hwritten with hsame | hentered
        · rw [Session.report, hsame, houtput]
          exact ⟨rfl, rfl⟩
        · have hmem : Phase.executing ∈ entered recorded :=
            List.mem_filterMap.mpr ⟨_, hentered, rfl⟩
          exact absurd hmem hquiet }

/-- A session with a short program, run with a toolchain that finds no library, is run in order. -/
theorem run_in_order_of_made :
    let s : Scene := ⟨.ofSource ⟨"0".toList⟩ "fn main() \x7b\x7d", ⟨.directory [], []⟩, []⟩
    let t := Toolchain.planned [] fun _ _ => .ok []
    s.session.phase = .pending ∧ ∃ events, (s.run t {} 0).1.log = s.log ++ events ∧
      InOrder t {} s events (s.run t {} 0).1 (s.run t {} 0).2 :=
  ⟨rfl, (run_in_order _ {} 0 _ (.made _ _)).2 rfl⟩

end CapabilityGate
