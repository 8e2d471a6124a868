import CapabilityGate.Process.Sandbox
import CapabilityGate.Run.Session
import CapabilityGate.Run.Toolchain
import CapabilityGate.Run.Workspace

/-!
# Runs, stage by stage

A run takes its session, makes a workspace, and has the program parsed, resolved, audited,
compiled and executed there. It stops at the first stage that decides how it ends. Then it removes
the workspace, and only after that it is finished. Each stage is one step, so that the steps of
several runs can be put in any order.

## Main definitions

* `Scene`: what the steps of a run act on.
* `Stage`: what is to be done next in a run.
* `Stage.step`: does it.
* `Scene.run`: a whole run.
-/

namespace CapabilityGate

/-- Something that happens in a run. -/
inductive Event where
  /-- The session enters a phase. -/
  | enter (phase : Phase)
  /-- The program is parsed. -/
  | parse
  /-- The program is resolved. -/
  | resolve (p : ParsedProgram)
  /-- The tools are looked for. -/
  | check
  /-- The libraries of a program that refers to some crates are looked up. -/
  | link (namespaces : List String)
  /-- The program is compiled to the path `output`, while there are the paths `found` in the
  workspace. -/
  | compile (libraries : List Library) (output : String) (found : List String)
  /-- The program at a path is executed. -/
  | execute (path : String)

/-- What the steps of a run act on. -/
structure Scene where
  /-- The session. -/
  session : Session
  /-- The files. -/
  files : Files
  /-- What has happened, in order. -/
  log : List Event

namespace Scene

/-- The scene after something has happened. -/
def note (s : Scene) (e : Event) : Scene :=
  { s with log := s.log ++ [e] }

/-- The scene with its session in another phase. -/
def enter (s : Scene) (phase : Phase) : Scene :=
  { s with session := s.session.enter phase }.note (.enter phase)

end Scene

/-- What is to be done next in a run. -/
inductive Stage where
  /-- To take the session. -/
  | claiming
  /-- To make the workspace. -/
  | creating
  /-- To parse the program. -/
  | parsing (w : Workspace)
  /-- To resolve it. -/
  | resolving (w : Workspace) (p : ParsedProgram)
  /-- To check it against the denylists. -/
  | auditing (w : Workspace) (p : ParsedProgram) (m : Model)
  /-- To look for the tools. -/
  | checking (w : Workspace) (p : ParsedProgram) (m : Model)
  /-- To look up its libraries. -/
  | linking (w : Workspace) (p : ParsedProgram) (m : Model)
  /-- To compile it. -/
  | compiling (w : Workspace) (p : ParsedProgram) (libraries : List Library)
  /-- To execute what it was compiled to. -/
  | executing (w : Workspace) (path : String)
  /-- To remove the workspace. -/
  | removing (w : Workspace) (result : Except Fault Outcome)
  /-- To say how the run ended. -/
  | settling (result : Except Fault Outcome) (cleanup : Except Fault Unit)
  /-- To finish. -/
  | closing (result : Except Fault Unit)
  /-- Nothing. -/
  | ended (result : Except Fault Unit)

namespace Stage

/-- How many stages are left at most. -/
def remaining : Stage → Nat
  | claiming => 12
  | creating => 11
  | parsing _ => 10
  | resolving _ _ => 9
  | auditing _ _ _ => 8
  | checking _ _ _ => 7
  | linking _ _ _ => 6
  | compiling _ _ _ => 5
  | executing _ _ => 4
  | removing _ _ => 3
  | settling _ _ => 2
  | closing _ => 1
  | ended _ => 0

/-- The result of a run that is over. -/
def result? : Stage → Option (Except Fault Unit)
  | ended result => some result
  | _ => none

/-- Everything that is denied to the program of a session. -/
def denied (c : Config) (s : Session) : List Descriptor :=
  withoutRepeats (c.denylist ++ s.denylist)

/-- Takes the session. -/
def claim (s : Scene) : Stage × Scene :=
  match s.session.claim? with
  | some session => (creating, { s with session }.note (.enter session.phase))
  | none => (ended (.error (.alreadyRun s.session.id)), s)

/-- Makes the workspace. -/
def create (c : Config) (s : Scene) : Stage × Scene :=
  match Workspace.create c.workspace s.session.id s.files with
  | (files, .ok w) => (parsing w, { s with files, session := s.session.place w.path })
  | (files, .error e) => (closing (.error e), { s with files })

/-- Parses the program. -/
def parse (t : Toolchain) (w : Workspace) (s : Scene) : Stage × Scene :=
  match t.parse s.session.source with
  | .ok p => (resolving w p, s.note .parse)
  | .error diagnostics => (removing w (.ok (.compileFailed diagnostics)), s.note .parse)

/-- Resolves the program. -/
def resolve (t : Toolchain) (w : Workspace) (p : ParsedProgram) (s : Scene) : Stage × Scene :=
  match t.resolve p with
  | .ok m => (auditing w p m, s.note (.resolve p))
  | .error diagnostics => (removing w (.ok (.compileFailed diagnostics)), s.note (.resolve p))

/-- Checks the program against the denylists. -/
def audit (c : Config) (w : Workspace) (p : ParsedProgram) (m : Model) (s : Scene) :
    Stage × Scene :=
  match (m.verdict (denied c s.session)).offending? with
  | some site => (removing w (.ok (.policyViolation site)), s.enter .auditing)
  | none => (checking w p m, s.enter .auditing)

/-- Looks for the tools. -/
def check (t : Toolchain) (w : Workspace) (p : ParsedProgram) (m : Model) (s : Scene) :
    Stage × Scene :=
  match t.check s.files with
  | .ok () => (linking w p m, (s.enter .building).note .check)
  | .error e => (removing w (.error e), (s.enter .building).note .check)

/-- Looks up the libraries of the program. -/
def link (t : Toolchain) (w : Workspace) (p : ParsedProgram) (m : Model) (s : Scene) :
    Stage × Scene :=
  match t.libraries s.files m.namespaces with
  | .ok libraries => (compiling w p libraries, s.note (.link m.namespaces))
  | .error e => (removing w (.error e), s.note (.link m.namespaces))

/-- Compiles the program. -/
def compile (t : Toolchain) (c : Config) (w : Workspace) (p : ParsedProgram)
    (libraries : List Library) (s : Scene) : Stage × Scene :=
  let output := w.join c.compiler.artifactName
  let noted := s.note (.compile libraries output (s.files.below w.path))
  match t.compile p libraries output s.files with
  | (files, .ok (.built path)) => (executing w path, { noted with files })
  | (files, .ok (.failed diagnostics)) =>
    (removing w (.ok (.compileFailed diagnostics)), { noted with files })
  | (files, .error e) => (removing w (.error e), { noted with files })

/-- Executes the program. -/
def execute (t : Toolchain) (c : Config) (w : Workspace) (path : String) (s : Scene) :
    Stage × Scene :=
  let noted := (s.enter .executing).note (.execute path)
  match Sandbox.execute c.limits s.files path [] w.path with
  | .ok x =>
    (removing w (.ok x.outcome),
      { noted with
        session := noted.session.write x.chunks
        files := t.aftermath path w.path s.files })
  | .error e => (removing w (.error e), noted)

/-- Removes the workspace. -/
def remove (w : Workspace) (result : Except Fault Outcome) (s : Scene) : Stage × Scene :=
  match w.destroy s.files with
  | (files, cleanup) => (settling result cleanup, { s with files })

/-- Says how the run ended. A fault before the removal counts more than one of the removal. -/
def settle (result : Except Fault Outcome) (cleanup : Except Fault Unit) (s : Scene) :
    Stage × Scene :=
  match result with
  | .ok outcome => (closing cleanup, { s with session := s.session.settle outcome })
  | .error e => (closing (.error e), s)

/-- Does what is **next** in a run. -/
def step (t : Toolchain) (c : Config) : Stage → Scene → Stage × Scene
  | claiming, s => claim s
  | creating, s => create c s
  | parsing w, s => parse t w s
  | resolving w p, s => resolve t w p s
  | auditing w p m, s => audit c w p m s
  | checking w p m, s => check t w p m s
  | linking w p m, s => link t w p m s
  | compiling w p libraries, s => compile t c w p libraries s
  | executing w path, s => execute t c w path s
  | removing w result, s => remove w result s
  | settling result cleanup, s => settle result cleanup s
  | closing result, s => (ended result, s.enter .finished)
  | ended result, s => (ended result, s)

/-- Takes so many steps. -/
def steps (t : Toolchain) (c : Config) : Nat → Stage → Scene → Stage × Scene
  | 0, stage, s => (stage, s)
  | n + 1, stage, s =>
    match stage.step t c s with
    | (stage, s) => steps t c n stage s

/-- Takes all steps that are left. -/
def toEnd (t : Toolchain) (c : Config) (stage : Stage) (s : Scene) : Stage × Scene :=
  stage.steps t c stage.remaining s

end Stage

/-- The report of a session whose run had a result after so many milliseconds. -/
def Session.reportOf (s : Session) (elapsedMs : Nat) (result : Except Fault Unit) :
    Except Fault RunReport :=
  result.map fun () => s.report elapsedMs

/-- A whole **run** that takes so many milliseconds: the scene after it, and its report or why it
broke off. -/
def Scene.run (t : Toolchain) (c : Config) (elapsedMs : Nat) (s : Scene) :
    Scene × Except Fault RunReport :=
  match Stage.claiming.toEnd t c s with
  | (stage, s) =>
    (s, s.session.reportOf elapsedMs (stage.result?.getD (.error (.alreadyRun s.session.id))))

end CapabilityGate
