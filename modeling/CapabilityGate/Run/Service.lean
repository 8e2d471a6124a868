import CapabilityGate.Run.Stage

/-!
# The service

A service runs many sessions, so many at a time as it has slots. A run waits for a slot, holds it
through all its stages and gives it back at its end, however it ends. The steps of different runs
may come in any order.

## Main definitions

* `Service`: free slots, runs and files.
* `Service.check`: whether settings allow a service.
* `Service.spawn`: adds a session.
* `Service.step`: a step of one run.
* `Service.finishAll`: lets all runs come to their ends.
-/

namespace CapabilityGate

/-- How far a run of a service is. -/
inductive Progress where
  /-- It waits for a slot. -/
  | waiting
  /-- It holds a slot. -/
  | holding (stage : Stage)
  /-- It is over. -/
  | over (result : Except Fault Unit)

/-- A session of a service. -/
structure ServiceRun where
  /-- The session. -/
  session : Session
  /-- How far its run is. -/
  progress : Progress

/-- Free slots, runs and files. -/
structure Service where
  /-- The number of free slots. -/
  slots : Nat
  /-- The runs, in the order in which they were added. -/
  runs : List ServiceRun
  /-- The files. -/
  files : Files

namespace ServiceRun

/-- The report of a run that is over. -/
def report? (r : ServiceRun) (elapsedMs : Nat) : Option (Except Fault RunReport) :=
  match r.progress with
  | .over result => some (r.session.reportOf elapsedMs result)
  | _ => none

end ServiceRun

namespace Service

/-- Accepts settings for a service: they have to make sense, and so do the allowed libraries. -/
def check (c : Config) : Except Fault Unit := do
  c.validate.mapError .config
  c.libraries.validate

/-- A service without runs. -/
def ofConfig (c : Config) (files : Files) : Service :=
  ⟨c.maxSessions, [], files⟩

/-- Adds a session, whose run waits for a slot. -/
def spawn (s : Service) (session : Session) : Service :=
  { s with runs := s.runs ++ [⟨session, .waiting⟩] }

/-- A **step** of the run number `i`: it takes a slot if there is one, or goes on with its stages.
The slot is free again with the last of them. -/
def step (t : Toolchain) (c : Config) (i : Nat) (s : Service) : Service :=
  match s.runs[i]? with
  | none => s
  | some r =>
    match r.progress with
    | .over _ => s
    | .waiting =>
      if s.slots = 0 then s
      else ⟨s.slots - 1, s.runs.set i ⟨r.session, .holding .claiming⟩, s.files⟩
    | .holding stage =>
      match stage.step t c ⟨r.session, s.files, []⟩ with
      | (.ended result, scene) =>
        ⟨s.slots + 1, s.runs.set i ⟨scene.session, .over result⟩, scene.files⟩
      | (stage, scene) => ⟨s.slots, s.runs.set i ⟨scene.session, .holding stage⟩, scene.files⟩

/-- So many steps of one run. -/
def steps (t : Toolchain) (c : Config) (i : Nat) : Nat → Service → Service
  | 0, s => s
  | n + 1, s => steps t c i n (s.step t c i)

/-- Lets one run come to its end, if there is a slot for it. -/
def finish (t : Toolchain) (c : Config) (i : Nat) (s : Service) : Service :=
  s.steps t c i (Stage.claiming.remaining + 1)

/-- Lets all runs come to their **ends**, one after another. -/
def finishAll (t : Toolchain) (c : Config) (s : Service) : Service :=
  (List.range s.runs.length).foldl (fun s i => s.finish t c i) s

end Service

end CapabilityGate
