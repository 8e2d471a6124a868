import CapabilityGate.CommandLine.Answer
import CapabilityGate.Proofs.Run.Reach

/-!
# A service with one session

A service that has one session and a free slot runs it as it is run by itself. It keeps no log of
what happens, and no step of a run depends on that.

## Main definitions

* `Scene.Alike`: two scenes are the same but for their logs.
* `Service.ofStage`: a service with one run, at some stage.
* `Situation.scene`: where the command that runs a program starts.

## Main results

* `Stage.step_of_alike`: scenes that are alike go on alike.
* `Service.finish_spawn`: a service runs its one session to the end of the run.
* `Situation.runReport_eq`: the command that runs a program reports on that run.
-/

namespace CapabilityGate

variable {t : Toolchain} {c : Config}

/-- Two scenes are **the same but for their logs**. -/
structure Scene.Alike (s u : Scene) : Prop where
  /-- They have the same session. -/
  session : s.session = u.session
  /-- They have the same files. -/
  files : s.files = u.files

namespace Stage

/-- Scenes that are alike **go on alike**. -/
theorem step_of_alike {s u : Scene} (h : s.Alike u) (stage : Stage) :
    (stage.step t c s).1 = (stage.step t c u).1 ∧
      (stage.step t c s).2.Alike (stage.step t c u).2 := by
  obtain ⟨session, files, log⟩ := s
  obtain ⟨session', files', log'⟩ := u
  obtain ⟨rfl, rfl⟩ := h
  cases stage with
  | claiming =>
      simp only [step, claim]
      split <;> exact ⟨rfl, rfl, rfl⟩
  | creating =>
      simp only [step, create]
      split <;> exact ⟨rfl, rfl, rfl⟩
  | parsing w =>
      simp only [step, parse]
      split <;> exact ⟨rfl, rfl, rfl⟩
  | resolving w p =>
      simp only [step, resolve]
      split <;> exact ⟨rfl, rfl, rfl⟩
  | auditing w p m =>
      simp only [step, audit]
      split <;> exact ⟨rfl, rfl, rfl⟩
  | checking w p m =>
      simp only [step, check]
      split <;> exact ⟨rfl, rfl, rfl⟩
  | linking w p m =>
      simp only [step, link]
      split <;> exact ⟨rfl, rfl, rfl⟩
  | compiling w p libraries =>
      simp only [step, compile]
      split <;> exact ⟨rfl, rfl, rfl⟩
  | executing w path =>
      simp only [step, execute]
      split <;> exact ⟨rfl, rfl, rfl⟩
  | removing w result => exact ⟨rfl, rfl, rfl⟩
  | settling result cleanup => cases result <;> exact ⟨rfl, rfl, rfl⟩
  | closing result => exact ⟨rfl, rfl, rfl⟩
  | ended result => exact ⟨rfl, rfl, rfl⟩

/-- A run that is over **stays as it is**. -/
theorem steps_ended (n : Nat) (result : Except Fault Unit) (s : Scene) :
    (ended result).steps t c n s = (ended result, s) := by
  induction n with
  | zero => rfl
  | succ n ih => exact ih

end Stage

namespace Service

/-- A service whose run is over **stays as it is**. -/
theorem steps_over (n slots : Nat) (session : Session) (result : Except Fault Unit)
    (files : Files) :
    steps t c 0 n ⟨slots, [⟨session, .over result⟩], files⟩ =
      ⟨slots, [⟨session, .over result⟩], files⟩ := by
  induction n with
  | zero => rfl
  | succ n ih => exact ih

/-- A service with one run, which is at a stage and holds a slot until it is over. -/
def ofStage (slots : Nat) : Stage → Scene → Service
  | .ended result, s => ⟨slots + 1, [⟨s.session, .over result⟩], s.files⟩
  | stage, s => ⟨slots, [⟨s.session, .holding stage⟩], s.files⟩

/-- A run that is not over **holds its slot**. -/
theorem ofStage_of_open (slots : Nat) {stage : Stage} (s : Scene) (hopen : 0 < stage.remaining) :
    ofStage slots stage s = ⟨slots, [⟨s.session, .holding stage⟩], s.files⟩ := by
  cases stage with
  | ended result => exact absurd hopen (Nat.lt_irrefl 0)
  | _ => rfl

/-- A service goes on with its one run **as the run does**. -/
theorem step_ofStage (slots : Nat) {stage : Stage} (s : Scene) (hopen : 0 < stage.remaining) :
    step t c 0 (ofStage slots stage s) =
      ofStage slots (stage.step t c s).1 (stage.step t c s).2 := by
  obtain ⟨hstage, hsession, hfiles⟩ :=
    Stage.step_of_alike (t := t) (c := c) (s := ⟨s.session, s.files, []⟩) (u := s) ⟨rfl, rfl⟩ stage
  have hstep : step t c 0 (ofStage slots stage s) =
      ofStage slots (stage.step t c ⟨s.session, s.files, []⟩).1
        (stage.step t c ⟨s.session, s.files, []⟩).2 := by
    rw [ofStage_of_open slots s hopen]
    simp only [step, List.getElem?_cons_zero, List.set_cons_zero]
    generalize stage.step t c ⟨s.session, s.files, []⟩ = after
    obtain ⟨next, u⟩ := after
    cases next <;> rfl
  rw [hstep, hstage]
  generalize (stage.step t c s).1 = next
  cases next <;> simp only [ofStage, hsession, hfiles]

/-- A service takes its one run **to its end**. -/
theorem steps_ofStage {n : Nat} (slots : Nat) {stage : Stage} (s : Scene)
    (hn : stage.remaining ≤ n) :
    ∃ result last, stage.steps t c n s = (.ended result, last) ∧
      steps t c 0 n (ofStage slots stage s) =
        ⟨slots + 1, [⟨last.session, .over result⟩], last.files⟩ := by
  induction n generalizing stage s with
  | zero =>
      obtain ⟨result, rfl⟩ := Stage.exists_ended_of_remaining (Nat.le_zero.mp hn)
      exact ⟨result, s, rfl, rfl⟩
  | succ n ih =>
      rcases Nat.eq_zero_or_pos stage.remaining with hzero | hopen
      · obtain ⟨result, rfl⟩ := Stage.exists_ended_of_remaining hzero
        exact ⟨result, s, Stage.steps_ended (n + 1) result s, steps_over (n + 1) _ _ result _⟩
      · have hfewer := Stage.remaining_lt_of_step (Stage.step_cases t c stage s) hopen
        have hleft : (stage.step t c s).1.remaining ≤ n := by omega
        rw [steps, step_ofStage slots s hopen]
        exact ih _ hleft

/-- A service with a free slot runs its one session **to the end of the run**. -/
theorem finish_spawn {slots : Nat} (hslots : 0 < slots) (session : Session) (files : Files) :
    ∃ result last, Stage.claiming.toEnd t c ⟨session, files, []⟩ = (.ended result, last) ∧
      ((Service.mk slots [] files).spawn session).finish t c 0 =
        ⟨slots, [⟨last.session, .over result⟩], last.files⟩ := by
  obtain ⟨k, rfl⟩ := Nat.exists_eq_add_one_of_ne_zero (Nat.pos_iff_ne_zero.mp hslots)
  exact steps_ofStage (n := Stage.claiming.remaining) k ⟨session, files, []⟩ (Nat.le_refl _)

/-- Settings that are accepted **leave a slot**. -/
theorem slots_of_check (h : Service.check c = .ok ()) : 0 < c.maxSessions := by
  rw [Nat.pos_iff_ne_zero]
  intro hnone
  have hvalid : c.validate = .error .zeroTimeout ∨ c.validate = .error .zeroSessions := by
    rw [Config.validate]
    by_cases htimeout : c.timeoutMs = 0
    · exact .inl (by rw [if_pos htimeout]; rfl)
    · exact .inr (by rw [if_neg htimeout, if_pos hnone]; rfl)
  rcases hvalid with hzero | hzero <;> rw [Service.check, hzero] at h <;> exact nomatch h

end Service

namespace Situation

/-- The scene in which the command that runs a program starts. -/
def scene (t : Situation) (deny : List Descriptor) (source : String) : Scene :=
  ⟨(Session.ofSource t.id source).deny deny, t.files, []⟩

/-- The command that runs a program **reports on the run** of its session. -/
theorem runReport_eq (t : Situation) {c : Config} (hcheck : Service.check c = .ok ())
    (deny : List Descriptor) (source : String) :
    t.runReport c deny source = orBreak "Session failed" Fault.message
      ((t.scene deny source).run (.ofConfig c) c t.elapsedMs).2 := by
  obtain ⟨result, last, hend, hfinish⟩ := Service.finish_spawn (t := .ofConfig c) (c := c)
    (Service.slots_of_check hcheck) ((Session.ofSource t.id source).deny deny) t.files
  rw [runReport, hcheck]
  simp only [scene, Scene.run, hend, Service.ofConfig, hfinish, orBreak]
  rfl

end Situation

end CapabilityGate
