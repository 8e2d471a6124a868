import CapabilityGate.Proofs.Run.Reach

/-!
# The phases of a run

A session that is run goes through phases. Each of them is later than the one before, and the
session is always in the last one that the events of its run tell of.

## Main definitions

* `entered`: the phases that events enter.
* `Phased`: the phases of a run so far, in order.

## Main results

* `PhasedSince.step`: a step keeps the phases in order.
* `phased_of_reaches`: a run goes through its phases in order.
-/

namespace CapabilityGate

variable {t : Toolchain} {c : Config}

/-- The phase that an event enters, if it enters one. -/
def Event.phase? : Event → Option Phase
  | .enter phase => some phase
  | _ => none

/-- The phases that events enter, in order. -/
def entered (events : List Event) : List Phase :=
  events.filterMap Event.phase?

attribute [local simp] Phase.rank

/-- The latest phase that a session can be in at a stage. -/
@[simp]
def Stage.latest : Stage → Phase
  | .claiming => .pending
  | .creating | .parsing _ | .resolving _ _ | .auditing _ _ _ => .parsing
  | .checking _ _ _ => .auditing
  | .linking _ _ _ | .compiling _ _ _ | .executing _ _ => .building
  | .removing _ _ | .settling _ _ | .closing _ => .executing
  | .ended _ => .finished

/-- The phases of a run **so far**: they increase from the first one on, which is that of a
session that waits, and the session is in the last one, which is not too late for the stage. -/
structure Phased (events : List Event) (stage : Stage) (session : Session) : Prop where
  /-- Each phase comes before the next one. -/
  increasing : (Phase.pending :: entered events).Pairwise fun p q => p.rank < q.rank
  /-- The session is in the last one. -/
  current : (Phase.pending :: entered events).getLast? = some session.phase
  /-- This one is not too late. -/
  bounded : session.phase.rank ≤ stage.latest.rank
  /-- A run that is over is in the last phase of all. -/
  finished : ∀ result, stage = .ended result → session.phase = .finished

/-- In a list of phases that increase none comes after **the last**. -/
theorem rank_le_of_getLast? {ps : List Phase} {p q : Phase}
    (hps : ps.Pairwise fun p q => p.rank < q.rank) (hlast : ps.getLast? = some q) (hp : p ∈ ps) :
    p.rank ≤ q.rank := by
  obtain ⟨init, rfl⟩ := List.getLast?_eq_some_iff.mp hlast
  rcases List.mem_append.mp hp with hinit | hq
  · exact Nat.le_of_lt ((List.pairwise_append.mp hps).2.2 p hinit q (List.mem_singleton_self q))
  · obtain rfl := List.mem_singleton.mp hq
    exact Nat.le_refl _

variable {events : List Event} {stage after : Stage} {session : Session}

/-- Entering a **later phase** goes on with the phases of a run. -/
theorem Phased.enter (h : Phased events stage session) {phase : Phase}
    (hlater : stage.latest.rank < phase.rank) (hbound : phase.rank ≤ after.latest.rank)
    (hover : ∀ result, after = .ended result → phase = .finished) :
    Phased (events ++ [.enter phase]) after (session.enter phase) := by
  have hentered : entered (events ++ [.enter phase]) = entered events ++ [phase] := by
    simp [entered, Event.phase?]
  refine ⟨?_, ?_, hbound, hover⟩
  · rw [hentered, ← List.cons_append, List.pairwise_append]
    refine ⟨h.increasing, List.pairwise_singleton _ _, ?_⟩
    intro p hp q hq
    obtain rfl := List.mem_singleton.mp hq
    have hle := rank_le_of_getLast? h.increasing h.current hp
    have hbounded := h.bounded
    omega
  · rw [hentered, ← List.cons_append, List.getLast?_concat]
    rfl

/-- Anything else that happens **leaves the phase** as it is. -/
theorem Phased.keep (h : Phased events stage session) {more : List Event} {other : Session}
    (hmore : entered more = []) (hphase : other.phase = session.phase)
    (hbound : stage.latest.rank ≤ after.latest.rank)
    (hover : ∀ result, after = .ended result → stage = .ended result) :
    Phased (events ++ more) after other := by
  have hentered : entered (events ++ more) = entered events := by
    rw [entered, List.filterMap_append, ← entered, ← entered, hmore, List.append_nil]
  refine ⟨hentered ▸ h.increasing, ?_, ?_, ?_⟩
  · rw [hentered, hphase]
    exact h.current
  · rw [hphase]
    exact Nat.le_trans h.bounded hbound
  · intro result hafter
    rw [hphase]
    exact h.finished result (hover result hafter)

/-- The phases of a run since a scene with the log `log`. -/
def PhasedSince (log : List Event) (stage : Stage) (s : Scene) : Prop :=
  ∃ events, s.log = log ++ events ∧ Phased events stage s.session

variable {log : List Event}

theorem PhasedSince.enter {u : Scene} (h : PhasedSince log stage u) {phase : Phase}
    (hlater : stage.latest.rank < phase.rank) (hbound : phase.rank ≤ after.latest.rank)
    (hover : ∀ result, after = .ended result → phase = .finished) :
    PhasedSince log after (u.enter phase) := by
  obtain ⟨events, hlog, hphased⟩ := h
  refine ⟨events ++ [.enter phase], ?_, hphased.enter hlater hbound hover⟩
  rw [← List.append_assoc, ← hlog]
  rfl

theorem PhasedSince.keep {u v : Scene} (h : PhasedSince log stage u) {more : List Event}
    (hlog : v.log = u.log ++ more) (hmore : entered more = [])
    (hphase : v.session.phase = u.session.phase)
    (hbound : stage.latest.rank ≤ after.latest.rank)
    (hover : ∀ result, after = .ended result → stage = .ended result) :
    PhasedSince log after v := by
  obtain ⟨events, hevents, hphased⟩ := h
  refine ⟨events ++ more, ?_, hphased.keep hmore hphase hbound hover⟩
  rw [hlog, hevents, List.append_assoc]

/-- A step **keeps the phases in order**. -/
theorem PhasedSince.step {a b : Stage} {u v : Scene} (hstep : Stage.Step t c a u b v)
    (h : PhasedSince log a u) : PhasedSince log b v := by
  have hsame : ∀ {v : Scene} {b : Stage}, v.log = u.log → v.session.phase = u.session.phase →
      a.latest.rank ≤ b.latest.rank → (∀ result, b = .ended result → a = .ended result) →
      PhasedSince log b v := by
    intro v b hlog hphase hbound hover
    exact h.keep (hlog.trans (List.append_nil _).symm) rfl hphase hbound hover
  cases hstep with
  | claim hpending => exact h.enter (by simp) (by simp) (by simp)
  | refuse hphase =>
      obtain ⟨events, hlog, hphased⟩ := h
      have hzero : u.session.phase.rank ≤ 0 := hphased.bounded
      cases hp : u.session.phase <;> simp_all [Phase.rank]
  | create hcreate => exact hsame rfl rfl (by simp) (by simp)
  | createFailed hcreate => exact hsame rfl rfl (by simp) (by simp)
  | parse hparse => exact h.keep rfl rfl rfl (Nat.le_refl _) (by simp)
  | parseFailed hparse => exact h.keep rfl rfl rfl (by simp) (by simp)
  | resolve hresolve => exact h.keep rfl rfl rfl (Nat.le_refl _) (by simp)
  | resolveFailed hresolve => exact h.keep rfl rfl rfl (by simp) (by simp)
  | audit haudit => exact h.enter (by simp) (by simp) (by simp)
  | auditFailed haudit => exact h.enter (by simp) (by simp) (by simp)
  | @check s w p m hcheck =>
      have hentered : PhasedSince log (.linking w p m) (u.enter .building) :=
        h.enter (by simp) (by simp) (by simp)
      exact hentered.keep rfl rfl rfl (Nat.le_refl _) (by simp)
  | @checkFailed s w p m e hcheck =>
      have hentered : PhasedSince log (.linking w p m) (u.enter .building) :=
        h.enter (by simp) (by simp) (by simp)
      exact hentered.keep rfl rfl rfl (by simp) (by simp)
  | link hlink => exact h.keep rfl rfl rfl (Nat.le_refl _) (by simp)
  | linkFailed hlink => exact h.keep rfl rfl rfl (by simp) (by simp)
  | compile hcompile => exact h.keep rfl rfl rfl (Nat.le_refl _) (by simp)
  | compileFailed hcompile => exact h.keep rfl rfl rfl (by simp) (by simp)
  | compileBroken hcompile => exact h.keep rfl rfl rfl (by simp) (by simp)
  | @execute s w path x hexecute =>
      have hentered : PhasedSince log (.removing w (.ok x.outcome)) (u.enter .executing) :=
        h.enter (by simp) (by simp) (by simp)
      exact hentered.keep rfl rfl rfl (Nat.le_refl _) (by simp)
  | @executeFailed s w path e hexecute =>
      have hentered : PhasedSince log (.removing w (.error e)) (u.enter .executing) :=
        h.enter (by simp) (by simp) (by simp)
      exact hentered.keep rfl rfl rfl (Nat.le_refl _) (by simp)
  | remove => exact hsame rfl rfl (Nat.le_refl _) (by simp)
  | settle => exact hsame rfl rfl (Nat.le_refl _) (by simp)
  | settleFailed => exact hsame rfl rfl (Nat.le_refl _) (by simp)
  | close => exact h.enter (by simp) (by simp) (by simp)
  | stay => exact h

/-- A run that starts with a session that waits goes through its phases **in order**. -/
theorem phased_of_reaches {s u : Scene} (hpending : s.session.phase = .pending)
    (h : Stage.Reaches t c .claiming s stage u) : PhasedSince s.log stage u := by
  have hstart : PhasedSince s.log .claiming s := by
    refine ⟨[], (List.append_nil _).symm, ?_, ?_, ?_, ?_⟩
    · exact List.pairwise_singleton _ _
    · rw [hpending]
      rfl
    · rw [hpending]
      exact Nat.le_refl _
    · intro result hresult
      exact Stage.noConfusion hresult
  exact h.invariant hstart PhasedSince.step

end CapabilityGate
