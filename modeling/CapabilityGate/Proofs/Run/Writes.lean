import CapabilityGate.Proofs.Run.Phases

/-!
# The single writes of a run

One step of a run may write several things that others can see: a phase, a directory, an outcome,
a chunk of output, the files. Each of these is a write of its own, and a step does its writes one
after another. A session allows the writes of its run in their order: phases come later and later,
and its workspace and its outcome are written when there are none.

## Main definitions

* `Write`: what is written at once.
* `Stage.writes`: the writes of a step, in order.
* `Session.Allows`: a session allows writes in their order.
* `Stage.Fits`: how far a session can be at a stage of its run.

## Main results

* `Stage.foldl_writes`: a step is made up of its writes.
* `Stage.Fits.step`: a session allows the writes of the next step of its run.
-/

namespace CapabilityGate

variable {t : Toolchain} {c : Config}

/-- What is **written at once**. -/
inductive Write where
  /-- The session enters a phase. -/
  | enter (phase : Phase)
  /-- The session gets the directory of its run. -/
  | place (path : String)
  /-- The session gets an outcome. -/
  | settle (outcome : Outcome)
  /-- The program writes a chunk. -/
  | print (chunk : String)
  /-- The files change. -/
  | change (f : Files → Files)
  /-- Something is noted. -/
  | note (event : Event)

namespace Write

/-- Whether a write is that of a directory. -/
def isPlace : Write → Bool
  | place _ => true
  | _ => false

/-- Whether a write is that of an outcome. -/
def isSettle : Write → Bool
  | settle _ => true
  | _ => false

/-- The phase that is written, if one is. -/
def phase? : Write → Option Phase
  | enter phase => some phase
  | _ => none

end Write

/-- The session after a write. -/
def Session.apply (s : Session) : Write → Session
  | .enter phase => s.enter phase
  | .place path => s.place path
  | .settle outcome => s.settle outcome
  | .print chunk => s.write [chunk]
  | .change _ => s
  | .note _ => s

/-- The session after writes, one after another. -/
def Session.after (s : Session) (ws : List Write) : Session :=
  ws.foldl Session.apply s

/-- The scene **after a write**. -/
def Scene.apply (s : Scene) : Write → Scene
  | .enter phase => s.enter phase
  | .place path => { s with session := s.session.place path }
  | .settle outcome => { s with session := s.session.settle outcome }
  | .print chunk => { s with session := s.session.write [chunk] }
  | .change f => { s with files := f s.files }
  | .note event => s.note event

/-- A write of a scene is **one of its session**. -/
@[simp]
theorem Scene.session_apply (s : Scene) (w : Write) :
    (s.apply w).session = s.session.apply w := by
  cases w <;> rfl

/-- The writes of a scene are **those of its session**. -/
theorem Scene.session_foldl_apply (ws : List Write) (s : Scene) :
    (ws.foldl Scene.apply s).session = s.session.after ws := by
  induction ws generalizing s with
  | nil => rfl
  | cons w ws ih => rw [List.foldl_cons, ih, session_apply, Session.after, Session.after,
      List.foldl_cons]

namespace Stage

/-- The **writes of the step** that goes on from a stage and a scene, in order. The files are
changed as they are found by then. -/
def writes (t : Toolchain) (c : Config) : Stage → Scene → List Write
  | claiming, s => if s.session.phase = .pending then [.enter .parsing] else []
  | creating, s =>
    .change (fun f => (Workspace.create c.workspace s.session.id f).1) ::
      match (Workspace.create c.workspace s.session.id s.files).2 with
      | .ok w => [.place w.path]
      | .error _ => []
  | parsing _, _ => [.note .parse]
  | resolving _ p, _ => [.note (.resolve p)]
  | auditing _ _ _, _ => [.enter .auditing]
  | checking _ _ _, _ => [.enter .building, .note .check]
  | linking _ _ m, _ => [.note (.link m.namespaces)]
  | compiling w p libraries, s =>
    let output := w.join c.compiler.artifactName
    [.change (fun f => (t.compile p libraries output f).1),
      .note (.compile libraries output (s.files.below w.path))]
  | executing w path, s =>
    .enter .executing :: .note (.execute path) ::
      match Sandbox.execute c.limits s.files path [] w.path with
      | .ok x => x.chunks.map .print ++ [.change (t.aftermath path w.path)]
      | .error _ => []
  | removing w _, _ => [.change fun f => (w.destroy f).1]
  | settling (.ok outcome) _, _ => [.settle outcome]
  | settling (.error _) _, _ => []
  | closing _, _ => [.enter .finished]
  | ended _, _ => []

end Stage

/-- What is printed chunk by chunk is **written**. -/
theorem Scene.foldl_print (chunks : List String) (s : Scene) :
    (chunks.map Write.print).foldl Scene.apply s =
      { s with session := s.session.write chunks } := by
  induction chunks generalizing s with
  | nil => simp [Session.write, Buffer.appendAll]
  | cons chunk chunks ih =>
      rw [List.map_cons, List.foldl_cons, ih]
      simp [Scene.apply, Session.write, Buffer.appendAll]

/-- A step is **made up of its writes**. -/
theorem Stage.foldl_writes (t : Toolchain) (c : Config) (stage : Stage) (s : Scene) :
    (stage.writes t c s).foldl Scene.apply s = (stage.step t c s).2 := by
  have hstep := step_cases t c stage s
  generalize (stage.step t c s).1 = next, (stage.step t c s).2 = after at hstep
  cases hstep with
  | claim hpending => simp [writes, hpending, Scene.apply]
  | refuse hphase => simp [writes, hphase]
  | create hcreate => simp [writes, hcreate, Scene.apply]
  | createFailed hcreate => simp [writes, hcreate, Scene.apply]
  | compile hcompile => simp [writes, hcompile, Scene.apply, Scene.note]
  | compileFailed hcompile => simp [writes, hcompile, Scene.apply, Scene.note]
  | compileBroken hcompile => simp [writes, hcompile, Scene.apply, Scene.note]
  | execute hexecute =>
      simp [writes, hexecute, Scene.apply, Scene.foldl_print, Scene.enter, Scene.note]
  | executeFailed hexecute => simp [writes, hexecute, Scene.apply]
  | _ => rfl

/-! ### What a session allows -/

namespace Session

/-- A session **allows a write**: another phase is a later one, and there is no directory or no
outcome before it is written. -/
def AllowsWrite (s : Session) : Write → Prop
  | .enter phase => s.phase.rank < phase.rank
  | .place _ => s.workspace = none
  | .settle _ => s.ended = none
  | .print _ | .change _ | .note _ => True

/-- A session **allows writes** in their order. -/
def Allows (s : Session) : List Write → Prop
  | [] => True
  | w :: ws => s.AllowsWrite w ∧ (s.apply w).Allows ws

@[simp]
theorem after_nil (s : Session) : s.after [] = s := rfl

@[simp]
theorem after_cons (s : Session) (w : Write) (ws : List Write) :
    s.after (w :: ws) = (s.apply w).after ws := rfl

/-- Writes one behind the other change a session **one after the other**. -/
theorem after_append (s : Session) (ws more : List Write) :
    s.after (ws ++ more) = (s.after ws).after more :=
  List.foldl_append

/-- Writes are allowed one after another. -/
theorem allows_append {s : Session} {ws more : List Write} :
    s.Allows (ws ++ more) ↔ s.Allows ws ∧ (s.after ws).Allows more := by
  induction ws generalizing s with
  | nil => simp [Allows]
  | cons w ws ih => simp [Allows, ih, and_assoc]

/-- No write changes the identifier of a session. -/
@[simp]
theorem id_apply (s : Session) (w : Write) : (s.apply w).id = s.id := by
  cases w <;> rfl

/-- No write changes **the id** of a session. -/
theorem id_after (s : Session) (ws : List Write) : (s.after ws).id = s.id := by
  induction ws generalizing s with
  | nil => rfl
  | cons w ws ih => rw [after_cons, ih, id_apply]

/-- How a session **comes on**: its phase does not go back, and the directory and the outcome that
it has stay. -/
structure ComesOn (s u : Session) : Prop where
  /-- The phase does not go back. -/
  phase : s.phase.rank ≤ u.phase.rank
  /-- The directory stays. -/
  workspace : ∀ path, s.workspace = some path → u.workspace = some path
  /-- The outcome stays. -/
  ended : ∀ outcome, s.ended = some outcome → u.ended = some outcome

/-- With writes that it allows a session **comes on**. -/
theorem Allows.comesOn {s : Session} {ws : List Write} (h : s.Allows ws) :
    s.ComesOn (s.after ws) := by
  induction ws generalizing s with
  | nil => exact ⟨Nat.le_refl _, fun _ hpath => hpath, fun _ houtcome => houtcome⟩
  | cons w ws ih =>
      obtain ⟨hallowed, hrest⟩ := h
      obtain ⟨hphase, hworkspace, hended⟩ := ih hrest
      refine ⟨Nat.le_trans ?_ hphase, fun path hpath => hworkspace path ?_,
        fun outcome houtcome => hended outcome ?_⟩
      · cases w with
        | enter phase => exact Nat.le_of_lt hallowed
        | _ => exact Nat.le_refl _
      · cases w with
        | place other =>
            have hnone : s.workspace = none := hallowed
            rw [hnone] at hpath
            exact nomatch hpath
        | _ => exact hpath
      · cases w with
        | settle other =>
            have hnone : s.ended = none := hallowed
            rw [hnone] at houtcome
            exact nomatch houtcome
        | _ => exact houtcome

/-- The phases that are written **increase**. -/
theorem Allows.increasing {s : Session} {ws : List Write} (h : s.Allows ws) :
    (s.phase :: ws.filterMap Write.phase?).Pairwise fun p q => p.rank < q.rank := by
  induction ws generalizing s with
  | nil => exact List.pairwise_singleton _ _
  | cons w ws ih =>
      obtain ⟨hallowed, hrest⟩ := h
      have hlater := ih hrest
      cases w with
      | enter phase =>
          have hlt : s.phase.rank < phase.rank := hallowed
          have hphases : (Write.enter phase :: ws).filterMap Write.phase? =
              phase :: ws.filterMap Write.phase? := rfl
          rw [hphases, List.pairwise_cons]
          refine ⟨?_, hlater⟩
          intro q hq
          rcases List.mem_cons.mp hq with rfl | hq
          · exact hlt
          · exact Nat.lt_trans hlt ((List.pairwise_cons.mp hlater).1 q hq)
      | _ => exact hlater

/-- What a session allows only while something is missing, and what brings that about, is written
**once** at most. -/
theorem Allows.once {p : Write → Bool} {q : Session → Prop}
    (hmissing : ∀ (s : Session) w, p w = true → s.AllowsWrite w → ¬ q s)
    (hbrings : ∀ (s : Session) w, p w = true → q (s.apply w))
    (hkeeps : ∀ (s : Session) w, q s → q (s.apply w))
    {s : Session} {ws : List Write} (h : s.Allows ws) : (ws.filter p).length ≤ 1 := by
  have hnone : ∀ {s : Session} {ws : List Write}, s.Allows ws → q s → ws.filter p = [] := by
    intro s ws
    induction ws generalizing s with
    | nil => exact fun _ _ => rfl
    | cons w ws ih =>
        rintro ⟨hallowed, hrest⟩ hq
        have hother : ¬ p w = true := fun hp => hmissing s w hp hallowed hq
        rw [List.filter_cons_of_neg hother]
        exact ih hrest (hkeeps s w hq)
  induction ws generalizing s with
  | nil => exact Nat.zero_le 1
  | cons w ws ih =>
      obtain ⟨-, hrest⟩ := h
      by_cases hp : p w = true
      · rw [List.filter_cons_of_pos hp, hnone hrest (hbrings s w hp)]
        exact Nat.le_refl 1
      · rw [List.filter_cons_of_neg hp]
        exact ih hrest

/-- A directory is written **once** at most. -/
theorem Allows.place_once {s : Session} {ws : List Write} (h : s.Allows ws) :
    (ws.filter Write.isPlace).length ≤ 1 := by
  refine h.once (q := fun s => s.workspace ≠ none) ?_ ?_ ?_
  · intro s w hp hallowed
    cases w with
    | place path => exact not_not_intro hallowed
    | _ => exact Bool.noConfusion hp
  · intro s w hp
    cases w with
    | place path => exact Option.some_ne_none _
    | _ => exact Bool.noConfusion hp
  · intro s w hplaced
    cases w with
    | place path => exact Option.some_ne_none _
    | _ => exact hplaced

/-- An outcome is written **once** at most. -/
theorem Allows.settle_once {s : Session} {ws : List Write} (h : s.Allows ws) :
    (ws.filter Write.isSettle).length ≤ 1 := by
  refine h.once (q := fun s => s.ended ≠ none) ?_ ?_ ?_
  · intro s w hp hallowed
    cases w with
    | settle outcome => exact not_not_intro hallowed
    | _ => exact Bool.noConfusion hp
  · intro s w hp
    cases w with
    | settle outcome => exact Option.some_ne_none _
    | _ => exact Bool.noConfusion hp
  · intro s w hsettled
    cases w with
    | settle outcome => exact Option.some_ne_none _
    | _ => exact hsettled

/-- What a program writes is **always allowed**. -/
theorem allows_print (s : Session) (chunks : List String) (f : Files → Files) :
    s.Allows (chunks.map .print ++ [.change f]) := by
  induction chunks generalizing s with
  | nil => exact ⟨trivial, trivial⟩
  | cons chunk chunks ih => exact ⟨trivial, ih _⟩

end Session

/-! ### Sessions and stages -/

/-- How far a session can be **at a stage** of its run. -/
structure Stage.Fits (stage : Stage) (s : Session) : Prop where
  /-- It is in no phase that is too late. -/
  bounded : s.phase.rank ≤ stage.latest.rank
  /-- It has no directory before its workspace is made. -/
  unplaced : Stage.creating.remaining ≤ stage.remaining → s.workspace = none
  /-- It has no outcome before its run closes. -/
  unsettled : 1 < stage.remaining → s.ended = none

namespace Stage

variable {stage next : Stage}

attribute [local simp] Phase.rank remaining

/-- A later stage **fits** a session that is as far as before. -/
theorem Fits.keep {s u : Session} (h : stage.Fits s) (hphase : u.phase = s.phase)
    (hworkspace : u.workspace = s.workspace) (hended : u.ended = s.ended)
    (hlatest : stage.latest.rank ≤ next.latest.rank) (hfewer : next.remaining ≤ stage.remaining) :
    next.Fits u := by
  refine ⟨?_, ?_, ?_⟩
  · rw [hphase]
    exact Nat.le_trans h.bounded hlatest
  · intro hremaining
    rw [hworkspace]
    exact h.unplaced (Nat.le_trans hremaining hfewer)
  · intro hremaining
    rw [hended]
    exact h.unsettled (Nat.lt_of_lt_of_le hremaining hfewer)

/-- A later stage **fits** a session in a later phase. -/
theorem Fits.enter {s : Session} (h : stage.Fits s) {phase : Phase}
    (hbound : phase.rank ≤ next.latest.rank) (hfewer : next.remaining ≤ stage.remaining) :
    next.Fits (s.enter phase) :=
  ⟨hbound, fun hremaining => h.unplaced (Nat.le_trans hremaining hfewer),
    fun hremaining => h.unsettled (Nat.lt_of_lt_of_le hremaining hfewer)⟩

/-- A session **allows the phases** after those of a stage. -/
theorem Fits.allows_enter {s : Session} (h : stage.Fits s) (phase : Phase)
    (hlater : stage.latest.rank < phase.rank) : s.AllowsWrite (.enter phase) :=
  Nat.lt_of_le_of_lt h.bounded hlater

/-- A session **allows the writes of the next step** of its run. -/
theorem Fits.allows {s : Scene} (h : stage.Fits s.session) :
    s.session.Allows (stage.writes t c s) := by
  cases stage with
  | claiming =>
      rw [writes]
      split
      next hpending => exact ⟨h.allows_enter .parsing (by simp), trivial⟩
      next hphase => trivial
  | creating =>
      rw [writes]
      split
      next hcreate => exact ⟨trivial, h.unplaced (by simp), trivial⟩
      next hcreate => exact ⟨trivial, trivial⟩
  | parsing w => exact ⟨trivial, trivial⟩
  | resolving w p => exact ⟨trivial, trivial⟩
  | auditing w p m => exact ⟨h.allows_enter .auditing (by simp), trivial⟩
  | checking w p m => exact ⟨h.allows_enter .building (by simp), trivial, trivial⟩
  | linking w p m => exact ⟨trivial, trivial⟩
  | compiling w p libraries => exact ⟨trivial, trivial, trivial⟩
  | executing w path =>
      refine ⟨h.allows_enter .executing (by simp), trivial, ?_⟩
      split
      next hexecute => exact Session.allows_print _ _ _
      next hexecute => trivial
  | removing w result => exact ⟨trivial, trivial⟩
  | settling result cleanup =>
      cases result with
      | ok outcome => exact ⟨h.unsettled (by simp), trivial⟩
      | error e => trivial
  | closing result => exact ⟨h.allows_enter .finished (by simp), trivial⟩
  | ended result => trivial

/-- After a step the next stage **fits** the session. -/
theorem Fits.step {s u : Scene} (h : stage.Fits s.session) (hstep : Step t c stage s next u) :
    next.Fits u.session := by
  cases hstep with
  | claim hpending => exact h.enter (by simp) (by simp)
  | refuse hphase => exact h.keep rfl rfl rfl (by simp) (by simp)
  | create hcreate =>
      exact ⟨h.bounded, fun hremaining => absurd hremaining (by simp),
        fun _ => h.unsettled (by simp)⟩
  | audit haudit => exact h.enter (by simp) (by simp)
  | auditFailed haudit => exact h.enter (by simp) (by simp)
  | check hcheck => exact h.enter (by simp) (by simp)
  | checkFailed hcheck => exact h.enter (by simp) (by simp)
  | execute hexecute =>
      exact ⟨Nat.le_refl _, fun hremaining => absurd hremaining (by simp),
        fun _ => h.unsettled (by simp)⟩
  | executeFailed hexecute => exact h.enter (by simp) (by simp)
  | settle =>
      exact ⟨h.bounded, fun hremaining => absurd hremaining (by simp),
        fun hremaining => absurd hremaining (by simp)⟩
  | close => exact h.enter (by simp) (by simp)
  | stay => exact h
  | _ => exact h.keep rfl rfl rfl (by simp) (by simp)

end Stage

end CapabilityGate
