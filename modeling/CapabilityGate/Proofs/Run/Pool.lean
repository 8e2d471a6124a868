import CapabilityGate.Proofs.Run.Interleaving
import CapabilityGate.Run.Service

/-!
# A service, write by write

The runs of a service share its slots and the files, and their writes may come in any order. A
member of the pool waits, works, or is gone; it works from the moment when it takes a slot until it
gives the slot back. Nobody has to hold a handle of it for that. What a member does in one turn is
one write at most, so that a step of the service is a row of turns of one member.

## Main definitions

* `Member`: a session of a service, and how far its run is.
* `Pool`: free slots, members and files, with all that has been written.
* `Move`: what may happen next.
* `Pool.after`: a pool after some moves.
* `Member.Step`, `Pool.Moved`: what a move can come to.
* `Service.Reached`: the services that there can be.

## Main results

* `Pool.moved`: a move comes to one of these.
* `Service.Reached.exists_moves`: what a service can come to, a pool can come to.
-/

namespace CapabilityGate

variable {t : Toolchain} {c : Config}

/-! ### Members -/

/-- How far the run of a member is. -/
inductive Standing where
  /-- It waits for a slot. -/
  | waiting
  /-- It works, and has a slot for that. -/
  | working (call : Call)
  /-- It has given its slot back. -/
  | gone (result : Except Fault Unit)

/-- A session of a service. -/
structure Member where
  /-- The session. -/
  session : Session
  /-- How far its run is. -/
  standing : Standing
  /-- Whether its handle is still held. -/
  watched : Bool

/-- Whether a member works. -/
def Member.isWorking (m : Member) : Bool :=
  match m.standing with
  | .working _ => true
  | _ => false

/-- The result of a call that has written everything and is at its end. -/
def Call.over? (call : Call) : Option (Except Fault Unit) :=
  match call.left with
  | [] => call.stage.result?
  | _ => none

/-- The files after a write. -/
def Files.after (f : Files) : Write → Files
  | .change g => g f
  | _ => f

/-- A write of a scene changes the files **as it would by itself**. -/
@[simp]
theorem Scene.files_apply (s : Scene) (w : Write) : (s.apply w).files = s.files.after w := by
  cases w <;> rfl

/-- So do the writes of a scene. -/
theorem Scene.files_foldl_apply (ws : List Write) (s : Scene) :
    (ws.foldl Scene.apply s).files = ws.foldl Files.after s.files := by
  induction ws generalizing s with
  | nil => rfl
  | cons w ws ih => rw [List.foldl_cons, List.foldl_cons, ih, files_apply]

/-! ### Pools -/

/-- Free slots, **members** and files, and what has been written so far. -/
structure Pool where
  /-- The number of free slots. -/
  slots : Nat
  /-- The members, in the order in which they came. -/
  members : List Member
  /-- The files. -/
  files : Files
  /-- Each write, with the number of the member that made it. -/
  written : List (Nat × Write)

/-- What may **happen next**. -/
inductive Move where
  /-- A session comes, and its run waits for a slot. -/
  | spawn (session : Session)
  /-- It is the turn of the member number `i`. -/
  | turn (i : Nat)
  /-- The handle of the member number `i` is dropped. -/
  | drop (i : Nat)
  /-- Something else changes the files. -/
  | elsewhere (f : Files → Files)

/-- The sessions that come with some moves. -/
def Move.spawned (moves : List Move) : List Session :=
  moves.filterMap fun
    | .spawn session => some session
    | _ => none

theorem Move.spawned_append (moves more : List Move) :
    spawned (moves ++ more) = spawned moves ++ spawned more :=
  List.filterMap_append

/-- The member that a move is about. -/
def Move.member? : Move → Option Nat
  | .turn i | .drop i => some i
  | _ => none

namespace Pool

/-- A pool without members. -/
def ofConfig (c : Config) (files : Files) : Pool :=
  ⟨c.maxSessions, [], files, []⟩

/-- The pool after the **turn** of a member: it takes a slot if there is one, makes one write of
its run, or gives its slot back if its run is over. -/
def turn (t : Toolchain) (c : Config) (i : Nat) (p : Pool) : Pool :=
  match p.members[i]? with
  | none => p
  | some m =>
    match m.standing with
    | .gone _ => p
    | .waiting =>
      if p.slots = 0 then p
      else
        { p with
          slots := p.slots - 1
          members := p.members.set i { m with standing := .working (.begin t c) } }
    | .working call =>
      match call.over? with
      | some result =>
        { p with
          slots := p.slots + 1
          members := p.members.set i { m with standing := .gone result } }
      | none =>
        let call := call.ready ⟨m.session, p.files, []⟩
        match call.left with
        | [] => { p with members := p.members.set i { m with standing := .working call } }
        | w :: left =>
          ⟨p.slots,
            p.members.set i ⟨m.session.apply w, .working { call with left }, m.watched⟩,
            p.files.after w, p.written ++ [(i, w)]⟩

/-- The pool after one **move**. -/
def move (t : Toolchain) (c : Config) (p : Pool) : Move → Pool
  | .spawn session => { p with members := p.members ++ [⟨session, .waiting, true⟩] }
  | .turn i => p.turn t c i
  | .drop i =>
    match p.members[i]? with
    | none => p
    | some m => { p with members := p.members.set i { m with watched := false } }
  | .elsewhere f => { p with files := f p.files }

/-- The pool **after some moves**. -/
def after (t : Toolchain) (c : Config) (p : Pool) (moves : List Move) : Pool :=
  moves.foldl (move t c) p

theorem after_append (p : Pool) (moves more : List Move) :
    p.after t c (moves ++ more) = (p.after t c moves).after t c more :=
  List.foldl_append

/-- The number of members that work. -/
def working (p : Pool) : Nat :=
  p.members.countP Member.isWorking

end Pool

/-! ### What a move can come to -/

/-- What its turn can **make of a member**, and of the slots and the files, with what is written. -/
inductive Member.Step (t : Toolchain) (c : Config) (slots : Nat) (files : Files) (m : Member) :
    Member → Nat → Files → List Write → Prop
  /-- It takes a slot. -/
  | enter (h : m.standing = .waiting) (hslots : 0 < slots) :
      Step t c slots files m { m with standing := .working (.begin t c) } (slots - 1) files []
  /-- It gives its slot back, since its run is over. -/
  | leave {call : Call} {result : Except Fault Unit} (h : m.standing = .working call)
      (hover : call.over? = some result) :
      Step t c slots files m { m with standing := .gone result } (slots + 1) files []
  /-- It goes on with nothing to write. -/
  | silent {call : Call} (h : m.standing = .working call) (hopen : call.over? = none)
      (hleft : (call.ready ⟨m.session, files, []⟩).left = []) :
      Step t c slots files m { m with standing := .working (call.ready ⟨m.session, files, []⟩) }
        slots files []
  /-- It makes a write. -/
  | write {call : Call} {w : Write} {left : List Write} (h : m.standing = .working call)
      (hopen : call.over? = none)
      (hleft : (call.ready ⟨m.session, files, []⟩).left = w :: left) :
      Step t c slots files m
        ⟨m.session.apply w, .working { call.ready ⟨m.session, files, []⟩ with left }, m.watched⟩
        slots (files.after w) [w]

namespace Pool

/-- What a move can **come to**. -/
inductive Moved (t : Toolchain) (c : Config) (p : Pool) : Move → Pool → Prop
  /-- A session comes. -/
  | spawned {session : Session} :
      Moved t c p (.spawn session) { p with members := p.members ++ [⟨session, .waiting, true⟩] }
  /-- The files change. -/
  | elsewhere {f : Files → Files} : Moved t c p (.elsewhere f) { p with files := f p.files }
  /-- Nothing happens: there is no such member, it is gone, or there is no slot for it. -/
  | still {move : Move} (hmove : move.member?.isSome) : Moved t c p move p
  /-- A handle is dropped. -/
  | dropped {i : Nat} {m : Member} (h : p.members[i]? = some m) :
      Moved t c p (.drop i) { p with members := p.members.set i { m with watched := false } }
  /-- A member has its turn. -/
  | went {i slots : Nat} {m m' : Member} {files : Files} {ws : List Write}
      (h : p.members[i]? = some m) (hstep : m.Step t c p.slots p.files m' slots files ws) :
      Moved t c p (.turn i)
        ⟨slots, p.members.set i m', files, p.written ++ ws.map fun w => (i, w)⟩

/-- The turn of a member that works is a **step of it**. -/
theorem turn_of_working {p : Pool} {i : Nat} {m : Member} {call : Call}
    (h : p.members[i]? = some m) (hworking : m.standing = .working call) :
    ∃ m' slots files ws, m.Step t c p.slots p.files m' slots files ws ∧
      p.turn t c i = ⟨slots, p.members.set i m', files, p.written ++ ws.map fun w => (i, w)⟩ := by
  simp only [turn, h, hworking]
  cases hover : call.over? with
  | some result => exact ⟨_, _, _, [], .leave hworking hover, by simp⟩
  | none =>
      simp only
      split
      next hleft => exact ⟨_, _, _, [], .silent hworking hover hleft, by simp⟩
      next w left hleft => exact ⟨_, _, _, [w], .write hworking hover hleft, rfl⟩

/-- A move **comes to** one of these. -/
theorem moved (p : Pool) (move : Move) : p.Moved t c move (p.move t c move) := by
  cases move with
  | spawn session => exact .spawned
  | elsewhere f => exact .elsewhere
  | drop i =>
      rw [Pool.move]
      cases hm : p.members[i]? with
      | none => exact .still rfl
      | some m => exact .dropped hm
  | turn i =>
      rw [Pool.move]
      cases hm : p.members[i]? with
      | none =>
          rw [turn, hm]
          exact .still rfl
      | some m =>
          cases hstanding : m.standing with
          | gone result =>
              simp only [turn, hm, hstanding]
              exact .still rfl
          | waiting =>
              simp only [turn, hm, hstanding]
              split
              next => exact .still rfl
              next hslots =>
                have hwent := Moved.went hm (.enter (c := c) (t := t) hstanding
                  (Nat.pos_of_ne_zero hslots))
                simpa using hwent
          | working call =>
              obtain ⟨m', slots, files, ws, hstep, hturn⟩ := turn_of_working hm hstanding
              rw [hturn]
              exact .went hm hstep

end Pool

/-! ### The steps of a service -/

/-- The **services that there can be**, and the sessions that have come to them. -/
inductive Service.Reached (t : Toolchain) (c : Config) (files : Files) :
    List Session → Service → Prop
  /-- A service starts without sessions. -/
  | start : Reached t c files [] (.ofConfig c files)
  /-- A session comes. -/
  | spawn {sessions : List Session} {s : Service} (h : Reached t c files sessions s)
      (session : Session) : Reached t c files (sessions ++ [session]) (s.spawn session)
  /-- A run takes a step. -/
  | step {sessions : List Session} {s : Service} (h : Reached t c files sessions s) (i : Nat) :
      Reached t c files sessions (s.step t c i)

/-- A member as a run of a service. -/
def Member.run (m : Member) : ServiceRun :=
  ⟨m.session,
    match m.standing with
    | .waiting => .waiting
    | .working call => .holding call.stage
    | .gone result => .over result⟩

/-- A member is **between two steps**: it has nothing left to write, and keeps its slot only for
another step. -/
def Member.Between (t : Toolchain) (c : Config) (m : Member) : Prop :=
  ∀ call, m.standing = .working call →
    call = ⟨t, c, call.stage, []⟩ ∧ call.stage.result? = none

namespace Pool

/-- A pool as a service. -/
def service (p : Pool) : Service :=
  ⟨p.slots, p.members.map Member.run, p.files⟩

/-- A pool **stands for** a service if all its members are between two steps. -/
structure StandsFor (t : Toolchain) (c : Config) (p : Pool) (s : Service) : Prop where
  /-- It is the service, without what has been written. -/
  same : p.service = s
  /-- Its members are between two steps. -/
  between : ∀ m ∈ p.members, m.Between t c

/-- Turns in a row **write all that is left**. -/
theorem after_left {p : Pool} {i : Nat} {session : Session} {stage : Stage} {left : List Write}
    {watched : Bool} (h : p.members[i]? = some ⟨session, .working ⟨t, c, stage, left⟩, watched⟩) :
    p.after t c (List.replicate left.length (.turn i)) =
      ⟨p.slots, p.members.set i ⟨session.after left, .working ⟨t, c, stage, []⟩, watched⟩,
        left.foldl Files.after p.files, p.written ++ left.map fun w => (i, w)⟩ := by
  induction left generalizing p session with
  | nil =>
      obtain ⟨hi, hget⟩ := List.getElem?_eq_some_iff.mp h
      simp [after, ← hget, List.set_getElem_self]
  | cons w left ih =>
      have hturn : p.move t c (.turn i) =
          ⟨p.slots, p.members.set i ⟨session.apply w, .working ⟨t, c, stage, left⟩, watched⟩,
            p.files.after w, p.written ++ [(i, w)]⟩ := by
        simp only [move, turn, h, Call.over?, Call.ready]
      have hset : (p.move t c (.turn i)).members[i]? =
          some ⟨session.apply w, .working ⟨t, c, stage, left⟩, watched⟩ := by
        rw [hturn]
        exact List.getElem?_set_self (List.getElem?_eq_some_iff.mp h).1
      rw [List.length_cons, List.replicate_succ, after, List.foldl_cons, ← after, ih hset, hturn]
      simp [List.set_set]

/-- Turns in a row, with nothing in between, **make up a step** of a run. -/
theorem exists_step {p : Pool} {i : Nat} {session : Session} {stage : Stage} {watched : Bool}
    (h : p.members[i]? = some ⟨session, .working ⟨t, c, stage, []⟩, watched⟩)
    (hopen : stage.result? = none) :
    ∃ n written, p.after t c (List.replicate n (.turn i)) =
      ⟨p.slots,
        p.members.set i ⟨(stage.step t c ⟨session, p.files, []⟩).2.session,
          .working ⟨t, c, (stage.step t c ⟨session, p.files, []⟩).1, []⟩, watched⟩,
        (stage.step t c ⟨session, p.files, []⟩).2.files, written⟩ := by
  have hi := (List.getElem?_eq_some_iff.mp h).1
  rw [← Stage.foldl_writes, Scene.session_foldl_apply, Scene.files_foldl_apply]
  cases hwrites : stage.writes t c ⟨session, p.files, []⟩ with
  | nil =>
      refine ⟨1, p.written, ?_⟩
      simp [after, move, turn, h, Call.over?, Call.ready, hopen, hwrites]
  | cons w left =>
      have hturn : p.move t c (.turn i) =
          ⟨p.slots,
            p.members.set i ⟨session.apply w,
              .working ⟨t, c, (stage.step t c ⟨session, p.files, []⟩).1, left⟩, watched⟩,
            p.files.after w, p.written ++ [(i, w)]⟩ := by
        simp [move, turn, h, Call.over?, Call.ready, hopen, hwrites]
      have hset : (p.move t c (.turn i)).members[i]? = some ⟨session.apply w,
          .working ⟨t, c, (stage.step t c ⟨session, p.files, []⟩).1, left⟩, watched⟩ := by
        rw [hturn]
        exact List.getElem?_set_self hi
      refine ⟨left.length + 1, p.written ++ [(i, w)] ++ left.map fun w => (i, w), ?_⟩
      rw [List.replicate_succ, after, List.foldl_cons, ← after, after_left hset, hturn]
      simp [List.set_set]

/-- A call with nothing left at its end **gives its slot back**. -/
theorem move_of_over {p : Pool} {i : Nat} {m : Member} {call : Call} {result : Except Fault Unit}
    (h : p.members[i]? = some m) (hworking : m.standing = .working call)
    (hover : call.over? = some result) :
    p.move t c (.turn i) =
      { p with
        slots := p.slots + 1
        members := p.members.set i { m with standing := .gone result } } := by
  simp only [move, turn, h, hworking, hover]

/-- What a pool stands for, it stands for **after a member is replaced** by one that is between two
steps. -/
theorem StandsFor.set {p : Pool} {s : Service} (h : p.StandsFor t c s) {i : Nat} {m : Member}
    (hm : m.Between t c) (slots : Nat) (files : Files) (written : List (Nat × Write)) :
    Pool.StandsFor t c ⟨slots, p.members.set i m, files, written⟩
      ⟨slots, s.runs.set i m.run, files⟩ := by
  obtain ⟨rfl, hbetween⟩ := h
  refine ⟨?_, fun other hother => ?_⟩
  · rw [service, service, List.map_set]
  · rcases List.mem_or_eq_of_mem_set hother with hold | rfl
    · exact hbetween other hold
    · exact hm

/-- A member that is gone, or waits, is between two steps. -/
theorem between_of_not_working {m : Member} (h : ∀ call, m.standing ≠ .working call) :
    m.Between t c :=
  fun call hcall => absurd hcall (h call)

section Steps

variable {p : Pool} {i : Nat} {session : Session} {watched : Bool}

/-- A member that waits **takes a slot** in one turn, as in one step of a service, if one is
free. -/
theorem StandsFor.step_of_waiting (h : p.StandsFor t c p.service)
    (hm : p.members[i]? = some ⟨session, .waiting, watched⟩) :
    ∃ n, (p.after t c (List.replicate n (.turn i))).StandsFor t c (p.service.step t c i) := by
  have hruns : p.service.runs[i]? = some ⟨session, .waiting⟩ := by
    rw [service, List.getElem?_map, hm]
    rfl
  simp only [Service.step, hruns]
  by_cases hnone : p.service.slots = 0
  · refine ⟨0, ?_⟩
    rw [if_pos hnone]
    exact h
  · refine ⟨1, ?_⟩
    have hbegun : (Member.mk session (.working (.begin t c)) watched).Between t c := by
      intro call hcall
      obtain rfl := Standing.working.inj hcall
      exact ⟨rfl, rfl⟩
    have hslots : p.slots ≠ 0 := hnone
    have hturn : p.after t c (List.replicate 1 (.turn i)) =
        { p with
          slots := p.slots - 1
          members := p.members.set i ⟨session, .working (.begin t c), watched⟩ } := by
      simp [after, move, turn, hm, hslots]
    rw [if_neg hnone, hturn]
    exact h.set hbegun _ _ _

/-- A member that works writes all that a step writes, in as many turns, and **gives its slot back**
in one turn more if the step is its last one. -/
theorem StandsFor.step_of_working (h : p.StandsFor t c p.service) {call : Call}
    (hm : p.members[i]? = some ⟨session, .working call, watched⟩) :
    ∃ n, (p.after t c (List.replicate n (.turn i))).StandsFor t c (p.service.step t c i) := by
  have hruns : p.service.runs[i]? = some ⟨session, .holding call.stage⟩ := by
    rw [service, List.getElem?_map, hm]
    rfl
  obtain ⟨hcall, hopen⟩ := h.between _ (List.mem_of_getElem? hm) call rfl
  generalize call.stage = stage at hcall hopen hruns
  subst hcall
  obtain ⟨n, written, hrow⟩ := exists_step hm hopen
  have hfiles : p.service.files = p.files := rfl
  simp only [Service.step, hruns, hfiles]
  generalize stage.step t c ⟨session, p.files, []⟩ = next at hrow ⊢
  obtain ⟨stage', scene⟩ := next
  split
  next result after heq =>
    obtain ⟨rfl, rfl⟩ := Prod.mk.inj heq
    refine ⟨n + 1, ?_⟩
    have hset : (p.after t c (List.replicate n (.turn i))).members[i]? =
        some ⟨scene.session, .working ⟨t, c, .ended result, []⟩, watched⟩ := by
      rw [hrow]
      exact List.getElem?_set_self (List.getElem?_eq_some_iff.mp hm).1
    have hlast := move_of_over (t := t) (c := c) hset rfl rfl
    rw [List.replicate_succ', after_append, after, List.foldl_cons, List.foldl_nil, hlast, hrow,
      List.set_set]
    exact h.set (between_of_not_working fun call => Standing.noConfusion) _ _ _
  next other after hother heq =>
    obtain ⟨rfl, rfl⟩ := Prod.mk.inj heq
    refine ⟨n, ?_⟩
    rw [hrow]
    refine h.set ?_ p.slots _ written
    intro call hcall
    obtain rfl := Standing.working.inj hcall
    refine ⟨rfl, ?_⟩
    cases stage' with
    | ended result => exact absurd rfl (hother result)
    | _ => rfl

end Steps

/-- A step of a service is **a row of turns**. -/
theorem StandsFor.step {p : Pool} {s : Service} (h : p.StandsFor t c s) (i : Nat) :
    ∃ n, (p.after t c (List.replicate n (.turn i))).StandsFor t c (s.step t c i) := by
  obtain rfl := h.same
  have hruns : p.service.runs[i]? = p.members[i]?.map Member.run := List.getElem?_map
  cases hm : p.members[i]? with
  | none =>
      rw [hm] at hruns
      refine ⟨0, ?_⟩
      rw [Service.step, hruns]
      exact h
  | some m =>
      obtain ⟨session, standing, watched⟩ := m
      cases standing with
      | gone result =>
          rw [hm] at hruns
          refine ⟨0, ?_⟩
          rw [Service.step, hruns]
          exact h
      | waiting => exact h.step_of_waiting hm
      | working call => exact h.step_of_working hm

end Pool

/-- **What a service can come to, a pool can come to**, with the same sessions. -/
theorem Service.Reached.exists_moves {files : Files} {sessions : List Session} {s : Service}
    (h : Service.Reached t c files sessions s) :
    ∃ moves, Move.spawned moves = sessions ∧
      ((Pool.ofConfig c files).after t c moves).StandsFor t c s := by
  induction h with
  | start => exact ⟨[], rfl, rfl, fun m hm => absurd hm List.not_mem_nil⟩
  | @spawn sessions s h session ih =>
      obtain ⟨moves, rfl, rfl, hbetween⟩ := ih
      refine ⟨moves ++ [.spawn session], Move.spawned_append moves [.spawn session], ?_, ?_⟩
      · rw [Pool.after_append]
        simp [Pool.after, Pool.move, Pool.service, Service.spawn, Member.run]
      · rw [Pool.after_append]
        intro m hm
        rcases List.mem_append.mp hm with hold | hnew
        · exact hbetween m hold
        · obtain rfl := List.mem_singleton.mp hnew
          exact Pool.between_of_not_working fun call => Standing.noConfusion
  | @step sessions s h i ih =>
      obtain ⟨moves, rfl, hstands⟩ := ih
      obtain ⟨n, hrow⟩ := hstands.step i
      have hnone : Move.spawned (List.replicate n (.turn i)) = [] := by simp [Move.spawned]
      refine ⟨moves ++ List.replicate n (.turn i), ?_, ?_⟩
      · rw [Move.spawned_append, hnone, List.append_nil]
      · rw [Pool.after_append]
        exact hrow

end CapabilityGate
