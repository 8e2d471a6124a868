import CapabilityGate.Proofs.Run.Pool
import CapabilityGate.Proofs.Run.Workspace

/-!
# Slots are conserved

However the moves of a pool come, each of its slots is free or belongs to one member that works. A
member that works and keeps having its turn comes to the end of its run, whatever that is, and
gives its slot back. Members with different identifiers work in different directories, and what the
program of one writes is in the output of its own session only.

## Main definitions

* `Session.Placed`: a session has no directory but a workspace with its identifier.
* `Printed`: what the program of a run may have written.
* `Member.Sound`, `Pool.Sound`: what every move keeps.
* `Pool.Conserves`: what is promised of a pool.

## Main results

* `Member.Sound.step`: a turn keeps its member as it should be.
* `Pool.Sound.move`: every move keeps the pool so.
* `Pool.exists_gone`: a member that keeps having its turn gives its slot back.
* `slots_conserved`: the slots of a service are conserved.
-/

namespace CapabilityGate

variable {t : Toolchain} {c : Config}

/-! ### What a run may have done -/

/-- The chunk that is written, if one is. -/
def Write.chunk? : Write → Option String
  | .print chunk => some chunk
  | _ => none

/-- The **chunks** among some writes. -/
def chunksOf (ws : List Write) : List String :=
  ws.filterMap Write.chunk?

theorem chunksOf_append (ws more : List Write) :
    chunksOf (ws ++ more) = chunksOf ws ++ chunksOf more :=
  List.filterMap_append

/-- Chunks that are printed are **the chunks** of those writes. -/
@[simp]
theorem chunksOf_print (chunks : List String) : chunksOf (chunks.map .print) = chunks := by
  induction chunks with
  | nil => rfl
  | cons chunk chunks ih => exact congrArg (chunk :: ·) ih

/-- The workspace that a stage works in, if it has one. -/
def Stage.workspace? : Stage → Option Workspace
  | .parsing w | .resolving w _ | .auditing w _ _ | .checking w _ _ | .linking w _ _
  | .compiling w _ _ | .executing w _ | .removing w _ => some w
  | _ => none

/-- A session has **no directory but a workspace** with its identifier. -/
def Session.Placed (s : Session) : Prop :=
  ∀ path, s.workspace = some path → ∃ d, path = Workspace.pathFor d s.id

/-- What the program of a run may **have written** in the end: nothing, or what it writes when it is
executed in the workspace of the run. -/
def Printed (c : Config) (id : RunId) (chunks : List String) : Prop :=
  chunks = [] ∨ ∃ files path x,
    Sandbox.execute c.limits files path [] (Workspace.pathFor c.workspace id) = .ok x ∧
      chunks = x.chunks

/-- A step of a run stays **in its workspace**, which is the one with the identifier of the run. -/
theorem Stage.inside_step {a b : Stage} {s u : Scene} (hstep : Stage.Step t c a s b u)
    (h : ∀ w, a.workspace? = some w → w.path = Workspace.pathFor c.workspace s.session.id) :
    ∀ w, b.workspace? = some w → w.path = Workspace.pathFor c.workspace s.session.id := by
  cases hstep with
  | create hcreate =>
      intro w hw
      obtain rfl := Option.some.inj hw
      exact (Workspace.of_create_ok hcreate).1
  | claim _ | refuse _ | createFailed _ | remove | settle | settleFailed | close | stay =>
      exact fun w hw => absurd hw (Option.some_ne_none w).symm
  | _ => exact h

/-- The session of a run gets **no directory but its workspace**. -/
theorem Stage.place_mem_writes {stage : Stage} {s : Scene} {path : String}
    (h : .place path ∈ stage.writes t c s) :
    path = Workspace.pathFor c.workspace s.session.id := by
  cases stage with
  | creating =>
      rw [writes] at h
      rcases List.mem_cons.mp h with hchange | hplace
      · exact Write.noConfusion hchange
      · split at hplace
        next w hcreate =>
          obtain rfl := Write.place.inj (List.mem_singleton.mp hplace)
          exact (Workspace.of_create_ok (Prod.ext rfl hcreate)).1
        next => exact absurd hplace List.not_mem_nil
  | claiming =>
      rw [writes] at h
      split at h <;> simp at h
  | executing w path =>
      rw [writes] at h
      split at h <;> simp at h
  | settling result cleanup => cases result <;> simp [writes] at h
  | _ => simp [writes] at h

/-- A run writes chunks **only when it executes** its program. -/
theorem Stage.chunksOf_writes (stage : Stage) (s : Scene) :
    chunksOf (stage.writes t c s) = [] ∨ ∃ w path x, stage = .executing w path ∧
      Sandbox.execute c.limits s.files path [] w.path = .ok x ∧
      chunksOf (stage.writes t c s) = x.chunks := by
  cases stage with
  | executing w path =>
      rw [writes]
      cases hexecute : Sandbox.execute c.limits s.files path [] w.path with
      | error e => exact .inl rfl
      | ok x =>
          refine .inr ⟨w, path, x, rfl, hexecute, ?_⟩
          have hprinted := chunksOf_append (x.chunks.map .print) [.change (t.aftermath path w.path)]
          rw [chunksOf_print] at hprinted
          exact hprinted.trans (List.append_nil _)
  | claiming =>
      rw [writes]
      split <;> exact .inl rfl
  | creating =>
      rw [writes]
      split <;> exact .inl rfl
  | settling result cleanup => cases result <;> exact .inl rfl
  | _ => exact .inl rfl

/-- No write gives a session another directory than a workspace **unless it is one of that**. -/
theorem Session.Placed.apply {s : Session} (h : s.Placed) {w : Write}
    (hw : ∀ path, w = .place path → ∃ d, path = Workspace.pathFor d s.id) :
    (s.apply w).Placed := by
  cases w with
  | place path =>
      intro found hfound
      have hplace : some (s.workspace.getD path) = some found := hfound
      obtain rfl := Option.some.inj hplace
      cases hbefore : s.workspace with
      | none => exact hw path rfl
      | some before => exact h before hbefore
  | _ => exact h

/-- A session that there can be has **no directory but a workspace** with its identifier. -/
theorem Session.Reachable.placed {session : Session} (h : session.Reachable) :
    session.Placed := by
  induction h with
  | made id source => exact fun path hpath => nomatch hpath
  | denied h more ih => exact ih
  | @passed s u t c stage h hreaches ih =>
      refine hreaches.invariant (P := fun _ u => u.session.Placed) ih ?_
      intro a b u v hstep hplaced
      cases hstep with
      | @create _ files w hcreate =>
          refine hplaced.apply (w := .place w.path) fun path hpath => ?_
          obtain rfl := Write.place.inj hpath
          exact ⟨_, (Workspace.of_create_ok hcreate).1⟩
      | _ => exact hplaced

/-- No step leaves **more stages**. -/
theorem Stage.remaining_le_of_step {a b : Stage} {s u : Scene} (h : Stage.Step t c a s b u) :
    b.remaining ≤ a.remaining := by
  cases h <;> simp [remaining]

/-! ### Members -/

/-- A call is **as it should be** after its program has written some chunks. -/
structure Call.Sound (t : Toolchain) (c : Config) (id : RunId) (printed : List String)
    (call : Call) : Prop where
  /-- It uses the toolchain of the service. -/
  toolchain : call.toolchain = t
  /-- It has the settings of the service. -/
  config : call.config = c
  /-- It works in the workspace with its identifier. -/
  inside : ∀ w, call.stage.workspace? = some w → w.path = Workspace.pathFor c.workspace id
  /-- Its session gets no other directory. -/
  places : ∀ path, .place path ∈ call.left → path = Workspace.pathFor c.workspace id
  /-- Its program writes nothing but what it writes there. -/
  prints : Printed c id (printed ++ chunksOf call.left)
  /-- Before it is executed it writes nothing. -/
  early : 4 ≤ call.stage.remaining → printed ++ chunksOf call.left = []

/-- A call that has not begun is as it should be. -/
theorem Call.sound_begin (t : Toolchain) (c : Config) (id : RunId) :
    (Call.begin t c).Sound t c id [] :=
  { toolchain := rfl
    config := rfl
    inside := fun w hw => absurd hw (Option.some_ne_none w).symm
    places := fun _ hpath => absurd hpath List.not_mem_nil
    prints := .inl rfl
    early := fun _ => rfl }

/-- With something to write, a call is **still as it should be**. -/
theorem Call.Sound.ready {call : Call} {s : Scene} {id : RunId} {printed : List String}
    (h : call.Sound t c id printed) (hid : s.session.id = id) :
    (call.ready s).Sound t c id printed := by
  obtain rfl := hid
  obtain ⟨t', c', stage, left⟩ := call
  cases left with
  | cons w left => exact h
  | nil =>
      obtain ⟨rfl, rfl, hinside, -, hprints, hearly⟩ := h
      have hstep := Stage.step_cases t' c' stage s
      have hnone : chunksOf ([] : List Write) = [] := rfl
      rw [hnone, List.append_nil] at hprints hearly
      refine ⟨rfl, rfl, Stage.inside_step hstep hinside, fun _ => Stage.place_mem_writes,
        ?prints, ?early⟩
      case prints =>
        rcases stage.chunksOf_writes (t := t') (c := c') s with hquiet | ⟨w, path, x, hx⟩
        · rw [Call.ready, hquiet, List.append_nil]
          exact hprints
        · obtain ⟨rfl, hexecute, hchunks⟩ := hx
          rw [hinside w rfl] at hexecute
          rw [Call.ready, hchunks, hearly (Nat.le_refl 4), List.nil_append]
          exact .inr ⟨_, _, x, hexecute, rfl⟩
      case early =>
        intro hfour
        rcases stage.chunksOf_writes (t := t') (c := c') s with hquiet | ⟨w, path, x, hx⟩
        · rw [Call.ready, hquiet, List.append_nil]
          exact hearly (Nat.le_trans hfour (Stage.remaining_le_of_step hstep))
        · obtain ⟨rfl, -, -⟩ := hx
          have hfewer := Stage.remaining_lt_of_step hstep (Nat.succ_pos 3)
          exact absurd hfour (Nat.not_le.mpr hfewer)

/-- A member is **as it should be** when it has come with a session and its program has written some
chunks. -/
structure Member.Sound (t : Toolchain) (c : Config) (start : Session) (printed : List String)
    (m : Member) : Prop where
  /-- Its session keeps its identifier. -/
  id : m.session.id = start.id
  /-- Its session has no other directory than a workspace. -/
  placed : m.session.Placed
  /-- The output of its session has these chunks, and nothing else is added. -/
  output : m.session.output = start.output.appendAll printed
  /-- While it waits, nothing is written. -/
  waits : m.standing = .waiting → printed = []
  /-- While it works, its call is as it should be. -/
  works : ∀ call, m.standing = .working call → call.Sound t c start.id printed
  /-- These chunks are the first that its program writes in its workspace. -/
  prints : ∃ rest, Printed c start.id (printed ++ rest)

/-- A member that comes is as it should be. -/
theorem Member.sound_spawn {session : Session} (h : session.Placed) :
    Member.Sound t c session [] ⟨session, .waiting, true⟩ :=
  { id := rfl
    placed := h
    output := by simp [Buffer.appendAll]
    waits := fun _ => rfl
    works := fun _ hcall => Standing.noConfusion hcall
    prints := ⟨[], .inl rfl⟩ }

namespace Member.Sound

variable {m m' : Member} {start : Session} {printed : List String}

/-- Nobody has to **hold a handle** of a member. -/
theorem drop (h : m.Sound t c start printed) :
    Member.Sound t c start printed { m with watched := false } :=
  ⟨h.id, h.placed, h.output, h.waits, h.works, h.prints⟩

/-- A session with one write more has one chunk more **if the write is one**. -/
theorem output_apply {s : Session} (w : Write) (h : s.output = start.output.appendAll printed) :
    (s.apply w).output = start.output.appendAll (printed ++ chunksOf [w]) := by
  cases w with
  | print chunk =>
      have hprint : (s.apply (.print chunk)).output = s.output.appendAll [chunk] := rfl
      rw [hprint, h]
      simp [Buffer.appendAll, chunksOf, Write.chunk?]
  | _ => exact h.trans (congrArg start.output.appendAll (List.append_nil printed).symm)

/-- A **turn keeps** its member as it should be. -/
theorem step {slots slots' : Nat} {files files' : Files} {ws : List Write}
    (h : m.Sound t c start printed) (hstep : m.Step t c slots files m' slots' files' ws) :
    m'.Sound t c start (printed ++ chunksOf ws) := by
  have hnone : printed ++ chunksOf [] = printed := List.append_nil printed
  cases hstep with
  | enter hwaiting hslots =>
      rw [hnone]
      refine ⟨h.id, h.placed, h.output, fun hwaits => Standing.noConfusion hwaits, ?_, h.prints⟩
      intro call hcall
      obtain rfl := Standing.working.inj hcall
      rw [h.waits hwaiting]
      exact Call.sound_begin t c start.id
  | leave hworking hover =>
      rw [hnone]
      exact ⟨h.id, h.placed, h.output, fun hwaits => Standing.noConfusion hwaits,
        fun call hcall => Standing.noConfusion hcall, h.prints⟩
  | silent hworking hopen hleft =>
      rw [hnone]
      refine ⟨h.id, h.placed, h.output, fun hwaits => Standing.noConfusion hwaits, ?_, h.prints⟩
      intro other hother
      obtain rfl := Standing.working.inj hother
      exact (h.works _ hworking).ready h.id
  | @write call w left hworking hopen hleft =>
      obtain ⟨htoolchain, hconfig, hinside, hplaces, hprints, hearly⟩ :=
        (h.works call hworking).ready (s := ⟨m.session, files, []⟩) h.id
      have hchunks : printed ++ chunksOf (w :: left) =
          printed ++ chunksOf [w] ++ chunksOf left := by
        rw [List.append_assoc, ← chunksOf_append]
        rfl
      rw [hleft, hchunks] at hprints hearly
      rw [hleft] at hplaces
      refine ⟨?_, ?_, output_apply w h.output, fun hwaits => Standing.noConfusion hwaits, ?_,
        ⟨_, hprints⟩⟩
      · exact (Session.id_apply m.session w).trans h.id
      · refine h.placed.apply fun path hpath => ⟨c.workspace, ?_⟩
        rw [h.id]
        exact hplaces path (hpath ▸ List.mem_cons_self)
      · intro other hother
        obtain rfl := Standing.working.inj hother
        exact ⟨htoolchain, hconfig, hinside,
          fun path hpath => hplaces path (List.mem_cons_of_mem w hpath), hprints, hearly⟩

end Member.Sound

/-- A turn takes a slot **for a member that works from then on**, and gives one back for a member
that does not. -/
theorem Member.Step.slots_eq {m m' : Member} {slots slots' : Nat} {files files' : Files}
    {ws : List Write} (h : m.Step t c slots files m' slots' files' ws) :
    slots' + m'.isWorking.toNat = slots + m.isWorking.toNat := by
  cases h with
  | enter hwaiting hslots =>
      simp only [isWorking, hwaiting, Bool.toNat_true, Bool.toNat_false]
      omega
  | leave hworking hover => simp [isWorking, hworking]
  | silent hworking hopen hleft => simp [isWorking, hworking]
  | write hworking hopen hleft => simp [isWorking, hworking]

/-! ### Pools -/

namespace Pool

/-- The chunks that the program of the member number `i` **has written**. -/
def printed (p : Pool) (i : Nat) : List String :=
  chunksOf ((p.written.filter (·.1 == i)).map Prod.snd)

/-- A member that makes writes **adds its chunks**, and no other member adds any. -/
theorem printed_of_written {p q : Pool} {i : Nat} {ws : List Write}
    (h : q.written = p.written ++ ws.map fun w => (i, w)) (j : Nat) :
    q.printed j = p.printed j ++ if i = j then chunksOf ws else [] := by
  rw [printed, h, List.filter_append, List.map_append, chunksOf_append, printed]
  refine congrArg (_ ++ ·) ?_
  by_cases hj : i = j
  · have hall : (ws.map fun w => (i, w)).filter (·.1 == j) = ws.map fun w => (i, w) := by
      simp [List.filter_eq_self, hj]
    rw [hall, if_pos hj, List.map_map]
    exact congrArg chunksOf (List.map_id ws)
  · have hno : (ws.map fun w => (i, w)).filter (·.1 == j) = [] := by
      simp [List.filter_eq_nil_iff, hj]
    rw [hno, if_neg hj]
    rfl

/-- The number of members that work, **after one is replaced**. -/
theorem working_set {members : List Member} {i : Nat} {m : Member} (h : members[i]? = some m)
    (m' : Member) :
    (members.set i m').countP Member.isWorking + m.isWorking.toNat =
      members.countP Member.isWorking + m'.isWorking.toNat := by
  obtain ⟨hi, hget⟩ := List.getElem?_eq_some_iff.mp h
  rw [List.countP_set hi, hget]
  cases hworks : m.isWorking with
  | false => cases m'.isWorking <;> simp
  | true =>
      have hpos : 0 < members.countP Member.isWorking :=
        List.countP_pos_iff.mpr ⟨m, List.mem_of_getElem? h, hworks⟩
      cases m'.isWorking <;> simp <;> omega

/-- A pool is **as it should be** when some sessions have come to it. -/
structure Sound (t : Toolchain) (c : Config) (sessions : List Session) (p : Pool) : Prop where
  /-- Each session is that of one member. -/
  length : p.members.length = sessions.length
  /-- The members are as they should be. -/
  members : ∀ i (m : Member) start, p.members[i]? = some m → sessions[i]? = some start →
    m.Sound t c start (p.printed i)
  /-- Each slot is free, or a member works with it. -/
  slots : p.slots + p.working = c.maxSessions
  /-- Nobody but members has written anything. -/
  written : ∀ entry ∈ p.written, entry.1 < p.members.length

variable {p : Pool} {sessions : List Session}

/-- A pool stays as it should be when **one member goes on**, with its slot and its writes. -/
theorem Sound.set (h : p.Sound t c sessions) {i slots : Nat} {m m' : Member} {files : Files}
    {ws : List Write} (hm : p.members[i]? = some m)
    (hslots : slots + m'.isWorking.toNat = p.slots + m.isWorking.toNat)
    (hsound : ∀ start printed, m.Sound t c start printed →
      m'.Sound t c start (printed ++ chunksOf ws)) :
    Sound t c sessions
      ⟨slots, p.members.set i m', files, p.written ++ ws.map fun w => (i, w)⟩ := by
  have hi := (List.getElem?_eq_some_iff.mp hm).1
  refine ⟨List.length_set.trans h.length, ?_, ?_, ?_⟩
  · intro j other start hother hstart
    rw [printed_of_written (p := p) rfl]
    by_cases hj : i = j
    · subst hj
      rw [List.getElem?_set_self hi] at hother
      obtain rfl := Option.some.inj hother
      rw [if_pos rfl]
      exact hsound start _ (h.members i m start hm hstart)
    · rw [List.getElem?_set_ne hj] at hother
      rw [if_neg hj, List.append_nil]
      exact h.members j other start hother hstart
  · have hcount := working_set hm m'
    have hbefore := h.slots
    rw [working] at hbefore ⊢
    simp only
    omega
  · intro entry hentry
    rw [List.length_set]
    rcases List.mem_append.mp hentry with hold | hnew
    · exact h.written entry hold
    · obtain ⟨w, -, rfl⟩ := List.mem_map.mp hnew
      exact hi

/-- A pool stays as it should be **when a session comes**. -/
theorem Sound.spawn (h : p.Sound t c sessions) {session : Session} (hplaced : session.Placed) :
    Sound t c (sessions ++ [session])
      { p with members := p.members ++ [⟨session, .waiting, true⟩] } := by
  have hnone : p.printed p.members.length = [] := by
    have hno : p.written.filter (·.1 == p.members.length) = [] := by
      rw [List.filter_eq_nil_iff]
      exact fun entry hentry heq =>
        absurd (h.written entry hentry) (Nat.not_lt.mpr (Nat.le_of_eq (beq_iff_eq.mp heq).symm))
    rw [printed, hno]
    rfl
  refine ⟨?_, ?_, ?_, ?_⟩
  · rw [List.length_append, List.length_append, h.length]
    rfl
  · intro i m start hm hstart
    rcases Nat.lt_trichotomy i p.members.length with hi | rfl | hi
    · rw [List.getElem?_append_left hi] at hm
      rw [List.getElem?_append_left (h.length ▸ hi)] at hstart
      exact h.members i m start hm hstart
    · rw [List.getElem?_concat_length] at hm
      rw [h.length, List.getElem?_concat_length] at hstart
      obtain rfl := Option.some.inj hm
      obtain rfl := Option.some.inj hstart
      have hsound := Member.sound_spawn (t := t) (c := c) hplaced
      rwa [← hnone] at hsound
    · have hlong : (p.members ++ [Member.mk session .waiting true]).length ≤ i := by
        rw [List.length_append]
        exact hi
      rw [List.getElem?_eq_none hlong] at hm
      exact nomatch hm
  · have hcount : (p.members ++ [Member.mk session .waiting true]).countP Member.isWorking =
        p.members.countP Member.isWorking := List.countP_append
    rw [← h.slots]
    exact congrArg (p.slots + ·) hcount
  · intro entry hentry
    rw [List.length_append]
    exact Nat.lt_add_right _ (h.written entry hentry)

/-- **Every move** keeps the pool as it should be. -/
theorem Sound.move (h : p.Sound t c sessions) (move : Move)
    (hplaced : ∀ session ∈ Move.spawned [move], session.Placed) :
    (p.move t c move).Sound t c (sessions ++ Move.spawned [move]) := by
  have hmoved := p.moved (t := t) (c := c) move
  cases move with
  | spawn session => exact h.spawn (hplaced session List.mem_cons_self)
  | elsewhere f =>
      rw [show Move.spawned [.elsewhere f] = [] from rfl, List.append_nil]
      exact ⟨h.length, h.members, h.slots, h.written⟩
  | drop i =>
      rw [show Move.spawned [.drop i] = [] from rfl, List.append_nil]
      generalize p.move t c (.drop i) = q at hmoved
      cases hmoved with
      | still hmove => exact h
      | @dropped _ m hm =>
          have hdrop : ∀ start printed, m.Sound t c start printed →
              Member.Sound t c start (printed ++ chunksOf []) { m with watched := false } :=
            fun start printed hsound => by
              rw [chunksOf, List.filterMap_nil, List.append_nil]
              exact hsound.drop
          have hslots : p.slots + Bool.toNat (Member.isWorking { m with watched := false })
              = p.slots + m.isWorking.toNat := rfl
          have hset : Sound t c sessions ⟨p.slots, p.members.set i { m with watched := false },
              p.files, p.written ++ List.map (fun w => (i, w)) []⟩ := h.set hm hslots hdrop
          rwa [List.map_nil, List.append_nil] at hset
  | turn i =>
      rw [show Move.spawned [.turn i] = [] from rfl, List.append_nil]
      generalize p.move t c (.turn i) = q at hmoved
      cases hmoved with
      | still hmove => exact h
      | went hm hstep => exact h.set hm hstep.slots_eq fun start printed hsound => hsound.step hstep

/-- **All moves** keep the pool as it should be. -/
theorem Sound.after (h : p.Sound t c sessions) (moves : List Move)
    (hplaced : ∀ session ∈ Move.spawned moves, session.Placed) :
    (p.after t c moves).Sound t c (sessions ++ Move.spawned moves) := by
  induction moves generalizing p sessions with
  | nil => exact (List.append_nil sessions).symm ▸ h
  | cons move moves ih =>
      have hspawned : Move.spawned (move :: moves) = Move.spawned [move] ++ Move.spawned moves :=
        Move.spawned_append [move] moves
      rw [hspawned] at hplaced ⊢
      rw [← List.append_assoc]
      exact ih (h.move move fun session hmem => hplaced session (List.mem_append_left _ hmem))
        fun session hmem => hplaced session (List.mem_append_right _ hmem)

/-- A pool without members is as it should be. -/
theorem sound_ofConfig (t : Toolchain) (c : Config) (files : Files) :
    (Pool.ofConfig c files).Sound t c [] :=
  ⟨rfl, fun _ _ _ hm => (nomatch hm), rfl, fun _ hentry => absurd hentry List.not_mem_nil⟩

end Pool

/-! ### Members that keep having their turn -/

/-- What a call has before it: stages, and what is left to be written of its last one. -/
def Call.rest (call : Call) : Nat × Nat :=
  (call.stage.remaining, call.left.length)

/-- The turn of a member that works **brings it on**: it gives its slot back, or has less before
it. -/
theorem Member.Step.progress {m m' : Member} {slots slots' : Nat} {files files' : Files}
    {ws : List Write} {call : Call} (h : m.Step t c slots files m' slots' files' ws)
    (hworking : m.standing = .working call) :
    (∃ result, m'.standing = .gone result) ∨
      ∃ call', m'.standing = .working call' ∧
        Prod.Lex (· < ·) (· < ·) call'.rest call.rest := by
  -- a call with nothing left to write that is not over goes on to a later stage
  have hlater : ∀ {s : Scene}, call.over? = none → call.left = [] →
      (call.ready s).stage.remaining < call.stage.remaining := by
    intro s hopen hnone
    obtain ⟨t', c', stage, left⟩ := call
    obtain rfl : left = [] := hnone
    refine Stage.remaining_lt_of_step (Stage.step_cases t' c' stage s) (Nat.pos_of_ne_zero ?_)
    intro hzero
    obtain ⟨result, rfl⟩ := Stage.exists_ended_of_remaining hzero
    exact absurd hopen (Option.some_ne_none result)
  cases h with
  | enter hwaiting hslots => exact Standing.noConfusion (hwaiting.symm.trans hworking)
  | leave hother hover => exact .inl ⟨_, rfl⟩
  | silent hother hopen hleft =>
      obtain rfl := Standing.working.inj (hworking.symm.trans hother)
      refine .inr ⟨_, rfl, .left _ _ (hlater hopen ?_)⟩
      cases hwrites : call.left with
      | nil => rfl
      | cons w left => simp [Call.ready, hwrites] at hleft
  | @write _ w left hother hopen hleft =>
      obtain rfl := Standing.working.inj (hworking.symm.trans hother)
      refine .inr ⟨_, rfl, ?_⟩
      cases hwrites : call.left with
      | nil => exact .left _ _ (hlater hopen hwrites)
      | cons w' left' =>
          have hready : call.ready ⟨m.session, files, []⟩ = call := by
            simp only [Call.ready, hwrites]
          rw [hready] at hleft
          rw [hready, Call.rest, Call.rest, hleft]
          exact .right _ (Nat.lt_succ_self _)

namespace Pool

/-- What **another move** makes of a member: it is as far as it was. -/
theorem standing_of_other {p : Pool} {i : Nat} {m : Member} {move : Move}
    (hm : p.members[i]? = some m) (hmove : move ≠ .turn i) :
    ∃ m', (p.move t c move).members[i]? = some m' ∧ m'.standing = m.standing := by
  have hi := (List.getElem?_eq_some_iff.mp hm).1
  have hmoved := p.moved (t := t) (c := c) move
  generalize p.move t c move = q at hmoved
  cases hmoved with
  | spawned => exact ⟨m, (List.getElem?_append_left hi).trans hm, rfl⟩
  | elsewhere => exact ⟨m, hm, rfl⟩
  | still hmember => exact ⟨m, hm, rfl⟩
  | @dropped j other hother =>
      by_cases hj : j = i
      · subst hj
        obtain rfl := Option.some.inj (hm.symm.trans hother)
        exact ⟨_, List.getElem?_set_self hi, rfl⟩
      · exact ⟨m, (List.getElem?_set_ne hj).trans hm, rfl⟩
  | @went j _ other _ _ _ hother hstep =>
      have hj : j ≠ i := fun heq => hmove (congrArg Move.turn heq)
      exact ⟨m, (List.getElem?_set_ne hj).trans hm, rfl⟩

/-- The pool as it is **along an endless row** of moves. -/
def along (t : Toolchain) (c : Config) (p : Pool) (schedule : Nat → Move) : Nat → Pool
  | 0 => p
  | k + 1 => (p.along t c schedule k).move t c (schedule k)

variable {p : Pool} {schedule : Nat → Move} {i : Nat}

/-- Until its next turn a member is **as far as it was**. -/
theorem exists_turn {k : Nat} {m : Member} (hm : (p.along t c schedule k).members[i]? = some m)
    {later : Nat} (hlater : k ≤ later) (hturn : schedule later = .turn i) :
    ∃ next m', schedule next = .turn i ∧
      (p.along t c schedule next).members[i]? = some m' ∧ m'.standing = m.standing := by
  obtain ⟨n, rfl⟩ := Nat.exists_eq_add_of_le hlater
  induction n generalizing k m with
  | zero => exact ⟨k, m, hturn, hm, rfl⟩
  | succ n ih =>
      by_cases hnow : schedule k = .turn i
      · exact ⟨k, m, hnow, hm, rfl⟩
      · obtain ⟨m', hm', hsame⟩ := standing_of_other (t := t) (c := c) hm hnow
        obtain ⟨next, other, hnext, hother, hkept⟩ := ih (k := k + 1) hm' (Nat.le_add_right _ _)
          (by rwa [Nat.add_right_comm, Nat.add_assoc])
        exact ⟨next, other, hnext, hother, hkept.trans hsame⟩

/-- A member that works and **keeps having its turn** gives its slot back, whatever else happens. -/
theorem exists_gone (hturns : ∀ k, ∃ later ≥ k, schedule later = .turn i) {call : Call}
    {k : Nat} {m : Member} (hm : (p.along t c schedule k).members[i]? = some m)
    (hworking : m.standing = .working call) :
    ∃ later m' result, (p.along t c schedule later).members[i]? = some m' ∧
      m'.standing = .gone result := by
  obtain ⟨later, hlater, hturn⟩ := hturns k
  obtain ⟨next, before, hnext, hbefore, hsame⟩ := exists_turn hm hlater hturn
  obtain ⟨after, slots, files, ws, hstep, hmove⟩ :=
    turn_of_working (t := t) (c := c) hbefore (hsame.trans hworking)
  have hafter : (p.along t c schedule (next + 1)).members[i]? = some after := by
    have hmoved : p.along t c schedule (next + 1) =
        (p.along t c schedule next).turn t c i := by
      rw [along, hnext]
      rfl
    rw [hmoved, hmove]
    exact List.getElem?_set_self (List.getElem?_eq_some_iff.mp hbefore).1
  rcases hstep.progress (hsame.trans hworking) with ⟨result, hgone⟩ | ⟨call', hworking', hless⟩
  · exact ⟨next + 1, after, result, hafter, hgone⟩
  · exact exists_gone hturns hafter hworking'
termination_by call.rest
decreasing_by exact hless

end Pool

/-! ### The law of a service -/

/-- What is **promised of a pool** to which some sessions have come. -/
structure Pool.Conserves (t : Toolchain) (c : Config) (sessions : List Session) (p : Pool) :
    Prop where
  /-- Each slot is free, or one member works with it. -/
  slots : p.slots + p.working = c.maxSessions
  /-- A member whose run is over gives its slot back in its turn, whatever its result is. -/
  back : ∀ (i : Nat) (m : Member) call result, p.members[i]? = some m → m.standing = .working call →
    call.over? = some result →
      p.move t c (.turn i) =
        { p with
          slots := p.slots + 1
          members := p.members.set i { m with standing := .gone result } }
  /-- A member that works comes to that if it keeps having its turn, whatever else happens. -/
  ends : ∀ schedule i, (∀ k, ∃ later ≥ k, schedule later = .turn i) →
    ∀ (m : Member) call, p.members[i]? = some m → m.standing = .working call →
      ∃ later m' result, (p.along t c schedule later).members[i]? = some m' ∧
        m'.standing = .gone result
  /-- A member works in the workspace with its identifier. -/
  inside : ∀ (i : Nat) (m : Member) (call : Call) w, p.members[i]? = some m →
    m.standing = .working call → call.stage.workspace? = some w →
      w.path = Workspace.pathFor c.workspace m.session.id
  /-- The workspaces of two members are at different paths, and so are the directories that their
  sessions have. -/
  apart : ∀ (i j : Nat) (m m' : Member), i ≠ j → p.members[i]? = some m → p.members[j]? = some m' →
    FilePath.components (Workspace.pathFor c.workspace m.session.id) ≠
        FilePath.components (Workspace.pathFor c.workspace m'.session.id) ∧
      ∀ path path', m.session.workspace = some path → m'.session.workspace = some path' →
        FilePath.components path ≠ FilePath.components path'
  /-- The output of a session is what it came with and the chunks of its own program, which are the
  first that this program writes in its workspace. -/
  output : ∀ (i : Nat) (m : Member) start, p.members[i]? = some m → sessions[i]? = some start →
    m.session.output = start.output.appendAll (p.printed i) ∧
      ∃ rest, Printed c start.id (p.printed i ++ rest)
  /-- When all members are gone, all slots are free. -/
  allGone : (∀ m ∈ p.members, ∃ result, m.standing = .gone result) → p.slots = c.maxSessions

namespace Pool.Sound

variable {p : Pool} {sessions : List Session} (h : p.Sound t c sessions)

include h

/-- Each member is as it should be for **the session that it came with**. -/
theorem exists_start {i : Nat} {m : Member} (hm : p.members[i]? = some m) :
    ∃ start ∈ sessions, sessions[i]? = some start ∧ m.Sound t c start (p.printed i) := by
  have hi : i < sessions.length := by
    rw [← h.length]
    exact (List.getElem?_eq_some_iff.mp hm).1
  exact ⟨sessions[i], List.getElem_mem hi, List.getElem?_eq_getElem hi,
    h.members i m _ hm (List.getElem?_eq_getElem hi)⟩

/-- Members have **different identifiers** if the sessions that they came with have. -/
theorem id_ne (hdistinct : sessions.Pairwise fun s u => s.id ≠ u.id) {i j : Nat} (hij : i ≠ j)
    {m m' : Member} (hm : p.members[i]? = some m) (hm' : p.members[j]? = some m') :
    m.session.id ≠ m'.session.id := by
  obtain ⟨start, -, hat, hmember⟩ := h.exists_start hm
  obtain ⟨start', -, hat', hmember'⟩ := h.exists_start hm'
  obtain ⟨hi, rfl⟩ := List.getElem?_eq_some_iff.mp hat
  obtain ⟨hj, rfl⟩ := List.getElem?_eq_some_iff.mp hat'
  rw [hmember.id, hmember'.id]
  rcases Nat.lt_or_gt_of_ne hij with hlt | hgt
  · exact List.pairwise_iff_getElem.mp hdistinct i j hi hj hlt
  · exact (List.pairwise_iff_getElem.mp hdistinct j i hj hi hgt).symm

/-- When all members are gone, **all slots are free**. -/
theorem slots_of_gone (hgone : ∀ m ∈ p.members, ∃ result, m.standing = .gone result) :
    p.slots = c.maxSessions := by
  have hnone : p.working = 0 := by
    rw [Pool.working, List.countP_eq_zero]
    intro m hm
    obtain ⟨result, hresult⟩ := hgone m hm
    simp [Member.isWorking, hresult]
  rw [← h.slots, hnone, Nat.add_zero]

end Pool.Sound

/-- The slots of a service **are conserved**, however its sessions come, their runs take turns and
their handles are dropped. A service goes on as a pool does. -/
theorem slots_conserved (t : Toolchain) (c : Config) (files : Files) (moves : List Move)
    (hreachable : ∀ session ∈ Move.spawned moves, session.Reachable)
    (hproper : ∀ session ∈ Move.spawned moves, session.id.Proper)
    (hdistinct : (Move.spawned moves).Pairwise fun s u => s.id ≠ u.id) :
    ((Pool.ofConfig c files).after t c moves).Conserves t c (Move.spawned moves) ∧
      ∀ sessions s, Service.Reached t c files sessions s →
        ∃ moves, Move.spawned moves = sessions ∧
          ((Pool.ofConfig c files).after t c moves).StandsFor t c s := by
  have hsound := (Pool.sound_ofConfig t c files).after moves
    fun session hmem => (hreachable session hmem).placed
  rw [List.nil_append] at hsound
  refine ⟨?_, fun sessions s hreached => hreached.exists_moves⟩
  generalize (Pool.ofConfig c files).after t c moves = p at hsound
  generalize Move.spawned moves = sessions at hreachable hproper hdistinct hsound
  exact
    { slots := hsound.slots
      back := fun i m call result => Pool.move_of_over
      ends := fun schedule i hturns m call hm hworking =>
        Pool.exists_gone (k := 0) hturns hm hworking
      inside := by
        intro i m call w hm hworking hw
        obtain ⟨start, -, -, hmember⟩ := hsound.exists_start hm
        rw [hmember.id]
        exact (hmember.works call hworking).inside w hw
      apart := by
        intro i j m m' hij hm hm'
        obtain ⟨start, hmem, -, hmember⟩ := hsound.exists_start hm
        obtain ⟨start', hmem', -, hmember'⟩ := hsound.exists_start hm'
        have hid : m.session.id.Proper := hmember.id ▸ hproper start hmem
        have hid' : m'.session.id.Proper := hmember'.id ▸ hproper start' hmem'
        have hne := hsound.id_ne hdistinct hij hm hm'
        refine ⟨Workspace.components_pathFor_ne hid hid' hne, ?_⟩
        intro path path' hpath hpath'
        obtain ⟨d, rfl⟩ := hmember.placed path hpath
        obtain ⟨d', rfl⟩ := hmember'.placed path' hpath'
        exact Workspace.components_pathFor_ne hid hid' hne
      output := by
        intro i m start hm hat
        have hmember := hsound.members i m start hm hat
        exact ⟨hmember.output, hmember.prints⟩
      allGone := hsound.slots_of_gone }

/-- Two sessions whose runs work side by side, one of them without a handle. -/
theorem slots_conserved_of_two :
    let t := Toolchain.planned [] fun _ _ => .ok []
    let c : Config := {}
    let files : Files := ⟨.directory [], []⟩
    let moves := [Move.spawn (.ofSource ⟨List.replicate 32 '0'⟩ ""), .turn 0,
      .spawn (.ofSource ⟨List.replicate 32 '1'⟩ ""), .drop 0, .turn 1, .turn 0]
    (∀ session ∈ Move.spawned moves, session.Reachable) ∧
      (∀ session ∈ Move.spawned moves, session.id.Proper) ∧
      ((Move.spawned moves).Pairwise fun s u => s.id ≠ u.id) ∧
      ((Pool.ofConfig c files).after t c moves).Conserves t c (Move.spawned moves) := by
  intro t c files moves
  have hreachable : ∀ session ∈ Move.spawned moves, session.Reachable := by
    intro session hmem
    have hmade : session = .ofSource ⟨List.replicate 32 '0'⟩ "" ∨
        session = .ofSource ⟨List.replicate 32 '1'⟩ "" := by
      simpa [moves, Move.spawned] using hmem
    rcases hmade with rfl | rfl
    · exact .made _ _
    · exact .made _ _
  have hproper : ∀ session ∈ Move.spawned moves, session.id.Proper := by decide
  have hdistinct : (Move.spawned moves).Pairwise fun s u => s.id ≠ u.id := by decide
  exact ⟨hreachable, hproper, hdistinct,
    (slots_conserved t c files moves hreachable hproper hdistinct).1⟩

end CapabilityGate
