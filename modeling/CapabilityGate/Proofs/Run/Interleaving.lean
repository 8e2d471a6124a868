import CapabilityGate.Proofs.Run.Order
import CapabilityGate.Proofs.Run.Writes

/-!
# Calls that run one session

Several calls may run one session at the same time, and their writes may come in any order. The
first of them that has its turn takes the session, and every write to the session is made by that
call. All other calls are refused. What carries this is that a session does not wait any more from
the first write on.

## Main definitions

* `Call`: a call that runs a session, and how far it is.
* `Race`: calls that run one session, with all that they have written.
* `Turn`: whose turn it is.
* `Race.after`: calls after some turns.
* `RunsOnce`: what is promised of calls that run one session.

## Main results

* `Race.Sound.turn`: each turn keeps the session in the hands of one call.
* `runs_once`: under any interleaving a session is run once.
-/

namespace CapabilityGate

/-- A call that runs a session, and **how far** it is. -/
structure Call where
  /-- The toolchain that it uses. -/
  toolchain : Toolchain
  /-- Its settings. -/
  config : Config
  /-- What it does next, once it has written what is left. -/
  stage : Stage
  /-- What is left to be written of its last step. -/
  left : List Write

namespace Call

/-- A call that has not begun. -/
def begin (t : Toolchain) (c : Config) : Call :=
  ⟨t, c, .claiming, []⟩

/-- The call with something to write: it takes its next step if nothing is left of its last
one. -/
def ready (call : Call) (s : Scene) : Call :=
  match call.left with
  | [] =>
    { call with
      stage := (call.stage.step call.toolchain call.config s).1
      left := call.stage.writes call.toolchain call.config s }
  | _ => call

end Call

/-- Calls that run **one session**, and what they have written so far. -/
structure Race where
  /-- What they share. -/
  scene : Scene
  /-- The calls. -/
  calls : List Call
  /-- Each write, with the number of the call that made it. -/
  written : List (Nat × Write)

/-- **Whose turn** it is. -/
inductive Turn where
  /-- It is the turn of the call number `i`. -/
  | call (i : Nat)
  /-- Something else changes the files. -/
  | elsewhere (f : Files → Files)

namespace Race

/-- Calls that have not begun. -/
def begin (s : Scene) (callers : List (Toolchain × Config)) : Race :=
  ⟨s, callers.map fun (t, c) => .begin t c, []⟩

/-- The calls after one **turn**: the call whose turn it is makes one write, if it has any. -/
def turn (r : Race) : Turn → Race
  | .elsewhere f => { r with scene := { r.scene with files := f r.scene.files } }
  | .call i =>
    match r.calls[i]? with
    | none => r
    | some call =>
      let call := call.ready r.scene
      match call.left with
      | [] => { r with calls := r.calls.set i call }
      | w :: left => ⟨r.scene.apply w, r.calls.set i { call with left }, r.written ++ [(i, w)]⟩

/-- The calls **after some turns**. -/
def after (r : Race) (turns : List Turn) : Race :=
  turns.foldl turn r

theorem after_append (r : Race) (turns more : List Turn) :
    r.after (turns ++ more) = (r.after turns).after more :=
  List.foldl_append

/-- All writes so far, in order. -/
def writes (r : Race) : List Write :=
  r.written.map Prod.snd

/-- The call number `i` has **taken** the session. -/
def TakenBy (r : Race) (i : Nat) : Prop :=
  (i, .enter .parsing) ∈ r.written

end Race

/-- What a turn can **come to**. -/
inductive Race.Turned (r : Race) : Turn → Race → Prop
  /-- The files change. -/
  | elsewhere {f : Files → Files} :
      Turned r (.elsewhere f) { r with scene := { r.scene with files := f r.scene.files } }
  /-- There is no such call. -/
  | absent {i : Nat} (h : r.calls[i]? = none) : Turned r (.call i) r
  /-- The call has nothing to write. -/
  | silent {i : Nat} {call : Call} (h : r.calls[i]? = some call)
      (hleft : (call.ready r.scene).left = []) :
      Turned r (.call i) { r with calls := r.calls.set i (call.ready r.scene) }
  /-- The call makes a write. -/
  | wrote {i : Nat} {call : Call} {w : Write} {left : List Write} (h : r.calls[i]? = some call)
      (hleft : (call.ready r.scene).left = w :: left) :
      Turned r (.call i) ⟨r.scene.apply w, r.calls.set i { call.ready r.scene with left },
        r.written ++ [(i, w)]⟩

/-- A turn **comes to** one of these. -/
theorem Race.turned (r : Race) (turn : Turn) : r.Turned turn (r.turn turn) := by
  cases turn with
  | elsewhere f => exact .elsewhere
  | call i =>
      rw [Race.turn]
      cases hcall : r.calls[i]? with
      | none => exact .absent hcall
      | some call =>
          cases hleft : (call.ready r.scene).left with
          | nil =>
              simp only [hleft]
              exact .silent hcall hleft
          | cons w left =>
              simp only [hleft]
              exact .wrote hcall hleft

/-! ### Who holds the session -/

/-- A call **does not hold** the session: it has not begun, or it is refused. -/
structure Call.Outside (id : RunId) (call : Call) : Prop where
  /-- It has nothing to write. -/
  idle : call.left = []
  /-- It has not begun, or it is refused. -/
  stage : call.stage = .claiming ∨ call.stage = .ended (.error (.alreadyRun id))

/-- A call **goes on with** a session: the session allows what it has left to write, and is as far
as the call then. -/
structure Call.GoesOn (session : Session) (call : Call) : Prop where
  /-- The session allows what is left to be written. -/
  allowed : session.Allows call.left
  /-- It is as far as the call then. -/
  fits : call.stage.Fits (session.after call.left)

/-- With something to write a call still **goes on** with the session. -/
theorem Call.GoesOn.ready {call : Call} {s : Scene} (h : call.GoesOn s.session) :
    (call.ready s).GoesOn s.session := by
  obtain ⟨t, c, stage, left⟩ := call
  cases left with
  | cons w left => exact h
  | nil =>
      have hfits : stage.Fits s.session := h.fits
      refine ⟨hfits.allows, ?_⟩
      have hafter : (stage.step t c s).2.session = s.session.after (stage.writes t c s) := by
        rw [← Stage.foldl_writes, Scene.session_foldl_apply]
      rw [Call.ready, ← hafter]
      exact hfits.step (Stage.step_cases t c stage s)

/-- The next write of a call is **allowed**, and the call goes on with the session after it. -/
theorem Call.GoesOn.wrote {call : Call} {s : Scene} {w : Write} {left : List Write}
    (h : call.GoesOn s.session) (hleft : call.left = w :: left) :
    s.session.AllowsWrite w ∧ { call with left }.GoesOn (s.apply w).session := by
  obtain ⟨hallows, hfits⟩ := h
  rw [hleft] at hallows hfits
  refine ⟨hallows.1, ?_⟩
  rw [Scene.session_apply]
  exact ⟨hallows.2, hfits⟩

/-- A call that finds the session **waiting no more** is refused. -/
theorem Call.Outside.ready {call : Call} {s : Scene} (h : call.Outside s.session.id)
    (hbegun : s.session.phase ≠ .pending) :
    (call.ready s).Outside s.session.id ∧
      (call.ready s).stage = .ended (.error (.alreadyRun s.session.id)) := by
  obtain ⟨t, c, stage, left⟩ := call
  obtain ⟨rfl, rfl | rfl⟩ := h
  · have hstage : (Stage.claiming.step t c s).1 = .ended (.error (.alreadyRun s.session.id)) := by
      simp [Stage.step, Stage.claim, Session.claim?, hbegun]
    have hwrites : Stage.claiming.writes t c s = [] := if_neg hbegun
    rw [Call.ready, hwrites]
    exact ⟨⟨rfl, .inr hstage⟩, hstage⟩
  · exact ⟨⟨rfl, .inr rfl⟩, rfl⟩

/-- The call number `i` **holds** the session: it has made all writes so far. -/
structure Race.HeldBy (r : Race) (i : Nat) : Prop where
  /-- It has taken the session. -/
  taken : r.TakenBy i
  /-- It has made all writes. -/
  alone : ∀ entry ∈ r.written, entry.1 = i
  /-- The session waits no more. -/
  begun : r.scene.session.phase ≠ .pending
  /-- The call goes on with the session. -/
  goesOn : ∃ call, r.calls[i]? = some call ∧ call.GoesOn r.scene.session
  /-- No other call holds the session. -/
  others : ∀ j, j ≠ i → ∀ call, r.calls[j]? = some call → call.Outside r.scene.session.id

/-- A session that waits no more **does not wait** after a write that it allows. -/
theorem Session.AllowsWrite.begun {session : Session} {w : Write} (h : session.AllowsWrite w)
    (hbegun : session.phase ≠ .pending) : (session.apply w).phase ≠ .pending := by
  cases w with
  | enter phase =>
      rintro rfl
      exact Nat.not_lt_zero _ h
  | _ => exact hbegun

/-- One race **goes on from** another with writes that the session allows. -/
def Race.GoesOnTo (r u : Race) : Prop :=
  ∃ ws, u.writes = r.writes ++ ws ∧ r.scene.session.Allows ws ∧
    u.scene.session = r.scene.session.after ws

/-- Without a write, a race goes on from **itself**. -/
theorem Race.goesOnTo_of_silent {r u : Race} (hwritten : u.written = r.written)
    (hsession : u.scene.session = r.scene.session) : r.GoesOnTo u := by
  refine ⟨[], ?_, trivial, hsession⟩
  rw [List.append_nil, writes, writes, hwritten]

/-- With a write that the session allows, a race **goes on**. -/
theorem Race.goesOnTo_of_write {r u : Race} {i : Nat} {w : Write}
    (hwritten : u.written = r.written ++ [(i, w)]) (hscene : u.scene = r.scene.apply w)
    (hallowed : r.scene.session.AllowsWrite w) : r.GoesOnTo u := by
  refine ⟨[w], ?_, ⟨hallowed, trivial⟩, ?_⟩
  · rw [writes, hwritten, List.map_append]
    rfl
  · rw [hscene, Scene.session_apply]
    rfl

namespace Race.HeldBy

variable {r u : Race} {i j : Nat}

/-- The call that holds the session **keeps** it in its turn. -/
theorem own (h : r.HeldBy i) (hturn : r.Turned (.call i) u) : u.HeldBy i ∧ r.GoesOnTo u := by
  obtain ⟨htaken, halone, hbegun, ⟨holder, hholder, hgoes⟩, hothers⟩ := h
  have hset : ∀ {call}, (r.calls.set i call)[i]? = some call := by
    intro call
    rw [List.getElem?_set_self (List.getElem?_eq_some_iff.mp hholder).1]
  have hkept : ∀ {call j other}, j ≠ i → (r.calls.set i call)[j]? = some other →
      r.calls[j]? = some other := by
    intro call j other hj hother
    rwa [List.getElem?_set_ne (Ne.symm hj)] at hother
  cases hturn with
  | absent hnone => exact nomatch hholder.symm.trans hnone
  | silent hcall hleft =>
      obtain rfl : holder = _ := Option.some.inj (hholder.symm.trans hcall)
      exact ⟨⟨htaken, halone, hbegun, ⟨_, hset, hgoes.ready⟩,
        fun j hj other hother => hothers j hj other (hkept hj hother)⟩, goesOnTo_of_silent rfl rfl⟩
  | @wrote _ call w left hcall hleft =>
      obtain rfl : holder = call := Option.some.inj (hholder.symm.trans hcall)
      obtain ⟨hallowed, hrest⟩ := hgoes.ready.wrote hleft
      refine ⟨⟨List.mem_append_left _ htaken, ?_, ?_, ⟨_, hset, hrest⟩, ?_⟩,
        goesOnTo_of_write rfl rfl hallowed⟩
      · intro entry hentry
        rcases List.mem_append.mp hentry with hold | hnew
        · exact halone entry hold
        · rw [List.mem_singleton.mp hnew]
      · rw [Scene.session_apply]
        exact hallowed.begun hbegun
      · intro j hj other hother
        rw [Scene.session_apply, Session.id_apply]
        exact hothers j hj other (hkept hj hother)

/-- A turn of another call **leaves** the session in the hands of its call, and the other call is
refused. -/
theorem other (h : r.HeldBy i) (hj : j ≠ i) (hturn : r.Turned (.call j) u) :
    u.HeldBy i ∧ r.GoesOnTo u := by
  obtain ⟨htaken, halone, hbegun, ⟨holder, hholder, hgoes⟩, hothers⟩ := h
  cases hturn with
  | absent hnone => exact ⟨⟨htaken, halone, hbegun, ⟨holder, hholder, hgoes⟩, hothers⟩,
      goesOnTo_of_silent rfl rfl⟩
  | @silent _ call hcall hleft =>
      have hrefused := ((hothers j hj call hcall).ready hbegun).1
      refine ⟨⟨htaken, halone, hbegun, ⟨holder, ?_, hgoes⟩, ?_⟩, goesOnTo_of_silent rfl rfl⟩
      · rwa [List.getElem?_set_ne hj]
      · intro k hk other hother
        by_cases hkj : k = j
        · subst hkj
          rw [List.getElem?_set_self (List.getElem?_eq_some_iff.mp hcall).1] at hother
          rwa [← Option.some.inj hother]
        · rw [List.getElem?_set_ne (Ne.symm hkj)] at hother
          exact hothers k hk other hother
  | @wrote _ call w left hcall hleft =>
      have hrefused := ((hothers j hj call hcall).ready hbegun).1
      rw [hrefused.idle] at hleft
      exact nomatch hleft

end Race.HeldBy

/-! ### Every interleaving -/

/-- A race is **sound** if the session has come from its start by the writes so far, which it has
allowed, and no call has begun or one holds the session. -/
structure Race.Sound (start : Session) (r : Race) : Prop where
  /-- The session has come about by the writes. -/
  session : r.scene.session = start.after r.writes
  /-- It has allowed them. -/
  allowed : start.Allows r.writes
  /-- No call has begun, or one holds the session. -/
  held : (r.written = [] ∧ ∀ call ∈ r.calls, call.stage = .claiming ∧ call.left = []) ∨
    ∃ i, r.HeldBy i

namespace Race

variable {start : Session} {r u : Race}

/-- What goes on from a sound race has **come from the same start**. -/
theorem GoesOnTo.sound (h : r.GoesOnTo u) (hr : r.Sound start)
    (hheld : ∃ i, u.HeldBy i) : u.Sound start := by
  obtain ⟨ws, hwrites, hallows, hsession⟩ := h
  refine ⟨?_, ?_, .inr hheld⟩
  · rw [hsession, hr.session, hwrites, Session.after_append]
  · rw [hwrites, Session.allows_append, ← hr.session]
    exact ⟨hr.allowed, hallows⟩

/-- The first call that has its turn **takes** the session. -/
theorem heldBy_of_first {i : Nat} (hpending : r.scene.session.phase = .pending)
    (hfits : Stage.claiming.Fits r.scene.session) (hwritten : r.written = [])
    (hcalls : ∀ call ∈ r.calls, call.stage = .claiming ∧ call.left = [])
    {call : Call} (hcall : r.calls[i]? = some call) (hturn : r.Turned (.call i) u) :
    u.HeldBy i ∧ r.GoesOnTo u := by
  obtain ⟨t, c, stage, left⟩ := call
  obtain ⟨rfl, rfl⟩ : stage = .claiming ∧ left = [] :=
    hcalls _ (List.mem_of_getElem? hcall)
  have hwrites : Stage.claiming.writes t c r.scene = [.enter .parsing] := if_pos hpending
  have hgoes : ((Call.mk t c .claiming []).ready r.scene).GoesOn r.scene.session :=
    Call.GoesOn.ready ⟨trivial, hfits⟩
  cases hturn with
  | absent hnone => exact nomatch hcall.symm.trans hnone
  | @silent _ taker htaker hleft =>
      obtain rfl := Option.some.inj (hcall.symm.trans htaker)
      exact nomatch hwrites.symm.trans hleft
  | @wrote _ taker w left htaker hleft =>
      obtain rfl := Option.some.inj (hcall.symm.trans htaker)
      obtain ⟨rfl, rfl⟩ := List.cons.inj (hwrites.symm.trans hleft)
      obtain ⟨hallowed, hrest⟩ := hgoes.wrote hleft
      refine ⟨⟨?_, ?_, ?_, ⟨_, ?_, hrest⟩, ?_⟩, goesOnTo_of_write rfl rfl hallowed⟩
      · exact List.mem_append_right _ (List.mem_singleton_self _)
      · intro entry hentry
        rw [hwritten] at hentry
        rw [List.mem_singleton.mp hentry]
      · exact Phase.noConfusion
      · exact List.getElem?_set_self (List.getElem?_eq_some_iff.mp hcall).1
      · intro j hj other hother
        rw [List.getElem?_set_ne (Ne.symm hj)] at hother
        obtain ⟨hstage, hidle⟩ := hcalls other (List.mem_of_getElem? hother)
        exact ⟨hidle, .inl hstage⟩

/-- **Each turn** keeps the session in the hands of one call. -/
theorem Sound.turn (h : r.Sound start) (hpending : start.phase = .pending)
    (hfits : Stage.claiming.Fits start) (turn : Turn) :
    (r.turn turn).Sound start ∧ r.GoesOnTo (r.turn turn) := by
  have hturned := r.turned turn
  cases turn with
  | elsewhere f =>
      refine ⟨⟨h.session, h.allowed, ?_⟩, goesOnTo_of_silent rfl rfl⟩
      rcases h.held with hfirst | ⟨i, hheld⟩
      · exact .inl hfirst
      · exact .inr ⟨i, hheld.taken, hheld.alone, hheld.begun, hheld.goesOn, hheld.others⟩
  | call j =>
      rcases h.held with ⟨hwritten, hcalls⟩ | ⟨i, hheld⟩
      · cases hcall : r.calls[j]? with
        | none =>
            have hsame : r.turn (.call j) = r := by rw [Race.turn, hcall]
            rw [hsame]
            exact ⟨h, goesOnTo_of_silent rfl rfl⟩
        | some call =>
            have hsession : r.scene.session = start := by
              rw [h.session, writes, hwritten]
              rfl
            have htaken := heldBy_of_first (by rw [hsession, hpending]) (by rwa [hsession])
              hwritten hcalls hcall hturned
            exact ⟨htaken.2.sound h ⟨j, htaken.1⟩, htaken.2⟩
      · have hkept : (r.turn (.call j)).HeldBy i ∧ r.GoesOnTo (r.turn (.call j)) := by
          by_cases hj : j = i
          · subst hj
            exact hheld.own hturned
          · exact hheld.other hj hturned
        exact ⟨hkept.2.sound h ⟨i, hkept.1⟩, hkept.2⟩

/-- A race that goes on goes on **to all that follows**. -/
theorem GoesOnTo.trans {v : Race} (h : r.GoesOnTo u) (hnext : u.GoesOnTo v) : r.GoesOnTo v := by
  obtain ⟨ws, hwrites, hallows, hsession⟩ := h
  obtain ⟨more, hmore, hallowsMore, hsessionMore⟩ := hnext
  refine ⟨ws ++ more, ?_, ?_, ?_⟩
  · rw [hmore, hwrites, List.append_assoc]
  · rw [Session.allows_append, ← hsession]
    exact ⟨hallows, hallowsMore⟩
  · rw [hsessionMore, hsession, Session.after_append]

/-- **All turns** keep the session in the hands of one call. -/
theorem Sound.after (h : r.Sound start) (hpending : start.phase = .pending)
    (hfits : Stage.claiming.Fits start) (turns : List Turn) :
    (r.after turns).Sound start ∧ r.GoesOnTo (r.after turns) := by
  induction turns generalizing r with
  | nil => exact ⟨h, goesOnTo_of_silent rfl rfl⟩
  | cons turn turns ih =>
      obtain ⟨hsound, hgoes⟩ := h.turn hpending hfits turn
      obtain ⟨hlast, hrest⟩ := ih hsound
      exact ⟨hlast, hgoes.trans hrest⟩

/-- Calls that have not begun are **sound**. -/
theorem sound_begin (s : Scene) (callers : List (Toolchain × Config)) :
    (begin s callers).Sound s.session := by
  refine ⟨rfl, trivial, .inl ⟨rfl, fun call hcall => ?_⟩⟩
  obtain ⟨⟨t, c⟩, -, rfl⟩ := List.mem_map.mp hcall
  exact ⟨rfl, rfl⟩

/-- In a sound race, the call that has taken the session **holds** it. -/
theorem Sound.heldBy_of_takenBy (h : r.Sound start) {i : Nat} (htaken : r.TakenBy i) :
    r.HeldBy i := by
  rcases h.held with ⟨hwritten, -⟩ | ⟨k, hheld⟩
  · rw [TakenBy, hwritten] at htaken
    exact nomatch htaken
  · obtain rfl : i = k := hheld.alone _ htaken
    exact hheld

/-! ### Calls that have had their turn -/

/-- The call number `j` has **begun**. -/
def Begun (r : Race) (j : Nat) : Prop :=
  ∃ call, r.calls[j]? = some call ∧ call.stage ≠ .claiming

/-- No step leads back to the **first stage**. -/
theorem ne_claiming_of_step {t : Toolchain} {c : Config} {a b : Stage} {u v : Scene}
    (h : Stage.Step t c a u b v) : b ≠ .claiming := by
  cases h <;> exact Stage.noConfusion

/-- A call that takes its next step if it has not begun **has begun** then. -/
theorem stage_ready {call : Call} {s : Scene}
    (h : call.stage = .claiming → call.left = []) : (call.ready s).stage ≠ .claiming := by
  obtain ⟨t, c, stage, left⟩ := call
  cases left with
  | cons w left => exact fun hclaiming => nomatch h hclaiming
  | nil =>
      exact ne_claiming_of_step (Stage.step_cases t c stage s)

/-- In a sound race a call that has not begun has **nothing to write**. -/
theorem Sound.idle_of_claiming (h : r.Sound start) {j : Nat} {call : Call}
    (hcall : r.calls[j]? = some call) (hclaiming : call.stage = .claiming) : call.left = [] := by
  rcases h.held with ⟨-, hcalls⟩ | ⟨i, hheld⟩
  · exact (hcalls call (List.mem_of_getElem? hcall)).2
  · by_cases hj : j = i
    · subst hj
      -- the session waits no more, so that its holder has begun
      obtain ⟨holder, hholder, hallowed, hfits⟩ := hheld.goesOn
      obtain rfl := Option.some.inj (hcall.symm.trans hholder)
      rw [hclaiming] at hfits
      have hzero : r.scene.session.phase.rank ≤ 0 :=
        Nat.le_trans hallowed.comesOn.phase hfits.bounded
      have hbegun := hheld.begun
      cases hphase : r.scene.session.phase <;> simp_all [Phase.rank]
    · exact (hheld.others j hj call hcall).idle

/-- Each turn **begins** the call whose turn it is, and ends no beginning. -/
theorem Sound.begun_turn (h : r.Sound start) {j : Nat} {turn : Turn}
    (hbegun : r.Begun j ∨ turn = .call j ∧ j < r.calls.length) : (r.turn turn).Begun j := by
  have hset : ∀ {i call left}, r.calls[i]? = some call → (j ≠ i → r.Begun j) →
      ∃ other, (r.calls.set i { call.ready r.scene with left })[j]? = some other ∧
        other.stage ≠ .claiming := by
    intro i call left hcall hother
    by_cases hj : j = i
    · subst hj
      refine ⟨_, List.getElem?_set_self (List.getElem?_eq_some_iff.mp hcall).1, ?_⟩
      exact stage_ready (h.idle_of_claiming hcall)
    · rw [List.getElem?_set_ne (Ne.symm hj)]
      exact hother hj
  have hother : ∀ {i}, turn = .call i → j ≠ i → r.Begun j := by
    rintro i rfl hj
    rcases hbegun with hbegun | ⟨hturn, -⟩
    · exact hbegun
    · exact absurd (Turn.call.inj hturn).symm hj
  have hturned := r.turned turn
  generalize r.turn turn = u at hturned
  cases hturned with
  | elsewhere =>
      rcases hbegun with hbegun | ⟨hturn, -⟩
      · exact hbegun
      · exact nomatch hturn
  | @absent i hnone =>
      rcases hbegun with hbegun | ⟨hturn, hj⟩
      · exact hbegun
      · obtain rfl := Turn.call.inj hturn
        exact absurd (List.getElem?_eq_none_iff.mp hnone) (Nat.not_le.mpr hj)
  | silent hcall hleft => exact hset hcall (hother rfl)
  | wrote hcall hleft => exact hset hcall (hother rfl)

/-- A call that has begun **stays so**. -/
theorem Sound.begun_after (h : r.Sound start) (hpending : start.phase = .pending)
    (hfits : Stage.claiming.Fits start) {j : Nat} (hbegun : r.Begun j) (turns : List Turn) :
    (r.after turns).Begun j := by
  induction turns generalizing r with
  | nil => exact hbegun
  | cons turn turns ih =>
      exact ih (h.turn hpending hfits turn).1 (h.begun_turn (.inl hbegun))

/-- A turn adds no calls and takes none away. -/
theorem length_turn (r : Race) (turn : Turn) : (r.turn turn).calls.length = r.calls.length := by
  have hturned := r.turned turn
  generalize r.turn turn = u at hturned
  cases hturned with
  | elsewhere => rfl
  | absent hnone => rfl
  | silent hcall hleft => exact List.length_set
  | wrote hcall hleft => exact List.length_set

theorem length_after (r : Race) (turns : List Turn) :
    (r.after turns).calls.length = r.calls.length := by
  induction turns generalizing r with
  | nil => rfl
  | cons turn turns ih => exact (ih _).trans (r.length_turn turn)

/-- A call that has had its turn **has begun**. -/
theorem Sound.begun_of_mem (h : r.Sound start) (hpending : start.phase = .pending)
    (hfits : Stage.claiming.Fits start) {j : Nat} {turns : List Turn}
    (hturn : .call j ∈ turns) (hj : j < r.calls.length) : (r.after turns).Begun j := by
  obtain ⟨earlier, later, rfl⟩ := List.append_of_mem hturn
  obtain ⟨hsound, -⟩ := h.after hpending hfits earlier
  have hbegun : ((r.after earlier).turn (.call j)).Begun j := by
    refine hsound.begun_turn (.inr ⟨rfl, ?_⟩)
    rwa [length_after]
  rw [after_append]
  exact (hsound.turn hpending hfits _).1.begun_after hpending hfits hbegun later

/-! ### Turns in a row -/

/-- Turns in a row **write all that is left**. -/
theorem after_left {i : Nat} {call : Call} (hcall : r.calls[i]? = some call) :
    r.after (List.replicate call.left.length (.call i)) =
      ⟨call.left.foldl Scene.apply r.scene, r.calls.set i { call with left := [] },
        r.written ++ call.left.map fun w => (i, w)⟩ := by
  obtain ⟨t, c, stage, left⟩ := call
  induction left generalizing r with
  | nil =>
      have hsame : r.calls.set i ⟨t, c, stage, []⟩ = r.calls := by
        obtain ⟨hi, hget⟩ := List.getElem?_eq_some_iff.mp hcall
        rw [← hget, List.set_getElem_self]
      simp [after, hsame]
  | cons w left ih =>
      have hturn : r.turn (.call i) =
          ⟨r.scene.apply w, r.calls.set i ⟨t, c, stage, left⟩, r.written ++ [(i, w)]⟩ := by
        rw [turn, hcall]
        rfl
      have hset : (r.turn (.call i)).calls[i]? = some ⟨t, c, stage, left⟩ := by
        rw [hturn]
        exact List.getElem?_set_self (List.getElem?_eq_some_iff.mp hcall).1
      rw [List.length_cons, List.replicate_succ, after, List.foldl_cons, ← after, ih hset, hturn]
      simp [List.set_set]

/-- Turns in a row, with nothing in between, **make up a step**. -/
theorem exists_step {i : Nat} {t : Toolchain} {c : Config} {stage : Stage}
    (hcall : r.calls[i]? = some ⟨t, c, stage, []⟩) :
    ∃ n, (r.after (List.replicate n (.call i))).scene = (stage.step t c r.scene).2 ∧
      (r.after (List.replicate n (.call i))).calls =
        r.calls.set i ⟨t, c, (stage.step t c r.scene).1, []⟩ := by
  have hi := (List.getElem?_eq_some_iff.mp hcall).1
  rw [← Stage.foldl_writes]
  cases hwrites : stage.writes t c r.scene with
  | nil =>
      refine ⟨1, ?_⟩
      have hturn : r.turn (.call i) =
          { r with calls := r.calls.set i ⟨t, c, (stage.step t c r.scene).1, []⟩ } := by
        rw [turn, hcall]
        simp [Call.ready, hwrites]
      simp [after, hturn]
  | cons w left =>
      refine ⟨left.length + 1, ?_⟩
      have hturn : r.turn (.call i) = ⟨r.scene.apply w,
          r.calls.set i ⟨t, c, (stage.step t c r.scene).1, left⟩, r.written ++ [(i, w)]⟩ := by
        rw [turn, hcall]
        simp [Call.ready, hwrites]
      have hset : (r.turn (.call i)).calls[i]? =
          some ⟨t, c, (stage.step t c r.scene).1, left⟩ := by
        rw [hturn]
        exact List.getElem?_set_self hi
      have hrest := after_left hset
      rw [List.replicate_succ, after, List.foldl_cons, ← after, hrest, hturn]
      simp [List.set_set]

end Race

/-! ### The law of one run -/

/-- What is **promised of calls** that run one session and have had some turns. -/
structure RunsOnce (s : Scene) (callers : List (Toolchain × Config)) (turns : List Turn)
    (r : Race) : Prop where
  /-- Once a call has had its turn, exactly one has taken the session. -/
  taken : (∃ i < callers.length, .call i ∈ turns) →
    ∃ i, r.TakenBy i ∧ ∀ other, r.TakenBy other → other = i
  /-- Every other call that has had its turn is refused. -/
  refused : ∀ i, r.TakenBy i → ∀ j < callers.length, .call j ∈ turns → j ≠ i →
    ∃ call e, r.calls[j]? = some call ∧ call.left = [] ∧ call.stage.result? = some (.error e) ∧
      e = .alreadyRun s.session.id ∧ e.kind = .system
  /-- All writes are made by the call that has taken the session. -/
  alone : ∀ i, r.TakenBy i → ∀ entry ∈ r.written, entry.1 = i
  /-- Nothing changes the session but these writes. -/
  session : r.scene.session = s.session.after r.writes
  /-- The phases that are written increase. -/
  increasing : (Phase.pending :: r.writes.filterMap Write.phase?).Pairwise
    fun p q => p.rank < q.rank
  /-- A directory is written once at most. -/
  placed : (r.writes.filter Write.isPlace).length ≤ 1
  /-- An outcome is written once at most. -/
  settled : (r.writes.filter Write.isSettle).length ≤ 1
  /-- On the way, the phase never goes back, and a directory and an outcome stay. -/
  along : ∀ earlier later, turns = earlier ++ later →
    ((Race.begin s callers).after earlier).scene.session.ComesOn r.scene.session

/-- **A session is run once**, whatever calls run it and in whatever order they have their
turns. -/
theorem runs_once (s : Scene) (hs : s.session.Reachable) (hpending : s.session.phase = .pending)
    (callers : List (Toolchain × Config)) (turns : List Turn) :
    RunsOnce s callers turns ((Race.begin s callers).after turns) := by
  obtain ⟨hended, hworkspace, -⟩ := hs.fresh hpending
  have hfits : Stage.claiming.Fits s.session :=
    ⟨by rw [hpending]; exact Nat.le_refl _, fun _ => hworkspace, fun _ => hended⟩
  have hbegin := Race.sound_begin s callers
  have hlength : (Race.begin s callers).calls.length = callers.length := List.length_map _
  obtain ⟨hsound, -⟩ := hbegin.after hpending hfits turns
  have hbegun : ∀ {j}, j < callers.length → .call j ∈ turns →
      ((Race.begin s callers).after turns).Begun j := by
    intro j hj hturn
    exact hbegin.begun_of_mem hpending hfits hturn (by rwa [hlength])
  exact
    { taken := by
        rintro ⟨i, hi, hturn⟩
        rcases hsound.held with ⟨-, hcalls⟩ | ⟨k, hheld⟩
        · obtain ⟨call, hcall, hstage⟩ := hbegun hi hturn
          exact absurd (hcalls call (List.mem_of_getElem? hcall)).1 hstage
        · exact ⟨k, hheld.taken, fun other hother => hheld.alone _ hother⟩
      refused := by
        intro i htaken j hj hturn hji
        obtain ⟨call, hcall, hstage⟩ := hbegun hj hturn
        have houtside := (hsound.heldBy_of_takenBy htaken).others j hji call hcall
        have hid : ((Race.begin s callers).after turns).scene.session.id = s.session.id := by
          rw [hsound.session, Session.id_after]
        refine ⟨call, _, hcall, houtside.idle, ?_, rfl, rfl⟩
        rcases houtside.stage with hclaiming | hrefused
        · exact absurd hclaiming hstage
        · rw [hrefused, hid]
          rfl
      alone := fun i htaken => (hsound.heldBy_of_takenBy htaken).alone
      session := hsound.session
      increasing := by
        have hincreasing := hsound.allowed.increasing
        rwa [hpending] at hincreasing
      placed := hsound.allowed.place_once
      settled := hsound.allowed.settle_once
      along := by
        rintro earlier later rfl
        obtain ⟨hearlier, -⟩ := hbegin.after hpending hfits earlier
        obtain ⟨-, ws, -, hallows, hsession⟩ := hearlier.after hpending hfits later
        rw [Race.after_append, hsession]
        exact hallows.comesOn }

/-- A session that two calls run, of which the second has its turn first. -/
theorem empty_runs_once :
    let callers := List.replicate 2 (Toolchain.planned [] fun _ _ => .ok [], ({} : Config))
    let turns := [Turn.call 1, .call 0, .call 1]
    let s : Scene := ⟨.ofSource ⟨"0".toList⟩ "", ⟨.directory [], []⟩, []⟩
    s.session.Reachable ∧ s.session.phase = .pending ∧
      RunsOnce s callers turns ((Race.begin s callers).after turns) :=
  ⟨.made _ _, rfl, runs_once _ (.made _ _) rfl _ _⟩

end CapabilityGate
