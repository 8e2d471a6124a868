import CapabilityGate.Output.Buffer
import Mathlib.Logic.Relation

/-!
# Handles that share a buffer

Handles of output buffers are made one after another, each of a new buffer or as a clone of a handle
that is there, and texts are appended through them in between. What is seen through a handle is told
by this history alone: the texts that were appended through the handles it is connected with by
cloning, whichever of them was made first.

## Main definitions

* `HandleHistory`: what was done with handles.
* `HandleHistory.handles`: the handles and buffers after it.
* `HandleHistory.Connected`: handles that cloning connects.
* `HandleHistory.textsThrough`: the texts appended through the handles connected with one.
* `HandleHistory.LeadsTo`: a history and a later one.
* `Buffer.Holds`: what a buffer with some texts is seen as.

## Main results

* `HandleHistory.connected_iff`: handles are connected when they stand for the same buffer.
* `HandleHistory.chunks_of_target`: a buffer has what was appended through the handles that stand
  for it.
* `HandleHistory.handles_show_history`: what is seen through a handle, now and later.
-/

namespace CapabilityGate

/-! ### Histories -/

/-- A **history** of `n` handles. They are counted from zero in the order in which they were made,
and only handles that are there are used. -/
inductive HandleHistory : Nat → Type where
  /-- There is one handle of a new buffer. -/
  | start : HandleHistory 1
  /-- A text was appended through a handle. -/
  | append {n : Nat} (earlier : HandleHistory n) (handle : Fin n) (text : String) : HandleHistory n
  /-- A handle was cloned. -/
  | clone {n : Nat} (earlier : HandleHistory n) (handle : Fin n) : HandleHistory (n + 1)
  /-- A handle of a new buffer was made. -/
  | fresh {n : Nat} (earlier : HandleHistory n) : HandleHistory (n + 1)

namespace HandleHistory

variable {n m : Nat}

/-- The handles after a history, and their buffers. -/
def handles : {n : Nat} → HandleHistory n → Handles
  | _, start => .start
  | _, append earlier handle text => earlier.handles.append handle text
  | _, clone earlier handle => earlier.handles.clone handle
  | _, fresh earlier => earlier.handles.fresh

/-- The texts that were appended, in order, each with the handle that it was appended through. -/
def appended : {n : Nat} → HandleHistory n → List (Nat × String)
  | _, start => []
  | _, append earlier handle text => earlier.appended ++ [(↑handle, text)]
  | _, clone earlier _ => earlier.appended
  | _, fresh earlier => earlier.appended

/-- A handle was made **as a clone** of another one. -/
inductive IsClone : {n : Nat} → HandleHistory n → (made from_ : Nat) → Prop
  /-- It is the last handle that was made. -/
  | last {n : Nat} {h : HandleHistory n} {handle : Fin n} : IsClone (h.clone handle) n handle
  | append {n i j : Nat} {h : HandleHistory n} {handle : Fin n} {text : String}
      (hclone : IsClone h i j) : IsClone (h.append handle text) i j
  | clone {n i j : Nat} {h : HandleHistory n} {handle : Fin n} (hclone : IsClone h i j) :
      IsClone (h.clone handle) i j
  | fresh {n i j : Nat} {h : HandleHistory n} (hclone : IsClone h i j) : IsClone h.fresh i j

/-- Two handles are **connected** by cloning, by any number of clones that go either way. -/
def Connected (h : HandleHistory n) : Nat → Nat → Prop :=
  Relation.EqvGen h.IsClone

open Classical in
/-- The **texts** that were appended, in order, through the handles connected with one. -/
noncomputable def textsThrough (h : HandleHistory n) (handle : Nat) : List String :=
  (h.appended.filter fun a => h.Connected a.1 handle).map Prod.snd

/-- A history **leads to** another one: more was done after it, or nothing. -/
inductive LeadsTo (h : HandleHistory n) : {m : Nat} → HandleHistory m → Prop
  | here : LeadsTo h h
  | append {m : Nat} {later : HandleHistory m} {handle : Fin m} {text : String}
      (hlater : LeadsTo h later) : LeadsTo h (later.append handle text)
  | clone {m : Nat} {later : HandleHistory m} {handle : Fin m} (hlater : LeadsTo h later) :
      LeadsTo h (later.clone handle)
  | fresh {m : Nat} {later : HandleHistory m} (hlater : LeadsTo h later) : LeadsTo h later.fresh

end HandleHistory

/-- What a buffer that **holds** texts is seen as: each text with one line break behind it, and
these chunks one after another, their number, and whether there is none. -/
structure Buffer.Holds (b : Buffer) (texts : List String) : Prop where
  /-- A chunk is a text and a line break. -/
  chunks : b.chunks = texts.map (· ++ "\n")
  /-- The contents are the chunks one after another. -/
  contents : b.contents.toList = b.chunks.flatMap String.toList
  /-- The size is the number of texts. -/
  size : b.size = texts.length
  /-- Nothing is held when there is no text. -/
  isEmpty : b.isEmpty = true ↔ texts = []

/-- A buffer **holds** the texts that its chunks are made of. -/
theorem Buffer.holds_of_chunks {b : Buffer} {texts : List String}
    (h : b.chunks = texts.map (· ++ "\n")) : b.Holds texts := by
  refine ⟨h, String.toList_join, ?_, ?_⟩
  · rw [size, h, List.length_map]
  · rw [isEmpty, h, List.isEmpty_iff, List.map_eq_nil_iff]

/-! ### The buffer that a handle stands for -/

namespace HandleHistory

variable {n m i j : Nat} {h : HandleHistory n}

/-- Every handle stands for a buffer. -/
structure Sound (h : HandleHistory n) : Prop where
  /-- Each handle has a target. -/
  length : h.handles.targets.length = n
  /-- The targets are buffers. -/
  lt : ∀ target ∈ h.handles.targets, target < h.handles.buffers.length

namespace Sound

/-- Every handle has **a target among the buffers**. -/
theorem exists_target (hsound : h.Sound) (hi : i < n) :
    ∃ target, h.handles.targets[i]? = some target ∧ target < h.handles.buffers.length := by
  have hlt : i < h.handles.targets.length := by rwa [hsound.length]
  exact ⟨h.handles.targets[i], List.getElem?_eq_getElem hlt, hsound.lt _ (List.getElem_mem hlt)⟩

/-- What is appended goes to **the buffer of the handle**. -/
theorem handles_append (hsound : h.Sound) (handle : Fin n) (text : String) :
    ∃ target, h.handles.targets[(handle : Nat)]? = some target ∧
      (h.append handle text).handles =
        { h.handles with buffers := h.handles.buffers.modify target (·.append text) } := by
  obtain ⟨target, htarget, -⟩ := hsound.exists_target handle.isLt
  refine ⟨target, htarget, ?_⟩
  rw [handles, Handles.append, htarget]

/-- A clone stands for **the same buffer** as the handle that was cloned. -/
theorem handles_clone (hsound : h.Sound) (handle : Fin n) :
    ∃ target, h.handles.targets[(handle : Nat)]? = some target ∧
      target < h.handles.buffers.length ∧
      (h.clone handle).handles = { h.handles with targets := h.handles.targets ++ [target] } := by
  obtain ⟨target, htarget, hlt⟩ := hsound.exists_target handle.isLt
  refine ⟨target, htarget, hlt, ?_⟩
  rw [handles, Handles.clone, htarget]

end Sound

/-- **In every history** each handle stands for a buffer. -/
theorem sound (h : HandleHistory n) : h.Sound := by
  induction h with
  | start => exact ⟨rfl, by decide⟩
  | append earlier handle text ih =>
      obtain ⟨target, -, heq⟩ := ih.handles_append handle text
      refine ⟨?_, ?_⟩
      · rw [heq, ih.length]
      · rw [heq, List.length_modify]
        exact ih.lt
  | clone earlier handle ih =>
      obtain ⟨target, -, hlt, heq⟩ := ih.handles_clone handle
      refine ⟨?_, ?_⟩
      · rw [heq, List.length_append, ih.length, List.length_singleton]
      · rw [heq]
        exact List.forall_mem_append.mpr ⟨ih.lt, List.forall_mem_singleton.mpr hlt⟩
  | fresh earlier ih =>
      refine ⟨?_, ?_⟩
      · rw [handles, Handles.fresh, List.length_append, ih.length, List.length_singleton]
      · rw [handles, Handles.fresh, List.length_append, List.length_singleton]
        refine List.forall_mem_append.mpr ⟨fun target htarget => ?_, ?_⟩
        · exact Nat.lt_succ_of_lt (ih.lt target htarget)
        · exact List.forall_mem_singleton.mpr (Nat.lt_succ_self _)

/-- A handle **keeps its buffer** when others are made. -/
theorem target?_clone (h : HandleHistory n) (handle : Fin n) (hi : i < n) :
    (h.clone handle).handles.targets[i]? = h.handles.targets[i]? := by
  obtain ⟨target, -, -, heq⟩ := h.sound.handles_clone handle
  rw [heq, List.getElem?_append_left (by rwa [h.sound.length])]

/-- A clone has **the target of the handle** that was cloned. -/
theorem target?_clone_last (h : HandleHistory n) (handle : Fin n) :
    (h.clone handle).handles.targets[n]? = h.handles.targets[(handle : Nat)]? := by
  obtain ⟨target, htarget, -, heq⟩ := h.sound.handles_clone handle
  rw [heq, htarget, List.getElem?_append_right (Nat.le_of_eq h.sound.length), h.sound.length,
    Nat.sub_self]
  rfl

/-- Text that is appended leaves all handles **at their targets**. -/
theorem target?_append (h : HandleHistory n) (handle : Fin n) (text : String) (i : Nat) :
    (h.append handle text).handles.targets[i]? = h.handles.targets[i]? := by
  obtain ⟨target, -, heq⟩ := h.sound.handles_append handle text
  rw [heq]

/-- So does a new buffer, which has a handle **of its own**. -/
theorem target?_fresh (h : HandleHistory n) (hi : i < n) :
    h.fresh.handles.targets[i]? = h.handles.targets[i]? := by
  rw [handles, Handles.fresh, List.getElem?_append_left (by rwa [h.sound.length])]

/-- A handle that is made of a new buffer stands for **the last buffer**. -/
theorem target?_fresh_last (h : HandleHistory n) :
    h.fresh.handles.targets[n]? = some h.handles.buffers.length := by
  rw [handles, Handles.fresh, List.getElem?_append_right (Nat.le_of_eq h.sound.length),
    h.sound.length, Nat.sub_self]
  rfl

/-! ### Handles that are connected -/

/-- Both handles of a clone are there, and they stand for the same buffer. -/
theorem IsClone.target?_eq (hclone : h.IsClone i j) :
    i < n ∧ j < n ∧ h.handles.targets[i]? = h.handles.targets[j]? := by
  induction hclone with
  | @last n h handle =>
      refine ⟨Nat.lt_succ_self n, Nat.lt_succ_of_lt handle.isLt, ?_⟩
      rw [target?_clone_last, target?_clone h handle handle.isLt]
  | @append n i j h handle text hclone ih =>
      obtain ⟨hi, hj, heq⟩ := ih
      refine ⟨hi, hj, ?_⟩
      rw [target?_append, target?_append, heq]
  | @clone n i j h handle hclone ih =>
      obtain ⟨hi, hj, heq⟩ := ih
      refine ⟨Nat.lt_succ_of_lt hi, Nat.lt_succ_of_lt hj, ?_⟩
      rw [target?_clone h handle hi, target?_clone h handle hj, heq]
  | @fresh n i j h hclone ih =>
      obtain ⟨hi, hj, heq⟩ := ih
      refine ⟨Nat.lt_succ_of_lt hi, Nat.lt_succ_of_lt hj, ?_⟩
      rw [target?_fresh h hi, target?_fresh h hj, heq]

/-- Connected handles stand for **the same buffer**. -/
theorem Connected.target?_eq (hconnected : h.Connected i j) :
    h.handles.targets[i]? = h.handles.targets[j]? := by
  induction hconnected with
  | rel i j hclone => exact hclone.target?_eq.2.2
  | refl i => rfl
  | symm i j _ ih => exact ih.symm
  | trans i j k _ _ ih ih' => exact ih.trans ih'

/-- Handles that stand for the same buffer are **connected**. -/
theorem connected_of_target?_eq (h : HandleHistory n) (hi : i < n) (hj : j < n)
    (heq : h.handles.targets[i]? = h.handles.targets[j]?) : h.Connected i j := by
  induction h generalizing i j with
  | start =>
      obtain rfl : i = j := by omega
      exact .refl i
  | append earlier handle text ih =>
      rw [target?_append, target?_append] at heq
      exact (ih hi hj heq).mono fun _ _ => .append
  | @clone n earlier handle ih =>
      have hold : ∀ {k l : Nat}, k < n → l < n →
          earlier.handles.targets[k]? = earlier.handles.targets[l]? →
            (earlier.clone handle).Connected k l :=
        fun hk hl heq => (ih hk hl heq).mono fun _ _ => .clone
      have hlast : (earlier.clone handle).Connected n handle := .rel _ _ .last
      rcases Nat.lt_succ_iff_lt_or_eq.mp hi with hi | rfl <;>
        rcases Nat.lt_succ_iff_lt_or_eq.mp hj with hj | rfl
      · rw [target?_clone earlier handle hi, target?_clone earlier handle hj] at heq
        exact hold hi hj heq
      · rw [target?_clone earlier handle hi, target?_clone_last] at heq
        exact .trans _ _ _ (hold hi handle.isLt heq) (.symm _ _ hlast)
      · rw [target?_clone earlier handle hj, target?_clone_last] at heq
        exact .trans _ _ _ hlast (hold handle.isLt hj heq)
      · exact .refl _
  | @fresh n earlier ih =>
      -- no handle that was there stands for the new buffer
      have hnew : ∀ {k : Nat}, k < n →
          earlier.fresh.handles.targets[k]? ≠ earlier.fresh.handles.targets[n]? := by
        intro k hk heq
        obtain ⟨target, htarget, hlt⟩ := earlier.sound.exists_target hk
        rw [target?_fresh earlier hk, target?_fresh_last, htarget] at heq
        exact absurd (Option.some.inj heq) (Nat.ne_of_lt hlt)
      rcases Nat.lt_succ_iff_lt_or_eq.mp hi with hi | rfl <;>
        rcases Nat.lt_succ_iff_lt_or_eq.mp hj with hj | rfl
      · rw [target?_fresh earlier hi, target?_fresh earlier hj] at heq
        exact (ih hi hj heq).mono fun _ _ => .fresh
      · exact absurd heq (hnew hi)
      · exact absurd heq.symm (hnew hj)
      · exact .refl _

/-- Two handles are connected **if and only if they stand for the same buffer**. -/
theorem connected_iff (h : HandleHistory n) (hi : i < n) (hj : j < n) :
    h.Connected i j ↔ h.handles.targets[i]? = h.handles.targets[j]? :=
  ⟨Connected.target?_eq, h.connected_of_target?_eq hi hj⟩

/-! ### What was appended -/

/-- Texts are appended through handles **that are there**. -/
theorem lt_of_mem_appended {a : Nat × String} (ha : a ∈ h.appended) : a.1 < n := by
  induction h with
  | start => exact absurd ha List.not_mem_nil
  | append earlier handle text ih =>
      rcases List.mem_append.mp ha with ha | ha
      · exact ih ha
      · obtain rfl := List.mem_singleton.mp ha
        exact handle.isLt
  | clone earlier handle ih => exact Nat.lt_succ_of_lt (ih ha)
  | fresh earlier ih => exact Nat.lt_succ_of_lt (ih ha)

/-- The texts that were appended, in order, through the handles that stand for a buffer. -/
def textsFor (h : HandleHistory n) (target : Nat) : List String :=
  (h.appended.filter fun a => h.handles.targets[a.1]? = some target).map Prod.snd

/-- The texts for a buffer stay the same when a handle is made, since **no text was appended**
through it. -/
theorem textsFor_of_target?_eq {k : HandleHistory m} (happended : k.appended = h.appended)
    (htargets : ∀ i < n, k.handles.targets[i]? = h.handles.targets[i]?) (target : Nat) :
    k.textsFor target = h.textsFor target := by
  rw [textsFor, textsFor, happended]
  refine congrArg (List.map Prod.snd) (List.filter_congr fun a ha => ?_)
  rw [htargets a.1 (lt_of_mem_appended ha)]

/-- Nothing more is **written for any buffer** when a handle is cloned. -/
theorem textsFor_clone (h : HandleHistory n) (handle : Fin n) :
    (h.clone handle).textsFor = h.textsFor :=
  funext (textsFor_of_target?_eq rfl fun _ => target?_clone h handle)

/-- Neither is it when a new handle is made. -/
theorem textsFor_fresh (h : HandleHistory n) : h.fresh.textsFor = h.textsFor :=
  funext (textsFor_of_target?_eq rfl fun _ => target?_fresh h)

/-- A text that is appended comes **last** among those for the buffer of the handle, and counts for
no other buffer. -/
theorem textsFor_append (h : HandleHistory n) (handle : Fin n) (text : String) (target : Nat) :
    (h.append handle text).textsFor target =
      h.textsFor target ++
        if h.handles.targets[(handle : Nat)]? = some target then [text] else [] := by
  rw [textsFor, textsFor, appended, List.filter_append, List.map_append]
  simp only [target?_append]
  split
  next htarget => simp [htarget]
  next htarget => simp [htarget]

/-- The texts for a buffer that is not there. -/
theorem textsFor_eq_nil (h : HandleHistory n) : h.textsFor h.handles.buffers.length = [] := by
  rw [textsFor, List.map_eq_nil_iff, List.filter_eq_nil_iff]
  intro a ha
  obtain ⟨target, htarget, hlt⟩ := h.sound.exists_target (lt_of_mem_appended ha)
  simp [htarget, Nat.ne_of_lt hlt]

/-- A buffer has **what was appended through the handles that stand for it**, in order. -/
theorem chunks_of_target (h : HandleHistory n) {target : Nat} {b : Buffer}
    (hb : h.handles.buffers[target]? = some b) :
    b.chunks = (h.textsFor target).map (· ++ "\n") := by
  induction h generalizing target b with
  | start =>
      obtain ⟨-, rfl⟩ : target = 0 ∧ b = .empty := by
        cases target with
        | zero => exact ⟨rfl, (Option.some.inj hb).symm⟩
        | succ target => exact absurd hb (by simp [handles, Handles.start])
      rfl
  | append earlier handle text ih =>
      obtain ⟨reached, hreached, heq⟩ := earlier.sound.handles_append handle text
      rw [heq, List.getElem?_modify] at hb
      rw [textsFor_append, hreached]
      obtain ⟨before, hbefore, rfl⟩ := Option.map_eq_some_iff.mp hb
      by_cases htarget : reached = target
      · rw [if_pos htarget, if_pos (congrArg some htarget), List.map_append, ← ih hbefore]
        rfl
      · have hne : some reached ≠ some target := fun h => htarget (Option.some.inj h)
        rw [if_neg htarget, if_neg hne, List.append_nil]
        exact ih hbefore
  | clone earlier handle ih =>
      obtain ⟨_, -, -, heq⟩ := earlier.sound.handles_clone handle
      rw [heq] at hb
      rw [textsFor_clone]
      exact ih hb
  | fresh earlier ih =>
      rw [textsFor_fresh]
      rw [handles, Handles.fresh, List.getElem?_append] at hb
      split at hb
      next => exact ih hb
      next hlt =>
        obtain ⟨hlength, rfl⟩ : target = earlier.handles.buffers.length ∧ b = .empty := by
          rw [List.getElem?_singleton] at hb
          split at hb
          next hzero => exact ⟨by omega, (Option.some.inj hb).symm⟩
          next => exact nomatch hb
        rw [hlength, textsFor_eq_nil]
        rfl

/-- The texts for the buffer of a handle are those appended through **the handles connected** with
it. -/
theorem textsFor_eq_textsThrough (h : HandleHistory n) (hi : i < n) {target : Nat}
    (htarget : h.handles.targets[i]? = some target) : h.textsFor target = h.textsThrough i := by
  rw [textsFor, textsThrough]
  refine congrArg (List.map Prod.snd) (List.filter_congr fun a ha => ?_)
  rw [decide_eq_decide, h.connected_iff (lt_of_mem_appended ha) hi, htarget]

/-! ### Later on -/

namespace LeadsTo

variable {later : HandleHistory m}

/-- A later history has **no fewer handles**. -/
theorem le (hlater : h.LeadsTo later) : n ≤ m := by
  induction hlater with
  | here => exact Nat.le_refl n
  | append _ ih => exact ih
  | clone _ ih => exact Nat.le_succ_of_le ih
  | fresh _ ih => exact Nat.le_succ_of_le ih

/-- A handle keeps its buffer. -/
theorem target?_eq (hlater : h.LeadsTo later) (hi : i < n) :
    later.handles.targets[i]? = h.handles.targets[i]? := by
  induction hlater with
  | here => rfl
  | append _ ih => rw [target?_append, ih]
  | clone hlater ih => rw [target?_clone _ _ (Nat.lt_of_lt_of_le hi hlater.le), ih]
  | fresh hlater ih => rw [target?_fresh _ (Nat.lt_of_lt_of_le hi hlater.le), ih]

/-- The texts for a buffer **only become more**. -/
theorem textsFor_prefix (hlater : h.LeadsTo later) (target : Nat) :
    h.textsFor target <+: later.textsFor target := by
  induction hlater with
  | here => exact List.prefix_rfl
  | append _ ih =>
      rw [textsFor_append]
      exact ih.trans (List.prefix_append _ _)
  | clone _ ih =>
      rw [textsFor_clone]
      exact ih
  | fresh _ ih =>
      rw [textsFor_fresh]
      exact ih

end LeadsTo

/-- What is **seen through a handle**: a buffer that holds exactly its texts. -/
theorem exists_buffer (h : HandleHistory n) (hi : i < n) :
    ∃ b, h.handles.buffer? i = some b ∧ b.Holds (h.textsThrough i) := by
  obtain ⟨target, htarget, hlt⟩ := h.sound.exists_target hi
  have hb := List.getElem?_eq_getElem hlt
  refine ⟨h.handles.buffers[target], ?_, Buffer.holds_of_chunks ?_⟩
  · rw [Handles.buffer?, htarget]
    exact hb
  · rw [← h.textsFor_eq_textsThrough hi htarget]
    exact h.chunks_of_target hb

/-- The texts of a handle **only become more**. -/
theorem LeadsTo.textsThrough_prefix {later : HandleHistory m} (hlater : h.LeadsTo later)
    (hi : i < n) : h.textsThrough i <+: later.textsThrough i := by
  obtain ⟨target, htarget, -⟩ := h.sound.exists_target hi
  have hkept : later.handles.targets[i]? = some target := by rw [hlater.target?_eq hi, htarget]
  rw [← h.textsFor_eq_textsThrough hi htarget,
    ← later.textsFor_eq_textsThrough (Nat.lt_of_lt_of_le hi hlater.le) hkept]
  exact hlater.textsFor_prefix target

/-- **A handle shows its history.** Whatever was done with handles, through each of them a buffer is
seen that holds the texts appended, in order, through the handles that cloning connects with it, and
no others. Whatever is done after that, what was seen stays as it was at the start of what is seen
then. -/
theorem handles_show_history (h : HandleHistory n) (handle : Fin n) :
    ∃ b, h.handles.buffer? handle = some b ∧ b.Holds (h.textsThrough handle) ∧
      ∀ {m : Nat} (later : HandleHistory m), h.LeadsTo later →
        ∃ b', later.handles.buffer? handle = some b' ∧ b'.Holds (later.textsThrough handle) ∧
          b.chunks <+: b'.chunks ∧ b.contents.toList <+: b'.contents.toList := by
  obtain ⟨b, hb, hholds⟩ := h.exists_buffer handle.isLt
  refine ⟨b, hb, hholds, fun later hlater => ?_⟩
  obtain ⟨b', hb', hholds'⟩ := later.exists_buffer (Nat.lt_of_lt_of_le handle.isLt hlater.le)
  have hchunks : b.chunks <+: b'.chunks := by
    rw [hholds.chunks, hholds'.chunks]
    exact (hlater.textsThrough_prefix handle.isLt).map _
  refine ⟨b', hb', hholds', hchunks, ?_⟩
  rw [hholds.contents, hholds'.contents]
  obtain ⟨more, hmore⟩ := hchunks
  rw [← hmore, List.flatMap_append]
  exact List.prefix_append _ _

/-- Two buffers: a text is appended to the first one before it is cloned, one through the clone, and
one to the second buffer. -/
def cloned : HandleHistory 3 :=
  ((((start.append 0 "a").clone 0).fresh).append 1 "b").append 2 "c"

/-- The same, and a text that is appended through a clone of the clone. -/
def clonedTwice : HandleHistory 4 :=
  (cloned.clone 1).append 3 "d"

/-- What is seen through the first handle of `cloned`, and after `clonedTwice`. -/
theorem clones_show_history : cloned.LeadsTo clonedTwice ∧
    ∃ b b', cloned.handles.buffer? 0 = some b ∧ clonedTwice.handles.buffer? 0 = some b' ∧
      b.Holds (cloned.textsThrough 0) ∧ b.chunks = ["a\n", "b\n"] ∧
      b'.Holds (clonedTwice.textsThrough 0) ∧ b'.chunks = ["a\n", "b\n", "d\n"] ∧
      b.contents.toList <+: b'.contents.toList := by
  have hlater : cloned.LeadsTo clonedTwice := .append (.clone .here)
  obtain ⟨b, hb, hholds, hlaters⟩ := handles_show_history cloned 0
  obtain ⟨b', hb', hholds', -, hcontents⟩ := hlaters clonedTwice hlater
  have hseen : cloned.handles.buffer? 0 = some ⟨["a\n", "b\n"]⟩ := by decide
  have hseen' : clonedTwice.handles.buffer? 0 = some ⟨["a\n", "b\n", "d\n"]⟩ := by decide
  obtain rfl := Option.some.inj (hb.symm.trans hseen)
  obtain rfl := Option.some.inj (hb'.symm.trans hseen')
  exact ⟨hlater, _, _, hb, hb', hholds, rfl, hholds', rfl, hcontents⟩

end HandleHistory

end CapabilityGate
