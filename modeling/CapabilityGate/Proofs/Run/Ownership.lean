import CapabilityGate.Proofs.Run.WorkspaceChanges
import Mathlib.Data.List.Perm.Basic

/-!
# Workspaces and their owners

Workspaces that are made, destroyed and dropped in any order, all of them in one directory, belong
to one owner each: as long as a workspace is in use, its directory is there with its support file,
and no other workspace is at its place. Making another one, also where that fails, destroying one
and dropping one leave it as it is.

What carries this is that a directory is only made where nothing is. So the place of a workspace is
neither that of another one nor on the way to it, when it is made as when it is removed.

## Main definitions

* `Workspaces`: files, and the workspaces in use.
* `Workspaces.step`, `Workspaces.run`: what is done with them.
* `Workspaces.Owned`: what is known of a workspace in use.
* `Workspaces.AreOwned`: what is promised of workspaces.

## Main results

* `Workspaces.Owned.of_change`: a change at another place leaves a workspace as it is.
* `Workspaces.AllOwned.step`, `Workspaces.AllOwned.run`: what is known of workspaces in use stays.
* `Workspaces.workspaces_are_owned`: the promise is kept, whatever was done.
-/

namespace CapabilityGate

/-- Files, and the workspaces that are **in use**: those that are neither destroyed nor dropped. -/
structure Workspaces where
  /-- The files. -/
  files : Files
  /-- The workspaces in use. -/
  live : List Workspace

namespace Workspaces

/-- Something that is done with workspaces. -/
inductive Action where
  /-- One is asked for. -/
  | create (c : WorkspaceConfig) (id : RunId)
  /-- The one in that place of the list is destroyed. -/
  | destroy (i : Nat)
  /-- The one in that place of the list is dropped. -/
  | drop (i : Nat)
  deriving Repr, DecidableEq

/-- Workspaces are asked for **in the directory** `root`. -/
structure Fits (root : String) (c : WorkspaceConfig) (id : RunId) : Prop where
  /-- It is the directory that holds them. -/
  root_eq : Workspace.root c = root
  /-- What stands before the identifier has no slash. -/
  no_slash : '/' ∉ c.namePrefix.toList
  /-- The identifier is one. -/
  proper : id.Proper

namespace Fits

variable {root : String} {c : WorkspaceConfig} {id : RunId}

/-- The directory of the workspace has a name **of its own**. -/
theorem isName (h : Fits root c id) : FilePath.IsName (Workspace.nameFor c id) :=
  Workspace.isName_nameFor h.no_slash h.proper

/-- The path of the workspace is that name **in the directory**. -/
theorem pathFor_eq (h : Fits root c id) :
    Workspace.pathFor c id = FilePath.join root (Workspace.nameFor c id) := by
  rw [← h.root_eq]
  rfl

end Fits

/-- What is done is done **in the directory** `root`. -/
def Action.Fits (root : String) : Action → Prop
  | create c id => Workspaces.Fits root c id
  | destroy _ => True
  | drop _ => True

/-- What becomes of workspaces when something **is done** with them. -/
def step (s : Workspaces) : Action → Workspaces
  | .create c id =>
    match Workspace.create c id s.files with
    | (files, .ok w) => ⟨files, s.live ++ [w]⟩
    | (files, .error _) => ⟨files, s.live⟩
  | .destroy i =>
    match s.live[i]? with
    | some w => ⟨(w.destroy s.files).1, s.live.eraseIdx i⟩
    | none => s
  | .drop i =>
    match s.live[i]? with
    | some w => ⟨w.abandon s.files, s.live.eraseIdx i⟩
    | none => s

/-- What becomes of workspaces when things are done **one after another**. -/
def run (s : Workspaces) (actions : List Action) : Workspaces :=
  actions.foldl step s

/-! ### One workspace -/

variable {root path : String} {f g after : Files} {s : Workspaces} {v w : Workspace}
  {c : WorkspaceConfig} {id : RunId}

/-- What is known of a workspace **in use**. -/
structure Owned (root : String) (f : Files) (w : Workspace) : Prop where
  /-- Its path is a name in the directory that holds workspaces. -/
  named : ∃ name, FilePath.IsName name ∧ w.path = FilePath.join root name
  /-- The way to that directory does not lead through it. -/
  clear : ∀ place, f.OnTheWay root place → ¬ f.placeOf w.path <+: place
  /-- Its directory is there. -/
  there : f.isDirectory w.path = true
  /-- The support file is all that is in it. -/
  within : ∃ e, e.isDirectory = false ∧ ∀ inner, inner ≠ [] →
    f.what? (f.placeOf w.path ++ inner) = if inner = [Workspace.supportName] then some e else none

namespace Owned

/-- There is a directory wherever the way to a workspace **in use** leads. -/
theorem holds (h : Owned root f w) {place : List String} (hplace : f.OnTheWay root place) :
    f.root.Holds place := by
  obtain ⟨name, hname, hpath⟩ := h.named
  have hopen := (Files.isDirectory_iff.mp h.there).2.1
  rw [hpath] at hopen
  exact hname.holds_of_open hopen hplace

/-- While a workspace is in use, the directory that holds workspaces **is not made again**. -/
theorem prepared_eq_self (h : Owned root f w) (hroot : Workspace.root c = root) :
    Workspace.prepared c f = f := by
  refine Workspace.prepared_of_isDirectory ?_
  rw [hroot]
  by_cases hempty : root = ""
  · exact Or.inr hempty
  · obtain ⟨name, hname, hpath⟩ := h.named
    left
    refine Files.isDirectory_of_isThere_join hempty hname.isAbsolute_eq_false ?_
      (hpath ▸ Files.isThere_of_isDirectory h.there)
    rw [FilePath.names_of_no_slash hname.no_slash
      fun hnil => hname.nonempty (String.toList_eq_nil_iff.mp hnil)]
    exact List.cons_ne_nil _ _

/-- A workspace in use is left as it is where **the same is seen** of it and on the way to it. -/
theorem of_agree {p : List String → Prop} (h : Owned root f w) (hagree : Files.AgreeOn p f g)
    (hway : ∀ place, f.OnTheWay root place → p place)
    (hwithin : ∀ inner, p (f.placeOf w.path ++ inner)) : Owned root g w := by
  obtain ⟨name, hname, hpath⟩ := h.named
  refine ⟨⟨name, hname, hpath⟩, ?_, ?_, ?_⟩
  · intro place hplace
    rw [Files.OnTheWay, hagree.startOf_eq] at hplace
    rw [hagree.placeOf_eq]
    exact h.clear place hplace
  · refine hagree.isDirectory_eq_true (fun place hplace => ?_) h.there
    rw [hpath] at hplace
    rcases hname.onTheWay_join_cases hplace with hroot | rfl
    · exact hway place hroot
    · have hself := hwithin []
      rwa [List.append_nil, hpath] at hself
  · obtain ⟨e, he, hinner⟩ := h.within
    refine ⟨e, he, fun inner hne => ?_⟩
    rw [hagree.placeOf_eq, hagree.what _ (hwithin inner), hinner inner hne]

/-- A change **at another place** in the directory that holds workspaces leaves a workspace as it
is, unless the way there leads through that place. -/
theorem of_change {name : String} (h : Owned root f v) (hname : FilePath.IsName name)
    (hpath : path = FilePath.join root name) (hne : f.placeOf path ≠ f.placeOf v.path)
    (hclear : ∀ place, f.OnTheWay root place → ¬ f.placeOf path <+: place)
    (hagree : Files.AgreeOn (¬ f.placeOf path <+: ·) f g) : Owned root g v := by
  obtain ⟨other, hother, hv⟩ := h.named
  refine h.of_agree hagree hclear fun inner => ?_
  rw [hpath, hv, hname.placeOf_join, hother.placeOf_join] at hne ⊢
  -- Names in one directory do not lead to places below each other.
  rw [List.append_assoc, List.prefix_append_right_inj, List.singleton_append, List.cons_prefix_cons]
  exact fun hboth => hne (by rw [hboth.1])

/-- A workspace that **is made** is in use. -/
theorem of_create (hfits : Fits root c id)
    (h : Workspace.create c id f = (after, .ok w)) : Owned root after w := by
  obtain ⟨hpath, e, hsupport, hadds⟩ := Workspace.addsWorkspace_of_create h
  obtain ⟨-, hdirectory, made, hmakes⟩ := Workspace.of_create_ok h
  have hjoin := hpath.trans hfits.pathFor_eq
  have hplace := hadds.aside.placeOf_eq w.path
  refine ⟨⟨_, hfits.isName, hjoin⟩, ?_, hpath ▸ hdirectory, e, hsupport.file, ?_⟩
  · intro place hway
    rw [Files.OnTheWay, hadds.aside.startOf_eq] at hway
    rw [hplace]
    -- The directory is made where nothing is, and there are directories on the way to it.
    refine Files.not_prefix_of_vacant hadds.vacant (hfits.isName.holds_of_open ?_ hway)
    rw [← hjoin, hpath]
    exact hmakes.clear
  · intro inner hne
    rw [hplace]
    by_cases hinner : inner = [Workspace.supportName]
    · rw [if_pos hinner, hinner, hadds.support]
    · rw [if_neg hinner, hadds.within inner hne hinner]

end Owned

/-! ### All workspaces -/

/-- What is known of **all** workspaces in use. -/
structure AllOwned (root : String) (s : Workspaces) : Prop where
  /-- It is known of each of them. -/
  owned : ∀ w ∈ s.live, Owned root s.files w
  /-- They are at different places. -/
  apart : s.live.Pairwise fun v w => s.files.placeOf v.path ≠ s.files.placeOf w.path

/-- Nothing is in use **at first**. -/
theorem allOwned_start (root : String) (f : Files) : AllOwned root ⟨f, []⟩ :=
  ⟨fun _ h => absurd h List.not_mem_nil, List.Pairwise.nil⟩

namespace AllOwned

/-- Workspaces are **at different places** wherever relative paths start from the same directory. -/
theorem apart_of_here (h : AllOwned root s) (hhere : after.here = s.files.here) :
    s.live.Pairwise fun v w => after.placeOf v.path ≠ after.placeOf w.path := by
  rw [Files.placeOf_congr hhere]
  exact h.apart

/-- Workspaces in use **stay** so when another one is made. -/
theorem of_create_ok (h : AllOwned root s) (hfits : Fits root c id)
    (hcreate : Workspace.create c id s.files = (after, .ok w)) :
    AllOwned root ⟨after, s.live ++ [w]⟩ := by
  obtain ⟨hpath, e, -, hadds⟩ := Workspace.addsWorkspace_of_create hcreate
  have hjoin := hpath.trans hfits.pathFor_eq
  have hhere : after.here = s.files.here :=
    hadds.aside.here.trans (Workspace.addsOnTheWay_prepared c s.files).here
  have hlive : ∀ v ∈ s.live, Owned root after v ∧ after.placeOf v.path ≠ after.placeOf w.path := by
    intro v hv
    have howned := h.owned v hv
    rw [howned.prepared_eq_self hfits.root_eq] at hadds
    have hne : s.files.placeOf w.path ≠ s.files.placeOf v.path := by
      intro heq
      have hseen := Files.what?_eq_directory.mpr (Files.isDirectory_iff.mp howned.there).2.2
      rw [← heq, hadds.vacant] at hseen
      exact nomatch hseen
    refine ⟨howned.of_change hfits.isName hjoin hne (fun place hplace => ?_) hadds.aside, ?_⟩
    · exact Files.not_prefix_of_vacant hadds.vacant (howned.holds hplace)
    · rw [Files.placeOf_congr hhere]
      exact hne.symm
  refine ⟨fun v hv => ?_, List.pairwise_append.mpr ⟨h.apart_of_here hhere,
    List.pairwise_singleton _ _, fun v hv u hu => ?_⟩⟩
  · rcases List.mem_append.mp hv with hv | hv
    · exact (hlive v hv).1
    · rw [List.mem_singleton.mp hv]
      exact .of_create hfits hcreate
  · rw [List.mem_singleton.mp hu]
    exact (hlive v hv).2

/-- Workspaces in use **stay** so when another one is not made. -/
theorem of_create_error {fault : Fault} (h : AllOwned root s) (hfits : Fits root c id)
    (hcreate : Workspace.create c id s.files = (after, .error fault)) :
    AllOwned root ⟨after, s.live⟩ := by
  have hagree := Workspace.agreeOn_of_create_error hfits.isName hcreate
  refine ⟨fun v hv => ?_, h.apart_of_here
    (hagree.here.trans (Workspace.addsOnTheWay_prepared c s.files).here)⟩
  have howned := h.owned v hv
  rw [howned.prepared_eq_self hfits.root_eq] at hagree
  exact howned.of_agree hagree (fun _ _ => trivial) fun _ => trivial

/-- A workspace in use **can be removed**, with its directory and nothing else. -/
theorem removes (h : AllOwned root s) (hw : w ∈ s.live) :
    (w.destroy s.files).2 = .ok () ∧
      Workspace.RemovesWorkspace w.path s.files (w.destroy s.files).1 := by
  have howned := h.owned w hw
  obtain ⟨name, hname, hpath⟩ := howned.named
  exact Workspace.removesWorkspace_of_isDirectory hname hpath howned.there

/-- Workspaces in use **stay** so when another one is removed. -/
theorem of_destroy {i : Nat} (h : AllOwned root s) (hw : s.live[i]? = some w) :
    AllOwned root ⟨(w.destroy s.files).1, s.live.eraseIdx i⟩ := by
  have hmem : w ∈ s.live := List.mem_of_getElem? hw
  have howned := h.owned w hmem
  have haside := (h.removes hmem).2.aside
  obtain ⟨name, hname, hpath⟩ := howned.named
  -- The workspace is at another place than those that are left.
  have hfirst : (w :: s.live.eraseIdx i).Pairwise fun v w =>
      s.files.placeOf v.path ≠ s.files.placeOf w.path := by
    obtain ⟨hi, rfl⟩ := List.getElem?_eq_some_iff.mp hw
    exact ((List.getElem_cons_eraseIdx_perm hi).pairwise_iff Ne.symm).mpr h.apart
  obtain ⟨hothers, hrest⟩ := List.pairwise_cons.mp hfirst
  refine ⟨fun v hv => ?_, ?_⟩
  · exact (h.owned v (List.mem_of_mem_eraseIdx hv)).of_change hname hpath (hothers v hv)
      howned.clear haside
  · rw [Files.placeOf_congr haside.here]
    exact hrest

/-- Whatever is done, workspaces in use **stay** so. -/
theorem step (h : AllOwned root s) {a : Action} (hfits : a.Fits root) :
    AllOwned root (s.step a) := by
  cases a with
  | create c id =>
      rw [Workspaces.step]
      split
      next after w hcreate => exact h.of_create_ok hfits hcreate
      next after fault hcreate => exact h.of_create_error hfits hcreate
  | destroy i =>
      rw [Workspaces.step]
      split
      next w hw => exact h.of_destroy hw
      next => exact h
  | drop i =>
      rw [Workspaces.step]
      split
      next w hw => exact h.of_destroy hw
      next => exact h

/-- Whatever is done one after another, workspaces in use **stay** so. -/
theorem run {actions : List Action} (h : AllOwned root s)
    (hfits : ∀ a ∈ actions, a.Fits root) : AllOwned root (s.run actions) := by
  induction actions generalizing s with
  | nil => exact h
  | cons a actions ih =>
      have hfirst := h.step (hfits a List.mem_cons_self)
      exact ih hfirst fun b hb => hfits b (List.mem_cons_of_mem a hb)

end AllOwned

/-! ### What is promised -/

/-- What is **promised** of workspaces that are made, destroyed and dropped in the directory
`root`. -/
structure AreOwned (root : String) (s : Workspaces) : Prop where
  /-- The directory of each workspace in use is there. -/
  there : ∀ w ∈ s.live, s.files.isDirectory w.path = true
  /-- There is the support file in it, and nothing else. -/
  within : ∀ w ∈ s.live, ∃ e, e.isDirectory = false ∧ ∀ inner, inner ≠ [] →
    s.files.what? (s.files.placeOf w.path ++ inner) =
      if inner = [Workspace.supportName] then some e else none
  /-- No two workspaces in use have one path, or paths to one place. -/
  separate : s.live.Pairwise fun v w =>
    v.path ≠ w.path ∧ s.files.placeOf v.path ≠ s.files.placeOf w.path
  /-- If a workspace is not made, there are new directories on the way to the one that holds
  workspaces, if anything is new, and nothing is new if that is there. -/
  refused : ∀ c id fault after, Fits root c id →
    Workspace.create c id s.files = (after, .error fault) →
      Files.AddsOnTheWay root s.files after ∧
        (s.files.isDirectory root = true → Files.AgreeOn (fun _ => True) s.files after)
  /-- A workspace is not made at the path of one in use, and that changes nothing. -/
  taken : ∀ w ∈ s.live, ∀ c id, Fits root c id → Workspace.pathFor c id = w.path →
    ∃ fault, Workspace.create c id s.files = (s.files, .error fault)
  /-- If a workspace is made, it is one directory with its support file, once there are the
  directories on the way to the one that holds workspaces. -/
  made : ∀ c id w after, Fits root c id → Workspace.create c id s.files = (after, .ok w) →
    w.path = Workspace.pathFor c id ∧ ∃ before e, Files.AddsOnTheWay root s.files before ∧
      (s.files.isDirectory root = true → before = s.files) ∧
        Workspace.IsSupport c after e ∧ Workspace.AddsWorkspace w.path e before after
  /-- A workspace in use can be destroyed, and then its directory is gone, and nothing else. -/
  destroyed : ∀ w ∈ s.live, (w.destroy s.files).2 = .ok () ∧
    Workspace.RemovesWorkspace w.path s.files (w.destroy s.files).1
  /-- If a workspace in use is dropped, its directory is gone, and nothing else. -/
  dropped : ∀ w ∈ s.live, Workspace.RemovesWorkspace w.path s.files (w.abandon s.files)

/-- What is known of all workspaces in use is enough for **what is promised**. -/
theorem AllOwned.areOwned (h : AllOwned root s) : AreOwned root s where
  there w hw := (h.owned w hw).there
  within w hw := (h.owned w hw).within
  separate := h.apart.imp fun hne => ⟨fun heq => hne (by rw [heq]), hne⟩
  refused := by
    intro c id fault after hfits hcreate
    have hagree := Workspace.agreeOn_of_create_error hfits.isName hcreate
    have hprepared := Workspace.addsOnTheWay_prepared c s.files
    rw [hfits.root_eq] at hprepared
    refine ⟨hprepared.of_agree hagree, fun hdirectory => ?_⟩
    rwa [Workspace.prepared_of_isDirectory (Or.inl (hfits.root_eq ▸ hdirectory))] at hagree
  taken := by
    intro w hw c id hfits hpath
    have howned := h.owned w hw
    have hprepared := howned.prepared_eq_self hfits.root_eq
    have hthere : (Workspace.prepared c s.files).isThere (Workspace.pathFor c id) = true := by
      rw [hprepared, hpath]
      exact Files.isThere_of_isDirectory howned.there
    obtain ⟨fault, hcreate, -⟩ := Workspace.create_of_isThere hthere
    rw [hprepared] at hcreate
    exact ⟨fault, hcreate⟩
  made := by
    intro c id w after hfits hcreate
    obtain ⟨hpath, e, hsupport, hadds⟩ := Workspace.addsWorkspace_of_create hcreate
    have hprepared := Workspace.addsOnTheWay_prepared c s.files
    rw [hfits.root_eq] at hprepared
    refine ⟨hpath, _, e, hprepared, fun hdirectory => ?_, hsupport, hadds⟩
    exact Workspace.prepared_of_isDirectory (Or.inl (hfits.root_eq ▸ hdirectory))
  destroyed _ hw := h.removes hw
  dropped _ hw := (h.removes hw).2

/-- Whatever is done one after another in one directory, from whatever files, **each workspace
belongs to one owner**. -/
theorem workspaces_are_owned (root : String) (f : Files) (actions : List Action)
    (h : ∀ a ∈ actions, a.Fits root) : AreOwned root (run ⟨f, []⟩ actions) :=
  ((allOwned_start root f).run h).areOwned

/-- Two identifiers of runs. -/
def firstId : RunId := ⟨"00000000000040008000000000000001".toList⟩

def secondId : RunId := ⟨"00000000000040008000000000000002".toList⟩

/-- A workspace that is asked for twice, another one, and the first one destroyed. -/
def exampleActions : List Action :=
  [.create {} firstId, .create {} firstId, .create {} secondId, .destroy 0]

/-- The second workspace is **still there** when the first one is destroyed. -/
theorem second_workspace_is_owned : (∀ a ∈ exampleActions, a.Fits "/tmp") ∧
    AreOwned "/tmp" (run ⟨⟨.directory [], []⟩, []⟩ exampleActions) ∧
      (run ⟨⟨.directory [], []⟩, []⟩ exampleActions).live =
        [⟨"/tmp/sandbox-00000000-0000-4000-8000-000000000002"⟩] := by
  have hfits : ∀ id : RunId, id.Proper → Fits "/tmp" {} id := fun id hid => ⟨rfl, by decide, hid⟩
  have hall : ∀ a ∈ exampleActions, a.Fits "/tmp" := by
    simp only [exampleActions, List.forall_mem_cons, List.not_mem_nil, false_implies,
      implies_true, and_true, Action.Fits]
    exact ⟨hfits _ (by decide), hfits _ (by decide), hfits _ (by decide)⟩
  exact ⟨hall, workspaces_are_owned "/tmp" ⟨.directory [], []⟩ exampleActions hall, by
    decide +kernel⟩

end Workspaces

end CapabilityGate
