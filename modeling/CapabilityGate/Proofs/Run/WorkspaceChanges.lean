import CapabilityGate.Proofs.Files.Observation
import CapabilityGate.Proofs.Run.Workspace

/-!
# What is seen of workspaces

A workspace that is made is one directory with one file in it, the support file, and one that is
removed takes that directory with it, with everything that is in it. A workspace that is not made
leaves nothing. Apart from that there are directories on the way to the one that holds workspaces,
which are made if they are missing.

## Main definitions

* `Workspace.IsSupport`: what the support file is.
* `Workspace.AddsWorkspace`, `Workspace.RemovesWorkspace`: what is seen when a workspace is made and
  when it is removed.

## Main results

* `Workspace.addsWorkspace_of_create`: what is new when a workspace is made.
* `Workspace.agreeOn_of_create_error`: nothing is left of a workspace that is not made.
* `Workspace.removesWorkspace_of_isDirectory`: what is gone when a workspace is removed.
* `Workspace.addsOnTheWay_prepared`: which directories are made apart from workspaces.
-/

namespace CapabilityGate

/-! ### What is seen of a workspace -/

namespace Workspace

variable {c : WorkspaceConfig} {id : RunId} {f before after : Files} {w : Workspace} {e : Entry}
  {path : String}

/-- The name of the directory of a workspace is a name **of its own**. -/
theorem isName_nameFor (hslash : '/' ∉ c.namePrefix.toList) (hid : id.Proper) :
    FilePath.IsName (nameFor c id) := by
  have hhyphen := hyphen_mem_nameFor c id
  have hother : ∀ other : String, '-' ∉ other.toList → nameFor c id ≠ other := by
    rintro other hnone rfl
    exact hnone hhyphen
  refine ⟨?_, hother "" (by decide), hother "." (by decide), hother ".." (by decide)⟩
  rw [nameFor, String.toList_append, List.mem_append, not_or]
  exact ⟨hslash, hid.no_slash⟩

/-- What the **support file** of a workspace is. -/
structure IsSupport (c : WorkspaceConfig) (after : Files) (e : Entry) : Prop where
  /-- It is a file. -/
  file : e.isDirectory = false
  /-- It is the usual one, unless another file takes its place. -/
  usual : c.supportTemplate = none → e = .file (Text.bytesOf supportText)
  /-- It is the same file as the one that takes its place. -/
  copied : ∀ template, c.supportTemplate = some template →
    ∃ place, after.stat template = .ok (place, e)

/-- What is new is **one directory with one file** in it. -/
structure AddsWorkspace (path : String) (e : Entry) (before after : Files) : Prop where
  /-- There was nothing at the place of the directory. -/
  vacant : before.what? (before.placeOf path) = none
  /-- There is a directory. -/
  directory : after.what? (before.placeOf path) = some (.directory [])
  /-- There is a file in it. -/
  support : after.what? (before.placeOf path ++ [supportName]) = some e
  /-- There is nothing else in it. -/
  within : ∀ inner, inner ≠ [] → inner ≠ [supportName] →
    after.what? (before.placeOf path ++ inner) = none
  /-- Elsewhere everything is as it was. -/
  aside : Files.AgreeOn (¬ before.placeOf path <+: ·) before after

/-- What is gone is **one directory** with everything in it. -/
structure RemovesWorkspace (path : String) (before after : Files) : Prop where
  /-- There is nothing at the place of the directory, and nothing below. -/
  gone : ∀ inner, after.what? (before.placeOf path ++ inner) = none
  /-- Elsewhere everything is as it was. -/
  aside : Files.AgreeOn (¬ before.placeOf path <+: ·) before after

/-- The support file is **written**, as the usual one or as a copy. -/
theorem exists_write_of_seed (h : w.seed c f = .ok after) :
    ∃ e, e.isDirectory = false ∧ f.write (w.join supportName) e = .ok after ∧
      (c.supportTemplate = none → e = .file (Text.bytesOf supportText)) ∧
      ∀ template, c.supportTemplate = some template → ∃ place, f.stat template = .ok (place, e) := by
  rw [seed] at h
  split at h
  next template htemplate =>
    obtain ⟨place, e, hstat, he, hwrite⟩ := Files.exists_stat_of_copy (eq_ok_of_mapError h)
    refine ⟨e, he, hwrite, fun hnone => ?_, fun other hother => ?_⟩
    · rw [hnone] at htemplate
      exact nomatch htemplate
    · rw [htemplate] at hother
      exact ⟨place, Option.some.inj hother ▸ hstat⟩
  next hnone =>
    refine ⟨_, rfl, eq_ok_of_mapError h, fun _ => rfl, fun other hother => ?_⟩
    rw [hnone] at hother
    exact nomatch hother

/-- What a path leads to **stays** when a file is written where nothing is. -/
theorem stat_of_write {target : String} {place : List String} {new : Entry}
    (he : e.isDirectory = false) (hvacant : f.what? (f.placeOf target) = none)
    (hwrite : f.write target new = .ok after) (hstat : f.stat path = .ok (place, e)) :
    after.stat path = .ok (place, e) := by
  obtain ⟨rfl, hplace⟩ := Files.of_write hwrite
  obtain ⟨hpass, rfl, hfound⟩ := Files.stat_eq_ok_iff.mp hstat
  have hseen : f.what? (f.placeOf path) = some e := (Files.what?_eq_some_iff he).mpr hfound
  have haside : ¬ f.placeOf target <+: f.placeOf path := by
    rintro ⟨back, hback⟩
    rw [← hback, Files.what?_below hvacant] at hseen
    exact nomatch hseen
  refine Files.stat_eq_ok_iff.mpr ⟨⟨hpass.usable, hpass.clear.put new hplace, ?_⟩, rfl, ?_⟩
  · intro hslash
    exact (hpass.slash hslash).set new hplace
  · rw [← Files.what?_eq_some_iff he, (Files.agreeOn_put f _ new).what _ haside, hseen]

/-- The name of the support file is a name **of its own**. -/
theorem isName_supportName : FilePath.IsName supportName :=
  ⟨by decide, by decide, by decide, by decide⟩

/-- A directory that is made is seen **at its place only**. -/
theorem agreeOn_of_makes (h : before.Makes path after) :
    Files.AgreeOn (¬ before.placeOf path <+: ·) before after := by
  rw [h.made]
  exact Files.agreeOn_put before _ _

/-- A directory that is made and a file that is written into it are **what is new**. -/
theorem addsWorkspace_of_write {made : Files} (hmakes : before.Makes path made)
    (he : e.isDirectory = false)
    (hwrite : made.write (FilePath.join path supportName) e = .ok after) :
    AddsWorkspace path e before after := by
  have hmade := agreeOn_of_makes hmakes
  have hsame : made.placeOf path = before.placeOf path := hmade.placeOf_eq path
  obtain ⟨hafter, -⟩ := Files.of_write hwrite
  have hwritten : Files.AgreeOn (¬ before.placeOf path ++ [supportName] <+: ·) made after := by
    rw [hafter, isName_supportName.placeOf_join, hsame]
    exact Files.agreeOn_put made _ e
  have hfound : after.root.find? (before.placeOf path) =
      some (.directory [(supportName, e)]) := by
    rw [← hsame, ← hwritten.placeOf_eq]
    exact Files.find?_of_write_into_empty isName_supportName.no_slash isName_supportName.nonempty
      isName_supportName.not_here isName_supportName.not_up hmakes.stat_eq hwrite
  refine ⟨Files.what?_eq_none.mpr hmakes.vacant, Files.what?_eq_directory.mpr ⟨_, hfound⟩, ?_, ?_,
    hmade.trans (hwritten.mono ?_)⟩
  · rw [Files.what?_eq_some_iff he, Entry.find?_append, hfound, Option.bind_some, Entry.find?,
      Entry.lookup_cons_eq_ite, if_pos rfl, Option.bind_some, Entry.find?]
  · intro inner hne hother
    rw [Files.what?_eq_none, Entry.find?_append, hfound, Option.bind_some]
    exact Entry.find?_of_single he hne hother
  · exact fun place hplace hbelow => hplace ((List.prefix_append _ _).trans hbelow)

/-- A workspace that is made is **one directory with its support file**, once there is a directory
that holds workspaces. -/
theorem addsWorkspace_of_create (h : create c id f = (after, .ok w)) :
    w.path = pathFor c id ∧
      ∃ e, IsSupport c after e ∧ AddsWorkspace w.path e (prepared c f) after := by
  rw [create] at h
  split at h
  next => cases (Prod.mk.inj h).2
  next made owner hmake =>
    split at h
    next seeded hseed =>
      obtain ⟨rfl, hw⟩ := Prod.mk.inj h
      obtain rfl := Except.ok.inj hw
      obtain ⟨hpath, hmakes⟩ := of_make_ok hmake
      rw [← hpath] at hmakes
      obtain ⟨e, he, hwrite, husual, hcopied⟩ := exists_write_of_seed hseed
      refine ⟨hpath, e, ⟨he, husual, fun template htemplate => ?_⟩,
        addsWorkspace_of_write hmakes he hwrite⟩
      obtain ⟨place, hstat⟩ := hcopied template htemplate
      refine ⟨place, stat_of_write he ?_ hwrite hstat⟩
      -- The directory is empty before the support file is written.
      rw [join, isName_supportName.placeOf_join, (agreeOn_of_makes hmakes).placeOf_eq,
        hmakes.what?_eq, if_neg (by simp)]
      exact Files.what?_below (Files.what?_eq_none.mpr hmakes.vacant) _
    next => cases (Prod.mk.inj h).2

/-- A directory that is removed under a name of its own is **what is gone**. -/
theorem removesWorkspace_of_isDirectory {root name : String} (hname : FilePath.IsName name)
    (hpath : w.path = FilePath.join root name) (h : f.isDirectory w.path = true) :
    (w.destroy f).2 = .ok () ∧ RemovesWorkspace w.path f (w.destroy f).1 := by
  have hnames : FilePath.names w.path = FilePath.names root ++ [name] := by
    rw [hpath, hname.names_join]
  obtain ⟨husable, hopen, entries, hentries⟩ := Files.isDirectory_iff.mp h
  have hstat : f.stat w.path = .ok (f.placeOf w.path, .directory entries) :=
    Files.stat_eq_ok_iff.mpr ⟨⟨husable, hopen, fun _ => ⟨entries, hentries⟩⟩, rfl, hentries⟩
  have hremove := Files.removeAll_of_stat hnames hname.not_here hname.not_up hstat
  have hgone := Files.find?_removeAll hnames hname.not_here hname.not_up (by rw [hremove])
  have haside := Files.agreeOn_remove f (f.placeOf w.path)
  rw [hremove] at hgone
  rw [destroy, remove, hremove]
  refine ⟨rfl, fun inner => Files.what?_eq_none.mpr ?_, haside⟩
  rw [← haside.placeOf_eq]
  exact hgone inner

/-- If a workspace is not made, then **nothing is left of it**. -/
theorem agreeOn_of_create_error {fault : Fault} (hname : FilePath.IsName (nameFor c id))
    (h : create c id f = (after, .error fault)) :
    Files.AgreeOn (fun _ => True) (prepared c f) after := by
  rw [create] at h
  split at h
  next made cause hmake =>
    obtain ⟨rfl, -⟩ := Prod.mk.inj h
    rw [(of_make_error hmake).1]
    exact .refl _ _
  next made owner hmake =>
    split at h
    next => cases (Prod.mk.inj h).2
    next cause hseed =>
      obtain ⟨rfl, -⟩ := Prod.mk.inj h
      obtain ⟨hpath, hmakes⟩ := of_make_ok hmake
      have hmade := agreeOn_of_makes hmakes
      have hdirectory := hmakes.isDirectory_eq_true
      rw [← hpath] at hmakes hmade hdirectory
      obtain ⟨-, hremoves⟩ := removesWorkspace_of_isDirectory hname hpath hdirectory
      obtain ⟨hgone, haside⟩ := hremoves
      rw [hmade.placeOf_eq] at hgone haside
      refine ⟨(hmade.trans haside).here, fun place _ => ?_⟩
      by_cases hbelow : (prepared c f).placeOf owner.path <+: place
      · obtain ⟨inner, rfl⟩ := hbelow
        rw [Files.what?_below (Files.what?_eq_none.mpr hmakes.vacant)]
        exact hgone inner
      · exact (hmade.trans haside).what place hbelow

/-- Making a directory that holds workspaces makes directories **on the way** to it. -/
theorem addsOnTheWay_prepared (c : WorkspaceConfig) (f : Files) :
    Files.AddsOnTheWay (root c) f (prepared c f) :=
  Files.addsOnTheWay_makeDirectories (root c) f

end Workspace

end CapabilityGate
