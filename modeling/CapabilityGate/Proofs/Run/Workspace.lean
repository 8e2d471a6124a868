import CapabilityGate.Proofs.Files.Directories
import CapabilityGate.Proofs.Report.Identifier
import CapabilityGate.Run.Workspace

/-!
# Making and removing workspaces

A workspace is made at its path, if there is nothing once there is a directory that holds
workspaces. Otherwise nothing is made at all, and a workspace that gets no support file is removed
again. What is removed is gone.

## Main definitions

* `Workspace.prepared`: the files once there is a directory that holds workspaces.
* `Workspace.nameFor`: the name of the directory of a workspace.

## Main results

* `Workspace.of_create_ok`: what is known when a workspace is made.
* `Workspace.of_create_error`, `Workspace.create_of_isThere`: what is left when it is not.
* `Workspace.isThere_destroy`: a workspace that is destroyed is gone.
* `Workspace.prepared_of_isThere`, `Workspace.isThere_of_prepared`: making a directory that holds
  workspaces makes no workspace, and nothing at all if there is one.
* `Workspace.components_pathFor_ne`: runs with different identifiers have workspaces at different
  paths.
-/

namespace CapabilityGate

/-- Results can be compared if errors and values can be. -/
instance decidableEqResult {ε α : Type} [DecidableEq ε] [DecidableEq α] :
    DecidableEq (Except ε α)
  | .ok a, .ok b => decidable_of_iff (a = b) ⟨congrArg Except.ok, Except.ok.inj⟩
  | .error e, .error f => decidable_of_iff (e = f) ⟨congrArg Except.error, Except.error.inj⟩
  | .ok _, .error _ => isFalse (by simp)
  | .error _, .ok _ => isFalse (by simp)

/-- Only something that succeeds does so with **another error**. -/
theorem eq_ok_of_mapError {ε ε' α : Type} {wrap : ε → ε'} {x : Except ε α} {a : α}
    (h : x.mapError wrap = .ok a) : x = .ok a := by
  cases x with
  | error e => exact nomatch h
  | ok b => exact congrArg Except.ok (Except.ok.inj h)

/-! ### Making a workspace -/

namespace Workspace

variable {c : WorkspaceConfig} {id : RunId} {f files : Files} {w : Workspace} {e : Fault}

/-- The files once there is a directory that **holds workspaces**, as far as it can be made. -/
def prepared (c : WorkspaceConfig) (f : Files) : Files :=
  (f.makeDirectories (root c)).1

/-- The directory of a workspace is made where **nothing is**. -/
theorem of_make_ok (h : make c id f = (files, .ok w)) :
    w.path = pathFor c id ∧ (prepared c f).Makes (pathFor c id) files := by
  rw [make] at h
  split at h
  next => exact nomatch (Prod.mk.inj h).2
  next g hroot =>
    split at h
    next => exact nomatch (Prod.mk.inj h).2
    next after hmake =>
      obtain ⟨rfl, hw⟩ := Prod.mk.inj h
      have hprepared : prepared c f = g := by rw [prepared, hroot]
      rw [← Except.ok.inj hw, hprepared]
      exact ⟨rfl, Files.makes_of_makeDirectory hmake⟩

/-- If the directory of a workspace is not made, **nothing else** happens. -/
theorem of_make_error (h : make c id f = (files, .error e)) :
    files = prepared c f ∧ e.kind = .workspace := by
  rw [make] at h
  split at h
  next g cause hroot =>
    obtain ⟨rfl, he⟩ := Prod.mk.inj h
    rw [← Except.error.inj he, prepared, hroot]
    exact ⟨rfl, rfl⟩
  next g hroot =>
    split at h
    next cause hmake =>
      obtain ⟨rfl, he⟩ := Prod.mk.inj h
      rw [← Except.error.inj he, prepared, hroot]
      exact ⟨rfl, rfl⟩
    next => exact nomatch (Prod.mk.inj h).2

/-- What a removed workspace **leaves**. -/
theorem remove_files (f : Files) (path : String) : (remove f path).1 = (f.removeAll path).1 := by
  rw [remove]
  split
  next h => rw [h]
  next h => rw [h]
  next h => rw [h]

/-- Removing a workspace fails **because it is not removed**. -/
theorem fault_of_destroy (h : (w.destroy f).2 = .error e) :
    ∃ path cause, e = .removal path cause := by
  rw [destroy, remove] at h
  split at h
  next => exact absurd h (by simp)
  next => exact absurd h (by simp)
  next after cause hne hremove => exact ⟨w.path, cause, (Except.error.inj h).symm⟩

/-- A workspace that is destroyed without a fault **was removed, or was not there**. -/
theorem removeAll_of_destroy (h : (w.destroy f).2 = .ok ()) (cause : OsError)
    (hcause : (f.removeAll w.path).2 = .error cause) : cause = .notFound := by
  rw [destroy, remove] at h
  split at h
  next hremove => rw [hremove] at hcause; exact nomatch hcause
  next hremove => rw [hremove] at hcause; exact (Except.error.inj hcause).symm
  next => exact nomatch h

/-- A workspace that is destroyed is **gone**, if removing it fails only when it is so already. -/
theorem isThere_destroy {g after : Files} (hpath : w.path = pathFor c id)
    (hmakes : f.Makes (pathFor c id) after)
    (hremoved : ∀ e, (g.removeAll w.path).2 = .error e → e = .notFound) :
    (w.destroy g).1.isThere (pathFor c id) = false := by
  obtain ⟨front, name, hnames, hdot, hdots⟩ := hmakes.exists_name
  rw [hpath] at hremoved
  rw [destroy, remove_files, hpath]
  exact Files.isThere_removeAll hnames hdot hdots hremoved

/-- A directory at the path of a workspace **can be removed**. -/
theorem removeAll_eq_ok {g after : Files} (hmakes : f.Makes (pathFor c id) after)
    (h : g.isDirectory (pathFor c id) = true) : (g.removeAll (pathFor c id)).2 = .ok () := by
  obtain ⟨front, name, hnames, hdot, hdots⟩ := hmakes.exists_name
  exact Files.removeAll_eq_ok hnames hdot hdots h

/-- A workspace that is abandoned as soon as it is made is **gone**. -/
theorem isThere_abandon (hpath : w.path = pathFor c id)
    (hmakes : f.Makes (pathFor c id) files) :
    (w.abandon files).isThere (pathFor c id) = false := by
  refine isThere_destroy hpath hmakes ?_
  intro e he
  rw [hpath, removeAll_eq_ok hmakes hmakes.isDirectory_eq_true] at he
  exact nomatch he

/-- The support file is a file that is **written** into the workspace. -/
theorem of_seed (h : w.seed c f = .ok files) :
    ∃ e, e.isDirectory = false ∧ f.write (w.join supportName) e = .ok files := by
  rw [seed] at h
  split at h
  next => exact Files.of_copy (eq_ok_of_mapError h)
  next => exact ⟨_, rfl, eq_ok_of_mapError h⟩

/-- A workspace that is made is a directory at its path, made where nothing is, with **a support
file** in it. -/
theorem exists_make_of_create_ok (h : create c id f = (files, .ok w)) :
    ∃ after e, w.path = pathFor c id ∧ (prepared c f).Makes (pathFor c id) after ∧
      e.isDirectory = false ∧ after.write (w.join supportName) e = .ok files := by
  rw [create] at h
  split at h
  next => exact nomatch (Prod.mk.inj h).2
  next g made hmake =>
    split at h
    next seeded hseed =>
      obtain ⟨rfl, hw⟩ := Prod.mk.inj h
      obtain rfl := Except.ok.inj hw
      obtain ⟨hpath, hmakes⟩ := of_make_ok hmake
      obtain ⟨e, he, hwrite⟩ := of_seed hseed
      exact ⟨g, e, hpath, hmakes, he, hwrite⟩
    next => exact nomatch (Prod.mk.inj h).2

/-- A workspace is made at **its path**, where nothing is, and there is its directory then. -/
theorem of_create_ok (h : create c id f = (files, .ok w)) :
    w.path = pathFor c id ∧ files.isDirectory (pathFor c id) = true ∧
      ∃ after, (prepared c f).Makes (pathFor c id) after := by
  obtain ⟨after, e, hpath, hmakes, -, hwrite⟩ := exists_make_of_create_ok h
  exact ⟨hpath, Files.isDirectory_write hwrite hmakes.isDirectory_eq_true, after, hmakes⟩

/-- In a workspace that is made there is the **support file, and nothing else**. -/
theorem find?_of_create_ok (h : create c id f = (files, .ok w)) :
    files.isThere (w.join supportName) = true ∧ ∃ e, e.isDirectory = false ∧
      files.root.find? (files.placeOf w.path) = some (.directory [(supportName, e)]) := by
  obtain ⟨after, e, hpath, hmakes, he, hwrite⟩ := exists_make_of_create_ok h
  have hstat := hmakes.stat_eq
  rw [← hpath] at hstat
  obtain ⟨-, hplace, hfound⟩ := Files.stat_eq_ok_iff.mp hstat
  rw [hplace] at hfound
  refine ⟨?_, e, he, ?_⟩
  · exact Files.isThere_of_write_join (by decide) (by decide) (by decide) (by decide)
      ⟨[], hfound⟩ hwrite
  · exact Files.find?_of_write_into_empty (by decide) (by decide) (by decide) (by decide) hstat
      hwrite

/-- If a workspace is not made, there is **nothing new** at its path. -/
theorem of_create_error (h : create c id f = (files, .error e))
    (hvacant : (prepared c f).isThere (pathFor c id) = false) :
    files.isThere (pathFor c id) = false := by
  rw [create] at h
  split at h
  next g cause hmake =>
    obtain ⟨rfl, -⟩ := Prod.mk.inj h
    rw [(of_make_error hmake).1]
    exact hvacant
  next g made hmake =>
    split at h
    next => exact nomatch (Prod.mk.inj h).2
    next cause hseed =>
      obtain ⟨rfl, -⟩ := Prod.mk.inj h
      obtain ⟨hpath, hmakes⟩ := of_make_ok hmake
      exact isThere_abandon hpath hmakes

/-- If there is something at its path, a workspace is **not made**, and nothing else happens. -/
theorem create_of_isThere (hthere : (prepared c f).isThere (pathFor c id) = true) :
    ∃ e, create c id f = (prepared c f, .error e) ∧ e.kind = .workspace := by
  rw [create]
  cases hmake : make c id f with
  | mk g made =>
      cases made with
      | ok w =>
          have hvacant := (of_make_ok hmake).2.isThere_eq_false
          exact Bool.noConfusion (hvacant.symm.trans hthere)
      | error e =>
          obtain ⟨rfl, hkind⟩ := of_make_error hmake
          exact ⟨e, rfl, hkind⟩

/-! ### The path of a workspace -/

/-- The name of the directory of a workspace. -/
def nameFor (c : WorkspaceConfig) (id : RunId) : String :=
  c.namePrefix ++ id.text

/-- There is a **hyphen** in the name of the directory of a workspace. -/
theorem hyphen_mem_nameFor (c : WorkspaceConfig) (id : RunId) : '-' ∈ (nameFor c id).toList := by
  rw [nameFor, String.toList_append]
  exact List.mem_append_right _ id.hyphen_mem_text

/-- A directory that holds workspaces is **not made again**. -/
theorem prepared_of_isDirectory (h : f.isDirectory (root c) = true ∨ root c = "") :
    prepared c f = f := by
  rw [prepared]
  rcases h with hdirectory | hempty
  · rw [Files.makeDirectories_of_isDirectory hdirectory]
  · rw [hempty]
    rfl

/-- If there is something at the path of a workspace, there is a directory that **holds
workspaces** already. -/
theorem prepared_of_isThere (hname : FilePath.isAbsolute (nameFor c id) = false)
    (h : f.isThere (pathFor c id) = true) : prepared c f = f := by
  refine prepared_of_isDirectory ?_
  by_cases hroot : root c = ""
  · exact Or.inr hroot
  · have hnames : FilePath.names (nameFor c id) ≠ [] :=
      FilePath.names_ne_nil (by decide) (hyphen_mem_nameFor c id)
    exact Or.inl (Files.isDirectory_of_isThere_join hroot hname hnames h)

/-- To make a directory that holds workspaces does **not make a workspace**, if no name in its path
is two dots and that of the workspace is one name. -/
theorem isThere_of_prepared (hslash : '/' ∉ (nameFor c id).toList)
    (hdots : ".." ∉ FilePath.names (root c))
    (h : (prepared c f).isThere (pathFor c id) = true) : f.isThere (pathFor c id) = true := by
  have hhyphen := hyphen_mem_nameFor c id
  have hne : (nameFor c id).toList ≠ [] := List.ne_nil_of_mem hhyphen
  have hdot : nameFor c id ≠ "." := by
    intro heq
    rw [heq] at hhyphen
    exact absurd hhyphen (by decide)
  have hup : nameFor c id ≠ ".." := by
    intro heq
    rw [heq] at hhyphen
    exact absurd hhyphen (by decide)
  have hempty : nameFor c id ≠ "" := fun hempty => hne (String.toList_eq_nil_iff.mpr hempty)
  exact Files.isThere_of_makeDirectories hdots (FilePath.names_of_no_slash hslash hne) hdot hup
    hslash hempty h

/-- The path of a workspace **ends with the identifier** of its run. -/
theorem exists_pathFor (c : WorkspaceConfig) (id : RunId) :
    ∃ front, (pathFor c id).toList = front ++ id.text.toList := by
  rw [pathFor, FilePath.join]
  split
  · exact ⟨c.namePrefix.toList, String.toList_append⟩
  · split
    · exact ⟨(root c).toList ++ c.namePrefix.toList, by simp⟩
    · exact ⟨(root c).toList ++ '/' :: c.namePrefix.toList, by simp⟩

/-- Runs with different identifiers have workspaces **at different paths**, whatever settings they
have. -/
theorem components_pathFor_ne {c d : WorkspaceConfig} {id other : RunId} (hid : id.Proper)
    (hother : other.Proper) (hne : id ≠ other) :
    FilePath.components (pathFor c id) ≠ FilePath.components (pathFor d other) := by
  have hending : ∀ (c : WorkspaceConfig) {id : RunId}, id.Proper →
      ∃ before piece, FilePath.components (pathFor c id) =
        before ++ [.name (String.ofList (piece ++ id.text.toList))] := by
    intro c id hid
    obtain ⟨front, hfront⟩ := exists_pathFor c id
    exact FilePath.components_ending hfront hid.no_slash ⟨'-', id.hyphen_mem_text, by decide⟩
  obtain ⟨before, piece, hpath⟩ := hending c hid
  obtain ⟨before', piece', hpath'⟩ := hending d hother
  intro heq
  rw [hpath, hpath'] at heq
  have hlast := (List.append_inj' heq rfl).2
  simp only [List.cons.injEq, FilePath.Component.name.injEq, and_true, String.ofList_inj] at hlast
  have htexts := (List.append_inj' hlast (hid.length_text.trans hother.length_text.symm)).2
  exact hne (hid.text_inj hother (String.toList_inj.mp htexts))

end Workspace

end CapabilityGate
