import CapabilityGate.Proofs.Files.Places

/-!
# Directories that are made and removed

A directory can only be made where nothing is, and then it is there, empty. To make a directory
with those above it changes nothing if it is there already, and otherwise nothing further down. To
remove a directory leaves nothing at its path.

## Main definitions

* `Files.Makes`: what is known when a directory is made.
* `Files.KeepsBelow`: there is nothing new below some depth.
* `Files.descend`: where names lead that never lead above the place where they start.

## Main results

* `Files.makes_of_makeDirectory`, `Files.Makes.stat_eq`: a directory is made where nothing is, and
  is there then.
* `Files.isDirectory_write`: a directory stays one when a file is written.
* `Files.makeDirectories_of_isDirectory`: a directory that is there is not made again.
* `Files.keepsBelow_makeDirectories`: making a directory leaves everything below it as it is.
* `Files.isThere_removeAll`, `Files.find?_removeAll`: what is removed is not there, and nothing
  below it is.
* `Files.find?_of_write_into_empty`: what there is in a directory after the first file is written
  into it.
-/

namespace CapabilityGate.Files

variable {f after : Files} {path : String}

/-! ### Names at the end of a path -/

/-- The place that names lead to is the one that **the last of them** leads to. -/
theorem walk_concat (place front : List String) (name : String) :
    walk place (front ++ [name]) = into (walk place front) name := by
  rw [walk, List.foldl_append]
  rfl

/-- A **name of its own**, which is no dots, leads to a place of its own. -/
theorem into_of_name {name : String} (hdot : name ≠ ".") (hdots : name ≠ "..")
    (place : List String) : into place name = place ++ [name] := by
  rw [into, if_neg (fun h => hdot (beq_iff_eq.mp h)), if_neg (fun h => hdots (beq_iff_eq.mp h))]

/-- A path that ends with a name of its own leads to a place **below** another one. -/
theorem placeOf_of_name {front : List String} {name : String}
    (hnames : FilePath.names path = front ++ [name]) (hdot : name ≠ ".") (hdots : name ≠ "..") :
    f.placeOf path = walk (f.startOf path) front ++ [name] := by
  rw [placeOf, hnames, walk_concat, into_of_name hdot hdots]

/-- A path that can be used has a name, or leads to the **root**. -/
theorem names_ne_nil_or_startOf (h : Usable path) :
    FilePath.names path ≠ [] ∨ f.startOf path = [] := by
  cases hpath : path.toList with
  | nil => exact absurd (String.toList_eq_nil_iff.mp hpath) h.nonempty
  | cons c cs =>
      by_cases hc : c = '/'
      · have habsolute : FilePath.isAbsolute path = true := by
          rw [FilePath.isAbsolute, hpath, hc]
          rfl
        exact Or.inr (if_pos habsolute)
      · exact Or.inl (FilePath.names_ne_nil hc (by rw [hpath]; exact List.mem_cons_self))

/-- An open way **stays open** when something is put into the tree, except for a directory. -/
theorem Open.put {start names place : List String} (h : f.Open start names) (e : Entry)
    (hplace : ¬ f.root.Holds place) : (f.put place e).Open start names := by
  intro front name back hfront
  obtain ⟨hholds, hsize⟩ := h front name back hfront
  exact ⟨hholds.set e hplace, hsize⟩

/-! ### Making one directory -/

/-- What is known when a directory **is made**. -/
structure Makes (f : Files) (path : String) (after : Files) : Prop where
  /-- The path can be used. -/
  usable : Usable path
  /-- The way along its names is open. -/
  clear : f.Open (f.startOf path) (FilePath.names path)
  /-- There is nothing at its end. -/
  vacant : f.root.find? (f.placeOf path) = none
  /-- It ends in a directory. -/
  inside : f.root.Holds (f.placeOf path).dropLast
  /-- The directory is put there. -/
  made : after = f.put (f.placeOf path) (.directory [])

/-- A directory is made at the end of an open way, **where nothing is**. -/
theorem makes_of_makeDirectory (h : f.makeDirectory path = .ok after) : f.Makes path after := by
  rw [makeDirectory] at h
  cases hlocate : f.locate true path with
  | error e => rw [hlocate] at h; exact nomatch h
  | ok place =>
      obtain ⟨husable, rfl, hopen, -⟩ := (locate_eq_ok_iff true).mp hlocate
      rw [hlocate] at h
      simp only [bind, Except.bind, pure, Except.pure] at h
      cases hplace : f.root.find? (f.placeOf path) with
      | some e => rw [hplace] at h; exact nomatch h
      | none =>
          rw [hplace] at h
          cases habove : f.root.find? (f.placeOf path).dropLast with
          | none => rw [habove] at h; exact nomatch h
          | some e =>
              rw [habove] at h
              cases e with
              | directory entries =>
                  exact ⟨husable, hopen, hplace, ⟨entries, habove⟩, (Except.ok.inj h).symm⟩
              | file bytes => exact nomatch h
              | executable what => exact nomatch h

/-- A directory is **not made twice**. -/
theorem makeDirectory_of_isThere (h : f.isThere path = true) :
    f.makeDirectory path = .error .alreadyThere := by
  obtain ⟨hpass, hsome⟩ := isThere_iff.mp h
  obtain ⟨e, he⟩ := Option.isSome_iff_exists.mp hsome
  have hlocate : f.locate true path = .ok (f.placeOf path) :=
    (locate_eq_ok_iff true).mpr ⟨hpass.usable, rfl, hpass.clear, fun h => Bool.noConfusion h⟩
  rw [makeDirectory, hlocate]
  simp only [bind, Except.bind, he]
  rfl

/-- The path of a directory that is made ends with a **name of its own**. -/
theorem Makes.exists_name (h : f.Makes path after) :
    ∃ front name, FilePath.names path = front ++ [name] ∧ name ≠ "." ∧ name ≠ ".." := by
  rcases List.eq_nil_or_concat (FilePath.names path) with hnil | ⟨front, name, hnames⟩
  · -- Without names the path is that of the root, and there is something.
    have hroot : f.startOf path = [] :=
      (names_ne_nil_or_startOf h.usable).resolve_left (fun hne => hne hnil)
    have hvacant := h.vacant
    rw [placeOf, hnil, hroot] at hvacant
    exact nomatch hvacant
  · rw [List.concat_eq_append] at hnames
    have hholds : f.root.Holds (walk (f.startOf path) front) := (h.clear front name [] hnames).1
    have hvacant := h.vacant
    rw [placeOf, hnames, walk_concat] at hvacant
    refine ⟨front, name, hnames, ?_, ?_⟩
    · rintro rfl
      obtain ⟨entries, hentries⟩ := hholds
      rw [show into (walk (f.startOf path) front) "." = walk (f.startOf path) front from rfl,
        hentries] at hvacant
      exact nomatch hvacant
    · rintro rfl
      rw [show into (walk (f.startOf path) front) ".." = (walk (f.startOf path) front).dropLast
        from rfl] at hvacant
      obtain ⟨entries, hentries⟩ := hholds.dropLast
      rw [hentries] at hvacant
      exact nomatch hvacant

/-- A directory that is made is **there**, and empty. -/
theorem Makes.stat_eq (h : f.Makes path after) :
    after.stat path = .ok (f.placeOf path, .directory []) := by
  obtain ⟨front, name, hnames, hdot, hdots⟩ := h.exists_name
  have hplace : f.placeOf path = walk (f.startOf path) front ++ [name] :=
    placeOf_of_name hnames hdot hdots
  have hthere : after.root.find? (f.placeOf path) = some (.directory []) := by
    have hinside := h.inside
    rw [hplace, List.dropLast_concat] at hinside
    rw [h.made, hplace]
    exact Entry.find?_set_some hinside name _
  have hstart : after.startOf path = f.startOf path := by
    rw [h.made]
    rfl
  have hsame : after.placeOf path = f.placeOf path := by rw [placeOf, hstart, placeOf]
  have hopen : after.Open (after.startOf path) (FilePath.names path) := by
    rw [hstart, h.made]
    exact h.clear.put _ (Entry.not_holds_of_none h.vacant)
  refine stat_eq_ok_iff.mpr ⟨⟨h.usable, hopen, fun _ => ⟨[], ?_⟩⟩, hsame.symm, hthere⟩
  rw [hsame, hthere]

/-- A directory that is made **is one**. -/
theorem Makes.isDirectory_eq_true (h : f.Makes path after) : after.isDirectory path = true := by
  rw [isDirectory, h.stat_eq]
  rfl

/-- There was **nothing** at the path of a directory that is made. -/
theorem Makes.isThere_eq_false (h : f.Makes path after) : f.isThere path = false := by
  rw [Bool.eq_false_iff]
  intro hthere
  obtain ⟨-, hsome⟩ := isThere_iff.mp hthere
  rw [h.vacant] at hsome
  exact Bool.noConfusion hsome

/-! ### Writing files -/

/-- A directory **is there**. -/
theorem isThere_of_isDirectory (h : f.isDirectory path = true) : f.isThere path = true := by
  rw [isDirectory] at h
  rw [isThere]
  cases hstat : f.stat path with
  | error e => rw [hstat] at h; exact Bool.noConfusion h
  | ok found => rfl

/-- A directory **stays** one when something is put into the tree in place of no directory. -/
theorem isDirectory_put {place : List String} (e : Entry) (hplace : ¬ f.root.Holds place)
    (h : f.isDirectory path = true) : (f.put place e).isDirectory path = true := by
  obtain ⟨husable, hopen, hholds⟩ := isDirectory_iff.mp h
  exact isDirectory_iff.mpr ⟨husable, hopen.put e hplace, hholds.set e hplace⟩

/-- What is written is put **at the place of its path**, where there is no directory. -/
theorem of_write {target : String} {e : Entry} (h : f.write target e = .ok after) :
    after = f.put (f.placeOf target) e ∧ ¬ f.root.Holds (f.placeOf target) := by
  rw [write] at h
  cases hlocate : f.locate false target with
  | error err => rw [hlocate] at h; exact nomatch h
  | ok place =>
      obtain ⟨-, rfl, -, -⟩ := (locate_eq_ok_iff false).mp hlocate
      rw [hlocate] at h
      simp only [bind, Except.bind, pure, Except.pure] at h
      cases hplace : f.root.find? (f.placeOf target) with
      | none =>
          rw [hplace] at h
          cases habove : f.root.find? (f.placeOf target).dropLast with
          | none => rw [habove] at h; exact nomatch h
          | some above =>
              rw [habove] at h
              cases above with
              | directory entries =>
                  exact ⟨(Except.ok.inj h).symm, Entry.not_holds_of_none hplace⟩
              | file bytes => exact nomatch h
              | executable what => exact nomatch h
      | some old =>
          rw [hplace] at h
          cases old with
          | directory entries => exact nomatch h
          | file bytes =>
              exact ⟨(Except.ok.inj h).symm, by rintro ⟨entries, hentries⟩; simp_all⟩
          | executable what =>
              exact ⟨(Except.ok.inj h).symm, by rintro ⟨entries, hentries⟩; simp_all⟩

/-- What is written is written **at the end of an open way**. -/
theorem open_of_write {target : String} {e : Entry} (h : f.write target e = .ok after) :
    Usable target ∧ f.Open (f.startOf target) (FilePath.names target) := by
  rw [write] at h
  cases hlocate : f.locate false target with
  | error err => rw [hlocate] at h; exact nomatch h
  | ok place =>
      obtain ⟨husable, -, hopen, -⟩ := (locate_eq_ok_iff false).mp hlocate
      exact ⟨husable, hopen⟩

/-- A copy is **the same file** as what is copied. -/
theorem exists_stat_of_copy {source target : String} (h : f.copy source target = .ok after) :
    ∃ place e, f.stat source = .ok (place, e) ∧ e.isDirectory = false ∧
      f.write target e = .ok after := by
  rw [copy] at h
  cases hstat : f.stat source with
  | error err => rw [hstat] at h; exact nomatch h
  | ok found =>
      obtain ⟨place, e⟩ := found
      rw [hstat] at h
      cases e with
      | directory entries => exact nomatch h
      | file bytes => exact ⟨place, _, rfl, rfl, h⟩
      | executable what => exact ⟨place, _, rfl, rfl, h⟩

/-- A copy is a file that is **written**. -/
theorem of_copy {source target : String} (h : f.copy source target = .ok after) :
    ∃ e, e.isDirectory = false ∧ f.write target e = .ok after := by
  obtain ⟨-, e, -, he, hwrite⟩ := exists_stat_of_copy h
  exact ⟨e, he, hwrite⟩

/-- A directory **stays** one when a file is written. -/
theorem isDirectory_write {target : String} {e : Entry} (hwrite : f.write target e = .ok after)
    (h : f.isDirectory path = true) : after.isDirectory path = true := by
  obtain ⟨rfl, hplace⟩ := of_write hwrite
  exact isDirectory_put e hplace h

/-! ### Making directories with those above them -/

/-- A directory that **is there** is not made again. -/
theorem makeDirectories_of_isDirectory (h : f.isDirectory path = true) :
    f.makeDirectories path = (f, .ok ()) := by
  have husable := (isDirectory_iff.mp h).1
  have hmake := makeDirectory_of_isThere (isThere_of_isDirectory h)
  have hensure : f.ensureDirectory path = (f, .ok ()) := by
    rw [ensureDirectory, hmake]
    simp only [h, if_true]
  have hempty : ¬ path.isEmpty = true := fun hempty =>
    husable.nonempty (String.isEmpty_iff.mp hempty)
  rw [makeDirectories, makeDirectoriesFor, if_neg hempty, hmake]
  exact hensure

/-- Without names that are two dots, names lead **further down**. -/
theorem walk_of_no_dots {names : List String} (h : ".." ∉ names) (place : List String) :
    walk place names = place ++ names.filter (· ≠ ".") := by
  induction names generalizing place with
  | nil => rw [List.filter_nil, List.append_nil]; rfl
  | cons name names ih =>
      have hne : name ≠ ".." := fun heq => h (heq ▸ List.mem_cons_self)
      have hrest : ".." ∉ names := fun hmem => h (List.mem_cons_of_mem _ hmem)
      have hwalk : walk place (name :: names) = walk (into place name) names := rfl
      rw [hwalk, ih hrest]
      by_cases hdot : name = "."
      · rw [List.filter_cons_of_neg (by simp [hdot]), hdot]
        rfl
      · rw [into_of_name hdot hne, List.filter_cons_of_pos (by simp [hdot]), List.append_assoc,
          List.singleton_append]

/-- Where names lead from the place that `below` leads to, if they never lead **above** the place
from which it does. -/
def descend (below : List String) : List String → Option (List String)
  | [] => some below
  | name :: names =>
    if name == ".." && below.isEmpty then none else descend (into below name) names

/-- Names that never lead above a place lead **below it**. -/
theorem walk_of_descend {names below inner : List String} (h : descend below names = some inner)
    (place : List String) : walk (place ++ below) names = place ++ inner := by
  induction names generalizing below with
  | nil => rw [← Option.some.inj h]; rfl
  | cons name names ih =>
      rw [descend] at h
      split at h
      next => exact nomatch h
      next hstays =>
        have hinto : into (place ++ below) name = place ++ into below name := by
          rw [into, into]
          by_cases hdot : (name == ".") = true
          · rw [if_pos hdot, if_pos hdot]
          · rw [if_neg hdot, if_neg hdot]
            by_cases hdots : (name == "..") = true
            · have hne : below ≠ [] := by
                rintro rfl
                exact hstays (by rw [hdots]; rfl)
              rw [if_pos hdots, if_pos hdots, List.dropLast_append_of_ne_nil hne]
            · rw [if_neg hdots, if_neg hdots, List.append_assoc]
        have hwalk : walk (place ++ below) (name :: names) =
            walk (into (place ++ below) name) names := rfl
        rw [hwalk, hinto, ih h]

/-- Whatever is deeper in the files `after` than `depth` was there **before**, in the files `f`. -/
structure KeepsBelow (depth : Nat) (f after : Files) : Prop where
  /-- Relative paths start from the same directory. -/
  here : after.here = f.here
  /-- Deeper down there is nothing new. -/
  below : ∀ other : List String, depth < other.length → (after.root.find? other).isSome →
    (f.root.find? other).isSome

theorem KeepsBelow.refl (depth : Nat) (f : Files) : KeepsBelow depth f f :=
  ⟨rfl, fun _ _ h => h⟩

theorem KeepsBelow.trans {depth deeper : Nat} {f g after : Files} (h : KeepsBelow depth f g)
    (hle : depth ≤ deeper) (hnext : KeepsBelow deeper g after) : KeepsBelow deeper f after := by
  refine ⟨hnext.here.trans h.here, ?_⟩
  intro other hdeep hsome
  exact h.below other (Nat.lt_of_le_of_lt hle hdeep) (hnext.below other hdeep hsome)

/-- A directory that is made is the only thing that is new. -/
theorem keepsBelow_ensureDirectory (f : Files) (path : String) :
    KeepsBelow (f.placeOf path).length f (f.ensureDirectory path).1 := by
  rw [ensureDirectory]
  cases hmake : f.makeDirectory path with
  | error e => exact .refl _ f
  | ok after =>
      have hmade := (makes_of_makeDirectory hmake).made
      refine ⟨by rw [hmade]; rfl, ?_⟩
      intro other hdeep hsome
      rw [hmade] at hsome
      rcases Entry.find?_of_set_directory hsome with rfl | hthere
      · exact absurd hdeep (Nat.lt_irrefl _)
      · exact hthere

/-- The directories above a path are made **no deeper** than the path leads. -/
theorem keepsBelow_of_parent {fuel : Nat} {above : String} (hdots : ".." ∉ FilePath.names path)
    (hparent : FilePath.parent? path = some above)
    (ih : ".." ∉ FilePath.names above →
      KeepsBelow (f.placeOf above).length f (makeDirectoriesFor fuel above f).1) :
    KeepsBelow (f.placeOf path).length f (makeDirectoriesFor fuel above f).1 := by
  rcases FilePath.names_of_parent hparent with rfl | ⟨⟨rest, hnames⟩, habsolute⟩
  · have hnothing : (makeDirectoriesFor fuel "" f).1 = f := by cases fuel <;> rfl
    rw [hnothing]
    exact .refl _ f
  · have hfirst : ".." ∉ FilePath.names above := by
      intro hmem
      rw [hnames] at hdots
      exact hdots (List.mem_append_left _ hmem)
    have hstart : f.startOf above = f.startOf path := by rw [startOf, startOf, habsolute]
    have hle : (f.placeOf above).length ≤ (f.placeOf path).length := by
      rw [placeOf, placeOf, walk_of_no_dots hfirst, walk_of_no_dots hdots, hstart, hnames,
        List.filter_append, ← List.append_assoc]
      exact (List.prefix_append _ _).length_le
    have hkeeps := ih hfirst
    exact ⟨hkeeps.here, fun other hdeep => hkeeps.below other (Nat.lt_of_le_of_lt hle hdeep)⟩

/-- Making directories leaves everything **below the last of them** as it is, if no name in the
path is two dots. -/
theorem keepsBelow_makeDirectories {fuel : Nat} (f : Files) (hdots : ".." ∉ FilePath.names path) :
    KeepsBelow (f.placeOf path).length f (makeDirectoriesFor fuel path f).1 := by
  induction fuel generalizing path f with
  | zero => exact .refl _ f
  | succ fuel ih =>
      rw [makeDirectoriesFor]
      by_cases hempty : path.isEmpty = true
      · rw [if_pos hempty]
        exact .refl _ f
      · rw [if_neg hempty]
        split
        next above hmake hparent =>
          have habove := keepsBelow_of_parent hdots hparent (ih f)
          have hplace : (makeDirectoriesFor fuel above f).1.placeOf path = f.placeOf path := by
            rw [placeOf, placeOf, startOf, startOf, habove.here]
          split
          next g hg =>
            rw [hg] at habove hplace
            have hensure := keepsBelow_ensureDirectory g path
            rw [hplace] at hensure
            exact habove.trans (Nat.le_refl _) hensure
          next g e hg =>
            rw [hg] at habove
            exact habove
        next => exact keepsBelow_ensureDirectory f path

/-! ### Removing directories -/

/-- A directory with a name of its own is **taken out** of the tree to remove it. -/
theorem removeAll_of_stat {place front : List String} {name : String}
    {entries : List (String × Entry)} (hnames : FilePath.names path = front ++ [name])
    (hdot : name ≠ ".") (hdots : name ≠ "..")
    (hstat : f.stat path = .ok (place, .directory entries)) :
    f.removeAll path = ({ f with root := f.root.set none place }, .ok ()) := by
  have hlast : (FilePath.names path).getLast? = some name := by
    rw [hnames, List.getLast?_concat]
  rw [removeAll, hstat]
  simp only [hlast]
  split
  next heq => exact absurd (Option.some.inj heq) hdot
  next heq => exact absurd (Option.some.inj heq) hdots
  next => rfl

/-- When a directory with a name of its own is removed, **nothing is left** of it or below it. -/
theorem find?_removeAll {front : List String} {name : String}
    (hnames : FilePath.names path = front ++ [name]) (hdot : name ≠ ".") (hdots : name ≠ "..")
    (h : (f.removeAll path).2 = .ok ()) (inner : List String) :
    (f.removeAll path).1.root.find? ((f.removeAll path).1.placeOf path ++ inner) = none := by
  cases hstat : f.stat path with
  | error e => rw [removeAll, hstat] at h; exact nomatch h
  | ok found =>
      obtain ⟨place, e⟩ := found
      cases e with
      | file bytes => rw [removeAll, hstat] at h; exact nomatch h
      | executable what => rw [removeAll, hstat] at h; exact nomatch h
      | directory entries =>
          have hplace : place = f.placeOf path := (stat_eq_ok_iff.mp hstat).2.1
          rw [removeAll_of_stat hnames hdot hdots hstat]
          have hsame : ({ f with root := f.root.set none place } : Files).placeOf path = place :=
            hplace.symm
          have hnone : (f.root.set none place).find? place = none :=
            Entry.find?_set_none f.root (by rw [hplace, placeOf_of_name hnames hdot hdots]; simp)
          rw [hsame, Entry.find?_append, hnone, Option.bind_none]

/-- What is **removed** under a name of its own is not there. -/
theorem isThere_removeAll {front : List String} {name : String}
    (hnames : FilePath.names path = front ++ [name]) (hdot : name ≠ ".") (hdots : name ≠ "..")
    (hremoved : ∀ e, (f.removeAll path).2 = .error e → e = .notFound) :
    (f.removeAll path).1.isThere path = false := by
  cases hstat : f.stat path with
  | error e =>
      have hsame : f.removeAll path = (f, .error e) := by rw [removeAll, hstat]
      rw [hsame, isThere, hstat]
  | ok found =>
      obtain ⟨place, e⟩ := found
      cases e with
      | file bytes =>
          have hkept : f.removeAll path = (f, .error .notDirectory) := by rw [removeAll, hstat]
          exact absurd (hremoved .notDirectory (by rw [hkept])) (by simp)
      | executable what =>
          have hkept : f.removeAll path = (f, .error .notDirectory) := by rw [removeAll, hstat]
          exact absurd (hremoved .notDirectory (by rw [hkept])) (by simp)
      | directory entries =>
          have hok : (f.removeAll path).2 = .ok () := by
            rw [removeAll_of_stat hnames hdot hdots hstat]
          have hnone := find?_removeAll hnames hdot hdots hok []
          rw [Bool.eq_false_iff]
          intro hthere
          obtain ⟨-, hsome⟩ := isThere_iff.mp hthere
          rw [List.append_nil] at hnone
          rw [hnone] at hsome
          exact Bool.noConfusion hsome

/-- A directory with a name of its own **can be removed**. -/
theorem removeAll_eq_ok {front : List String} {name : String}
    (hnames : FilePath.names path = front ++ [name]) (hdot : name ≠ ".") (hdots : name ≠ "..")
    (h : f.isDirectory path = true) : (f.removeAll path).2 = .ok () := by
  obtain ⟨husable, hopen, entries, hentries⟩ := isDirectory_iff.mp h
  have hstat : f.stat path = .ok (f.placeOf path, .directory entries) :=
    stat_eq_ok_iff.mpr ⟨⟨husable, hopen, fun _ => ⟨entries, hentries⟩⟩, rfl, hentries⟩
  rw [removeAll_of_stat hnames hdot hdots hstat]

/-! ### Paths below directories -/

variable {base name : String}

/-- What can be used as a path can be so **above**. -/
theorem Usable.of_join (h : Usable (FilePath.join base name)) (hbase : base ≠ "")
    (hname : FilePath.isAbsolute name = false) : Usable base := by
  obtain ⟨rest, hjoin⟩ := FilePath.exists_join base hname
  rw [hjoin] at h
  refine ⟨?_, hbase, ?_⟩
  · intro hmem
    refine h.plain ?_
    rw [String.toList_append]
    exact List.mem_append_left _ hmem
  · have hshort := h.short
    rw [String.utf8ByteSize_append] at hshort
    exact Nat.le_trans (Nat.le_add_right _ _) hshort

/-- A path that goes on with a name without slashes **ends with none**. -/
theorem endsWithSlash_join (hname : FilePath.isAbsolute name = false) (hne : name ≠ "")
    (hslash : '/' ∉ name.toList) : endsWithSlash (FilePath.join base name) = false := by
  have hends : ∀ front : String, endsWithSlash (front ++ name) = false := by
    intro front
    rcases List.eq_nil_or_concat name.toList with hnil | ⟨init, c, hlast⟩
    · exact absurd (String.toList_eq_nil_iff.mp hnil) hne
    · rw [List.concat_eq_append] at hlast
      rw [endsWithSlash, beq_eq_false_iff_ne, String.toList_append, hlast, ← List.append_assoc,
        List.getLast?_concat]
      intro hc
      rw [hlast, Option.some.inj hc] at hslash
      exact hslash (List.mem_append_right _ (List.mem_singleton_self _))
  rcases FilePath.join_cases base hname with ⟨-, hjoin⟩ | ⟨-, -, hjoin⟩ | ⟨-, hjoin⟩
  · rw [hjoin, ← String.empty_append (s := name)]
    exact hends ""
  · rw [hjoin]
    exact hends base
  · rw [hjoin]
    exact hends (base ++ "/")

/-- A name without slashes is **taken from a directory**. -/
theorem isAbsolute_of_no_slash (hslash : '/' ∉ name.toList) :
    FilePath.isAbsolute name = false := by
  rw [FilePath.isAbsolute, beq_eq_false_iff_ne]
  exact fun hhead => hslash (List.mem_of_head? hhead)

/-- A path below another one leads on from **where that one leads**. -/
theorem placeOf_join (hname : FilePath.isAbsolute name = false) :
    f.placeOf (FilePath.join base name) = walk (f.placeOf base) (FilePath.names name) := by
  rw [placeOf, placeOf, startOf, startOf, FilePath.isAbsolute_join hname,
    FilePath.names_join hname, walk, walk, walk, List.foldl_append]

/-- A name without slashes leads **one place down**. -/
theorem placeOf_join_name (hslash : '/' ∉ name.toList) (hne : name ≠ "") (hdot : name ≠ ".")
    (hdots : name ≠ "..") : f.placeOf (FilePath.join base name) = f.placeOf base ++ [name] := by
  rw [placeOf_join (isAbsolute_of_no_slash hslash), FilePath.names_of_no_slash hslash
    fun hnil => hne (String.toList_eq_nil_iff.mp hnil)]
  exact into_of_name hdot hdots _

/-- The first file that is written into an empty directory is **all there is** in it. -/
theorem find?_of_write_into_empty {place : List String} {e : Entry}
    (hslash : '/' ∉ name.toList) (hne : name ≠ "") (hdot : name ≠ ".") (hdots : name ≠ "..")
    (hbase : f.stat base = .ok (place, .directory []))
    (hwrite : f.write (FilePath.join base name) e = .ok after) :
    after.root.find? (after.placeOf base) = some (.directory [(name, e)]) := by
  obtain ⟨rfl, -⟩ := of_write hwrite
  obtain ⟨-, rfl, hfound⟩ := stat_eq_ok_iff.mp hbase
  rw [placeOf_join_name hslash hne hdot hdots]
  exact Entry.find?_set_above hfound name e

/-- A file that is written under a name in a directory **is there**. -/
theorem isThere_of_write_join {e : Entry} (hslash : '/' ∉ name.toList) (hne : name ≠ "")
    (hdot : name ≠ ".") (hdots : name ≠ "..") (hbase : f.root.Holds (f.placeOf base))
    (hwrite : f.write (FilePath.join base name) e = .ok after) :
    after.isThere (FilePath.join base name) = true := by
  have hname : FilePath.isAbsolute name = false := isAbsolute_of_no_slash hslash
  obtain ⟨husable, hopen⟩ := open_of_write hwrite
  obtain ⟨rfl, hplace⟩ := of_write hwrite
  have hends : f.placeOf (FilePath.join base name) = f.placeOf base ++ [name] :=
    placeOf_join_name hslash hne hdot hdots
  refine isThere_iff.mpr ⟨⟨husable, hopen.put e hplace, ?_⟩, ?_⟩
  · intro hslashed
    rw [endsWithSlash_join hname hne hslash] at hslashed
    exact Bool.noConfusion hslashed
  · rw [show (f.put (f.placeOf (FilePath.join base name)) e).placeOf (FilePath.join base name) =
      f.placeOf (FilePath.join base name) from rfl, hends]
    exact Option.isSome_iff_exists.mpr ⟨e, Entry.find?_set_some hbase name e⟩

/-- There is a directory **above** whatever is there. -/
theorem isDirectory_of_isThere_join (hbase : base ≠ "")
    (hname : FilePath.isAbsolute name = false) (hnames : FilePath.names name ≠ [])
    (h : f.isThere (FilePath.join base name) = true) : f.isDirectory base = true := by
  obtain ⟨hpass, -⟩ := isThere_iff.mp h
  have hstart : f.startOf (FilePath.join base name) = f.startOf base := by
    rw [startOf, startOf, FilePath.isAbsolute_join hname]
  have hclear := hpass.clear
  rw [FilePath.names_join hname, open_append, hstart] at hclear
  obtain ⟨hopen, hbehind⟩ := hclear
  obtain ⟨first, more, hfirst⟩ := List.exists_cons_of_ne_nil hnames
  rw [hfirst, open_cons] at hbehind
  exact isDirectory_iff.mpr ⟨hpass.usable.of_join hbase hname, hopen, hbehind.1⟩

/-- The way to whatever is there is **open**, if no name is two dots and the last one no dot. -/
theorem open_of_find? {start names : List String} {last : String} (hdots : ".." ∉ names)
    (hsize : ∀ n ∈ names, n.utf8ByteSize ≤ maxName) (hlast : names.getLast? = some last)
    (hdot : last ≠ ".") (h : (f.root.find? (walk start names)).isSome) : f.Open start names := by
  rintro front n back rfl
  refine ⟨?_, hsize n (by simp)⟩
  have hfront : ".." ∉ front := fun hmem => hdots (List.mem_append_left _ hmem)
  have hmem : last ∈ n :: back := by
    rw [List.getLast?_append, List.getLast?_cons, Option.some_or, ← List.getLast?_cons] at hlast
    exact List.mem_of_getLast? hlast
  rw [walk_of_no_dots hdots, List.filter_append, ← List.append_assoc,
    ← walk_of_no_dots hfront] at h
  refine Entry.holds_of_find? (List.ne_nil_of_mem (a := last) ?_) h
  exact List.mem_filter.mpr ⟨hmem, by simp [hdot]⟩

/-- Making the directory `base` makes **nothing at a path below** it, if no name in `base` is two
dots and the path goes on with a name of its own. -/
theorem isThere_of_makeDirectories (hdots : ".." ∉ FilePath.names base)
    (hnames : FilePath.names name = [name]) (hdot : name ≠ ".") (hup : name ≠ "..")
    (hslash : '/' ∉ name.toList) (hne : name ≠ "")
    (h : (f.makeDirectories base).1.isThere (FilePath.join base name) = true) :
    f.isThere (FilePath.join base name) = true := by
  obtain ⟨hpass, hsome⟩ := isThere_iff.mp h
  have hname : FilePath.isAbsolute name = false := isAbsolute_of_no_slash hslash
  have hkeeps : KeepsBelow (f.placeOf base).length f (f.makeDirectories base).1 :=
    keepsBelow_makeDirectories f hdots
  have hsame : (f.makeDirectories base).1.startOf (FilePath.join base name) = f.startOf base := by
    rw [startOf, startOf, hkeeps.here, FilePath.isAbsolute_join hname]
  have hstart : f.startOf (FilePath.join base name) = f.startOf base := by
    rw [startOf, startOf, FilePath.isAbsolute_join hname]
  have hall : FilePath.names (FilePath.join base name) = FilePath.names base ++ [name] := by
    rw [FilePath.names_join hname, hnames]
  have hplace : walk (f.startOf base) (FilePath.names base ++ [name]) =
      f.placeOf base ++ [name] := by
    rw [walk_concat, into_of_name hdot hup, placeOf]
  have hthere : (f.root.find? (walk (f.startOf base) (FilePath.names base ++ [name]))).isSome := by
    rw [placeOf, hsame, hall, hplace] at hsome
    rw [hplace]
    refine hkeeps.below _ ?_ hsome
    rw [List.length_append]
    exact Nat.lt_succ_self _
  have hopen : f.Open (f.startOf base) (FilePath.names base ++ [name]) := by
    refine open_of_find? ?_ ?_ List.getLast?_concat hdot hthere
    · intro hmem
      rcases List.mem_append.mp hmem with hbase | hlast
      · exact hdots hbase
      · exact hup (List.mem_singleton.mp hlast).symm
    · intro n hn
      obtain ⟨front, back, hparts⟩ := List.append_of_mem hn
      exact (hpass.clear front n back (hall.trans hparts)).2
  refine isThere_iff.mpr ⟨⟨hpass.usable, ?_, ?_⟩, ?_⟩
  · rwa [hstart, hall]
  · intro hends
    exact absurd hends (by rw [endsWithSlash_join hname hne hslash]; exact Bool.false_ne_true)
  · rwa [placeOf, hstart, hall]

end CapabilityGate.Files
