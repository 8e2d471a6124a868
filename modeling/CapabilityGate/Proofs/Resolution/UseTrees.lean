import CapabilityGate.Proofs.Resolution.Scopes

/-!
# What a `use` item adds to a module

A `use` item is a tree, gone through from left to right with the names on the way from its root at
hand: a name is put on them where the tree goes below it, and taken off behind that. At a leaf the
scope of the module gets an import under a name, or a glob. Here the leaves are listed apart from
that walk, each with the names on the way to it, and so is what each of them stands for.

## Main definitions

* `Program.UseTree.leaves`: the leaves of a tree, each with the names on the way to it.
* `Program.UseLeaf.entry?`, `Program.UseLeaf.glob?`: the import or the glob that a leaf stands for.
* `Collecting`, `Program.UseTree.collect`: the walk, with the names on the way as a part of its
  state.
* `Names.Gains`: what a scope is with more imports and globs.

## Main results

* `Program.UseTree.collect_eq`: the walk leaves the names on the way as they were, and adds the
  imports of the tree.
* `Names.Gains.addAll`: imports that are added one after another.
* `Names.use_tree_is_flattened`: what a `use` item adds to a module.
-/

namespace CapabilityGate

namespace Program

/-! ### The leaves of a tree -/

/-- A leaf of a `use` tree. -/
inductive UseLeaf where
  /-- One name. -/
  | name (name : String)
  /-- One name under another. -/
  | rename (name alias_ : String)
  /-- Everything. -/
  | glob
  deriving Repr, DecidableEq

mutual

/-- The **leaves** of a tree from left to right, each with the names on the way to it. -/
def UseTree.leaves : UseTree → List (List String × UseLeaf)
  | .name ident => [([], .name ident.text)]
  | .rename ident alias_ => [([], .rename ident.text alias_.text)]
  | .glob => [([], .glob)]
  | .under ident tree => tree.leaves.map fun (way, leaf) => (ident.text :: way, leaf)
  | .group trees => leavesOfTrees trees

/-- The leaves of several trees. -/
def leavesOfTrees : List UseTree → List (List String × UseLeaf)
  | [] => []
  | tree :: rest => tree.leaves ++ leavesOfTrees rest

end

namespace UseLeaf

/-- The names of what a leaf refers to: those on the way and its own, unless it is `self`. -/
def target (way : List String) : UseLeaf → List String
  | name x => if x = "self" then way else way ++ [x]
  | rename x _ => if x = "self" then way else way ++ [x]
  | glob => way

/-- The name that a leaf is imported under: its new one, or its own, or the last one on the way if
that is `self`. -/
def name? (way : List String) : UseLeaf → Option String
  | name x => if x = "self" then way.getLast? else some x
  | rename _ alias_ => some alias_
  | glob => none

/-- The **import** that a leaf stands for: its name and its target. There is none under `_`, and
none without a target. -/
def entry? (way : List String) (leaf : UseLeaf) : Option (String × List String) :=
  match leaf.name? way with
  | some x => if x = "_" ∨ leaf.target way = [] then none else some (x, leaf.target way)
  | none => none

/-- The target of the **glob** that a leaf stands for. -/
def glob? (way : List String) : UseLeaf → Option (List String)
  | glob => some way
  | _ => none

end UseLeaf

namespace UseTree

/-- The imports that a tree below some names stands for, from left to right. -/
def entries (above : List String) (tree : UseTree) : List (String × List String) :=
  tree.leaves.filterMap fun (way, leaf) => leaf.entry? (above ++ way)

/-- The globs that a tree below some names stands for, from left to right. -/
def globs (above : List String) (tree : UseTree) : List (List String) :=
  tree.leaves.filterMap fun (way, leaf) => leaf.glob? (above ++ way)

end UseTree

end Program

open Program

/-! ### The walk -/

/-- How far the walk through a `use` tree has come. -/
structure Collecting where
  /-- The names on the way to where it is. -/
  way : List String
  /-- The names of the program so far. -/
  names : Names

namespace Collecting

/-- Goes below a name. -/
def push (name : String) (c : Collecting) : Collecting :=
  { c with way := c.way ++ [name] }

/-- Comes back from below a name. -/
def pop (c : Collecting) : Collecting :=
  { c with way := c.way.dropLast }

/-- Adds what a leaf imports into a module. -/
def leaf (module : List String) (leaf : UseLeaf) (c : Collecting) : Collecting :=
  match leaf with
  | .name x =>
    if x = "self" then
      match c.way.getLast? with
      | some last => { c with names := c.names.addImport module last c.way }
      | none => c
    else { c with names := c.names.addImport module x (c.way ++ [x]) }
  | .rename x alias_ =>
    let full := if x = "self" then c.way else c.way ++ [x]
    { c with names := c.names.addImport module alias_ full }
  | .glob => { c with names := c.names.update module (.addGlob (.ofNames c.way)) }

end Collecting

mutual

/-- The **walk** through a tree, which adds what it imports into a module. -/
def Program.UseTree.collect (module : List String) : UseTree → Collecting → Collecting
  | .name ident, c => c.leaf module (.name ident.text)
  | .rename ident alias_, c => c.leaf module (.rename ident.text alias_.text)
  | .glob, c => c.leaf module .glob
  | .under ident tree, c => (tree.collect module (c.push ident.text)).pop
  | .group trees, c => collectTrees module trees c

/-- The walk through several trees. -/
def Program.collectTrees (module : List String) : List UseTree → Collecting → Collecting
  | [], c => c
  | tree :: rest, c => collectTrees module rest (tree.collect module c)

end

variable (module : List String)

mutual

/-- The walk leaves the names on the way **as they were**, and adds the imports of the tree one
after another. -/
theorem Program.UseTree.collect_eq (tree : UseTree) (way : List String) (n : Names) :
    tree.collect module ⟨way, n⟩ = ⟨way, (tree.imports way).foldl (Names.addLeaf module) n⟩ := by
  cases tree with
  | name ident =>
      rw [UseTree.collect, UseTree.imports, Collecting.leaf]
      by_cases hself : ident.text = "self"
      · simp only [hself, if_true, beq_self_eq_true]
        cases way.getLast? <;> rfl
      · simp only [hself, if_false, beq_eq_false_iff_ne.mpr hself, Bool.false_eq_true]
        rfl
  | rename ident alias_ =>
      rw [UseTree.collect, UseTree.imports, Collecting.leaf]
      simp only [beq_iff_eq]
      rfl
  | glob =>
      rw [UseTree.collect, UseTree.imports]
      rfl
  | under ident tree =>
      rw [UseTree.collect, UseTree.imports, Collecting.push, tree.collect_eq, Collecting.pop]
      simp only [List.dropLast_concat]
  | group trees =>
      rw [UseTree.collect, UseTree.imports]
      exact collectTrees_eq trees way n

/-- Several trees add **the imports of all of them, in order**, and leave the way as it was. -/
theorem Program.collectTrees_eq (trees : List UseTree) (way : List String) (n : Names) :
    collectTrees module trees ⟨way, n⟩ =
      ⟨way, (importsOfTrees way trees).foldl (Names.addLeaf module) n⟩ := by
  cases trees with
  | nil =>
      rw [collectTrees, importsOfTrees]
      rfl
  | cons tree rest =>
      rw [collectTrees, importsOfTrees, tree.collect_eq, collectTrees_eq rest, List.foldl_append]

end

/-! ### The imports of a tree -/

/-- The import of a leaf as it is listed for a tree: under `self` with nothing on the way there is
none. -/
def Program.UseLeaf.import? (way : List String) (leaf : UseLeaf) : Option Import :=
  match leaf with
  | .glob => some (.glob way)
  | leaf => (leaf.name? way).map fun name => .name name (leaf.target way)

mutual

/-- The imports of a tree are **those of its leaves**. -/
theorem Program.UseTree.imports_eq (tree : UseTree) (above : List String) :
    tree.imports above = tree.leaves.filterMap fun (way, leaf) => leaf.import? (above ++ way) := by
  cases tree with
  | name ident =>
      rw [UseTree.imports, UseTree.leaves]
      by_cases hself : ident.text = "self"
      · cases hlast : above.getLast? <;>
          simp [hself, hlast, UseLeaf.import?, UseLeaf.name?, UseLeaf.target]
      · simp [hself, UseLeaf.import?, UseLeaf.name?, UseLeaf.target]
  | rename ident alias_ =>
      rw [UseTree.imports, UseTree.leaves]
      simp [UseLeaf.import?, UseLeaf.name?, UseLeaf.target]
  | glob =>
      rw [UseTree.imports, UseTree.leaves]
      simp [UseLeaf.import?]
  | under ident tree =>
      rw [UseTree.imports, UseTree.leaves, tree.imports_eq, List.filterMap_map]
      simp only [List.append_assoc, List.singleton_append]
      rfl
  | group trees =>
      rw [UseTree.imports, UseTree.leaves]
      exact importsOfTrees_eq trees above

/-- The imports of several trees are **those of their leaves**, below the way to each. -/
theorem Program.importsOfTrees_eq (trees : List UseTree) (above : List String) :
    importsOfTrees above trees =
      (leavesOfTrees trees).filterMap fun (way, leaf) => leaf.import? (above ++ way) := by
  cases trees with
  | nil =>
      rw [importsOfTrees, leavesOfTrees]
      rfl
  | cons tree rest =>
      rw [importsOfTrees, leavesOfTrees, List.filterMap_append, tree.imports_eq,
        importsOfTrees_eq rest]

end

namespace Program.Import

/-- The name and the target of an import that is added under a name. -/
def entry? : Import → Option (String × List String)
  | name x target => if x = "_" ∨ target = [] then none else some (x, target)
  | glob _ => none

/-- The target of an import that is a glob. -/
def glob? : Import → Option (List String)
  | name _ _ => none
  | glob target => some target

end Program.Import

namespace Program.UseLeaf

variable (leaf : UseLeaf) (way : List String)

/-- The import of a leaf has **the entry of the leaf**. -/
theorem import?_bind_entry? : (leaf.import? way).bind Import.entry? = leaf.entry? way := by
  cases leaf with
  | glob => rfl
  | rename x alias_ => rfl
  | name x =>
      rw [import?, entry?]
      · cases (name x).name? way <;> rfl
      · exact nofun

/-- It is a glob **if the leaf is one**. -/
theorem import?_bind_glob? : (leaf.import? way).bind Import.glob? = leaf.glob? way := by
  cases leaf with
  | glob => rfl
  | rename x alias_ => rfl
  | name x =>
      rw [import?]
      · cases (name x).name? way <;> rfl
      · exact nofun

end Program.UseLeaf

/-- The imports of a tree that are added under a name are **its entries**. -/
theorem Program.UseTree.filterMap_entry? (tree : UseTree) (above : List String) :
    (tree.imports above).filterMap Import.entry? = tree.entries above := by
  rw [tree.imports_eq, UseTree.entries, List.filterMap_filterMap]
  exact congrArg (tree.leaves.filterMap ·)
    (funext fun (way, leaf) => leaf.import?_bind_entry? (above ++ way))

/-- The imports of a tree that are globs are **its globs**. -/
theorem Program.UseTree.filterMap_glob? (tree : UseTree) (above : List String) :
    (tree.imports above).filterMap Import.glob? = tree.globs above := by
  rw [tree.imports_eq, UseTree.globs, List.filterMap_filterMap]
  exact congrArg (tree.leaves.filterMap ·)
    (funext fun (way, leaf) => leaf.import?_bind_glob? (above ++ way))

/-! ### What a module gains -/

namespace Names

/-- Names are others of which one module has **gained** imports and globs: of the imports of a name
the last one counts, before those that were there, the globs come behind those that were there, and
nothing else is changed. -/
structure Gains (module : List String) (n o : Names) (entries : List (String × List String))
    (globs : List (List String)) : Prop where
  /-- The import of a name. -/
  names : ∀ name, (o.scopeAt module).import? name =
    ((entries.reverse.lookup name).map Route.ofNames).or ((n.scopeAt module).import? name)
  /-- The globs. -/
  globs : (o.scopeAt module).globs = (n.scopeAt module).globs ++ globs.map Route.ofNames
  /-- The items are the same. -/
  items : (o.scopeAt module).items = (n.scopeAt module).items
  /-- The modules are the same. -/
  modules : (o.scopeAt module).modules = (n.scopeAt module).modules
  /-- No other module has another scope. -/
  elsewhere : ∀ other ≠ module, o.scope? other = n.scope? other
  /-- The names of items and modules are the same. -/
  locals : o.locals = n.locals

/-- The scope of one module is changed, and **that of no other one**. -/
theorem scope?_update_of_ne {module other : List String} (h : other ≠ module) (n : Names)
    (f : Scope → Scope) : (n.update module f).scope? other = n.scope? other := by
  rw [update]
  split
  · rw [scope?, lookup_map_update]
    simp only [if_neg h, Option.map_id']
    rfl
  · have hne : (other == module) = false := beq_eq_false_iff_ne.mpr h
    rw [scope?, List.lookup_append, List.lookup_cons, hne, List.lookup_nil, Option.or_none]
    rfl

namespace Gains

variable {n o k : Names} {module : List String} {entries more : List (String × List String)}
  {globs further : List (List String)}

/-- Nothing is gained. -/
theorem refl (module : List String) (n : Names) : Gains module n n [] [] :=
  ⟨fun _ => rfl, (List.append_nil _).symm, rfl, rfl, fun _ _ => rfl, rfl⟩

/-- What is gained twice **adds up**. -/
theorem trans (h : Gains module n o entries globs) (hmore : Gains module o k more further) :
    Gains module n k (entries ++ more) (globs ++ further) := by
  refine ⟨fun name => ?_, ?_, hmore.items.trans h.items, hmore.modules.trans h.modules,
    fun other hother => (hmore.elsewhere other hother).trans (h.elsewhere other hother),
    hmore.locals.trans h.locals⟩
  · rw [hmore.names, h.names, List.reverse_append, List.lookup_append, Option.map_or,
      Option.or_assoc]
  · rw [hmore.globs, h.globs, List.map_append, List.append_assoc]

/-- One import of a tree is gained **as it is added**. -/
theorem addLeaf (module : List String) (n : Names) (i : Import) :
    Gains module n (n.addLeaf module i) i.entry?.toList i.glob?.toList := by
  have hlocals : ∀ f, (n.update module f).locals = n.locals := by
    intro f
    rw [update]
    split <;> rfl
  cases i with
  | glob target =>
      have hscope : (n.addLeaf module (.glob target)).scopeAt module =
          (n.scopeAt module).addGlob (.ofNames target) := by
        rw [Names.addLeaf, scopeAt_update, if_pos rfl]
      refine ⟨fun name => ?_, ?_, ?_, ?_, fun other h => scope?_update_of_ne h n _, hlocals _⟩ <;>
        rw [hscope] <;> rfl
  | name x target =>
      rw [Names.addLeaf, Names.addImport, Import.entry?, Import.glob?]
      by_cases hskip : x = "_" ∨ target = []
      · rw [if_pos hskip, if_pos (by simpa using hskip)]
        exact refl module n
      · rw [if_neg hskip, if_neg (by simpa using hskip)]
        have hscope : (n.update module (.addImport x (.ofNames target))).scopeAt module =
            (n.scopeAt module).addImport x (.ofNames target) := by
          rw [scopeAt_update, if_pos rfl]
        refine ⟨fun name => ?_, ?_, ?_, ?_, fun other h => scope?_update_of_ne h n _, hlocals _⟩
        · rw [hscope, Scope.import?, Scope.addImport, Option.toList_some, List.reverse_singleton,
            List.lookup_cons, List.lookup_cons, List.lookup_nil]
          cases name == x <;> rfl
        · rw [hscope, Option.toList_none, List.map_nil, List.append_nil]
          rfl
        · rw [hscope]
          rfl
        · rw [hscope]
          rfl

/-- Imports that are added **one after another** are all gained, in that order. -/
theorem addAll (module : List String) (is : List Import) (n : Names) :
    Gains module n (is.foldl (Names.addLeaf module) n) (is.filterMap Import.entry?)
      (is.filterMap Import.glob?) := by
  induction is generalizing n with
  | nil => exact refl module n
  | cons i rest ih =>
      have h := (addLeaf module n i).trans (ih (n.addLeaf module i))
      rw [List.foldl_cons, List.filterMap_cons, List.filterMap_cons]
      cases hentry : i.entry? <;> cases hglob : i.glob? <;> simpa [hentry, hglob] using h

end Gains

/-- **A `use` item is flattened without loss.** Wherever the walk through a tree starts, with
whatever names on the way, it comes back with these names, and the module has gained one import for
each leaf that has a name, and one glob for each leaf that is everything, in the order of the
leaves. A `use` item is gone through from no names on. -/
theorem use_tree_is_flattened (module : List String) (tree : UseTree) (n : Names) :
    (∀ above, (tree.collect module ⟨above, n⟩).way = above ∧
      Gains module n (tree.collect module ⟨above, n⟩).names (tree.entries above)
        (tree.globs above)) ∧
    ∀ isGlobal, n.declare ⟨module, .use isGlobal tree⟩ = (tree.collect module ⟨[], n⟩).names := by
  refine ⟨fun above => ?_, fun isGlobal => ?_⟩
  · rw [tree.collect_eq]
    refine ⟨rfl, ?_⟩
    rw [← tree.filterMap_entry?, ← tree.filterMap_glob?]
    exact Gains.addAll module (tree.imports above) n
  · rw [tree.collect_eq]
    rfl

/-- What the tree of `use std::{fs::{self, File as Handle}, net::*};` adds. -/
example :
    let tree : UseTree := .under ⟨"std", Eq.refl true⟩ (.group
      [.under ⟨"fs", Eq.refl true⟩ (.group [.name ⟨"self", Eq.refl true⟩,
        .rename ⟨"File", Eq.refl true⟩ ⟨"Handle", Eq.refl true⟩]),
      .under ⟨"net", Eq.refl true⟩ .glob])
    tree.entries [] = [("fs", ["std", "fs"]), ("Handle", ["std", "fs", "File"])] ∧
      tree.globs [] = [["std", "net"]] := by
  decide

end Names

end CapabilityGate
