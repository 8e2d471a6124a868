import CapabilityGate.Proofs.Capability.PathParts
import CapabilityGate.Proofs.Capability.WrittenType
import CapabilityGate.Report.Fault

/-!
# The grammar of type texts

Which texts are types is said by a grammar, with `T` for a type, `R` for a path and `ws` for a
blank character:

```text
T ::= ws* R ws* ( "<" T ws* ( "," T ws* )* ">" )?
```

The grammar looks neither ahead nor at how long a run of characters goes on. The reader does both,
and accepts the same texts as the same types.

## Main definitions

* `TypeName.SpellsPath`: characters that spell a path.
* `TypeName.Derives`: characters that are a type of the grammar.
* `TypeName.IsTypeText`: a type of the grammar, with blanks behind it.

## Main results

* `TypeName.spellsPath_iff`: a run spells a path exactly when its normal form is a proper path.
* `TypeName.Reads.derives`, `TypeName.Derives.reads`: what is read of a text is a type of the
  grammar, and what is one is read.
* `TypeName.parse_follows_grammar`: exactly the type texts are parsed, and every other one is
  refused as a descriptor.
-/

namespace CapabilityGate

open Text

/-! ### Characters of names -/

/-- An identifier is one **part** of a path. -/
theorem isPart_of_isIdentifier {name : String} (h : isIdentifier name.toList = true) :
    isPart name = true := by
  have hcolon : (isAlphanumeric ':' || ':' == '_') = false := by decide
  have hchars := isNameChar_of_isIdentifier h
  refine isPart_iff.mpr ⟨fun c hc => ?_, colonsApart_of_not_mem fun hmem => ?_⟩
  · exact isBlank_eq_false_of_isPathChar (Descriptor.isPathChar_of_isIdentifier h c hc)
  · exact Bool.noConfusion ((hchars ':' hmem).symm.trans hcolon)

/-- A property of identifiers holds of a path with the standard root if it holds of the path. -/
theorem isIdentifier_standardName {first : String} {rest : List String}
    (h : ∀ name ∈ first :: rest, isIdentifier name.toList = true) :
    ∀ name ∈ standardName first :: rest, isIdentifier name.toList = true := by
  intro name hname
  rcases List.mem_cons.mp hname with rfl | hrest
  · rw [standardName]
    split
    · decide
    · exact h first List.mem_cons_self
  · exact h name (List.mem_cons_of_mem _ hrest)

namespace TypeName

/-! ### The grammar -/

/-- Nothing but blank characters. -/
def Blanks (s : List Char) : Prop :=
  ∀ c ∈ s, isBlank c = true

/-- So many pairs of colons. -/
def colonPairs (n : Nat) : List Char :=
  (List.replicate n [':', ':']).flatten

/-- Characters **spell a path**: behind any number of pairs of colons stand identifiers, one at
least, with a pair of colons between each two. The path is made of these identifiers, with the
standard root for `core` and `alloc`. -/
inductive SpellsPath : List Char → String → Prop
  | names (pairs : Nat) {first : String} {rest : List String}
      (hnames : ∀ name ∈ first :: rest, isIdentifier name.toList = true) :
      SpellsPath (colonPairs pairs ++ (joinPath (first :: rest)).toList)
        (joinPath (standardName first :: rest))

mutual

/-- Characters **are a type**: a path between blanks, perhaps with arguments in angle brackets.
On either side of the path stands a blank, a mark or nothing, so it takes up all characters of
paths in a row. -/
inductive Derives : List Char → TypeName → Prop
  | bare {before run after : List Char} {path : String} (hbefore : Blanks before)
      (hrun : SpellsPath run path) (hafter : Blanks after) :
      Derives (before ++ run ++ after) (.mk path [])
  | applied {before run after inner : List Char} {path : String} {args : List TypeName}
      (hbefore : Blanks before) (hrun : SpellsPath run path) (hafter : Blanks after)
      (hargs : DerivesArgs inner args) :
      Derives (before ++ run ++ after ++ ('<' :: inner ++ ['>'])) (.mk path args)

/-- Characters are types with commas between them, one at least, each with blanks behind it. -/
inductive DerivesArgs : List Char → List TypeName → Prop
  | last {s gap : List Char} {t : TypeName} (h : Derives s t) (hgap : Blanks gap) :
      DerivesArgs (s ++ gap) [t]
  | more {s gap next : List Char} {t : TypeName} {args : List TypeName} (h : Derives s t)
      (hgap : Blanks gap) (hnext : DerivesArgs next args) :
      DerivesArgs (s ++ gap ++ ',' :: next) (t :: args)

end

/-- A text **is a type text**: a type of the grammar, with blanks behind it. -/
def IsTypeText (text : List Char) (t : TypeName) : Prop :=
  ∃ s gap, text = s ++ gap ∧ Derives s t ∧ Blanks gap

/-! ### Runs that spell a path -/

theorem dropLeadingColons_colonPairs (n : Nat) (s : List Char) :
    dropLeadingColons (colonPairs n ++ s) = dropLeadingColons s := by
  induction n with
  | zero => rfl
  | succ n ih => exact ih

/-- The leading colons that are dropped are pairs. -/
theorem exists_colonPairs (s : List Char) : ∃ n, s = colonPairs n ++ dropLeadingColons s := by
  fun_induction dropLeadingColons s with
  | case1 rest ih =>
      obtain ⟨n, hn⟩ := ih
      exact ⟨n + 1, congrArg (':' :: ':' :: ·) hn⟩
  | case2 s => exact ⟨0, rfl⟩

theorem isPathChar_of_mem_colonPairs {n : Nat} : ∀ c ∈ colonPairs n, isPathChar c = true := by
  have hcolon : isPathChar ':' = true := by decide
  intro c hc
  obtain ⟨pair, hpair, hc⟩ := List.mem_flatten.mp hc
  obtain ⟨-, rfl⟩ := List.mem_replicate.mp hpair
  simp only [List.mem_cons, List.not_mem_nil, or_false, or_self] at hc
  exact hc ▸ hcolon

/-- The normal form of characters of paths is the path behind the leading colons, with the standard
root. -/
theorem normalPath_of_run {run : List Char} (hrun : ∀ c ∈ run, isPathChar c = true) :
    normalPath (String.ofList run) = String.ofList (standardRoot (dropLeadingColons run)) := by
  rw [normalPath, String.toList_ofList,
    withoutBlanks_of_no_blank fun c hc => isBlank_eq_false_of_isPathChar (hrun c hc)]

/-- What is known of characters that spell a path: they are characters of paths, some at least, and
the path is a proper one, and their normal form. -/
theorem SpellsPath.run {run : List Char} {path : String} (h : SpellsPath run path) :
    (∀ c ∈ run, isPathChar c = true) ∧ run ≠ [] ∧ normalPath (String.ofList run) = path ∧
      isProperPath path = true := by
  obtain @⟨pairs, first, rest, hnames⟩ := h
  have hparts : ∀ name ∈ first :: rest, isPart name = true := fun name hname =>
    isPart_of_isIdentifier (hnames name hname)
  have hfirst : first.toList ≠ [] := by
    intro hnil
    have hidentifier := hnames first List.mem_cons_self
    rw [hnil] at hidentifier
    exact Bool.noConfusion hidentifier
  have hrun : ∀ c ∈ colonPairs pairs ++ (joinPath (first :: rest)).toList, isPathChar c = true := by
    intro c hc
    rcases List.mem_append.mp hc with hpairs | hpath
    · exact isPathChar_of_mem_colonPairs c hpairs
    · exact Descriptor.isPathChar_of_mem_joinPath hnames c hpath
  refine ⟨hrun, ?_, ?_, ?_⟩
  · rw [toList_joinPath_cons]
    simp [hfirst]
  · have hpath : ∀ c ∈ (joinPath (first :: rest)).toList, isPathChar c = true :=
      Descriptor.isPathChar_of_mem_joinPath hnames
    rw [normalPath_of_run hrun, dropLeadingColons_colonPairs, ← normalPath_of_run hpath,
      String.ofList_toList, normalPath_joinPath_of_parts hparts hfirst]
  · have hstandard := isIdentifier_standardName hnames
    rw [isProperPath, splitPath_joinPath fun name hname =>
      isPart_of_isIdentifier (hstandard name hname)]
    exact List.all_eq_true.mpr hstandard

/-- A root and what stands behind it are cut into **the root and the other names**. -/
theorem exists_tailChars {root rest : List Char} (hroot : colonsApart root = true)
    (hrest : rest = [] ∨ ∃ more, rest = ':' :: ':' :: more) :
    ∃ names, rest = tailChars names ∧
      splitPath (String.ofList (root ++ rest)) = String.ofList root :: names := by
  rcases hrest with rfl | ⟨more, rfl⟩
  · refine ⟨[], rfl, ?_⟩
    rw [List.append_nil, splitPath, String.toList_ofList, splitColons_of_colonsApart hroot]
    rfl
  · refine ⟨splitPath (String.ofList more), ?_, ?_⟩
    · have hjoin := joinPath_splitPath (String.ofList more)
      obtain ⟨second, others, hcons⟩ :=
        List.exists_cons_of_ne_nil (splitPath_ne_nil (String.ofList more))
      rw [hcons, ← String.toList_inj, toList_joinPath_cons, String.toList_ofList] at hjoin
      rw [hcons, tailChars_cons, hjoin]
    · rw [splitPath, String.toList_ofList, splitColons_append_colons hroot, splitPath,
        String.toList_ofList]
      rfl

/-- Characters that are a proper path, but for the root that is read as the standard one, are
**identifiers** with a pair of colons between each two. -/
theorem exists_names_of_standardRoot {s : List Char}
    (h : isProperPath (String.ofList (standardRoot s)) = true) :
    ∃ first rest, (∀ name ∈ first :: rest, isIdentifier name.toList = true) ∧
      s = (joinPath (first :: rest)).toList := by
  rw [isProperPath, List.all_eq_true] at h
  rcases standardRoot_cases s with ⟨root, hroot, behind, rfl, hbehind, hstandard⟩ | hself
  · have hroots : ∀ root ∈ otherRoots, isIdentifier root = true := by decide
    have hapart : colonsApart ['s', 't', 'd'] = true := by decide
    obtain ⟨names, rfl, hsplit⟩ := exists_tailChars hapart hbehind
    have hchars : 's' :: 't' :: 'd' :: tailChars names = ['s', 't', 'd'] ++ tailChars names := rfl
    rw [hstandard, hchars, hsplit] at h
    refine ⟨String.ofList root, names, fun name hname => ?_, ?_⟩
    · rcases List.mem_cons.mp hname with rfl | hmem
      · rw [String.toList_ofList]
        exact hroots root hroot
      · exact h name (List.mem_cons_of_mem _ hmem)
    · rw [toList_joinPath_cons, String.toList_ofList]
  · rw [hself] at h
    obtain ⟨first, rest, hcons⟩ := List.exists_cons_of_ne_nil (splitPath_ne_nil (String.ofList s))
    have hjoin := joinPath_splitPath (String.ofList s)
    rw [hcons] at h hjoin
    refine ⟨first, rest, h, ?_⟩
    rw [hjoin, String.toList_ofList]

/-- A run of characters of paths **spells a path** exactly when the path is its normal form and a
proper one. -/
theorem spellsPath_iff {run : List Char} {path : String}
    (hrun : ∀ c ∈ run, isPathChar c = true) :
    SpellsPath run path ↔
      normalPath (String.ofList run) = path ∧ isProperPath path = true := by
  refine ⟨fun h => h.run.2.2, ?_⟩
  rintro ⟨rfl, hproper⟩
  rw [normalPath_of_run hrun] at hproper
  obtain ⟨first, rest, hnames, hpath⟩ := exists_names_of_standardRoot hproper
  obtain ⟨pairs, hpairs⟩ := exists_colonPairs run
  have hspells := SpellsPath.names pairs hnames
  rw [← hpath, ← hpairs] at hspells
  obtain ⟨-, -, hnormal, -⟩ := hspells.run
  rw [hnormal]
  exact hspells

/-! ### What is read is a type -/

/-- What is dropped with the blanks in front of a text **is blank**. -/
theorem exists_blanks (s : List Char) : ∃ gap, s = gap ++ s.dropWhile isBlank ∧ Blanks gap :=
  ⟨s.takeWhile isBlank, List.takeWhile_append_dropWhile.symm, fun _ => List.mem_takeWhile_imp⟩

/-- A text that starts with a proper path starts with **blanks, a run that spells the path and
blanks** again. -/
theorem exists_run {s : List Char} (hpath : isProperPath (pathAt s) = true) :
    ∃ before run after, s = before ++ run ++ after ++ behindPath s ∧ Blanks before ∧
      SpellsPath run (pathAt s) ∧ Blanks after := by
  obtain ⟨before, hs, hbefore⟩ := exists_blanks s
  obtain ⟨after, hbehind, hafter⟩ := exists_blanks ((s.dropWhile isBlank).dropWhile isPathChar)
  refine ⟨before, (s.dropWhile isBlank).takeWhile isPathChar, after, ?_, hbefore,
    (spellsPath_iff fun _ => List.mem_takeWhile_imp).mpr ⟨rfl, hpath⟩, hafter⟩
  rw [behindPath, List.append_assoc, ← hbehind, List.append_assoc,
    List.takeWhile_append_dropWhile]
  exact hs

mutual

/-- What a text starts with **is a type of the grammar**. -/
theorem Reads.derives : ∀ {s rest : List Char} {t : TypeName}, Reads s t rest →
    ∃ u, s = u ++ rest ∧ Derives u t
  | _, _, _, .bare hpath _ => by
    obtain ⟨before, run, after, hs, hbefore, hrun, hafter⟩ := exists_run hpath
    exact ⟨_, hs, .bare hbefore hrun hafter⟩
  | _, rest, _, .applied hpath hopen hargs => by
    obtain ⟨before, run, after, hs, hbefore, hrun, hafter⟩ := exists_run hpath
    obtain ⟨inner, rfl, hinner⟩ := hargs.derives
    refine ⟨_, hs.trans ?_, .applied hbefore hrun hafter hinner⟩
    rw [hopen]
    simp

/-- What a text with an open bracket starts with are arguments of the grammar, and the bracket that
closes them. -/
theorem ReadsArgs.derives : ∀ {s rest : List Char} {args : List TypeName}, ReadsArgs s args rest →
    ∃ inner, s = inner ++ '>' :: rest ∧ DerivesArgs inner args
  | _, _, _, @ReadsArgs.last _ middle _ _ h hclose => by
    obtain ⟨u, rfl, hu⟩ := h.derives
    obtain ⟨gap, hmiddle, hgap⟩ := exists_blanks middle
    refine ⟨u ++ gap, ?_, .last hu hgap⟩
    rw [List.append_assoc, ← hclose, ← hmiddle]
  | _, _, _, @ReadsArgs.more _ middle _ _ _ _ h hcomma hrest => by
    obtain ⟨u, rfl, hu⟩ := h.derives
    obtain ⟨gap, hmiddle, hgap⟩ := exists_blanks middle
    obtain ⟨inner, rfl, hinner⟩ := hrest.derives
    refine ⟨u ++ gap ++ ',' :: inner, ?_, .more hu hgap hinner⟩
    rw [hcomma] at hmiddle
    rw [hmiddle]
    simp

end

/-! ### A type is read -/

theorem Blanks.dropWhile_append {gap : List Char} (h : Blanks gap) (s : List Char) :
    (gap ++ s).dropWhile isBlank = s.dropWhile isBlank :=
  List.dropWhile_append_of_pos h

/-- Blanks and a mark, or nothing at all, **end a run** of characters of paths. -/
theorem Blanks.isPathChar_head {gap rest : List Char} (hgap : Blanks gap)
    (hrest : ∀ c ∈ rest.head?, isPathChar c = false) :
    ∀ c ∈ (gap ++ rest).head?, isPathChar c = false := by
  intro c hc
  cases gap with
  | nil => exact hrest c hc
  | cons d gap =>
      obtain rfl := Option.some.inj hc
      exact isPathChar_eq_false_of_isBlank (hgap d List.mem_cons_self)

/-- A run between blanks is read as **the path that it spells**, as far as it goes. -/
theorem SpellsPath.pathAt {before run after rest : List Char} {path : String}
    (hbefore : Blanks before) (hrun : SpellsPath run path) (hafter : Blanks after)
    (hrest : ∀ c ∈ rest.head?, isPathChar c = false) :
    TypeName.pathAt (before ++ run ++ after ++ rest) = path ∧
      behindPath (before ++ run ++ after ++ rest) = rest.dropWhile isBlank := by
  obtain ⟨hchars, hne, hnormal, -⟩ := hrun.run
  obtain ⟨hat, hbehind⟩ := pathAt_append hne hchars (after ++ rest) (hafter.isPathChar_head hrest)
  have hblanks : (before ++ run ++ after ++ rest).dropWhile isBlank =
      (run ++ (after ++ rest)).dropWhile isBlank := by
    rw [List.append_assoc, List.append_assoc, hbefore.dropWhile_append]
  constructor
  · rw [TypeName.pathAt, hblanks, ← TypeName.pathAt, hat, hnormal]
  · rw [behindPath, hblanks, ← behindPath, hbehind, hafter.dropWhile_append]

/-- Blanks in front of a mark, or of nothing at all, and the mark **end a run**. -/
theorem EndsType.isPathChar_head_of_blanks {rest : List Char}
    (h : EndsType (rest.dropWhile isBlank)) : ∀ c ∈ rest.head?, isPathChar c = false := by
  obtain ⟨gap, hrest, hgap⟩ := exists_blanks rest
  rw [hrest]
  exact hgap.isPathChar_head h.isPathChar_head

mutual

/-- A type of the grammar **is read**, with the blanks behind it or without them. -/
theorem Derives.reads : ∀ {u rest : List Char} {t : TypeName}, Derives u t →
    EndsType (rest.dropWhile isBlank) →
      ∃ middle, Reads (u ++ rest) t middle ∧ middle.dropWhile isBlank = rest.dropWhile isBlank
  | _, rest, _, .bare hbefore hrun hafter, hends => by
    obtain ⟨hat, hbehind⟩ :=
      SpellsPath.pathAt hbefore hrun hafter hends.isPathChar_head_of_blanks
    obtain ⟨-, -, -, hproper⟩ := hrun.run
    have hreads := Reads.bare (by rw [hat]; exact hproper)
      (by rw [hbehind]; exact hends.head_ne_open)
    rw [hat, hbehind] at hreads
    exact ⟨_, hreads, hends.dropBlanks⟩
  | _, rest, _, @Derives.applied before run after inner path args hbefore hrun hafter hargs, _ => by
    have hopen : ∀ c ∈ ('<' :: (inner ++ '>' :: rest)).head?, isPathChar c = false := by
      rintro c ⟨⟩
      decide
    obtain ⟨hat, hbehind⟩ := SpellsPath.pathAt hbefore hrun hafter hopen
    obtain ⟨-, -, -, hproper⟩ := hrun.run
    rw [List.dropWhile_cons_of_neg (by decide)] at hbehind
    have hreads := Reads.applied (by rw [hat]; exact hproper) hbehind hargs.reads
    have hchars : before ++ run ++ after ++ ('<' :: inner ++ ['>']) ++ rest =
        before ++ run ++ after ++ '<' :: (inner ++ '>' :: rest) := by simp
    rw [hat, ← hchars] at hreads
    exact ⟨rest, hreads, rfl⟩

/-- Arguments of the grammar are read up to the bracket that closes them. -/
theorem DerivesArgs.reads : ∀ {inner rest : List Char} {args : List TypeName},
    DerivesArgs inner args → ReadsArgs (inner ++ '>' :: rest) args rest
  | _, rest, _, @DerivesArgs.last s gap t h hgap => by
    have hblanks : (gap ++ '>' :: rest).dropWhile isBlank = '>' :: rest := by
      rw [hgap.dropWhile_append, List.dropWhile_cons_of_neg (by decide)]
    have hends : EndsType ((gap ++ '>' :: rest).dropWhile isBlank) := by
      rw [hblanks]
      rintro c ⟨⟩
      exact Or.inr rfl
    obtain ⟨middle, hreads, hmiddle⟩ := h.reads hends
    rw [List.append_assoc]
    exact .last hreads (hmiddle.trans hblanks)
  | _, rest, _, @DerivesArgs.more s gap next t args h hgap hnext => by
    have hblanks : (gap ++ ',' :: (next ++ '>' :: rest)).dropWhile isBlank =
        ',' :: (next ++ '>' :: rest) := by
      rw [hgap.dropWhile_append, List.dropWhile_cons_of_neg (by decide)]
    have hends : EndsType ((gap ++ ',' :: (next ++ '>' :: rest)).dropWhile isBlank) := by
      rw [hblanks]
      rintro c ⟨⟩
      exact Or.inl rfl
    obtain ⟨middle, hreads, hmiddle⟩ := h.reads hends
    rw [List.append_assoc, List.append_assoc, List.cons_append]
    exact .more hreads (hmiddle.trans hblanks) hnext.reads

end

/-! ### Texts of types -/

/-- A text is parsed as a type exactly when it is **a text of the type** by the grammar. -/
theorem parse_eq_ok_iff_isTypeText {text : String} {t : TypeName} :
    parse text = .ok t ↔ IsTypeText text.toList t := by
  rw [parse_eq_ok_iff]
  constructor
  · rintro ⟨rest, hreads, hend⟩
    obtain ⟨u, htext, hu⟩ := hreads.derives
    obtain ⟨gap, hrest, hgap⟩ := exists_blanks rest
    rw [hend, List.append_nil] at hrest
    exact ⟨u, rest, htext, hu, hrest ▸ hgap⟩
  · rintro ⟨u, gap, htext, hu, hgap⟩
    have hblanks : gap.dropWhile isBlank = [] := List.dropWhile_eq_nil_iff.mpr hgap
    have hends : EndsType (gap.dropWhile isBlank) := by
      rw [hblanks]
      rintro c ⟨⟩
    obtain ⟨middle, hreads, hmiddle⟩ := hu.reads hends
    exact ⟨middle, htext ▸ hreads, hmiddle.trans hblanks⟩

/-- **The parser follows the grammar.** A text is parsed as a type exactly when it is a text of the
type by the grammar, and a text of no type is refused as a descriptor. -/
theorem parse_follows_grammar (text : String) :
    (∀ t, parse text = .ok t ↔ IsTypeText text.toList t) ∧
      ((∀ t, ¬ IsTypeText text.toList t) →
        ∃ e, parse text = .error e ∧ (Fault.descriptor e).kind = .descriptor) := by
  refine ⟨fun t => parse_eq_ok_iff_isTypeText, fun hnone => ?_⟩
  cases hparse : parse text with
  | ok t => exact absurd (parse_eq_ok_iff_isTypeText.mp hparse) (hnone t)
  | error e => exact ⟨e, rfl, rfl⟩

end TypeName

end CapabilityGate
