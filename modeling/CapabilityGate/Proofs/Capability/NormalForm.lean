import CapabilityGate.Proofs.Capability.PathParts
import CapabilityGate.Proofs.Resolution.Reexport

/-!
# Normal forms of paths

Normalising a path takes three steps: its blanks are removed, then every `::` at its start, and then
its root is exchanged. Any text may be normalised, also one in which two colons meet only when the
blank between them is removed, or in which more than two stand in a row. Of each text it is said
here what the first two steps leave, apart from how it is found, and of the third that it changes
nothing but the first of the names that this is cut into.

## Main definitions

* `LeftOf`: what is left of a text without its blanks and the `::` at its start.
* `SameButRoot`: paths that are the same but for their standard roots.
* `IsNormalPath`: a path in normal form.

## Main results

* `leftOf_iff`: each text leaves exactly one.
* `LeftOf.splitPath_normalPath`: the names of a normal form.
* `isNormalPath_iff`: the paths in normal form are those that normalising leaves as they are.
* `normal_forms_decide`: the normal form of a text is one, and two texts have the same normal form
  exactly when what is left of them is the same but for its root.
-/

namespace CapabilityGate

open Text

/-! ### What is left of a text -/

/-- What is **left of a text** when its blanks are removed, and then every `::` at its start. -/
structure LeftOf (text left : String) : Prop where
  /-- So many `::` are removed from the start of the text without blanks. -/
  removed : ∃ n, text.toList.filter (!isBlank ·) =
    (List.replicate n [':', ':']).flatten ++ left.toList
  /-- No `::` is left there. -/
  start : ¬ [':', ':'] <+: left.toList

/-- A text is **some pairs of colons** in front of what is left without them. -/
theorem exists_eq_colons_append (s : List Char) :
    ∃ n, s = (List.replicate n [':', ':']).flatten ++ dropLeadingColons s := by
  fun_induction dropLeadingColons s with
  | case1 rest ih =>
      obtain ⟨n, hn⟩ := ih
      refine ⟨n + 1, ?_⟩
      rw [List.replicate_succ, List.flatten_cons, List.append_assoc, ← hn]
      rfl
  | case2 s _ => exact ⟨0, rfl⟩

/-- What is left starts with **no pair** any more. -/
theorem not_prefix_dropLeadingColons (s : List Char) : ¬ [':', ':'] <+: dropLeadingColons s := by
  fun_induction dropLeadingColons s with
  | case1 rest ih => exact ih
  | case2 s hs =>
      rintro ⟨rest, rfl⟩
      exact hs rest rfl

/-- A text that starts with no pair is **left as it is**. -/
theorem dropLeadingColons_of_not_prefix {s : List Char} (h : ¬ [':', ':'] <+: s) :
    dropLeadingColons s = s := by
  refine dropLeadingColons.eq_2 s ?_
  rintro rest rfl
  exact h ⟨rest, rfl⟩

/-- So it is behind any number of pairs. -/
theorem dropLeadingColons_colons_append (n : Nat) {s : List Char} (h : ¬ [':', ':'] <+: s) :
    dropLeadingColons ((List.replicate n [':', ':']).flatten ++ s) = s := by
  induction n with
  | zero => exact dropLeadingColons_of_not_prefix h
  | succ n ih =>
      rw [List.replicate_succ, List.flatten_cons, List.append_assoc]
      exact ih

/-- Of each text **exactly one** is left. -/
theorem leftOf_iff {text left : String} :
    LeftOf text left ↔ left.toList = dropLeadingColons (withoutBlanks text.toList) := by
  constructor
  · rintro ⟨⟨n, hn⟩, hstart⟩
    rw [withoutBlanks, hn, dropLeadingColons_colons_append n hstart]
  · intro h
    obtain ⟨n, hn⟩ := exists_eq_colons_append (withoutBlanks text.toList)
    refine ⟨⟨n, h ▸ hn⟩, ?_⟩
    rw [h]
    exact not_prefix_dropLeadingColons _

/-- **Every text** leaves something when blanks and colons are dropped. -/
theorem exists_leftOf (text : String) : ∃ left, LeftOf text left :=
  ⟨String.ofList (dropLeadingColons (withoutBlanks text.toList)),
    leftOf_iff.mpr String.toList_ofList⟩

/-! ### Standard roots -/

/-- The roots of the standard library **all stand for `std`**. -/
theorem standardName_of_root {name : String} (h : name ∈ standardRoots) :
    standardName name = "std" := by
  have hroots : ∀ root ∈ standardRoots, standardName root = "std" := by decide
  exact hroots name h

/-- Any other name stands for **itself**. -/
theorem standardName_of_not_root {name : String} (h : name ∉ standardRoots) :
    standardName name = name := by
  simp only [standardRoots, List.mem_cons, List.not_mem_nil, or_false, not_or] at h
  simp [standardName, h.2.1, h.2.2]

/-- Names have the same standard name when they are the same, **or standard roots** both. -/
theorem standardName_eq_iff {a b : String} :
    standardName a = standardName b ↔ a = b ∨ a ∈ standardRoots ∧ b ∈ standardRoots := by
  have hstd : "std" ∈ standardRoots := by decide
  constructor
  · intro h
    by_cases ha : a ∈ standardRoots
    · refine Or.inr ⟨ha, Decidable.byContradiction fun hb => ?_⟩
      rw [standardName_of_root ha, standardName_of_not_root hb] at h
      exact hb (h ▸ hstd)
    · by_cases hb : b ∈ standardRoots
      · rw [standardName_of_not_root ha, standardName_of_root hb] at h
        exact absurd (h ▸ hstd) ha
      · rw [standardName_of_not_root ha, standardName_of_not_root hb] at h
        exact Or.inl h
  · rintro (rfl | ⟨ha, hb⟩)
    · rfl
    · rw [standardName_of_root ha, standardName_of_root hb]

/-- A standard name is **neither `core` nor `alloc`**. -/
theorem standardName_ne (name : String) :
    standardName name ≠ "core" ∧ standardName name ≠ "alloc" := by
  by_cases h : name ∈ standardRoots
  · rw [standardName_of_root h]
    decide
  · rw [standardName_of_not_root h]
    simp only [standardRoots, List.mem_cons, List.not_mem_nil, or_false, not_or] at h
    exact h.2

/-- A path that keeps its root starts with **no root that is read as another one**. -/
theorem standardName_of_standardRoot_eq {path first : String} {rest : List String}
    (hsplit : splitPath path = first :: rest) (hself : standardRoot path.toList = path.toList) :
    standardName first = first := by
  by_cases hroot : first ∈ standardRoots
  · have hroots : ∀ root ∈ standardRoots, colonsApart root.toList = true := by decide
    have hstd : standardRoot (first.toList ++ tailChars rest) =
        (standardName first).toList ++ tailChars rest :=
      standardRoot_append (hroots first hroot)
    rw [← toList_eq_of_splitPath hsplit, hself, toList_eq_of_splitPath hsplit] at hstd
    exact (String.toList_inj.mp (List.append_cancel_right hstd)).symm
  · exact standardName_of_not_root hroot

/-- **The names of a normal form** are those of what is left of the text, with the standard root. -/
theorem LeftOf.splitPath_normalPath {text left : String} (h : LeftOf text left) :
    splitPath (normalPath text) = (splitPath left).modifyHead standardName := by
  have hnormal : normalPath text = String.ofList (standardRoot left.toList) := by
    rw [normalPath, leftOf_iff.mp h]
  rw [hnormal]
  rcases standardRoot_cases left.toList with ⟨root, hroot, more, hleft, hmore, hstd⟩ | hself
  · have hroots : ∀ root ∈ otherRoots, colonsApart root = true ∧
        standardName (String.ofList root) = "std" := by decide
    obtain ⟨hapart, hname⟩ := hroots root hroot
    obtain ⟨names, hnames⟩ := exists_splitPath_append hmore
    have hsplit := hnames (String.ofList root) (by rwa [String.toList_ofList])
    rw [String.toList_ofList, ← hleft, String.ofList_toList] at hsplit
    rw [hstd, hsplit, List.modifyHead_cons, hname]
    exact hnames "std" (by decide)
  · rw [hself, String.ofList_toList]
    obtain ⟨first, rest, hsplit⟩ := List.exists_cons_of_ne_nil (splitPath_ne_nil left)
    rw [hsplit, List.modifyHead_cons, standardName_of_standardRoot_eq hsplit hself]

/-! ### Normal forms -/

/-- A path in **normal form**. -/
structure IsNormalPath (path : String) : Prop where
  /-- It holds no blanks. -/
  blanks : ∀ c ∈ path.toList, isBlank c = false
  /-- It does not start with `::`. -/
  start : ¬ [':', ':'] <+: path.toList
  /-- The first of its names is neither `core` nor `alloc`. -/
  root : ∀ first ∈ (splitPath path).head?, first ≠ "core" ∧ first ≠ "alloc"

/-- The paths in normal form are exactly those that are **their own normal form**. -/
theorem isNormalPath_iff {path : String} : IsNormalPath path ↔ normalPath path = path := by
  constructor
  · intro h
    have hleft : LeftOf path path := ⟨⟨0, withoutBlanks_of_no_blank h.blanks⟩, h.start⟩
    obtain ⟨first, rest, hsplit⟩ := List.exists_cons_of_ne_nil (splitPath_ne_nil path)
    have hroot := h.root first (by rw [hsplit]; rfl)
    refine splitPath_injective ?_
    rw [hleft.splitPath_normalPath, hsplit, List.modifyHead_cons, standardName]
    simp [hroot]
  · intro h
    obtain ⟨left, hleft⟩ := exists_leftOf path
    refine ⟨?blanks, ?start, ?root⟩
    case blanks =>
      have hkept := withoutBlanks_normalPath path
      rw [h, withoutBlanks, List.filter_eq_self] at hkept
      exact fun c hc => (Bool.not_eq_true' _).mp (hkept c hc)
    case start =>
      have hchars := toList_normalPath path
      rw [h, ← leftOf_iff.mp hleft] at hchars
      rw [hchars]
      rcases standardRoot_cases left.toList with ⟨_, -, more, -, -, hstd⟩ | hself
      · rw [hstd]
        simp
      · rw [hself]
        exact hleft.start
    case root =>
      have hnames := hleft.splitPath_normalPath
      obtain ⟨first, rest, hsplit⟩ := List.exists_cons_of_ne_nil (splitPath_ne_nil left)
      rw [h, hsplit, List.modifyHead_cons] at hnames
      rw [hnames]
      rintro _ ⟨⟩
      exact standardName_ne first

/-- Two paths are **the same but for the standard roots** that they may start with. -/
def SameButRoot (p q : String) : Prop :=
  p = q ∨ ∃ a ∈ standardRoots, ∃ b ∈ standardRoots, ∃ rest,
    splitPath p = a :: rest ∧ splitPath q = b :: rest

/-- Paths are the same but for a standard root exactly if they have the same names **once the first
stands for its root**. -/
theorem sameButRoot_iff {p q : String} :
    SameButRoot p q ↔
      (splitPath p).modifyHead standardName = (splitPath q).modifyHead standardName := by
  obtain ⟨a, as, hp⟩ := List.exists_cons_of_ne_nil (splitPath_ne_nil p)
  obtain ⟨b, bs, hq⟩ := List.exists_cons_of_ne_nil (splitPath_ne_nil q)
  constructor
  · rintro (rfl | ⟨a, ha, b, hb, rest, hp, hq⟩)
    · rfl
    · rw [hp, hq, List.modifyHead_cons, List.modifyHead_cons, standardName_of_root ha,
        standardName_of_root hb]
  · intro h
    rw [hp, hq, List.modifyHead_cons, List.modifyHead_cons, List.cons.injEq,
      standardName_eq_iff] at h
    obtain ⟨rfl | ⟨ha, hb⟩, rfl⟩ := h
    · exact Or.inl (splitPath_injective (hp.trans hq.symm))
    · exact Or.inr ⟨a, ha, b, hb, as, hp, hq⟩

/-- **Normal forms decide which paths are the same.** The normal form of any text is a path in
normal form, and its own normal form. Two texts have one normal form exactly when what is left of
them, without blanks and without the `::` at the start, is the same but for standard roots. -/
theorem normal_forms_decide (p q : String) :
    normalPath (normalPath p) = normalPath p ∧ IsNormalPath (normalPath p) ∧
      (normalPath p = normalPath q ↔ ∃ s t, LeftOf p s ∧ LeftOf q t ∧ SameButRoot s t) := by
  have htwice := normalPath_normalPath p
  refine ⟨htwice, isNormalPath_iff.mpr htwice, ?_⟩
  constructor
  · intro h
    obtain ⟨s, hs⟩ := exists_leftOf p
    obtain ⟨t, ht⟩ := exists_leftOf q
    refine ⟨s, t, hs, ht, sameButRoot_iff.mpr ?_⟩
    rw [← hs.splitPath_normalPath, h, ht.splitPath_normalPath]
  · rintro ⟨s, t, hs, ht, hsame⟩
    refine splitPath_injective ?_
    rw [hs.splitPath_normalPath, ht.splitPath_normalPath, sameButRoot_iff.mp hsame]

/-- Colons that a blank keeps apart are removed too, a third colon stays, and `core` is a root only
when nothing or two colons follow it. -/
example : normalPath ": :alloc:::a" = "std:::a" ∧ normalPath ":::core" = ":core" ∧
    normalPath "core:a" = "core:a" := by
  decide +kernel

end CapabilityGate
