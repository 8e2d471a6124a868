import CapabilityGate.Capability.TypeName
import CapabilityGate.Program.Word

/-!
# Paths that words spell

The names of a program text are words, and words hold neither blanks nor colons. Normalising the
path that words spell therefore changes nothing but its root. The same holds of all texts that a
path is not cut within.

## Main definitions

* `isPart`: whether a text holds together as one name of a path.

## Main results

* `isBlank_eq_false_of_isWordChar`, `ne_colon_of_isWordChar`: what a word does not hold.
* `normalPath_joinPath_of_parts`, `normalPath_joinPath`: the normal form of a path that parts or
  words spell.
* `normalPath_normalPath`: a normal form is its own normal form.
* `normalPath_normalPath_append`: the normal form of what stands behind a normal form.
-/

namespace CapabilityGate

open Text Program

/-! ### Characters of words -/

/-- Whether no number lies in a range of the one list and in a range of the other. -/
def rangesApart (a b : List (Nat × Nat)) : Bool :=
  a.all fun r => b.all fun s => r.2 < s.1 || s.2 < r.1

/-- Lists of ranges that are apart hold **no number in common**. -/
theorem inRanges_eq_false_of_rangesApart {a b : List (Nat × Nat)} {n : Nat}
    (hapart : rangesApart a b = true) (hn : inRanges b n = true) :
    inRanges a n = false := by
  rw [inRanges, List.any_eq_false]
  intro r hr hrn
  obtain ⟨s, hs, hsn⟩ := List.any_eq_true.mp hn
  have hrs := List.all_eq_true.mp (List.all_eq_true.mp hapart r hr) s hs
  simp only [Bool.and_eq_true, Bool.or_eq_true, decide_eq_true_eq] at hrn hsn hrs
  omega

/-- No character that names start with is **a blank**. -/
theorem rangesApart_nameStart_blank :
    rangesApart nameStartRanges blankRanges = true := by
  decide +kernel

/-- Neither is one that names go on with. -/
theorem rangesApart_nameContinue_blank :
    rangesApart nameContinueRanges blankRanges = true := by
  decide +kernel

/-- A blank of ASCII is none of the characters of words. -/
theorem isWordChar_eq_false_of_ascii_blank {n : Nat} (hn : n = 32 ∨ 9 ≤ n ∧ n ≤ 13) :
    isWordChar (Char.ofNat n) = false := by
  have hcases : n = 32 ∨ n = 9 ∨ n = 10 ∨ n = 11 ∨ n = 12 ∨ n = 13 := by omega
  rcases hcases with rfl | rfl | rfl | rfl | rfl | rfl <;> decide

/-- A character of a word is **not blank**. -/
theorem isBlank_eq_false_of_isWordChar {c : Char} (hc : isWordChar c = true) :
    isBlank c = false := by
  rw [Bool.eq_false_iff]
  intro hblank
  rw [isBlank] at hblank
  split at hblank
  next hascii =>
    have hn : c.toNat = 32 ∨ 9 ≤ c.toNat ∧ c.toNat ≤ 13 := by
      simp only [Bool.or_eq_true, beq_iff_eq, Bool.and_eq_true, decide_eq_true_eq] at hblank
      rcases hblank with rfl | hrange
      · exact Or.inl rfl
      · exact Or.inr hrange
    have hword := isWordChar_eq_false_of_ascii_blank hn
    rw [Char.ofNat_toNat, hc] at hword
    exact Bool.noConfusion hword
  next hwide =>
    have hstart := inRanges_eq_false_of_rangesApart rangesApart_nameStart_blank hblank
    have hcontinue := inRanges_eq_false_of_rangesApart rangesApart_nameContinue_blank hblank
    have hhash : (c == '#') = false := by
      rw [beq_eq_false_iff_ne]
      rintro rfl
      exact hwide (by decide)
    rw [isWordChar, startsName, continuesName, if_neg hwide, if_neg hwide, hstart, hcontinue,
      hhash] at hc
    exact Bool.noConfusion hc

/-- A character of a word is **no colon**. -/
theorem ne_colon_of_isWordChar {c : Char} (hc : isWordChar c = true) : c ≠ ':' := by
  rintro rfl
  exact absurd hc (by decide)

/-- What `isWord` says of a text. -/
theorem isWord_iff {s : String} :
    isWord s = true ↔ s.toList ≠ [] ∧ ∀ c ∈ s.toList, isWordChar c = true := by
  simp [isWord]

/-- A word is not empty, and none of its characters is a colon. -/
theorem not_colon_mem_of_isWord {s : String} (h : isWord s = true) : ':' ∉ s.toList := by
  intro hmem
  exact ne_colon_of_isWordChar ((isWord_iff.mp h).2 ':' hmem) rfl

/-! ### Parts of paths -/

/-- Whether **no colon** of a text ends it or stands in front of another one. A path is cut at
two colons from the left, so it is not cut within such a text. -/
def colonsApart : List Char → Bool
  | [] => true
  | c :: rest => (c != ':' || rest.head?.any (· != ':')) && colonsApart rest

/-- Whether a text holds together as one **part** of a path: it holds no blanks and is not cut where
it stands in a path. -/
def isPart (s : String) : Bool :=
  s.toList.all (!isBlank ·) && colonsApart s.toList

attribute [local simp] colonsApart

/-- A text without colons has **no two of them together**. -/
theorem colonsApart_of_not_mem {s : List Char} (h : ':' ∉ s) : colonsApart s = true := by
  induction s with
  | nil => rfl
  | cons c rest ih =>
      rw [List.mem_cons, not_or] at h
      simp [ih h.2, Ne.symm h.1]

/-- What ends a text without two colons together **has none either**. -/
theorem colonsApart_of_append {s t : List Char} (h : colonsApart (s ++ t) = true) :
    colonsApart t = true := by
  induction s with
  | nil => exact h
  | cons c rest ih =>
      rw [List.cons_append, colonsApart, Bool.and_eq_true] at h
      exact ih h.2

/-- A text whose colons are apart does not start with **two colons**, whatever stands behind. -/
theorem ne_colons_of_colonsApart {c : Char} {s : List Char} (h : colonsApart (c :: s) = true)
    (t more : List Char) : c :: s ++ t ≠ ':' :: ':' :: more := by
  intro heq
  obtain ⟨rfl, hrest⟩ := List.cons.inj heq
  rw [colonsApart, Bool.and_eq_true] at h
  cases s with
  | nil => exact Bool.noConfusion h.1
  | cons d rest =>
      obtain ⟨rfl, -⟩ := List.cons.inj hrest
      exact Bool.noConfusion h.1

/-- A text is a part of a path if it has **no blanks and no two colons together**. -/
theorem isPart_iff {s : String} :
    isPart s = true ↔
      (∀ c ∈ s.toList, isBlank c = false) ∧ colonsApart s.toList = true := by
  simp [isPart]

/-- A word is **one part** of a path. -/
theorem isPart_of_isWord {s : String} (h : isWord s = true) : isPart s = true :=
  isPart_iff.mpr ⟨fun c hc => isBlank_eq_false_of_isWordChar ((isWord_iff.mp h).2 c hc),
    colonsApart_of_not_mem (not_colon_mem_of_isWord h)⟩

/-! ### The characters of a path -/

/-- What stands behind the first name of a path that goes on with the names `rest`. -/
def tailChars (rest : List String) : List Char :=
  rest.flatMap fun n => ':' :: ':' :: n.toList

@[simp] theorem tailChars_nil : tailChars [] = [] := rfl

@[simp] theorem tailChars_cons (n : String) (rest : List String) :
    tailChars (n :: rest) = ':' :: ':' :: (n.toList ++ tailChars rest) := by
  simp [tailChars]

/-- The characters of a path: its first name, then the others, each behind two colons. -/
theorem toList_joinPath_cons (first : String) (rest : List String) :
    (joinPath (first :: rest)).toList = first.toList ++ tailChars rest := by
  induction rest generalizing first with
  | nil => simp [joinPath]
  | cons n rest ih =>
      have hcons : joinPath (first :: n :: rest) = first ++ "::" ++ joinPath (n :: rest) := by
        simp [joinPath, String.intercalate_cons_cons, String.append_assoc]
      rw [hcons, String.toList_append, String.toList_append, ih n, tailChars_cons]
      simp

/-- What goes on behind a name is nothing, or starts with two colons. -/
theorem tailChars_cases (rest : List String) :
    tailChars rest = [] ∨ ∃ more, tailChars rest = ':' :: ':' :: more := by
  cases rest with
  | nil => exact Or.inl rfl
  | cons n rest => exact Or.inr ⟨_, tailChars_cons n rest⟩

/-! ### Normal forms -/

/-- The name of a root: `core` and `alloc` are read as `std`. -/
def standardName (name : String) : String :=
  if name == "core" || name == "alloc" then "std" else name

/-- Behind a root that is followed by two colons, or by nothing, stands the rest of the path. -/
theorem afterRoot_self (root : List Char) (rest : List String) :
    afterRoot root (root ++ tailChars rest) = some (tailChars rest) := by
  have hprefix : root.isPrefixOf (root ++ tailChars rest) = true :=
    List.isPrefixOf_iff_prefix.mpr (List.prefix_append root _)
  rw [afterRoot, if_pos hprefix, List.drop_left]
  rcases tailChars_cases rest with hnil | ⟨more, hcons⟩
  · rw [hnil]
  · rw [hcons]
    rfl

/-- A path that starts with a part **has no other root** than that part. -/
theorem afterRoot_eq_none {root name : List Char} {rest : List String}
    (hroot : ':' ∉ root) (hname : colonsApart name = true) (hne : name ≠ root) :
    afterRoot root (name ++ tailChars rest) = none := by
  rw [afterRoot]
  split
  next hprefix =>
    obtain ⟨behind, hbehind⟩ := List.isPrefixOf_iff_prefix.mp hprefix
    rw [← hbehind, List.drop_left]
    rcases List.append_eq_append_iff.mp hbehind with ⟨more, hmore, hrest⟩ | ⟨more, hmore, hrest⟩
    · -- the name goes on behind the root, and not with two colons
      cases more with
      | nil => exact absurd (by simpa using hmore) hne
      | cons c more =>
          rw [hmore] at hname
          have hcolons := ne_colons_of_colonsApart (colonsApart_of_append hname) (tailChars rest)
          rw [hrest]
          split
          next heq => exact absurd heq (List.cons_ne_nil _ _)
          next heq => exact absurd heq (hcolons _)
          next => rfl
    · -- the root goes on behind the name, so it holds a colon
      cases more with
      | nil => exact absurd (by simpa using hmore.symm) hne
      | cons c more =>
          have hc : c = ':' := by
            rcases tailChars_cases rest with hnil | ⟨_, hcons⟩
            · simp [hnil] at hrest
            · rw [hcons, List.cons_append] at hrest
              exact (List.cons.inj hrest).1.symm
          exact absurd (by simp [hmore, hc]) hroot
  next => rfl

/-- The root of a path that starts with a part. -/
theorem standardRoot_append {name : String} {rest : List String}
    (hname : colonsApart name.toList = true) :
    standardRoot (name.toList ++ tailChars rest) =
      (standardName name).toList ++ tailChars rest := by
  have hcore : ':' ∉ ['c', 'o', 'r', 'e'] := by decide
  have halloc : ':' ∉ ['a', 'l', 'l', 'o', 'c'] := by decide
  rw [standardRoot]
  by_cases h₁ : name = "core"
  · subst h₁
    have hroot : "core".toList = ['c', 'o', 'r', 'e'] := by decide
    rw [hroot, afterRoot_self]
    rfl
  · have h₁' : name.toList ≠ ['c', 'o', 'r', 'e'] := fun h => h₁ (String.toList_inj.mp h)
    rw [afterRoot_eq_none hcore hname h₁']
    by_cases h₂ : name = "alloc"
    · subst h₂
      have hroot : "alloc".toList = ['a', 'l', 'l', 'o', 'c'] := by decide
      rw [hroot, afterRoot_self]
      rfl
    · have h₂' : name.toList ≠ ['a', 'l', 'l', 'o', 'c'] := fun h => h₂ (String.toList_inj.mp h)
      rw [afterRoot_eq_none halloc hname h₂']
      simp [standardName, h₁, h₂]

/-- A text without blanks is left as it is when blanks are dropped. -/
theorem withoutBlanks_of_no_blank {s : List Char} (h : ∀ c ∈ s, isBlank c = false) :
    withoutBlanks s = s := by
  rw [withoutBlanks, List.filter_eq_self]
  intro c hc
  rw [Bool.not_eq_true']
  exact h c hc

/-- Parts hold no blanks, and neither does a path that **parts spell**. -/
theorem withoutBlanks_joinPath {first : String} {rest : List String}
    (hparts : ∀ n ∈ first :: rest, isPart n = true) :
    withoutBlanks (joinPath (first :: rest)).toList = (joinPath (first :: rest)).toList := by
  have hpart : ∀ n ∈ first :: rest, ∀ c ∈ n.toList, isBlank c = false := fun n hn =>
    (isPart_iff.mp (hparts n hn)).1
  have hcolon : isBlank ':' = false := by decide
  refine withoutBlanks_of_no_blank fun c hc => ?_
  rw [toList_joinPath_cons] at hc
  rcases List.mem_append.mp hc with hfirst | hrest
  · exact hpart first (List.mem_cons_self ..) c hfirst
  · obtain ⟨n, hn, hcn⟩ := List.mem_flatMap.mp hrest
    simp only [List.mem_cons] at hcn
    rcases hcn with rfl | rfl | hcn
    · exact hcolon
    · exact hcolon
    · exact hpart n (List.mem_cons_of_mem _ hn) c hcn

/-- The **normal form** of a path that parts spell: the path itself, with the standard root. -/
theorem normalPath_joinPath_of_parts {first : String} {rest : List String}
    (hparts : ∀ n ∈ first :: rest, isPart n = true) (hne : first.toList ≠ []) :
    normalPath (joinPath (first :: rest)) = joinPath (standardName first :: rest) := by
  obtain ⟨-, hapart⟩ := isPart_iff.mp (hparts first (List.mem_cons_self ..))
  have hcolons : dropLeadingColons (first.toList ++ tailChars rest) =
      first.toList ++ tailChars rest := by
    obtain ⟨c, more, hcons⟩ := List.exists_cons_of_ne_nil hne
    rw [hcons] at hapart ⊢
    exact dropLeadingColons.eq_2 _ (ne_colons_of_colonsApart hapart (tailChars rest))
  rw [normalPath, withoutBlanks_joinPath hparts, toList_joinPath_cons, hcolons,
    standardRoot_append hapart, ← toList_joinPath_cons, String.ofList_toList]

/-- The normal form of a path that **words spell**. -/
theorem normalPath_joinPath {first : String} {rest : List String}
    (hwords : ∀ n ∈ first :: rest, isWord n = true) :
    normalPath (joinPath (first :: rest)) = joinPath (standardName first :: rest) :=
  normalPath_joinPath_of_parts (fun n hn => isPart_of_isWord (hwords n hn))
    (isWord_iff.mp (hwords first (List.mem_cons_self ..))).1

/-! ### Normal forms of normal forms -/

/-- What is left without the leading colons is part of the text. -/
theorem mem_of_mem_dropLeadingColons {c : Char} {s : List Char}
    (h : c ∈ dropLeadingColons s) : c ∈ s := by
  fun_induction dropLeadingColons s with
  | case1 rest ih => exact List.mem_cons_of_mem _ (List.mem_cons_of_mem _ (ih h))
  | case2 s => exact h

/-- Leading colons are dropped once and for all. -/
theorem dropLeadingColons_dropLeadingColons (s : List Char) :
    dropLeadingColons (dropLeadingColons s) = dropLeadingColons s := by
  fun_induction dropLeadingColons s with
  | case1 rest ih => exact ih
  | case2 s hs => exact dropLeadingColons.eq_2 s hs

/-- What stands behind a root is nothing, or starts with two colons. -/
theorem eq_of_afterRoot {root path rest : List Char} (h : afterRoot root path = some rest) :
    path = root ++ rest ∧ (rest = [] ∨ ∃ more, rest = ':' :: ':' :: more) := by
  rw [afterRoot] at h
  split at h
  next hprefix =>
    obtain ⟨behind, rfl⟩ := List.isPrefixOf_iff_prefix.mp hprefix
    rw [List.drop_left] at h
    split at h
    next =>
      obtain rfl := Option.some.inj h
      exact ⟨rfl, Or.inl rfl⟩
    next more =>
      obtain rfl := Option.some.inj h
      exact ⟨rfl, Or.inr ⟨more, rfl⟩⟩
    next => exact absurd h (Option.some_ne_none rest).symm
  next => exact absurd h (Option.some_ne_none rest).symm

/-- The roots that are read as the standard one. -/
def otherRoots : List (List Char) :=
  [['c', 'o', 'r', 'e'], ['a', 'l', 'l', 'o', 'c']]

/-- The standard root is read in place of another one, or the path is **left as it is**. -/
theorem standardRoot_cases (path : List Char) :
    (∃ root ∈ otherRoots, ∃ rest, path = root ++ rest ∧
        (rest = [] ∨ ∃ more, rest = ':' :: ':' :: more) ∧
        standardRoot path = 's' :: 't' :: 'd' :: rest) ∨
      standardRoot path = path := by
  rw [standardRoot]
  split
  next rest hcore =>
    obtain ⟨hpath, hrest⟩ := eq_of_afterRoot hcore
    exact Or.inl ⟨_, List.mem_cons_self, rest, hpath, hrest, rfl⟩
  next =>
    split
    next rest halloc =>
      obtain ⟨hpath, hrest⟩ := eq_of_afterRoot halloc
      exact Or.inl ⟨_, List.mem_cons_of_mem _ List.mem_cons_self, rest, hpath, hrest, rfl⟩
    next => exact Or.inr rfl

/-- The normal form of a path drops blanks, then colons in front, **and then sets the root**. -/
theorem toList_normalPath (path : String) :
    (normalPath path).toList = standardRoot (dropLeadingColons (withoutBlanks path.toList)) := by
  rw [normalPath, String.toList_ofList]

/-- A normal form holds **no blanks**. -/
theorem withoutBlanks_normalPath (path : String) :
    withoutBlanks (normalPath path).toList = (normalPath path).toList := by
  have hblank : ∀ c ∈ dropLeadingColons (withoutBlanks path.toList), isBlank c = false := by
    intro c hc
    have hkept := mem_of_mem_dropLeadingColons hc
    rw [withoutBlanks, List.mem_filter, Bool.not_eq_true'] at hkept
    exact hkept.2
  rw [toList_normalPath]
  refine withoutBlanks_of_no_blank fun c hc => ?_
  rcases standardRoot_cases (dropLeadingColons (withoutBlanks path.toList)) with
    ⟨root, -, rest, hpath, -, hstd⟩ | hself
  · have hletters : isBlank 's' = false ∧ isBlank 't' = false ∧ isBlank 'd' = false := by decide
    rw [hstd] at hc
    simp only [List.mem_cons] at hc
    rcases hc with rfl | rfl | rfl | hc
    · exact hletters.1
    · exact hletters.2.1
    · exact hletters.2.2
    · exact hblank c (hpath ▸ List.mem_append_right root hc)
  · exact hblank c (hself ▸ hc)

/-- A normal form is **its own normal form**. -/
theorem normalPath_normalPath (path : String) : normalPath (normalPath path) = normalPath path := by
  have hfixed : standardRoot (dropLeadingColons (normalPath path).toList) =
      (normalPath path).toList := by
    rw [toList_normalPath]
    rcases standardRoot_cases (dropLeadingColons (withoutBlanks path.toList)) with
      ⟨root, -, rest, -, -, hstd⟩ | hself
    · rw [hstd]
      rfl
    · rw [hself, dropLeadingColons_dropLeadingColons, hself]
  rw [normalPath, withoutBlanks_normalPath, hfixed, String.ofList_toList]

end CapabilityGate
