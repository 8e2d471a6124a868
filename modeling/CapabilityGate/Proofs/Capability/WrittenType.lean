import CapabilityGate.Program.Tree
import CapabilityGate.Proofs.Capability.PathParts
import CapabilityGate.Proofs.Capability.RootExchange

/-!
# Types that are written out

A type is written out by a path and the generic arguments at its end, which are written out in the
same way. Its text may stand in a descriptor and its syntax tree in a program. The two are made
apart from each other: the one is read character by character, the other is parsed with the program
around it.

## Main definitions

* `TypeName.normal`: a type with all its paths in normal form.
* `WrittenPath`, `WrittenType`: a type that is written out.
* `WrittenType.text`, `WrittenType.name`: its text, and what this is read as.
* `WrittenType.segments`, `WrittenType.tree`: its syntax tree.

## Main results

* `TypeName.parse_text`: the text of a type is parsed as the type, with its paths in normal form.
* `Descriptor.parse_of_type`, `Descriptor.parse_of_method`: the text of a type is that of a
  descriptor, and so is this text with the name of a method.
* `WrittenType.parse_text`: the text of a type that is written out is parsed as its name.
-/

namespace CapabilityGate

open Text Program

/-! ### The text of a type -/

namespace TypeName

mutual

/-- A type with all its paths in **normal form**. -/
def normal : TypeName → TypeName
  | mk path args => mk (normalPath path) (normalAll args)

/-- Several types with all their paths in normal form. -/
def normalAll : List TypeName → List TypeName
  | [] => []
  | t :: rest => t.normal :: normalAll rest

end

/-- A path is **legible** when it is made of the characters of paths and names something. -/
def LegiblePath (path : String) : Prop :=
  isProperPath (normalPath path) = true ∧ ∀ c ∈ path.toList, isPathChar c = true

/-- A legible path is **not empty**. -/
theorem LegiblePath.ne_nil {path : String} (h : LegiblePath path) : path.toList ≠ [] := by
  intro hnil
  obtain rfl : path = "" := String.toList_inj.mp hnil
  exact absurd h.1 (by decide)

/-- What stands behind a type in the arguments of another one starts with a comma or with the
bracket that closes them. -/
def EndsType (rest : List Char) : Prop :=
  ∀ c ∈ rest.head?, c = ',' ∨ c = '>'

namespace EndsType

variable {rest : List Char} (h : EndsType rest)

include h

/-- What ends a type starts with **no character of a path**. -/
theorem isPathChar_head : ∀ c ∈ rest.head?, isPathChar c = false := by
  intro c hc
  rcases h c hc with rfl | rfl <;> decide

/-- It does not start with a blank. -/
theorem dropBlanks : rest.dropWhile isBlank = rest := by
  cases rest with
  | nil => rfl
  | cons c more =>
      have hc : isBlank c = false := by rcases h c rfl with rfl | rfl <;> decide
      rw [List.dropWhile_cons, hc]
      rfl

/-- It does not open arguments. -/
theorem head_ne_open : rest.head? ≠ some '<' := by
  intro hhead
  exact absurd (h '<' hhead) (by decide)

end EndsType

/-- A text that starts with a path is read **as far as the path goes**. -/
theorem pathAt_append {path : List Char} (hne : path ≠ [])
    (hpath : ∀ c ∈ path, isPathChar c = true) (rest : List Char)
    (hrest : ∀ c ∈ rest.head?, isPathChar c = false) :
    pathAt (path ++ rest) = normalPath (String.ofList path) ∧
      behindPath (path ++ rest) = rest.dropWhile isBlank := by
  have hstart : (path ++ rest).dropWhile isBlank = path ++ rest := by
    obtain ⟨c, more, rfl⟩ := List.exists_cons_of_ne_nil hne
    have hc := isBlank_eq_false_of_isPathChar (hpath c (List.mem_cons_self ..))
    rw [List.cons_append, List.dropWhile_cons, hc]
    rfl
  have hbehind : rest.takeWhile isPathChar = [] ∧ rest.dropWhile isPathChar = rest := by
    cases rest with
    | nil => exact ⟨rfl, rfl⟩
    | cons c more =>
        have hc := hrest c rfl
        rw [List.takeWhile_cons, List.dropWhile_cons, hc]
        exact ⟨rfl, rfl⟩
  rw [pathAt, behindPath, hstart, List.takeWhile_append_of_pos hpath,
    List.dropWhile_append_of_pos hpath, hbehind.1, hbehind.2, List.append_nil]
  exact ⟨rfl, rfl⟩

/-- A blank in front of a type is passed over. -/
theorem Reads.blank {s rest : List Char} {t : TypeName} (h : Reads s t rest) :
    Reads (' ' :: s) t rest := by
  have hblanks : (' ' :: s).dropWhile isBlank = s.dropWhile isBlank := by
    rw [List.dropWhile_cons, if_pos (by decide)]
  have hpathAt : pathAt (' ' :: s) = pathAt s := by rw [pathAt, pathAt, hblanks]
  have hbehind : behindPath (' ' :: s) = behindPath s := by rw [behindPath, behindPath, hblanks]
  cases h with
  | bare hpath hopen =>
      rw [← hpathAt] at hpath ⊢
      rw [← hbehind] at hopen ⊢
      exact .bare hpath hopen
  | applied hpath hopen hargs =>
      rw [← hpathAt] at hpath ⊢
      exact .applied hpath (hbehind.trans hopen) hargs

/-- So is one in front of arguments. -/
theorem ReadsArgs.blank {s rest : List Char} {args : List TypeName} (h : ReadsArgs s args rest) :
    ReadsArgs (' ' :: s) args rest := by
  cases h with
  | last h hclose => exact .last h.blank hclose
  | more h hcomma hrest => exact .more h.blank hcomma hrest

/-- The text of generic arguments between their brackets. -/
def argsText : List TypeName → String
  | [] => ""
  | t :: rest => t.text ++ textMore rest

/-- The text of a type with arguments is its path **with their text in brackets**. -/
theorem text_mk_cons (path : String) (t : TypeName) (rest : List TypeName) :
    (mk path (t :: rest)).text = path ++ "<" ++ argsText (t :: rest) ++ ">" := by
  rw [text, argsText]
  simp only [String.append_assoc]

/-- Between two arguments stand **a comma and a blank**. -/
theorem argsText_cons_cons (t u : TypeName) (rest : List TypeName) :
    argsText (t :: u :: rest) = t.text ++ ", " ++ argsText (u :: rest) := by
  rw [argsText, textMore, argsText]
  simp only [String.append_assoc]

mutual

/-- What starts with the text of a type **starts with the type**, in normal form. -/
theorem Reads.of_text : ∀ {t : TypeName} {rest : List Char}, t.AllPaths LegiblePath →
    EndsType rest → Reads (t.text.toList ++ rest) t.normal rest
  | .mk path [], rest, ⟨hpath, _⟩, hends => by
    obtain ⟨hat, hbehind⟩ := pathAt_append hpath.ne_nil hpath.2 rest hends.isPathChar_head
    rw [String.ofList_toList] at hat
    rw [hends.dropBlanks] at hbehind
    have hreads : Reads (path.toList ++ rest) _ _ :=
      .bare (by rw [hat]; exact hpath.1) (by rw [hbehind]; exact hends.head_ne_open)
    rw [hat, hbehind] at hreads
    exact hreads
  | .mk path (a :: as), rest, ⟨hpath, hargs⟩, _ => by
    have hopen : "<".toList = ['<'] := by decide
    have hclose : ">".toList = ['>'] := by decide
    have hchars : (mk path (a :: as)).text.toList ++ rest =
        path.toList ++ '<' :: ((argsText (a :: as)).toList ++ '>' :: rest) := by
      rw [text_mk_cons]
      simp [hopen, hclose]
    obtain ⟨hat, hbehind⟩ := pathAt_append hpath.ne_nil hpath.2
      ('<' :: ((argsText (a :: as)).toList ++ '>' :: rest)) (by rintro c ⟨⟩; decide)
    rw [String.ofList_toList] at hat
    rw [List.dropWhile_cons_of_neg (by decide)] at hbehind
    have hreads := Reads.applied (by rw [hat]; exact hpath.1) hbehind
      (ReadsArgs.of_text (List.cons_ne_nil a as) hargs)
    rw [hat] at hreads
    rw [hchars]
    exact hreads

/-- The texts of arguments are read as **the arguments**, in normal form. -/
theorem ReadsArgs.of_text : ∀ {args : List TypeName} {rest : List Char}, args ≠ [] →
    ArgsAllPaths LegiblePath args →
      ReadsArgs ((argsText args).toList ++ '>' :: rest) (normalAll args) rest
  | [], _, hne, _ => absurd rfl hne
  | [a], rest, _, ⟨hpaths, _⟩ => by
    have hends : EndsType ('>' :: rest) := by
      rintro c ⟨⟩
      exact Or.inr rfl
    rw [argsText, textMore, String.append_empty]
    exact .last (Reads.of_text hpaths hends) (List.dropWhile_cons_of_neg (by decide))
  | a :: b :: bs, rest, _, ⟨hpaths, hmore⟩ => by
    have hcomma : ", ".toList = [',', ' '] := by decide
    have hends : EndsType (',' :: ' ' :: ((argsText (b :: bs)).toList ++ '>' :: rest)) := by
      rintro c ⟨⟩
      exact Or.inl rfl
    have hchars : (argsText (a :: b :: bs)).toList ++ '>' :: rest =
        a.text.toList ++ ',' :: ' ' :: ((argsText (b :: bs)).toList ++ '>' :: rest) := by
      rw [argsText_cons_cons]
      simp [hcomma]
    rw [hchars]
    exact .more (Reads.of_text hpaths hends) (List.dropWhile_cons_of_neg (by decide))
      (ReadsArgs.of_text (List.cons_ne_nil b bs) hmore).blank

end

/-- **The text of a type** is parsed as the type, with its paths in normal form. -/
theorem parse_text {t : TypeName} (h : t.AllPaths LegiblePath) : parse t.text = .ok t.normal := by
  have hends : EndsType [] := by
    rintro c ⟨⟩
  have hreads := Reads.of_text h hends
  rw [List.append_nil] at hreads
  exact parse_eq_ok_iff.mpr ⟨[], hreads, rfl⟩

/-! ### Marks that a type does not hold -/

/-- A character that stands in the **text of no type**. -/
structure IsForeign (c : Char) : Prop where
  /-- It is not blank. -/
  blank : isBlank c = false
  /-- It stands in no path. -/
  path : isPathChar c = false
  /-- It is no bracket and no comma. -/
  mark : c ∉ ['<', ',', '>']

/-- A character that does not have a property is not dropped with those that have it. -/
theorem mem_dropWhile {c : Char} {p : Char → Bool} (hp : p c = false) {s : List Char}
    (h : c ∈ s) : c ∈ s.dropWhile p := by
  rw [← List.takeWhile_append_dropWhile (p := p) (l := s), List.mem_append] at h
  refine h.resolve_left fun htake => ?_
  rw [List.mem_takeWhile_imp htake] at hp
  exact Bool.noConfusion hp

section Foreign

variable {c : Char} (hc : IsForeign c)

include hc

/-- A character that no type holds is not taken **with a path**. -/
theorem IsForeign.mem_behindPath {s : List Char} (h : c ∈ s) : c ∈ behindPath s :=
  mem_dropWhile hc.blank (mem_dropWhile hc.path (mem_dropWhile hc.blank h))

mutual

/-- What a type does not hold stands **behind the type**. -/
theorem Reads.mem_rest : ∀ {s rest : List Char} {t : TypeName}, Reads s t rest → c ∈ s → c ∈ rest
  | _, _, _, .bare _ _, h => hc.mem_behindPath h
  | _, _, _, .applied _ hopen hargs, h => by
    have hbehind := hc.mem_behindPath h
    rw [hopen] at hbehind
    rcases List.mem_cons.mp hbehind with rfl | hmore
    · exact absurd (by simp) hc.mark
    · exact hargs.mem_rest hmore

/-- What arguments do not hold stands behind them. -/
theorem ReadsArgs.mem_rest : ∀ {s rest : List Char} {args : List TypeName},
    ReadsArgs s args rest → c ∈ s → c ∈ rest
  | _, _, _, .last hreads hclose, h => by
    have hbehind := mem_dropWhile hc.blank (hreads.mem_rest h)
    rw [hclose] at hbehind
    rcases List.mem_cons.mp hbehind with rfl | hrest
    · exact absurd (by simp) hc.mark
    · exact hrest
  | _, _, _, .more hreads hcomma hargs, h => by
    have hbehind := mem_dropWhile hc.blank (hreads.mem_rest h)
    rw [hcomma] at hbehind
    rcases List.mem_cons.mp hbehind with rfl | hnext
    · exact absurd (by simp) hc.mark
    · exact hargs.mem_rest hnext

end

/-- What is parsed as a type does not hold a character that no type does. -/
theorem not_mem_of_parse {text : String} {t : TypeName} (h : parse text = .ok t) :
    c ∉ text.toList := by
  obtain ⟨rest, hreads, hend⟩ := parse_eq_ok_iff.mp h
  intro hmem
  have hrest := mem_dropWhile hc.blank (hreads.mem_rest hc hmem)
  rw [hend] at hrest
  exact List.not_mem_nil hrest

end Foreign

end TypeName

/-! ### Descriptors of a type -/

namespace Descriptor

/-- The sign in front of a method stands in **no type**. -/
theorem isForeign_hash : TypeName.IsForeign '#' :=
  ⟨by decide, by decide, by decide⟩

/-- A text that is parsed as a type is parsed as **the descriptor of the type**. -/
theorem parse_of_type {text : String} {t : TypeName} (h : TypeName.parse text = .ok t) :
    parse text = .ok ⟨t, none⟩ := by
  rw [parse, cutLastHash_eq_none (TypeName.not_mem_of_parse isForeign_hash h), h]
  rfl

/-- An identifier is made of characters of paths. -/
theorem isPathChar_of_isIdentifier {name : List Char} (h : isIdentifier name = true) :
    ∀ c ∈ name, TypeName.isPathChar c = true := by
  intro c hc
  rw [TypeName.isPathChar, isNameChar_of_isIdentifier h c hc, Bool.true_or]

/-- A path whose names are identifiers is made of characters of paths. -/
theorem isPathChar_of_mem_joinPath {names : List String}
    (h : ∀ name ∈ names, isIdentifier name.toList = true) :
    ∀ c ∈ (joinPath names).toList, TypeName.isPathChar c = true := by
  cases names with
  | nil => exact fun c hc => absurd hc List.not_mem_nil
  | cons first rest =>
      have hname : ∀ name ∈ first :: rest, ∀ c ∈ name.toList, TypeName.isPathChar c = true :=
        fun name hname => isPathChar_of_isIdentifier (h name hname)
      intro c hc
      rw [toList_joinPath_cons] at hc
      rcases List.mem_append.mp hc with hfirst | hrest
      · exact hname first List.mem_cons_self c hfirst
      · obtain ⟨name, hmem, hcname⟩ := List.mem_flatMap.mp hrest
        simp only [List.mem_cons] at hcname
        rcases hcname with rfl | rfl | hcname
        · decide
        · decide
        · exact hname name (List.mem_cons_of_mem first hmem) c hcname

/-- A text without blanks is left as it is when its ends are trimmed. -/
theorem trimBlanks_of_no_blank {s : String} (h : ∀ c ∈ s.toList, isBlank c = false) :
    trimBlanks s = s := by
  have hkept : ∀ {cs : List Char}, (∀ c ∈ cs, isBlank c = false) → cs.dropWhile isBlank = cs := by
    intro cs hcs
    cases cs with
    | nil => rfl
    | cons c rest =>
        rw [List.dropWhile_cons, hcs c (List.mem_cons_self ..)]
        rfl
  rw [trimBlanks, hkept h, hkept fun c hc => h c (List.mem_reverse.mp hc), List.reverse_reverse,
    String.ofList_toList]

/-- A text that is parsed as a type, with an identifier behind `#`, is parsed as the descriptor of
**this method of the type**. -/
theorem parse_of_method {text : String} {t : TypeName} (h : TypeName.parse text = .ok t)
    {method : String} (hmethod : isIdentifier method.toList = true) :
    parse (text ++ "#" ++ method) = .ok ⟨t, some method⟩ := by
  have hchars := isPathChar_of_isIdentifier hmethod
  have hhash : '#' ∉ method.toList := by
    intro hmem
    exact absurd (hchars '#' hmem) (by decide)
  have hblank : ∀ c ∈ method.toList, isBlank c = false := fun c hc =>
    isBlank_eq_false_of_isPathChar (hchars c hc)
  have hcut : (text ++ "#" ++ method).toList = text.toList ++ '#' :: method.toList := by
    have hmark : "#".toList = ['#'] := by decide
    simp [hmark]
  rw [parse, hcut, cutLastHash_append hhash]
  simp only [String.ofList_toList, trimBlanks_of_no_blank hblank, hmethod, if_true, h]
  rfl

/-- A name with `#` in it is **no method** of a descriptor: its last `#` is where the type ends. -/
theorem parse_ne_ok_of_hash {text method : String} (h : '#' ∈ method.toList) (d : Descriptor) :
    parse (text ++ "#" ++ method) ≠ .ok d := by
  obtain ⟨behind, before, hsplit, hlast⟩ := List.eq_append_cons_of_mem (List.mem_reverse.mpr h)
  have hmethod : method.toList = before.reverse ++ '#' :: behind.reverse := by
    rw [← List.reverse_reverse method.toList, hsplit]
    simp
  have hcut : (text ++ "#" ++ method).toList =
      (text.toList ++ '#' :: before.reverse) ++ '#' :: behind.reverse := by
    have hmark : "#".toList = ['#'] := by decide
    simp [hmark, hmethod]
  rw [parse, hcut, cutLastHash_append (by simpa using hlast)]
  dsimp only
  split
  next =>
    cases hparse : TypeName.parse (String.ofList (text.toList ++ '#' :: before.reverse)) with
    | ok t => exact absurd (by simp) (TypeName.not_mem_of_parse isForeign_hash hparse)
    | error e => rintro ⟨⟩
  next => rintro ⟨⟩

end Descriptor

/-! ### Types that are written out -/

/-- A path that is **written out**: one identifier that is no word for a module, or identifiers
behind a standard root. -/
structure WrittenPath where
  /-- The first name. -/
  first : Word
  /-- The other names. -/
  rest : List Word
  /-- A path of more than one name starts at a standard root. -/
  start : first.text ∈ standardRoots ∨ rest = [] ∧ first.text ∉ pathWords
  /-- The names are identifiers. -/
  identifiers : ∀ word ∈ first :: rest, isIdentifier word.text.toList = true

namespace WrittenPath

/-- The names of a path. -/
def names (path : WrittenPath) : List String :=
  path.first.text :: path.rest.map Word.text

/-- The text of a path. -/
def text (path : WrittenPath) : String :=
  joinPath path.names

variable (path : WrittenPath)

/-- The names of a path are **those of its words**. -/
theorem exists_of_mem_names {name : String} (h : name ∈ path.names) :
    ∃ word ∈ path.first :: path.rest, word.text = name := by
  have hnames : path.names = (path.first :: path.rest).map Word.text := rfl
  rw [hnames] at h
  exact List.mem_map.mp h

/-- Each of them is a word. -/
theorem isWord_of_mem_names : ∀ name ∈ path.names, isWord name = true := by
  intro name hname
  obtain ⟨word, -, rfl⟩ := path.exists_of_mem_names hname
  exact word.isWord

/-- So each of them is an identifier. -/
theorem isIdentifier_of_mem_names : ∀ name ∈ path.names, isIdentifier name.toList = true := by
  intro name hname
  obtain ⟨word, hword, rfl⟩ := path.exists_of_mem_names hname
  exact path.identifiers word hword

/-- The normal form of a path that is written out has the standard root, and else the names that
are written. -/
theorem normalPath_text : normalPath path.text =
    joinPath (standardName path.first.text :: path.rest.map Word.text) :=
  normalPath_joinPath path.isWord_of_mem_names

/-- The names of the normal form have what the names that are written have, and the standard root
does. -/
theorem forall_mem_standard {P : String → Prop} (hstd : P "std") (h : ∀ name ∈ path.names, P name) :
    ∀ name ∈ standardName path.first.text :: path.rest.map Word.text, P name := by
  intro name hname
  rcases List.mem_cons.mp hname with rfl | hrest
  · rw [standardName]
    split
    · exact hstd
    · exact h _ (List.mem_cons_self ..)
  · exact h name (List.mem_cons_of_mem _ hrest)

/-- The normal form of a path that is written out is **split into its names again**, the first one
as the root it stands for. -/
theorem splitPath_normalPath_text : splitPath (normalPath path.text) =
    standardName path.first.text :: path.rest.map Word.text := by
  rw [normalPath_text]
  exact splitPath_joinPath (path.forall_mem_standard (by decide)
    fun name hname => isPart_of_isWord (path.isWord_of_mem_names name hname))

/-- A path that is written out is **legible**. -/
theorem legible : TypeName.LegiblePath path.text := by
  constructor
  · rw [TypeName.isProperPath, splitPath_normalPath_text, List.all_eq_true]
    exact path.forall_mem_standard (by decide) path.isIdentifier_of_mem_names
  · exact Descriptor.isPathChar_of_mem_joinPath path.isIdentifier_of_mem_names

end WrittenPath

/-- A type that is **written out**: a path, and the generic arguments at its end. -/
inductive WrittenType where
  /-- The path and the arguments. -/
  | mk (path : WrittenPath) (args : List WrittenType)

namespace WrittenType

mutual

/-- The type as it is spelled. -/
def spelling : WrittenType → TypeName
  | mk path args => .mk path.text (spellings args)

/-- Several types as they are spelled. -/
def spellings : List WrittenType → List TypeName
  | [] => []
  | t :: rest => t.spelling :: spellings rest

end

/-- The **text** of a type: its path, then its arguments in angle brackets. -/
def text (t : WrittenType) : String :=
  t.spelling.text

/-- The **name** of a type: what its text is read as. -/
def name (t : WrittenType) : TypeName :=
  t.spelling.normal

mutual

/-- All paths in a type that is written out are legible. -/
theorem allPaths_spelling : ∀ t : WrittenType, t.spelling.AllPaths TypeName.LegiblePath
  | mk path args => ⟨path.legible, argsAllPaths_spellings args⟩

/-- So are those in several of them. -/
theorem argsAllPaths_spellings : ∀ ts : List WrittenType,
    TypeName.ArgsAllPaths TypeName.LegiblePath (spellings ts)
  | [] => trivial
  | t :: rest => ⟨allPaths_spelling t, argsAllPaths_spellings rest⟩

end

/-- **The text of a type that is written out** is parsed as the name of the type. -/
theorem parse_text (t : WrittenType) : TypeName.parse t.text = .ok t.name :=
  TypeName.parse_text t.allPaths_spelling

/-! ### Syntax trees -/

/-- The segments of a path with generic arguments at its end. -/
def segmentsWith (args : List Part) : Word → List Word → List Segment
  | last, [] => [.mk last (if args.isEmpty then .none else .angle) args]
  | first, next :: rest => .mk first .none [] :: segmentsWith args next rest

mutual

/-- The **segments** of a type, in the syntax tree of a program. -/
def segments : WrittenType → List Segment
  | mk path args => segmentsWith (parts args) path.first path.rest

/-- Several types as generic arguments. -/
def parts : List WrittenType → List Part
  | [] => []
  | t :: rest => .type (.path (.mk false t.segments)) :: parts rest

end

/-- A type that is written out has **at least one segment**. -/
theorem segments_ne_nil (t : WrittenType) : t.segments ≠ [] := by
  obtain ⟨path, args⟩ := t
  rw [segments]
  cases path.rest <;> exact List.cons_ne_nil _ _

/-- The **syntax tree** of a type. -/
def tree (t : WrittenType) : Ty :=
  .path (.mk false t.segments)

/-- The path of a function of a type, which has the arguments of the type before its own name. -/
def pathTo (t : WrittenType) (method : Segment) : Path :=
  .mk false (t.segments ++ [method])

mutual

/-- The **first names** of all paths in a type. -/
def firstNames : WrittenType → List String
  | mk path args => path.first.text :: firstNamesOfAll args

/-- The first names of all paths in several types. -/
def firstNamesOfAll : List WrittenType → List String
  | [] => []
  | t :: rest => t.firstNames ++ firstNamesOfAll rest

end

end WrittenType

end CapabilityGate
