import CapabilityGate.Proofs.Program.TokenPlaces
import Mathlib.Data.List.Induction

/-!
# Names cut into runs

When every group is opened, the names among tokens fall into runs: names with two colons between
them, and each run as long as it can be. The scan for paths finds these runs in the order in which
they stand, each with all its names. It leaves out those that the sign of a macro parameter stands
in front of, and it looks for this sign behind colons too. So `$ :: a` loses a name, although the
sign has no name behind it that could be a parameter.

## Main definitions

* `Token.leaves`: the tokens of a token, one by one.
* `Stretch`: a run of names with what stands in front of it.
* `IsCut`: tokens are cut into stretches.
* `Stretch.AtSign`, `Stretch.Hidden`: the run starts at a sign, the scan leaves the run out.

## Main results

* `exists_cut`: tokens can be cut.
* `names_cut_into_paths`: the runs that are found, and when they are all but those at a sign.
-/

namespace CapabilityGate.Program

/-! ### Tokens one by one -/

mutual

/-- The tokens of a token **one by one**: a group is its delimiters, which are no names and no
marks, with what stands between them. -/
def Token.leaves : Token → List Token
  | .name word p => [.name word p]
  | .mark c joint p => [.mark c joint p]
  | .literal text p => [.literal text p]
  | .group delimiter body p q =>
      .literal delimiter.opening p :: (Token.leavesAll body ++ [.literal delimiter.closing q])

/-- The tokens of several tokens one by one. -/
def Token.leavesAll : List Token → List Token
  | [] => []
  | t :: rest => t.leaves ++ Token.leavesAll rest

end

/-- The name that a token is, if it is one. -/
def Token.name? : Token → Option String
  | .name word _ => some word.text
  | _ => none

/-- The names among tokens that stand in no group, in order. -/
def namesOf (ts : List Token) : List String :=
  ts.filterMap Token.name?

mutual

/-- The tokens of a token one by one **are no groups**. -/
theorem Token.isLeaf_of_mem_leaves (t : Token) : ∀ u ∈ t.leaves, u.isLeaf = true := by
  cases t with
  | name word p => simp [Token.leaves, Token.isLeaf]
  | mark c joint p => simp [Token.leaves, Token.isLeaf]
  | literal text p => simp [Token.leaves, Token.isLeaf]
  | group delimiter body p q =>
      have hbody := Token.isLeaf_of_mem_leavesAll body
      simpa [Token.leaves, Token.isLeaf, or_imp, forall_and] using hbody

/-- Neither are those of several tokens. -/
theorem Token.isLeaf_of_mem_leavesAll (ts : List Token) :
    ∀ u ∈ Token.leavesAll ts, u.isLeaf = true := by
  cases ts with
  | nil => simp [Token.leavesAll]
  | cons t rest =>
      intro u hu
      rw [Token.leavesAll] at hu
      rcases List.mem_append.mp hu with hu | hu
      · exact Token.isLeaf_of_mem_leaves t u hu
      · exact Token.isLeaf_of_mem_leavesAll rest u hu

end

mutual

/-- A scan reads a token **as if its groups were opened**. -/
theorem Run.tokens_leaves (r : Run) (t : Token) : r.tokens t.leaves = r.token t := by
  cases t with
  | name word p => rw [Token.leaves, Run.tokens, Run.tokens]
  | mark c joint p => rw [Token.leaves, Run.tokens, Run.tokens]
  | literal text p => rw [Token.leaves, Run.tokens, Run.tokens]
  | group delimiter body p q =>
      rw [Token.leaves, Run.tokens, Run.tokens_append, Run.token, Run.tokens_leavesAll r.flush body,
        Run.tokens, Run.tokens, Run.token, Run.token]

/-- So it reads several tokens. -/
theorem Run.tokens_leavesAll (r : Run) (ts : List Token) :
    r.tokens (Token.leavesAll ts) = r.tokens ts := by
  cases ts with
  | nil => rw [Token.leavesAll]
  | cons t rest =>
      rw [Token.leavesAll, Run.tokens_append, Run.tokens_leaves r t,
        Run.tokens_leavesAll (r.token t) rest, Run.tokens]

end

/-- The names among tokens are those among the first **and then those among the others**. -/
theorem namesOf_append (ts us : List Token) : namesOf (ts ++ us) = namesOf ts ++ namesOf us :=
  List.filterMap_append

/-- There are no names among tokens if there are none **in front of the last** and this is none. -/
theorem namesOf_concat_eq_nil {ts : List Token} {t : Token} :
    namesOf (ts ++ [t]) = [] ↔ namesOf ts = [] ∧ t.name? = none := by
  rw [namesOf_append, List.append_eq_nil_iff, namesOf, namesOf, List.filterMap_eq_nil_iff,
    List.filterMap_eq_nil_iff, List.forall_mem_singleton]

/-- The names among tokens that spell a path are **the names of the path**. -/
theorem Spells.namesOf_eq {ts : List Token} {names : List String} {at_ : Position}
    (h : Spells ts names at_) : namesOf ts = names := by
  induction h with
  | name => rfl
  | join _ ih =>
      rw [namesOf_append, ih]
      rfl

/-! ### Tokens cut into stretches -/

/-- A run of names, with the tokens in front of it that belong to no run. Colons that a path starts
with are among these. -/
structure Stretch where
  /-- The tokens in front of the run. -/
  gap : List Token
  /-- The tokens of the run. -/
  path : List Token
  /-- The names of the run. -/
  names : List String
  /-- Where the first of them stands. -/
  start : Position

/-- Tokens **are cut** into runs of names and what stands in front of each, up to a rest behind the
last one. No run goes on with the one in front of it. -/
structure IsCut (ts : List Token) (stretches : List Stretch) (rest : List Token) : Prop where
  /-- Together they are the tokens. -/
  eq : ts = stretches.flatMap (fun s => s.gap ++ s.path) ++ rest
  /-- A run is names with two colons between them. -/
  spells : ∀ s ∈ stretches, Spells s.path s.names s.start
  /-- No names stand in front of a run. -/
  gap : ∀ s ∈ stretches, namesOf s.gap = []
  /-- No names are left. -/
  rest : namesOf rest = []
  /-- There is more between two runs than two colons, or less. -/
  longest : ∀ s ∈ stretches.tail, ¬ Behind .full [] s.gap

/-- The last run goes on behind two colons. -/
theorem IsCut.join {ts gap : List Token} {stretches : List Stretch} {s : Stretch}
    (h : IsCut ts (stretches ++ [s]) gap) (hgap : Behind .full [] gap) (word : Word)
    (p : Position) :
    IsCut (ts ++ [.name word p]) (stretches ++
      [{ s with path := s.path ++ (gap ++ [.name word p]), names := s.names ++ [word.text] }])
      [] := by
  obtain ⟨hspells, hlast⟩ := List.forall_mem_append.mp h.spells
  obtain ⟨hgaps, hfront⟩ := List.forall_mem_append.mp h.gap
  refine ⟨?_, List.forall_mem_append.mpr ⟨hspells, ?_⟩,
    List.forall_mem_append.mpr ⟨hgaps, ?_⟩, rfl, ?_⟩
  · simp [h.eq]
  · rw [List.forall_mem_singleton] at hlast ⊢
    cases hgap with
    | full => exact hlast.join
  · rw [List.forall_mem_singleton] at hfront ⊢
    exact hfront
  · have hlongest := h.longest
    cases stretches with
    | nil => exact fun u hu => absurd hu List.not_mem_nil
    | cons first more => simpa [or_imp, forall_and] using hlongest

/-- A name that does not go on with the last run **starts one**. -/
theorem IsCut.concat {ts gap : List Token} {stretches : List Stretch}
    (h : IsCut ts stretches gap) (hgap : stretches = [] ∨ ¬ Behind .full [] gap) (word : Word)
    (p : Position) :
    IsCut (ts ++ [.name word p]) (stretches ++ [⟨gap, [.name word p], [word.text], p⟩]) [] := by
  refine ⟨?_, ?_, ?_, rfl, ?_⟩
  · simp [h.eq]
  · simpa [or_imp, forall_and] using ⟨h.spells, Spells.name⟩
  · simpa [or_imp, forall_and] using ⟨h.gap, h.rest⟩
  · have hlongest := h.longest
    cases stretches with
    | nil => exact fun u hu => absurd hu List.not_mem_nil
    | cons first more =>
        have hgap := hgap.resolve_left (List.cons_ne_nil first more)
        simpa [or_imp, forall_and] using ⟨hlongest, hgap⟩

/-- **Tokens can be cut.** -/
theorem exists_cut (ts : List Token) : ∃ stretches rest, IsCut ts stretches rest := by
  induction ts using List.reverseRecOn with
  | nil => exact ⟨[], [], rfl, by simp, by simp, rfl, by simp⟩
  | append_singleton ts t ih =>
      obtain ⟨stretches, rest, hcut⟩ := ih
      cases ht : t.name? with
      | none =>
          refine ⟨stretches, rest ++ [t], ?_, hcut.spells, hcut.gap,
            namesOf_concat_eq_nil.mpr ⟨hcut.rest, ht⟩, hcut.longest⟩
          rw [hcut.eq, List.append_assoc]
      | some name =>
          obtain ⟨word, p, rfl⟩ : ∃ word p, t = .name word p := by
            cases t with
            | name word p => exact ⟨word, p, rfl⟩
            | mark c joint p => exact nomatch ht
            | literal text p => exact nomatch ht
            | group delimiter body p q => exact nomatch ht
          by_cases hjoin : stretches = [] ∨ ¬ Behind .full [] rest
          · exact ⟨_, _, hcut.concat hjoin word p⟩
          · rw [not_or, not_not] at hjoin
            obtain ⟨hne, hrest⟩ := hjoin
            rw [← List.dropLast_concat_getLast hne] at hcut
            exact ⟨_, _, hcut.join hrest word p⟩

/-- The names of tokens that are cut are **those of the runs**. -/
theorem IsCut.namesOf_eq {ts rest : List Token} {stretches : List Stretch}
    (h : IsCut ts stretches rest) : namesOf ts = stretches.flatMap Stretch.names := by
  rw [h.eq, namesOf_append, h.rest, List.append_nil]
  have hspells := h.spells
  have hgap := h.gap
  clear h
  induction stretches with
  | nil => rfl
  | cons s more ih =>
      obtain ⟨hs, hmore⟩ := List.forall_mem_cons.mp hspells
      obtain ⟨hgap, hgaps⟩ := List.forall_mem_cons.mp hgap
      rw [List.flatMap_cons, List.flatMap_cons, namesOf_append, namesOf_append, hgap, hs.namesOf_eq,
        ih hmore hgaps, List.nil_append]

/-! ### What stands in front of a run -/

/-- Whether a token is the sign of a macro parameter. -/
def Token.isSign : Token → Bool
  | .mark c _ _ => c == '$'
  | _ => false

/-- Whether tokens end with a sign can be **told from the last one**. -/
theorem endsWithSign_iff {ts : List Token} :
    EndsWithSign ts ↔ ts.getLast?.any Token.isSign = true := by
  rw [Option.any_eq_true]
  constructor
  · rintro ⟨front, joint, p, rfl⟩
    exact ⟨_, List.getLast?_concat, rfl⟩
  · rintro ⟨t, hlast, ht⟩
    obtain ⟨front, rfl⟩ := List.getLast?_eq_some_iff.mp hlast
    cases t with
    | mark c joint p =>
        obtain rfl := eq_of_beq ht
        exact ⟨front, joint, p, rfl⟩
    | name word p => exact nomatch ht
    | literal text p => exact nomatch ht
    | group delimiter body p q => exact nomatch ht

instance : DecidablePred EndsWithSign :=
  fun _ => decidable_of_iff _ endsWithSign_iff.symm

/-- The sign of a parameter **stands behind**: nothing is between it and what comes next, or one
colon that is joined to the next mark, or two. -/
def SignBehind (ts : List Token) : Prop :=
  ∃ separator front, Behind separator front ts ∧ EndsWithSign front

/-- Whether the sign of a parameter stands in front, or behind colons that belong together. The
tokens are read from their end. -/
def signFirst : List Token → Bool
  | .mark '$' _ _ :: _ => true
  | .mark ':' true _ :: .mark '$' _ _ :: _ => true
  | .mark ':' _ _ :: .mark ':' true _ :: .mark '$' _ _ :: _ => true
  | _ => false

/-- Whether a sign stands behind can be told **by reading backwards**. -/
theorem signBehind_iff {ts : List Token} : SignBehind ts ↔ signFirst ts.reverse = true := by
  constructor
  · rintro ⟨separator, front, hbehind, more, joint, p, rfl⟩
    cases hbehind with
    | nothing => simp [signFirst]
    | half => simp [signFirst]
    | full => simp [signFirst]
  · intro h
    have hts : ts = ts.reverse.reverse := ts.reverse_reverse.symm
    rw [hts]
    revert h
    generalize ts.reverse = us
    intro h
    unfold signFirst at h
    split at h
    next joint p front =>
      rw [List.reverse_cons]
      exact ⟨.nothing, _, .nothing, _, joint, p, rfl⟩
    next p joint q front =>
      rw [List.reverse_cons, List.reverse_cons]
      exact ⟨.half, _, .half, _, joint, q, rfl⟩
    next joint p q joint' o front =>
      rw [List.reverse_cons, List.reverse_cons, List.reverse_cons, List.append_assoc _ [_] [_]]
      exact ⟨.full, _, .full, _, joint', o, rfl⟩
    next => exact nomatch h

instance : DecidablePred SignBehind :=
  fun _ => decidable_of_iff _ signBehind_iff.symm

namespace Stretch

/-- The run **starts at a sign** of a macro parameter, and not with `crate`. -/
def AtSign (s : Stretch) : Prop :=
  EndsWithSign s.gap ∧ s.names.head? ≠ some "crate"

/-- The run **is left out**: a sign of a macro parameter stands behind it, colons or not, and it
does not start with `crate`. -/
def Hidden (s : Stretch) : Prop :=
  SignBehind s.gap ∧ s.names.head? ≠ some "crate"

instance : DecidablePred AtSign :=
  fun s => inferInstanceAs (Decidable (EndsWithSign s.gap ∧ s.names.head? ≠ some "crate"))

instance : DecidablePred Hidden :=
  fun s => inferInstanceAs (Decidable (SignBehind s.gap ∧ s.names.head? ≠ some "crate"))

/-- A run that starts at a sign is **hidden**: with nothing between them the sign stands behind. -/
theorem AtSign.hidden {s : Stretch} (h : s.AtSign) : s.Hidden :=
  ⟨⟨.nothing, s.gap, .nothing, h.1⟩, h.2⟩

end Stretch

/-- The runs of stretches, **but for some of them**, each with the place of its first name. -/
def runsBut (hides : Stretch → Prop) [DecidablePred hides] (stretches : List Stretch) :
    List (List String × Position) :=
  (stretches.filter fun s => ¬ hides s).map fun s => (s.names, s.start)

/-! ### The scan of a stretch -/

namespace Run

variable {r : Run} {gap : List Token}

/-- A scan whose run has ended keeps **nothing but the runs it found**. -/
theorem flush_eq (r : Run) : r.flush = { empty with done := r.flush.done } := by
  obtain ⟨hnames, hstart, hseparator, hparameter, hhidden⟩ := r.flush_fields
  rw [Run.mk.injEq]
  exact ⟨rfl, hnames, hstart, hseparator, hparameter, hhidden⟩

/-- A scan **rests** when it is behind a run, or at no run at all: nothing stands behind it. -/
structure Rests (r : Run) : Prop where
  /-- No colons were read. -/
  separator : r.separator = .nothing
  /-- No sign was read. -/
  parameter : r.parameter = false

/-- What a scan is behind tokens that are no names: at its run as long as these are colons, and
else at no run. -/
def skip (r : Run) (separator : Separator) : (front : List Token) → Run
  | [] => { r with separator := separator }
  | t :: front =>
    { r.flush with separator := separator, parameter := decide (EndsWithSign (t :: front)) }

/-- What stands between two runs leaves a scan with the **last token** of it, which may be a
sign. -/
theorem skip_concat (r : Run) (separator : Separator) (front : List Token) (t : Token) :
    r.skip separator (front ++ [t]) =
      { r.flush with
        separator := separator, parameter := decide (EndsWithSign (front ++ [t])) } := by
  cases front <;> rfl

/-- It leaves the scan with the separator that it is said to end in. -/
theorem skip_separator (r : Run) (separator : Separator) (front : List Token) :
    (r.skip separator front).separator = separator := by
  cases front <;> rfl

/-- Nothing is found **between two runs**. -/
theorem flush_skip (r : Run) (separator : Separator) (front : List Token) :
    (r.skip separator front).flush = r.flush := by
  cases front with
  | nil => rfl
  | cons t front =>
      rw [skip, r.flush_eq]
      rfl

/-- Colons do not change what a scan is, **but for the separator**. -/
theorem skip_with (r : Run) (separator other : Separator) (front : List Token) :
    { r.skip separator front with separator := other } = r.skip other front := by
  cases front <;> rfl

/-- Tokens end with a sign exactly if **the last one is a sign**. -/
theorem endsWithSign_concat {ts : List Token} {t : Token} :
    EndsWithSign (ts ++ [t]) ↔ t.isSign = true := by
  rw [endsWithSign_iff, List.getLast?_concat, Option.any_some]

/-- A token that is no colon and no sign, or a colon that does not belong to those in front of it,
ends the run and leaves **nothing behind**. -/
theorem skip_end (r : Run) {front : List Token} {t : Token} (h : t.isSign = false) :
    r.skip .nothing (front ++ [t]) = r.flush := by
  have hsign : decide (EndsWithSign (front ++ [t])) = false := by
    rw [decide_eq_false_iff_not, endsWithSign_concat, h]
    exact Bool.false_ne_true
  rw [skip_concat, hsign, r.flush_eq]
  rfl

/-- What a scan is behind tokens that are no names, it is **behind one more**. -/
theorem token_skip (r : Run) {separator : Separator} {front : List Token} {t : Token}
    (h : Behind separator front gap) (hname : t.name? = none) (hleaf : t.isLeaf = true) :
    ∃ next more, Behind next more (gap ++ [t]) ∧
      (r.skip separator front).token t = r.skip next more := by
  have hends (hsign : t.isSign = false)
      (hflush : (r.skip separator front).token t = (r.skip separator front).flush) :
      ∃ next more, Behind next more (gap ++ [t]) ∧
        (r.skip separator front).token t = r.skip next more :=
    ⟨.nothing, gap ++ [t], .nothing, by rw [hflush, flush_skip, r.skip_end hsign]⟩
  cases t with
  | name word p => exact nomatch hname
  | group delimiter body p q => exact nomatch hleaf
  | literal text p => exact hends rfl (by rw [token])
  | mark c joint p =>
      by_cases hcolon : c = ':'
      · subst hcolon
        cases separator with
        | nothing =>
            cases h
            cases joint with
            | true => exact ⟨.half, gap, .half, by simp [token, mark, skip_separator, skip_with]⟩
            | false => exact hends rfl (by simp [token, mark, skip_separator])
        | half =>
            cases h with
            | half =>
                refine ⟨.full, front, ?_, by simp [token, mark, skip_separator, skip_with]⟩
                rw [List.append_assoc]
                exact .full
        | full => exact hends rfl (by simp [token, mark, skip_separator])
      · by_cases hsign : c = '$'
        · subst hsign
          refine ⟨.nothing, gap ++ [.mark '$' joint p], .nothing, ?_⟩
          have hends : EndsWithSign (gap ++ [.mark '$' joint p]) := ⟨gap, joint, p, rfl⟩
          rw [skip_concat, decide_eq_true hends, token, mark, if_neg (by decide),
            if_pos (by decide), flush_skip, r.flush_eq]
          rfl
        · exact hends (beq_false_of_ne hsign) (by simp [token, mark, hcolon, hsign])

/-- A scan that rests knows, behind tokens that are no names, **what they end with**. -/
theorem Rests.tokens_gap (h : r.Rests) (hnames : namesOf gap = [])
    (hleaf : ∀ t ∈ gap, t.isLeaf = true) :
    ∃ separator front, Behind separator front gap ∧ r.tokens gap = r.skip separator front := by
  induction gap using List.reverseRecOn with
  | nil =>
      refine ⟨.nothing, [], .nothing, ?_⟩
      rw [tokens, skip, ← h.separator]
  | append_singleton gap t ih =>
      obtain ⟨hgap, ht⟩ := namesOf_concat_eq_nil.mp hnames
      obtain ⟨hleaf, hlast⟩ := List.forall_mem_append.mp hleaf
      obtain ⟨separator, front, hbehind, hrun⟩ := ih hgap hleaf
      rw [tokens_append, hrun, tokens, tokens]
      exact r.token_skip hbehind ht (hlast t (List.mem_singleton_self t))

/-- A scan has read a sign just when one **stands behind**, colons or not. -/
theorem Rests.parameter_iff (h : r.Rests) (hnames : namesOf gap = [])
    (hleaf : ∀ t ∈ gap, t.isLeaf = true) :
    (r.tokens gap).parameter = true ↔ SignBehind gap := by
  constructor
  · intro hparameter
    obtain ⟨separator, front, hbehind, hrun⟩ := h.tokens_gap hnames hleaf
    rw [hrun] at hparameter
    refine ⟨separator, front, hbehind, ?_⟩
    cases front with
    | nil => exact nomatch h.parameter.symm.trans hparameter
    | cons t more => exact of_decide_eq_true hparameter
  · rintro ⟨separator, front, hbehind, more, joint, p, rfl⟩
    have hsign : r.tokens (more ++ [.mark '$' joint p]) =
        { (r.tokens more).flush with parameter := true } := by
      simp [tokens_append, tokens, token, mark]
    obtain ⟨-, -, hseparator, -, -⟩ := (r.tokens more).flush_fields
    cases hbehind with
    | nothing => rw [hsign]
    | half => rw [tokens_append, hsign]; simp [tokens, token, mark, hseparator]
    | full => rw [tokens_append, hsign]; simp [tokens, token, mark, hseparator]

/-- A scan **is in a run** that has these names, behind the runs that are complete. -/
def within (done : List (List String × Position)) (names : List String) (at_ : Position)
    (hidden : Bool) : Run :=
  ⟨done, names.reverse, some at_, .nothing, false, hidden⟩

/-- A run that begins is **within its first name**. -/
theorem begin_eq_within (r : Run) (name : String) (p : Position) (hidden : Bool) :
    r.begin name p hidden = within r.flush.done [name] p hidden := by
  rw [begin, r.flush_eq]
  rfl

/-- Behind tokens that are no names, a name **starts a run**, unless they are two colons and the
scan is in a run. -/
theorem Rests.name_gap (h : r.Rests) (hnames : namesOf gap = [])
    (hleaf : ∀ t ∈ gap, t.isLeaf = true) (hstart : Behind .full [] gap → r.flush = r)
    (word : Word) (p : Position) :
    r.tokens (gap ++ [.name word p]) =
      within r.flush.done [word.text] p (decide (SignBehind gap ∧ word.text ≠ "crate")) := by
  have hparameter := h.parameter_iff hnames hleaf
  obtain ⟨separator, front, hbehind, hrun⟩ := h.tokens_gap hnames hleaf
  rw [tokens_append, tokens, tokens, token, name]
  have hflush : (r.tokens gap).flush = r.flush := by rw [hrun, flush_skip]
  split
  next hsign =>
    have hhidden : (word.text != "crate") = decide (SignBehind gap ∧ word.text ≠ "crate") := by
      rw [decide_eq_decide.mpr (and_iff_right (hparameter.mp hsign)), decide_not]
      rfl
    rw [begin_eq_within, hflush, hhidden]
  next hsign =>
    have hhidden : decide (SignBehind gap ∧ word.text ≠ "crate") = false :=
      decide_eq_false fun hbehind => hsign (hparameter.mpr hbehind.1)
    rw [hhidden]
    split
    next hfull =>
      -- behind two colons, the scan is at no run: else they go on with the one that it is in
      have hrest : r.tokens gap = { r.flush with separator := .full } := by
        rw [hrun, skip_separator] at hfull
        subst hfull
        cases front with
        | nil => rw [hrun, skip, hstart hbehind]
        | cons t more =>
            rw [hrun] at hsign
            have hfree : decide (EndsWithSign (t :: more)) = false := Bool.of_not_eq_true hsign
            rw [hrun, skip, hfree, r.flush_eq]
            rfl
      rw [hrest, r.flush_eq]
      rfl
    next => rw [begin_eq_within, hflush]

/-- Two colons and a name **go on with the run**. -/
theorem within_join (done : List (List String × Position)) (names : List String) (at_ : Position)
    (hidden : Bool) (p q s : Position) (joint : Bool) (word : Word) :
    (within done names at_ hidden).tokens
        [.mark ':' true p, .mark ':' joint q, .name word s] =
      within done (names ++ [word.text]) at_ hidden := by
  simp [tokens, token, mark, name, within]

/-- A scan within a run is **at rest**: it has seen no separator behind the name. -/
theorem within_rests (done : List (List String × Position)) (names : List String) (at_ : Position)
    (hidden : Bool) : (within done names at_ hidden).Rests :=
  ⟨rfl, rfl⟩

/-- When the run ends it is found, **unless it is hidden**. -/
theorem flush_within (done : List (List String × Position)) {names : List String} (at_ : Position)
    (hidden : Bool) (hne : names ≠ []) :
    (within done names at_ hidden).flush.done = if hidden then done else (names, at_) :: done := by
  cases hidden <;> simp [within, flush, hne, empty]

/-- A scan that reads a run behind tokens that are no names is **in this run**. -/
theorem Rests.tokens_path (h : r.Rests) {path : List Token} {names : List String} {at_ : Position}
    (hspells : Spells path names at_) (hnames : namesOf gap = [])
    (hleaf : ∀ t ∈ gap, t.isLeaf = true) (hstart : Behind .full [] gap → r.flush = r) :
    r.tokens (gap ++ path) = within r.flush.done names at_
      (decide (SignBehind gap ∧ names.head? ≠ some "crate")) := by
  induction hspells with
  | @name word at_ =>
      rw [h.name_gap hnames hleaf hstart]
      simp only [List.head?_cons, ne_eq, Option.some.injEq]
  | @join ts names at_ p q s joint word hspells ih =>
      have hhead : (names ++ [word.text]).head? = names.head? := by
        rw [List.head?_append, Option.or_of_isSome (List.isSome_head?.mpr hspells.ne_nil)]
      rw [← List.append_assoc, tokens_append, ih, within_join, hhead]

end Run

/-! ### The runs that are found -/

/-- Behind the first stretch the tokens are cut into **the others**. -/
theorem IsCut.tail {s : Stretch} {stretches : List Stretch} {ts rest : List Token}
    (h : IsCut ts (s :: stretches) rest) :
    IsCut (stretches.flatMap (fun s => s.gap ++ s.path) ++ rest) stretches rest :=
  ⟨rfl, fun u hu => h.spells u (List.mem_cons_of_mem _ hu),
    fun u hu => h.gap u (List.mem_cons_of_mem _ hu), h.rest,
    fun u hu => h.longest u (List.mem_of_mem_tail hu)⟩

/-- A stretch gives its run **unless it is hidden**, in front of those of the others. -/
theorem runsBut_cons (hides : Stretch → Prop) [DecidablePred hides] (s : Stretch)
    (stretches : List Stretch) :
    runsBut hides (s :: stretches) =
      if hides s then runsBut hides stretches
      else (s.names, s.start) :: runsBut hides stretches := by
  by_cases h : hides s <;> simp [runsBut, h]

/-- A scan that rests finds **the runs of tokens**, but for those that are hidden. -/
theorem Run.Rests.done_of_cut {r : Run} (h : r.Rests) {stretches : List Stretch}
    {ts rest : List Token} (hcut : IsCut ts stretches rest) (hleaf : ∀ t ∈ ts, t.isLeaf = true)
    (hstart : ∀ s ∈ stretches.head?, Behind .full [] s.gap → r.flush = r) :
    (r.tokens ts).flush.done = (runsBut Stretch.Hidden stretches).reverse ++ r.flush.done := by
  induction stretches generalizing r ts with
  | nil =>
      obtain rfl : ts = rest := hcut.eq
      obtain ⟨separator, front, -, hrun⟩ := h.tokens_gap hcut.rest hleaf
      rw [hrun, Run.flush_skip]
      rfl
  | cons s more ih =>
      have hts : ts = (s.gap ++ s.path) ++ (more.flatMap (fun s => s.gap ++ s.path) ++ rest) := by
        rw [hcut.eq, List.flatMap_cons, List.append_assoc]
      obtain ⟨hfront, hback⟩ := List.forall_mem_append.mp (hts ▸ hleaf)
      have hspells := hcut.spells s List.mem_cons_self
      have hstretch : r.tokens (s.gap ++ s.path) =
          Run.within r.flush.done s.names s.start (decide s.Hidden) :=
        h.tokens_path hspells (hcut.gap s List.mem_cons_self)
          (List.forall_mem_append.mp hfront).1 (hstart s rfl)
      have hnext : ∀ u ∈ more.head?, ¬ Behind .full [] u.gap :=
        fun u hu => hcut.longest u (List.mem_of_mem_head? hu)
      rw [hts, Run.tokens_append, hstretch, ih (Run.within_rests ..) hcut.tail hback
        fun u hu hgap => absurd hgap (hnext u hu), Run.flush_within _ _ _ hspells.ne_nil,
        runsBut_cons]
      by_cases hhidden : s.Hidden
      · rw [if_pos hhidden, if_pos (decide_eq_true hhidden)]
      · rw [if_neg hhidden, if_neg (by simpa using hhidden), List.reverse_cons, List.append_assoc]
        rfl

/-- Leaving out more runs makes no difference just when **there are no more** to leave out. -/
theorem runsBut_eq_iff {hides more : Stretch → Prop} [DecidablePred hides] [DecidablePred more]
    (hmore : ∀ s, hides s → more s) (stretches : List Stretch) :
    runsBut more stretches = runsBut hides stretches ↔ ∀ s ∈ stretches, more s → hides s := by
  have hfilter : stretches.filter (fun s => ¬ more s) =
      (stretches.filter fun s => ¬ hides s).filter fun s => ¬ more s := by
    rw [List.filter_filter]
    refine List.filter_congr fun s _ => ?_
    by_cases hs : more s
    · simp [hs]
    · simp [hs, mt (hmore s) hs]
  constructor
  · intro heq s hs hhides
    have hlength := congrArg List.length heq
    rw [runsBut, runsBut, List.length_map, List.length_map, hfilter,
      List.length_filter_eq_length_iff] at hlength
    by_contra hnot
    have hshown := hlength s (List.mem_filter.mpr ⟨hs, decide_eq_true hnot⟩)
    exact of_decide_eq_true hshown hhides
  · intro hall
    rw [runsBut, runsBut]
    refine congrArg _ (List.filter_congr fun s hs => ?_)
    exact decide_eq_decide.mpr (not_congr ⟨hall s hs, hmore s⟩)

/-- **Names are cut into paths.** The tokens can be cut into runs of names, and however they are
cut, the runs have all the names in order, the paths among the tokens are the runs that are not
left out, in order, and these are all but the runs at the sign of a parameter just when no sign
stands behind a run with colons between them. -/
theorem names_cut_into_paths (ts : List Token) :
    (∃ stretches rest, IsCut (Token.leavesAll ts) stretches rest) ∧
      ∀ stretches rest, IsCut (Token.leavesAll ts) stretches rest →
        namesOf (Token.leavesAll ts) = stretches.flatMap Stretch.names ∧
          tokenPaths ts = runsBut Stretch.Hidden stretches ∧
          (tokenPaths ts = runsBut Stretch.AtSign stretches ↔
            ∀ s ∈ stretches, s.Hidden → s.AtSign) := by
  refine ⟨exists_cut _, fun stretches rest hcut => ?_⟩
  have hpaths : tokenPaths ts = runsBut Stretch.Hidden stretches := by
    have hdone := Run.Rests.done_of_cut (r := .empty) ⟨rfl, rfl⟩ hcut
      (Token.isLeaf_of_mem_leavesAll ts) fun _ _ _ => rfl
    rw [Run.tokens_leavesAll] at hdone
    rw [tokenPaths, hdone]
    exact (List.append_nil _).symm ▸ List.reverse_reverse _
  refine ⟨hcut.namesOf_eq, hpaths, ?_⟩
  rw [hpaths]
  exact runsBut_eq_iff (fun s => Stretch.AtSign.hidden) stretches

/-! ### Runs that are found and runs that are not -/

/-- Two colons. -/
def colons : List Token :=
  [.mark ':' true .start, .mark ':' false .start]

/-- The tokens of `a::b(c); $x::y; $crate::z`. -/
def mixedTokens : List Token :=
  .name ⟨"a", Eq.refl true⟩ .start :: colons ++
    [.name ⟨"b", Eq.refl true⟩ .start,
      .group .paren [.name ⟨"c", Eq.refl true⟩ .start] .start .start,
      .mark ';' false .start, .mark '$' false .start, .name ⟨"x", Eq.refl true⟩ .start] ++
    colons ++ [.name ⟨"y", Eq.refl true⟩ .start,
      .mark ';' false .start, .mark '$' false .start, .name ⟨"crate", Eq.refl true⟩ .start] ++
    colons ++ [.name ⟨"z", Eq.refl true⟩ .start]

/-- The run of two names, behind the given tokens. -/
def stretchOf (gap : List Token) (first second : Word) : Stretch :=
  ⟨gap, [.name first .start] ++ colons ++ [.name second .start], [first.text, second.text], .start⟩

/-- The stretches that they are cut into. -/
def mixedStretches : List Stretch :=
  [stretchOf [] ⟨"a", Eq.refl true⟩ ⟨"b", Eq.refl true⟩,
    ⟨[.literal "(" .start], [.name ⟨"c", Eq.refl true⟩ .start], ["c"], .start⟩,
    stretchOf [.literal ")" .start, .mark ';' false .start, .mark '$' false .start]
      ⟨"x", Eq.refl true⟩ ⟨"y", Eq.refl true⟩,
    stretchOf [.mark ';' false .start, .mark '$' false .start]
      ⟨"crate", Eq.refl true⟩ ⟨"z", Eq.refl true⟩]

/-- A stretch of two names spells **the path of the two names**. -/
theorem spells_stretchOf (gap : List Token) (first second : Word) :
    Spells (stretchOf gap first second).path (stretchOf gap first second).names .start :=
  .join .name

/-- Among these tokens, the run behind a parameter alone is not found. -/
theorem mixed_names_cut :
    IsCut (Token.leavesAll mixedTokens) mixedStretches [] ∧
      namesOf (Token.leavesAll mixedTokens) = ["a", "b", "c", "x", "y", "crate", "z"] ∧
      tokenPaths mixedTokens = runsBut Stretch.AtSign mixedStretches ∧
      (tokenPaths mixedTokens).map Prod.fst = [["a", "b"], ["c"], ["crate", "z"]] := by
  have hcut : IsCut (Token.leavesAll mixedTokens) mixedStretches [] := by
    refine ⟨rfl, ?_, by decide, rfl, ?_⟩
    · simp only [mixedStretches, List.forall_mem_cons]
      exact ⟨spells_stretchOf .., .name, spells_stretchOf .., spells_stretchOf .., nofun⟩
    · simp only [mixedStretches, List.tail_cons, List.forall_mem_cons, stretchOf]
      exact ⟨nofun, nofun, nofun, nofun⟩
  obtain ⟨-, hall⟩ := names_cut_into_paths mixedTokens
  obtain ⟨hnames, hpaths, hsigns⟩ := hall mixedStretches [] hcut
  exact ⟨hcut, hnames, hsigns.mpr (by decide), hpaths ▸ by decide⟩

/-- The tokens of `$::std::fs`. -/
def signedTokens : List Token :=
  .mark '$' true .start :: colons ++ [.name ⟨"std", Eq.refl true⟩ .start] ++ colons ++
    [.name ⟨"fs", Eq.refl true⟩ .start]

/-- **Colons behind a sign** hide a run that does not start at it. -/
theorem colons_hide_names :
    ∃ s : Stretch, IsCut (Token.leavesAll signedTokens) [s] [] ∧ s.gap = signedTokens.take 3 ∧
      ¬ s.AtSign ∧ tokenPaths signedTokens = [] ∧
      runsBut Stretch.AtSign [s] = [(["std", "fs"], .start)] := by
  refine ⟨stretchOf (.mark '$' true .start :: colons) ⟨"std", Eq.refl true⟩ ⟨"fs", Eq.refl true⟩,
    ⟨rfl, ?_, by decide, rfl, nofun⟩, rfl, by decide, by decide, by decide⟩
  rw [List.forall_mem_singleton]
  exact spells_stretchOf ..

end CapabilityGate.Program
