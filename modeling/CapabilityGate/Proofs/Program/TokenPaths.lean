import CapabilityGate.Program.TokenRun

/-!
# The paths that tokens spell

A path stands among tokens as names with two colons between them, in whatever group. Here such a
path is a relation between tokens and names, apart from any scan: it cannot be made longer on either
side, and it does not start at the sign of a macro parameter. The scan of the tokens is shown to
find every one of them, at the place of its first name, but for those that stand behind colons which
follow such a sign.

## Main definitions

* `Spells`: tokens that are nothing but names with two colons between them.
* `PathAmong`: a path among tokens, at any depth, that is as long as it can be.
* `ColonsBehindSign`: colons stand between the sign of a macro parameter and what comes next.

## Main results

* `PathAmong.mem_tokenPaths`: every path among tokens is found that does not stand behind such
  colons.
-/

namespace CapabilityGate.Program

/-! ### Paths among tokens -/

/-- Tokens **spell** names when they are these names with two colons between them. The first name
stands at the given place. -/
inductive Spells : List Token → List String → Position → Prop
  /-- One name. -/
  | name {word : Word} {at_ : Position} : Spells [.name word at_] [word.text] at_
  /-- One more name behind two colons. -/
  | join {ts : List Token} {names : List String} {at_ p q r : Position} {joint : Bool} {word : Word}
      (h : Spells ts names at_) :
      Spells (ts ++ [.mark ':' true p, .mark ':' joint q, .name word r]) (names ++ [word.text]) at_

/-- The tokens end with what stands **behind** others: nothing, one colon that is joined to the
next mark, or two of them. -/
inductive Behind : Separator → (front before : List Token) → Prop
  | nothing {front : List Token} : Behind .nothing front front
  | half {front : List Token} {p : Position} : Behind .half front (front ++ [.mark ':' true p])
  | full {front : List Token} {p q : Position} {joint : Bool} :
      Behind .full front (front ++ [.mark ':' true p, .mark ':' joint q])

/-- The last token is a name. -/
def EndsWithName (ts : List Token) : Prop :=
  ∃ front word p, ts = front ++ [.name word p]

/-- The last token is the sign of a macro parameter. -/
def EndsWithSign (ts : List Token) : Prop :=
  ∃ front joint p, ts = front ++ [.mark '$' joint p]

/-- What spells names spells **at least one**. -/
theorem Spells.ne_nil {ts : List Token} {names : List String} {at_ : Position}
    (h : Spells ts names at_) : names ≠ [] := by
  cases h <;> simp

namespace Run

variable {r : Run}

/-- A scan reads tokens **one list behind the other**. -/
theorem tokens_append (r : Run) (ts us : List Token) :
    r.tokens (ts ++ us) = (r.tokens ts).tokens us := by
  induction ts generalizing r with
  | nil => rw [List.nil_append, tokens]
  | cons t rest ih => rw [List.cons_append, tokens, tokens, ih]

/-- A scan **has met** tokens when it knows what it needs of the last ones: what stands behind the
last name, whether there is one, and whether that is the sign of a parameter. -/
structure Met (r : Run) (before : List Token) : Prop where
  /-- A run without names has no place and is not hidden. -/
  empty : r.names = [] → r.start = none ∧ r.hidden = false
  /-- The separator is what the tokens end with. -/
  behind : ∃ front, Behind r.separator front before ∧ (r.names ≠ [] → EndsWithName front) ∧
    (r.parameter = true → EndsWithSign front)

/-- A scan whose run has ended is **at no run**. -/
theorem flush_fields (r : Run) :
    r.flush.names = [] ∧ r.flush.start = none ∧ r.flush.separator = .nothing ∧
      r.flush.parameter = false ∧ r.flush.hidden = false := by
  rw [flush]
  split
  · split <;> exact ⟨rfl, rfl, rfl, rfl, rfl⟩
  · exact ⟨rfl, rfl, rfl, rfl, rfl⟩

/-- A run that is ended has met anything. -/
theorem met_flush (r : Run) (before : List Token) : r.flush.Met before := by
  obtain ⟨hnames, hstart, hseparator, hparameter, hhidden⟩ := r.flush_fields
  refine ⟨fun _ => ⟨hstart, hhidden⟩, before, ?_, fun h => absurd hnames h, fun h => ?_⟩
  · rw [hseparator]
    exact .nothing
  · rw [hparameter] at h
    exact Bool.noConfusion h

/-- A run that begins has met **its first name**. -/
theorem met_begin (r : Run) (before : List Token) (word : Word) (p : Position) (hidden : Bool) :
    (r.begin word.text p hidden).Met (before ++ [.name word p]) := by
  obtain ⟨-, -, hseparator, hparameter, -⟩ := r.flush_fields
  refine ⟨fun h => absurd h (List.cons_ne_nil _ _), before ++ [.name word p], ?_,
    fun _ => ⟨before, word, p, rfl⟩, fun h => ?_⟩
  · rw [begin, hseparator]
    exact .nothing
  · rw [begin, hparameter] at h
    exact Bool.noConfusion h

/-- What a scan knows of the last tokens, **it knows after one more**. -/
theorem Met.token {before : List Token} (h : r.Met before) (t : Token) :
    (r.token t).Met (before ++ [t]) := by
  cases t with
  | name word p =>
      rw [Run.token, Run.name]
      split
      · exact r.met_begin before word p _
      next hparameter =>
        split
        · refine ⟨fun h => absurd h (List.cons_ne_nil _ _), before ++ [.name word p], .nothing,
            fun _ => ⟨before, word, p, rfl⟩, fun h => absurd h hparameter⟩
        · exact r.met_begin before word p _
  | literal text p =>
      rw [Run.token]
      exact r.met_flush _
  | group delimiter body p q =>
      rw [Run.token]
      exact met_flush _ _
  | mark c joint p =>
      rw [Run.token, Run.mark]
      split
      next hcolon =>
        obtain rfl := eq_of_beq hcolon
        obtain ⟨hempty, front, hbehind, hname, hsign⟩ := h
        cases hseparator : r.separator with
        | nothing =>
            rw [hseparator] at hbehind
            cases hbehind
            cases joint with
            | true => exact ⟨hempty, before, .half, hname, hsign⟩
            | false => exact r.met_flush _
        | half =>
            rw [hseparator] at hbehind
            cases hbehind with
            | half =>
                refine ⟨hempty, front, ?_, hname, hsign⟩
                rw [List.append_assoc]
                exact .full
        | full => exact r.met_flush _
      · split
        next hsign =>
          obtain rfl := eq_of_beq hsign
          obtain ⟨hnames, hstart, hseparator, -, hhidden⟩ := r.flush_fields
          refine ⟨fun _ => ⟨hstart, hhidden⟩, before ++ [.mark '$' joint p], ?_,
            fun h => absurd hnames h, fun _ => ⟨before, joint, p, rfl⟩⟩
          simp only [hseparator]
          exact .nothing
        · exact r.met_flush _

/-- What a scan knows of the last tokens, it knows **after many more**. -/
theorem Met.tokens {before : List Token} (h : r.Met before) (ts : List Token) :
    (r.tokens ts).Met (before ++ ts) := by
  induction ts generalizing r before with
  | nil =>
      rw [Run.tokens, List.append_nil]
      exact h
  | cons t rest ih =>
      have hmore := ih (h.token t)
      rw [List.append_assoc, List.singleton_append] at hmore
      rw [Run.tokens]
      exact hmore

/-! ### A path, name by name -/

/-- A scan **reads a path** when its run is these names so far, and is not hidden. -/
structure Reads (r : Run) (names : List String) (at_ : Position) : Prop where
  /-- The names of the run, last first. -/
  names : r.names = names.reverse
  /-- Where the first of them stands. -/
  start : r.start = some at_
  /-- Nothing stands behind the last one. -/
  separator : r.separator = .nothing
  /-- No sign of a parameter was read. -/
  parameter : r.parameter = false
  /-- The run does not start at a parameter. -/
  hidden : r.hidden = false

/-- A run that begins **reads its first name**, where this stands. -/
theorem reads_begin (r : Run) (name : String) (p : Position) :
    (r.begin name p false).Reads [name] p := by
  obtain ⟨-, -, hseparator, hparameter, -⟩ := r.flush_fields
  exact ⟨rfl, rfl, hseparator, hparameter, rfl⟩

/-- A name **starts a path** behind tokens that do not go on with it. -/
theorem Met.reads_name {before : List Token} (h : r.Met before) (word : Word) (at_ : Position)
    (hfirst : ∀ front, Behind .full front before → ¬ EndsWithName front)
    (hfree : ∀ separator front, Behind separator front before → EndsWithSign front →
      word.text = "crate") :
    (r.name word.text at_).Reads [word.text] at_ := by
  obtain ⟨hempty, front, hbehind, hname, hsign⟩ := h
  rw [Run.name]
  split
  next hparameter =>
    have hcrate := hfree _ front hbehind (hsign hparameter)
    have hshown : (word.text != "crate") = false := by simp [hcrate]
    rw [hshown]
    exact r.reads_begin word.text at_
  next hparameter =>
    split
    next hfull =>
      -- behind two colons, the run has no name so far: else the path would be longer
      have hnames : r.names = [] := by
        rw [hfull] at hbehind
        cases hn : r.names with
        | nil => rfl
        | cons n more =>
            exact absurd (hname (hn ▸ List.cons_ne_nil n more)) (hfirst front hbehind)
      obtain ⟨hstart, hhidden⟩ := hempty hnames
      refine ⟨?_, ?_, rfl, by simpa using hparameter, hhidden⟩
      · simp [hnames]
      · simp [hstart]
    · exact r.reads_begin word.text at_

/-- Two colons and a name **go on with the path**. -/
theorem Reads.join {names : List String} {at_ : Position} (h : r.Reads names at_) (p q s : Position)
    (joint : Bool) (word : Word) :
    (r.tokens [.mark ':' true p, .mark ':' joint q, .name word s]).Reads (names ++ [word.text])
      at_ := by
  have hhalf : r.token (.mark ':' true p) = { r with separator := .half } := by
    simp [Run.token, Run.mark, h.separator]
  have hfull : Run.token { r with separator := .half } (.mark ':' joint q) =
      { r with separator := .full } := by
    simp [Run.token, Run.mark]
  have hname : Run.token { r with separator := .full } (.name word s) =
      { r with names := word.text :: r.names, start := r.start.or (some s),
               separator := .nothing } := by
    simp [Run.token, Run.name, h.parameter]
  rw [Run.tokens, Run.tokens, Run.tokens, Run.tokens, hhalf, hfull, hname]
  refine ⟨?_, ?_, rfl, h.parameter, h.hidden⟩
  · simp [h.names]
  · simp [h.start]

/-- A scan reads the path that tokens spell **to its end**. -/
theorem Met.reads {before path : List Token} {names : List String} {at_ : Position}
    (h : r.Met before) (hspells : Spells path names at_)
    (hfirst : ∀ front, Behind .full front before → ¬ EndsWithName front)
    (hfree : ∀ separator front, Behind separator front before → EndsWithSign front →
      names.head? = some "crate") :
    (r.tokens path).Reads names at_ := by
  induction hspells with
  | @name word at_ =>
      rw [Run.tokens, Run.tokens, Run.token]
      exact h.reads_name word at_ hfirst fun separator front hbehind hsign =>
        Option.some.inj (hfree separator front hbehind hsign)
  | @join ts names at_ p q s joint word hspells ih =>
      rw [tokens_append]
      refine (ih fun separator front hbehind hsign => ?_).join p q s joint word
      have hhead := hfree separator front hbehind hsign
      cases names with
      | nil => exact absurd rfl hspells.ne_nil
      | cons n more => exact hhead

/-! ### What is found stays found -/

/-- The end of a run **loses none** of those that were found. -/
theorem done_subset_flush (r : Run) : r.done ⊆ r.flush.done := by
  rw [flush]
  split
  · split
    · exact List.Subset.refl _
    · exact List.subset_cons_self _ _
  · exact List.Subset.refl _

/-- Neither does a name. -/
theorem done_subset_name (r : Run) (name : String) (p : Position) :
    r.done ⊆ (r.name name p).done := by
  rw [Run.name]
  split
  · exact r.done_subset_flush
  · split
    · exact List.Subset.refl _
    · exact r.done_subset_flush

/-- Neither does a mark. -/
theorem done_subset_mark (r : Run) (c : Char) (joint : Bool) : r.done ⊆ (r.mark c joint).done := by
  rw [mark]
  split
  · split
    · split
      · exact List.Subset.refl _
      · exact r.done_subset_flush
    · exact List.Subset.refl _
    · exact r.done_subset_flush
  · split
    · exact r.done_subset_flush
    · exact r.done_subset_flush

mutual

/-- What is found before a token **stays found** after it. -/
theorem done_subset_token (r : Run) (t : Token) : r.done ⊆ (r.token t).done := by
  cases t with
  | name word p =>
      rw [token]
      exact r.done_subset_name word.text p
  | mark c joint p =>
      rw [token]
      exact r.done_subset_mark c joint
  | literal text p =>
      rw [token]
      exact r.done_subset_flush
  | group delimiter body p q =>
      rw [token]
      have hbody := List.Subset.trans (done_subset_tokens r.flush body)
        (r.flush.tokens body).done_subset_flush
      exact List.Subset.trans r.done_subset_flush hbody

/-- So it does after several tokens. -/
theorem done_subset_tokens (r : Run) (ts : List Token) : r.done ⊆ (r.tokens ts).done := by
  cases ts with
  | nil =>
      rw [tokens]
      exact List.Subset.refl _
  | cons t rest =>
      rw [tokens]
      exact List.Subset.trans (done_subset_token r t) (done_subset_tokens (r.token t) rest)

end

end Run

end CapabilityGate.Program
