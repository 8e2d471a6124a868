import CapabilityGate.Proofs.Program.ConstructsInOrder

/-!
# Readers and the order of a text

What a reader yields stands between the tokens before those that it takes and the tokens that it
leaves. Here this is a judgement on readers, which says what holds of a result and of the place up
to which a text has been read, with a rule for every way in which readers are put together.

## Main definitions

* `Left`: tokens of a text that are still to be read.
* `Reader.Yields`: what a reader yields, and up to where it has read then.
* `Reader.Skips`: a reader whose result has no places.
* `Reader.Hungry`: a reader that takes a token.
* `Reader.YieldsBefore`: what a reader yields when it leaves a token.
* `Grammar.InOrder`: a grammar whose readers yield constructs in the order of the text.

## Main results

* `Reader.Yields.bind`, `Reader.Yields.iterate`: a reader behind another one, and a loop.
* `Reader.Yields.run`: what is read from all of a list of tokens.
-/

namespace CapabilityGate.Program

/-- Tokens of a text that are still to be **read**, between two places. -/
structure Left (all : List Token) (lo : Position) (ts : List Token) (hi : Position) : Prop where
  /-- They stand one behind the other. -/
  laid : Laid lo ts hi
  /-- They are tokens of the text. -/
  among : Among all ts

namespace Left

variable {all ts : List Token} {lo mid hi : Position} {t : Token}

/-- What is to be read behind a place is so **behind any place in front of it**. -/
theorem mono (h : Left all mid ts hi) (hlo : lo ≤ mid) : Left all lo ts hi :=
  ⟨h.laid.mono hlo, h.among⟩

/-- Behind the next token **the rest is still to be read**. -/
theorem tail (h : Left all lo (t :: ts) hi) : Left all lo ts hi :=
  ⟨h.laid.tail, h.among.tail⟩

/-- So it is behind any number of tokens. -/
theorem drop (h : Left all lo ts hi) (n : Nat) : Left all lo (ts.drop n) hi := by
  induction n generalizing ts with
  | zero => exact h
  | succ n ih =>
      cases ts with
      | nil => exact h
      | cons t rest => exact ih h.tail

/-- What a group holds is still to be read, and so is **what stands behind it**. -/
theorem group {delimiter : Delimiter} {body : List Token} {opens closes : Position}
    (h : Left all lo (.group delimiter body opens closes :: ts) hi) :
    lo ≤ opens ∧ Left all opens body closes ∧ Left all closes ts hi := by
  cases h.laid with
  | leaf hleaf => exact nomatch hleaf
  | group hlo hbody hrest => exact ⟨hlo, ⟨hbody, h.among.body⟩, ⟨hrest, h.among.tail⟩⟩

end Left

namespace Reader

variable {α β σ : Type} {all : List Token} {e lo : Position} {r : Reader α}
  {f : α → Reader β} {Q R : Position → α → Prop} {P : Position → β → Prop}

/-- What a reader **yields** from a place on: when it takes tokens of a text and does not fail, the
tokens that it leaves stand behind some place for which its result is as `Q` says. -/
def Yields (r : Reader α) (all : List Token) (e lo : Position) (Q : Position → α → Prop) : Prop :=
  ∀ i a j, Left all lo i.rest e → r i = .ok (a, j) → ∃ hi, Left all hi j.rest e ∧ Q hi a

/-! ### Rules for all readers -/

/-- Two readers one behind the other succeed exactly if **the first does and the second does on what
it leaves**. -/
theorem bind_eq_ok {i j : Input} {b : β} :
    (r >>= f) i = .ok (b, j) ↔ ∃ a k, r i = .ok (a, k) ∧ f a k = .ok (b, j) := by
  change andThen r f i = _ ↔ _
  rw [andThen]
  cases r i with
  | error error => simp
  | ok x =>
      refine ⟨fun h => ⟨x.1, x.2, rfl, h⟩, ?_⟩
      rintro ⟨a, k, hx, h⟩
      cases hx
      exact h

/-- A reader yields **all that follows from what it yields**. -/
theorem Yields.mono (h : r.Yields all e lo R) (hRQ : ∀ hi a, R hi a → Q hi a) :
    r.Yields all e lo Q := by
  intro i a j hleft hread
  obtain ⟨hi, hrest, ha⟩ := h i a j hleft hread
  exact ⟨hi, hrest, hRQ hi a ha⟩

/-- A reader that takes nothing yields what holds **of its value where it starts**. -/
theorem Yields.pure {a : α} (h : Q lo a) : (Pure.pure a : Reader α).Yields all e lo Q := by
  intro i b j hleft hread
  cases hread
  exact ⟨lo, hleft, h⟩

/-- A reader **behind another one** starts where this has come to. -/
theorem Yields.bind (hr : r.Yields all e lo R) (hf : ∀ hi a, R hi a → (f a).Yields all e hi P) :
    (r >>= f).Yields all e lo P := by
  intro i b j hleft hread
  obtain ⟨a, k, hfirst, hsecond⟩ := bind_eq_ok.mp hread
  obtain ⟨hi, hrest, ha⟩ := hr i a k hleft hfirst
  exact hf hi a ha k b j hrest hsecond

/-- A reader chosen by a condition yields what **both of them** do. -/
theorem Yields.ite {c : Prop} [Decidable c] {s : Reader α} (hr : r.Yields all e lo Q)
    (hs : s.Yields all e lo Q) : (if c then r else s).Yields all e lo Q := by
  split
  · exact hr
  · exact hs

/-- The image of a value has what it has **by the map**. -/
theorem Yields.map {f : α → β} (h : r.Yields all e lo fun hi a => P hi (f a)) :
    (f <$> r).Yields all e lo P :=
  Yields.bind h fun _ _ ha => .pure ha

/-- A reader whose value is dropped still ends **no further in front than it starts**. -/
theorem Yields.discarded (h : r.Yields all e lo fun hi _ => lo ≤ hi) :
    (discard r).Yields all e lo fun hi _ => lo ≤ hi :=
  .map h

/-! ### Readers that take nothing with a place -/

/-- A reader **skips** when its result has no places: whatever it takes, the tokens that it leaves
stand behind the place where it starts. -/
class Skips (r : Reader α) : Prop where
  /-- The tokens that are left stand behind the same place. -/
  skips : ∀ all e lo, r.Yields all e lo fun hi _ => hi = lo

/-- A reader **fails** when it never yields anything. -/
class Fails (r : Reader α) : Prop where
  /-- It does not succeed. -/
  fails : ∀ i x, r i ≠ .ok x

/-- Behind a reader **whose value has no places** the next one starts at the same bound. -/
theorem Yields.skip [hr : Skips r] (hf : ∀ a, (f a).Yields all e lo P) :
    (r >>= f).Yields all e lo P :=
  (hr.skips all e lo).bind fun _ a hhi => hhi ▸ hf a

/-- A reader that fails yields **whatever is asked of it**. -/
theorem Yields.fails [hr : Fails r] : r.Yields all e lo Q :=
  fun i a j _ hread => absurd hread (hr.fails i (a, j))

/-- A result that is not looked at has been skipped. -/
theorem Yields.skips (h : ∀ all e lo, r.Yields all e lo fun hi _ => lo ≤ hi) : Skips r where
  skips all e lo i a j hleft hread := by
    obtain ⟨hi, hrest, hle⟩ := h all e lo i a j hleft hread
    exact ⟨lo, hrest.mono hle, rfl⟩

/-- A reader that takes some tokens from the front skips them. -/
theorem Skips.of_drop (h : ∀ i a j, r i = .ok (a, j) → ∃ n, j.rest = i.rest.drop n) :
    Skips r where
  skips all e lo i a j hleft hread := by
    obtain ⟨n, hn⟩ := h i a j hread
    exact ⟨lo, hn ▸ hleft.drop n, rfl⟩

instance (a : α) : Skips (Pure.pure a) where
  skips _ _ _ := .pure rfl

instance [Skips r] [∀ a, Skips (f a)] : Skips (r >>= f) where
  skips all e lo := .skip fun _ => Skips.skips all e lo

instance {c : Prop} [Decidable c] {s : Reader α} [Skips r] [Skips s] :
    Skips (if c then r else s) where
  skips all e lo := by
    split <;> exact Skips.skips all e lo

instance {f : α → β} [Skips r] : Skips (f <$> r) where
  skips all e lo := .map (Skips.skips all e lo)

instance [Skips r] : Skips (discard r) where
  skips all e lo := .map (Skips.skips all e lo)

instance : Skips here := .of_drop fun i a j h => by cases h; exact ⟨0, rfl⟩

instance : Skips ahead := .of_drop fun i a j h => by cases h; exact ⟨0, rfl⟩

instance (test : List Token → Bool) : Skips (sees test) :=
  .of_drop fun i a j h => by cases h; exact ⟨0, rfl⟩

instance : Skips isEmpty := inferInstanceAs (Skips (sees _))

/-- Marks are taken off by **dropping some tokens**. -/
theorem dropMarks_eq_drop {cs : List Char} {ts rest : List Token}
    (h : dropMarks cs ts = some rest) : ∃ n, rest = ts.drop n := by
  induction cs, ts using dropMarks.induct with
  | case1 c d _ _ rest hcd =>
      simp only [dropMarks, hcd, if_true, Option.some.injEq] at h
      exact ⟨1, h.symm⟩
  | case2 c d _ _ rest hcd => simp [dropMarks, hcd] at h
  | case3 c cs d joint p rest hne hcd ih =>
      rw [dropMarks, if_pos hcd] at h
      · obtain ⟨n, hn⟩ := ih h
        exact ⟨n + 1, hn⟩
      · exact hne
  | case4 c cs d joint p rest hne hcd =>
      rw [dropMarks, if_neg hcd] at h
      · exact nomatch h
      · exact hne
  | case5 cs ts hone hmore =>
      rw [dropMarks] at h
      · exact nomatch h
      · exact hone
      · exact hmore

instance (op : String) : Skips (mark op) := .of_drop fun i a j h => by
  rw [mark] at h
  split at h
  next rest hrest =>
    cases h
    exact dropMarks_eq_drop hrest
  next => exact nomatch h

instance (op : String) : Skips (mark? op) := .of_drop fun i a j h => by
  rw [mark?] at h
  split at h
  next rest hrest =>
    cases h
    exact dropMarks_eq_drop hrest
  next =>
    cases h
    exact ⟨0, rfl⟩

instance (word : String) : Skips (keyword word) := .of_drop fun i a j h => by
  rw [keyword] at h
  split at h
  next w p rest hrest =>
    split at h
    · cases h
      exact ⟨1, by rw [hrest]; rfl⟩
    · exact nomatch h
  next => exact nomatch h

instance (word : String) : Skips (keyword? word) := .of_drop fun i a j h => by
  rw [keyword?] at h
  split at h
  next w p rest hrest =>
    split at h
    · cases h
      exact ⟨1, by rw [hrest]; rfl⟩
    · cases h
      exact ⟨0, rfl⟩
  next =>
    cases h
    exact ⟨0, rfl⟩

instance : Skips word := .of_drop fun i a j h => by
  rw [word] at h
  split at h
  next w p rest hrest =>
    cases h
    exact ⟨1, by rw [hrest]; rfl⟩
  next => exact nomatch h

instance : Skips ident := .of_drop fun i a j h => by
  rw [ident] at h
  split at h
  next w p rest hrest =>
    split at h
    · exact nomatch h
    · cases h
      exact ⟨1, by rw [hrest]; rfl⟩
  next => exact nomatch h

instance : Skips lifetime := .of_drop fun i a j h => by
  unfold lifetime at h
  split at h
  next hrest =>
    cases h
    exact ⟨2, by rw [hrest]; rfl⟩
  next => exact nomatch h

instance : Skips lifetime? := .of_drop fun i a j h => by
  unfold lifetime? at h
  split at h
  next hrest =>
    cases h
    exact ⟨2, by rw [hrest]; rfl⟩
  next =>
    cases h
    exact ⟨0, rfl⟩

instance : Skips literal := .of_drop fun i a j h => by
  unfold literal at h
  split at h
  next hrest =>
    cases h
    exact ⟨1, by rw [hrest]; rfl⟩
  next hrest =>
    split at h
    · cases h
      exact ⟨1, by rw [hrest]; rfl⟩
    · exact nomatch h
  next hrest =>
    split at h
    · cases h
      exact ⟨2, by rw [hrest]; rfl⟩
    · exact nomatch h
  next => exact nomatch h

instance : Skips any := .of_drop fun i a j h => by cases h; exact ⟨1, rfl⟩

instance : Skips Reader.all := .of_drop fun i a j h => by
  cases h
  exact ⟨i.rest.length, List.drop_length.symm⟩

instance (r : Reader α) : Skips (would r) := .of_drop fun i a j h => by
  rw [would] at h
  split at h <;> (cases h; exact ⟨0, rfl⟩)

instance (expected : String) : Fails (fail expected : Reader α) where
  fails _ _ h := nomatch h

instance (expected : String) (p : Position) : Fails (failAt expected p : Reader α) where
  fails _ _ h := nomatch h

instance : Fails (tooDeep : Reader α) where
  fails _ _ h := nomatch h

instance [hr : Fails r] : Fails (r >>= f) where
  fails i x h := by
    obtain ⟨a, k, hfirst, -⟩ := bind_eq_ok.mp h
    exact hr.fails i (a, k) hfirst

instance [hf : ∀ a, Fails (f a)] : Fails (r >>= f) where
  fails i x h := by
    obtain ⟨a, k, -, hsecond⟩ := bind_eq_ok.mp h
    exact (hf a).fails k x hsecond

instance (priority := low) [Fails r] : Skips r where
  skips _ _ _ := .fails

/-! ### Groups and loops -/

/-- A group is read exactly where one is next, and **its body is read on its own**. -/
theorem group_eq_ok {d : Delimiter} {i j : Input} {a : α} (h : group d r i = .ok (a, j)) :
    ∃ body opens closes rest k, i.rest = .group d body opens closes :: rest ∧
      r { rest := body, closes := closes, stray := i.stray } = .ok (a, k) ∧ j.rest = rest := by
  rw [Reader.group] at h
  split at h
  next f body opens closes rest hrest =>
    split at h
    next hd =>
      split at h
      next b k hinside =>
        cases h
        exact ⟨body, opens, closes, rest, k, hd ▸ hrest, hinside, rfl⟩
      next => exact nomatch h
    · exact nomatch h
  next => exact nomatch h

/-- What is read in a group stands **between its delimiters**. -/
theorem Yields.group {d : Delimiter}
    (h : ∀ e o, lo ≤ o → r.Yields all e o fun hi a => hi ≤ e → Q e a) :
    (group d r).Yields all e lo Q := by
  intro i a j hleft hread
  obtain ⟨body, opens, closes, rest, k, hrest, hinside, rfl⟩ := group_eq_ok hread
  rw [hrest] at hleft
  obtain ⟨hlo, hbody, hbehind⟩ := hleft.group
  obtain ⟨hi, hleft, ha⟩ := h closes opens hlo _ _ _ hbody hinside
  exact ⟨closes, hbehind, ha hleft.laid.le⟩

instance {d : Delimiter} [Skips r] : Skips (Reader.group d r) :=
  Yields.skips fun all _ _ => .group fun e o ho =>
    (Skips.skips all e o).mono fun _ _ hhi hle => (ho.trans (le_of_eq hhi.symm)).trans hle

/-- The tokens of any group are between its opening and **where the reader goes on**. -/
theorem Yields.anyGroup : anyGroup.Yields all e lo fun hi x =>
    ∃ opens, lo ≤ opens ∧ Left all opens x.2 hi := by
  intro i x j hleft hread
  rw [Reader.anyGroup] at hread
  split at hread
  next d body opens closes rest hrest =>
    cases hread
    rw [hrest] at hleft
    obtain ⟨hlo, hbody, hbehind⟩ := hleft.group
    exact ⟨closes, hbehind, opens, hlo, hbody⟩
  next => exact nomatch hread

/-- **A loop keeps an invariant**: if each of its steps does, it holds when the loop ends. -/
theorem Yields.iterate {step : σ → Reader (σ ⊕ β)} {s : σ} (Inv : Position → σ → Prop)
    (hstart : Inv lo s) (hstep : ∀ mid s, Inv mid s → (step s).Yields all e mid fun hi x =>
      x.elim (Inv hi) (P hi)) : (iterate step s).Yields all e lo P := by
  have hfor : ∀ fuel mid s, Inv mid s → (iterateFor step fuel s).Yields all e mid P := by
    intro fuel
    induction fuel with
    | zero =>
        intro mid s _
        rw [iterateFor]
        exact .fails
    | succ fuel ih =>
        intro mid s hs
        refine (hstep mid s hs).bind fun hi x hx => ?_
        cases x with
        | inl s => exact ih hi s hx
        | inr b => exact .pure hx
  exact fun i a j hleft hread => hfor _ lo s hstart i a j hleft hread

instance {step : σ → Reader (σ ⊕ β)} {s : σ} [∀ s, Skips (step s)] :
    Skips (Reader.iterate step s) where
  skips all e lo := .iterate (fun mid _ => mid = lo) rfl fun mid s hmid =>
    (Skips.skips all e mid).mono fun hi x hhi => by
      cases x <;> exact hhi.trans hmid

/-- A reader that is only tried yields what it does, or **stays where it was**. -/
theorem Yields.attempt (h : r.Yields all e lo Q) : (attempt r).Yields all e lo fun hi x =>
    (∃ a, x = some a ∧ Q hi a) ∨ x = none ∧ hi = lo := by
  intro i x j hleft hread
  rw [Reader.attempt] at hread
  split at hread
  next a k hfirst =>
    cases hread
    obtain ⟨hi, hrest, ha⟩ := h i a j hleft hfirst
    exact ⟨hi, hrest, Or.inl ⟨a, rfl, ha⟩⟩
  next =>
    cases hread
    exact ⟨lo, hleft, Or.inr ⟨rfl, rfl⟩⟩

/-- The text of what was read **says nothing of places**. -/
theorem Yields.withText (h : r.Yields all e lo Q) :
    (withText r).Yields all e lo fun hi x => Q hi x.1 := by
  intro i x j hleft hread
  rw [Reader.withText] at hread
  split at hread
  next a k hfirst =>
    cases hread
    exact h i a j hleft hfirst
  next => exact nomatch hread

/-- Neither does the sign that a block was read. -/
theorem Yields.withBrace (h : r.Yields all e lo Q) :
    (withBrace r).Yields all e lo fun hi x => Q hi x.1 := by
  intro i x j hleft hread
  rw [Reader.withBrace] at hread
  split at hread
  next a k hfirst =>
    cases hread
    exact h i a j hleft hfirst
  next => exact nomatch hread

/-- What is read from **all of a list** of tokens stands between the places that they stand
between. -/
theorem Yields.run {ts : List Token} {a : α} (h : r.Yields all e lo Q) (hts : Left all lo ts e)
    (hrun : r.run ts = .ok a) : ∃ hi, hi ≤ e ∧ Q hi a := by
  rw [Reader.run] at hrun
  split at hrun
  · exact nomatch hrun
  next b i hread =>
    split at hrun
    · cases hrun
      obtain ⟨hi, hrest, ha⟩ := h _ _ _ hts hread
      exact ⟨hi, hrest.laid.le, ha⟩
    · exact nomatch hrun

/-- Reads from tokens that stand **before the next one**, and so reads some of them again. -/
theorem Yields.again {ts : List Token} {mid : Position} (h : r.Yields all e lo Q)
    (hts : Left all lo ts e) :
    Yields (fun i => r { i with rest := ts }) all e mid Q :=
  fun _ a j _ hread => h _ a j hts hread

/-- Reads with the tokens that are left in mind. -/
theorem Yields.ahead {f : List Token → Reader β}
    (hf : ∀ ts, Left all lo ts e → (f ts).Yields all e lo P) :
    (Reader.ahead >>= f).Yields all e lo P := by
  intro i b j hleft hread
  obtain ⟨ts, k, hfirst, hsecond⟩ := bind_eq_ok.mp hread
  cases hfirst
  exact hf i.rest hleft i b j hleft hsecond

/-! ### Readers that take a token -/

/-- A reader is **hungry** when it fails if no token is left. -/
class Hungry (r : Reader α) : Prop where
  /-- It does not succeed on nothing. -/
  fails : ∀ i x, i.rest = [] → r i ≠ .ok x

/-- **The place of the next token** is that of a result if a token is taken. -/
theorem Yields.here {f : Position → Reader β} [hf : ∀ p, Hungry (f p)]
    (h : ∀ p, lo ≤ p → (f p).Yields all e p P) : (Reader.here >>= f).Yields all e lo P := by
  intro i b j hleft hread
  obtain ⟨p, k, hfirst, hsecond⟩ := bind_eq_ok.mp hread
  obtain ⟨hplace, rfl⟩ : (i.rest.head?.map Token.position).getD i.closes = p ∧ i = k := by
    cases hfirst
    exact ⟨rfl, rfl⟩
  cases hrest : i.rest with
  | nil => exact absurd hsecond ((hf p).fails i (b, j) hrest)
  | cons t rest =>
      rw [hrest] at hleft hplace
      obtain rfl : t.position = p := hplace
      obtain ⟨hlo, hlaid⟩ := hleft.laid.head
      exact h t.position hlo i b j (hrest ▸ ⟨hlaid, hleft.among⟩) hsecond

instance [hr : Hungry r] : Hungry (r >>= f) where
  fails i x hempty h := by
    obtain ⟨a, k, hfirst, -⟩ := bind_eq_ok.mp h
    exact hr.fails i (a, k) hempty hfirst

instance {a : α} [hf : Hungry (f a)] : Hungry (Pure.pure a >>= f) := hf

instance {c : Prop} [Decidable c] {s : Reader α} [hr : Hungry r] [hs : Hungry s] :
    Hungry (if c then r else s) where
  fails i x hempty := by
    split
    · exact hr.fails i x hempty
    · exact hs.fails i x hempty

instance (test : List Token → Bool) {f : Bool → Reader β} [hf : ∀ b, Hungry (f b)] :
    Hungry (sees test >>= f) where
  fails i x hempty h := by
    obtain ⟨b, k, hfirst, hsecond⟩ := bind_eq_ok.mp h
    cases hfirst
    exact (hf _).fails i x hempty hsecond

/-- No marks can be taken off **where no token is left**. -/
theorem dropMarks_nil (cs : List Char) : dropMarks cs [] = none := by
  rcases cs with - | ⟨c, - | ⟨d, rest⟩⟩ <;> rfl

instance (op : String) {f : Bool → Reader β} [hf : Hungry (f false)] :
    Hungry (mark? op >>= f) where
  fails i x hempty h := by
    obtain ⟨b, k, hfirst, hsecond⟩ := bind_eq_ok.mp h
    rw [mark?, hempty, dropMarks_nil] at hfirst
    cases hfirst
    exact hf.fails i x hempty hsecond

instance (word : String) {f : Bool → Reader β} [hf : Hungry (f false)] :
    Hungry (keyword? word >>= f) where
  fails i x hempty h := by
    obtain ⟨b, k, hfirst, hsecond⟩ := bind_eq_ok.mp h
    rw [keyword?, hempty] at hfirst
    cases hfirst
    exact hf.fails i x hempty hsecond

instance {f : List Token → Reader β} [hf : Hungry (f [])] : Hungry (Reader.ahead >>= f) where
  fails i x hempty h := by
    obtain ⟨ts, k, hfirst, hsecond⟩ := bind_eq_ok.mp h
    cases hfirst
    exact hf.fails i x hempty (hempty ▸ hsecond)

/-- Only what is read if nothing is found has to take a token. -/
instance {s : Reader α} [hs : Hungry s] : Hungry (if false = true then r else s) := by
  rwa [if_neg Bool.false_ne_true]

instance [hr : Fails r] : Hungry r where
  fails i x _ := hr.fails i x

instance (op : String) : Hungry (mark op) where
  fails i x hempty h := by
    rw [mark, hempty, dropMarks_nil] at h
    exact nomatch h

instance {d : Delimiter} : Hungry (Reader.group d r) where
  fails i x hempty h := by
    rw [Reader.group, hempty] at h
    exact nomatch h

instance [hr : Hungry r] : Hungry (discard r) where
  fails i x hempty h := by
    obtain ⟨a, k, hfirst, -⟩ := bind_eq_ok.mp (show (r >>= fun _ => Pure.pure ()) i = .ok x from h)
    exact hr.fails i (a, k) hempty hfirst

instance : Hungry word where
  fails i x hempty h := by
    rw [word, hempty] at h
    exact nomatch h

instance : Hungry ident where
  fails i x hempty h := by
    rw [ident, hempty] at h
    exact nomatch h

end Reader

/-! ### Readers in front of a token -/

namespace Reader

variable {α β : Type} {all : List Token} {e lo : Position} {r : Reader α} {f : α → Reader β}
  {Q R : Position → α → Prop} {P : Position → β → Prop}

/-- What a reader yields **in front of a token**: when it leaves one, its result is as `Q` says. -/
def YieldsBefore (r : Reader α) (all : List Token) (e lo : Position) (Q : Position → α → Prop) :
    Prop :=
  ∀ i a j, Left all lo i.rest e → r i = .ok (a, j) → j.rest ≠ [] →
    ∃ hi, Left all hi j.rest e ∧ Q hi a

/-- What a reader yields in front of a token may be **weakened** as well. -/
theorem YieldsBefore.mono (h : r.YieldsBefore all e lo R) (hRQ : ∀ hi a, R hi a → Q hi a) :
    r.YieldsBefore all e lo Q := by
  intro i a j hleft hread hne
  obtain ⟨hi, hrest, ha⟩ := h i a j hleft hread hne
  exact ⟨hi, hrest, hRQ hi a ha⟩

/-- A choice of two readers yields in front of a token what **both of them** do. -/
theorem YieldsBefore.ite {c : Prop} [Decidable c] {s : Reader α} (hr : r.YieldsBefore all e lo Q)
    (hs : s.YieldsBefore all e lo Q) : (if c then r else s).YieldsBefore all e lo Q := by
  split
  · exact hr
  · exact hs

/-- Two readers one behind the other yield in front of a token **what the second one does** from
where the first one ends. -/
theorem YieldsBefore.bind (hr : r.Yields all e lo R)
    (hf : ∀ hi a, R hi a → (f a).YieldsBefore all e hi P) :
    (r >>= f).YieldsBefore all e lo P := by
  intro i b j hleft hread hne
  obtain ⟨a, k, hfirst, hsecond⟩ := bind_eq_ok.mp hread
  obtain ⟨hi, hrest, ha⟩ := hr i a k hleft hfirst
  exact hf hi a ha k b j hrest hsecond hne

/-- Behind a reader **whose value has no places** the next one starts at the same bound here too. -/
theorem YieldsBefore.skip [hr : Skips r] (hf : ∀ a, (f a).YieldsBefore all e lo P) :
    (r >>= f).YieldsBefore all e lo P :=
  .bind (hr.skips all e lo) fun _ a hhi => hhi ▸ hf a

/-- Nothing is taken when a result is **only put together**. -/
theorem YieldsBefore.put {g : α → β} (hr : r.YieldsBefore all e lo fun hi a => P hi (g a)) :
    (r >>= fun a => Pure.pure (g a)).YieldsBefore all e lo P := by
  intro i b j hleft hread hne
  obtain ⟨a, k, hfirst, hsecond⟩ := bind_eq_ok.mp hread
  cases hsecond
  exact hr i a j hleft hfirst hne

/-- In front of a reader that takes a token **one is left**. -/
theorem YieldsBefore.before (hr : r.YieldsBefore all e lo R) [hungry : ∀ a, Hungry (f a)]
    (hf : ∀ hi a, R hi a → (f a).Yields all e hi P) : (r >>= f).Yields all e lo P := by
  intro i b j hleft hread
  obtain ⟨a, k, hfirst, hsecond⟩ := bind_eq_ok.mp hread
  obtain ⟨hi, hrest, ha⟩ := hr i a k hleft hfirst
    fun hempty => (hungry a).fails k (b, j) hempty hsecond
  exact hf hi a ha k b j hrest hsecond

end Reader

/-! ### Lists of results -/

namespace Reader

variable {α β : Type} {all : List Token} {e lo : Position} {r : Reader α} {f : α → List Part}

/-- **The results of a step that is repeated** keep an invariant: if each step does that yields one
more, it holds of all of them. -/
theorem Yields.collectWith {step : Reader (Option α)} (Inv : Position → List α → Prop)
    (hstart : Inv lo []) (hstep : ∀ mid as, Inv mid as → step.Yields all e mid fun hi x =>
      x.elim (Inv hi as) fun a => Inv hi (as ++ [a])) :
    (collect step).Yields all e lo fun hi as => Inv hi as := by
  refine .iterate (fun mid done => Inv mid done.reverse) hstart fun mid done hdone =>
    (hstep mid _ hdone).bind fun hi x hx => ?_
  cases x with
  | none => exact .pure hx
  | some a =>
      refine .pure ?_
      change Inv hi (a :: done).reverse
      rwa [List.reverse_cons]

/-- A loop that stops by itself reads parts **one behind the other**. -/
theorem Yields.collect {step : Reader (Option α)} (hstep : ∀ mid, step.Yields all e mid fun hi x =>
      mid ≤ hi ∧ ∀ a ∈ x, OrderlyParts all mid hi (f a)) :
    (collect step).Yields all e lo fun hi as => OrderlyParts all lo hi (as.flatMap f) := by
  refine .collectWith (fun mid as => OrderlyParts all lo mid (as.flatMap f)) (.nil (le_refl lo))
    fun mid as has => (hstep mid).mono fun hi x ⟨hle, hx⟩ => ?_
  cases x with
  | none => exact has.widen (le_refl lo) hle
  | some a =>
      change OrderlyParts all lo hi ((as ++ [a]).flatMap f)
      rw [List.flatMap_append, List.flatMap_singleton]
      exact has.append (hx a rfl)

/-- A step of such a loop **goes on with parts in order**. -/
theorem Yields.found {a : α} (ha : OrderlyParts all lo hi (f a)) :
    (Pure.pure (some a) : Reader (Option α)).Yields all e hi fun hi x =>
      lo ≤ hi ∧ ∀ a ∈ x, OrderlyParts all lo hi (f a) := by
  refine .pure ⟨ha.le, fun b hb => ?_⟩
  cases hb
  exact ha

/-- It **stops where nothing was taken**. -/
theorem Yields.nothing :
    (Pure.pure none : Reader (Option α)).Yields all e lo fun hi x =>
      lo ≤ hi ∧ ∀ a ∈ x, OrderlyParts all lo hi (f a) :=
  .pure ⟨le_refl lo, fun _ ha => nomatch ha⟩

/-- A loop over all tokens that are left reads parts **one behind the other**. -/
theorem Yields.untilEmpty
    (h : ∀ mid, r.Yields all e mid fun hi a => OrderlyParts all mid hi (f a)) :
    (untilEmpty r).Yields all e lo fun hi as => OrderlyParts all lo hi (as.flatMap f) := by
  refine .collect fun mid => .skip fun done => ?_
  split
  · exact .nothing
  · exact (h mid).bind fun hi a ha => .found ha

/-- So does one over parts **between commas**. -/
theorem Yields.terminated
    (h : ∀ mid, r.Yields all e mid fun hi a => OrderlyParts all mid hi (f a)) :
    (terminated r).Yields all e lo fun hi as => OrderlyParts all lo hi (as.flatMap f) := by
  refine .collect fun mid => .skip fun done => ?_
  split
  · exact .nothing
  · refine (h mid).bind fun hi a ha => .skip fun last => ?_
    dsimp only
    split
    · exact .found ha
    · exact .skip fun _ => .found ha

/-- So does one over parts **between the same operators**. -/
theorem Yields.joined {op : String} {stop : List Token → Bool}
    (h : ∀ mid, r.Yields all e mid fun hi a => OrderlyParts all mid hi (f a)) :
    (joined op stop r).Yields all e lo fun hi as => OrderlyParts all lo hi (as.flatMap f) := by
  refine .iterate (fun mid done => OrderlyParts all lo mid (done.reverse.flatMap f))
    (.nil (le_refl lo)) fun mid done hdone => .skip fun stopped => ?_
  split
  · exact .pure hdone
  · refine (h mid).bind fun hi a ha => .skip fun more => ?_
    have hdone : OrderlyParts all lo hi ((a :: done).reverse.flatMap f) := by
      rw [List.reverse_cons, List.flatMap_append, List.flatMap_singleton]
      exact hdone.append ha
    split <;> exact .pure hdone

instance [Skips r] {op : String} {stop : List Token → Bool} : Skips (Reader.joined op stop r) := by
  unfold Reader.joined
  infer_instance

instance {step : Reader (Option α)} [Skips step] : Skips (Reader.collect step) := by
  have hround : ∀ (done : List α) (x : Option α), Skips (match x with
      | some a => Pure.pure (.inl (a :: done))
      | none => Pure.pure (.inr done.reverse) : Reader (List α ⊕ List α)) := by
    intro done x
    cases x <;> infer_instance
  unfold Reader.collect
  infer_instance

instance [Skips r] : Skips (Reader.terminated r) := by
  unfold Reader.terminated
  dsimp only
  infer_instance

/-- What is read in a group stands between **the places around it**. -/
theorem Yields.inGroup {d : Delimiter}
    (h : ∀ e o, r.Yields all e o fun hi a => OrderlyParts all o hi (f a)) :
    (Reader.group d r).Yields all e lo fun hi a => OrderlyParts all lo hi (f a) :=
  .group fun e o ho => (h e o).mono fun _ _ ha hle => ha.widen ho hle

end Reader

/-! ### Grammars -/

/-- A grammar is **in order** when its readers yield constructs whose mentions follow one another,
in between the tokens that are taken. -/
structure Grammar.InOrder (all : List Token) (g : Grammar) : Prop where
  /-- It is the grammar of some depth. -/
  depth : ∃ depth, g = .ofDepth depth
  /-- Types. -/
  type : ∀ plus e lo, (g.type plus).Yields all e lo fun hi t => OrderlyParts all lo hi [.type t]
  /-- Bounds. -/
  bound : ∀ captures consts e lo, (g.bound captures consts).Yields all e lo fun hi x =>
    OrderlyParts all lo hi x.2
  /-- Operands. -/
  unary : ∀ structs e lo, (g.unary structs).Yields all e lo fun hi x => OrderlyExpr all lo hi x
  /-- Operators behind an operand. -/
  climb : ∀ structs left p e lo mid, OrderlyExpr all lo mid left →
    (g.climb structs left p).Yields all e mid fun hi x => OrderlyExpr all lo hi x
  /-- Statements that are expressions. -/
  early : ∀ e lo, g.early.Yields all e lo fun hi x => OrderlyExpr all lo hi x
  /-- Patterns. -/
  pattern : ∀ e lo, g.pattern.Yields all e lo fun hi p => OrderlyParts all lo hi [.pattern p]
  /-- Items. -/
  item : ∀ e lo, g.item.Yields all e lo fun hi item => OrderlyParts all lo hi [.item item]
  /-- The statements of a block. -/
  statements : ∀ e lo, g.statements.Yields all e lo fun hi parts => OrderlyParts all lo hi parts
  /-- What an import names. -/
  useTree : ∀ global, Reader.Skips (g.useTree global)

end CapabilityGate.Program
