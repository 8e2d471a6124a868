import CapabilityGate.Data.JsonText

/-!
# Reading JSON texts

A JSON text spells a value, with gaps between its parts if need be. What spells a value is read as
this value, whatever is looked at in it, and what stands behind it is left: the fuel of the reader
is always enough.

## Main definitions

* `JsonText.Spells`: a text spells a value that nests at most so many levels.

## Main results

* `JsonText.readNumber_toString`: the text of a whole number is read as the number.
* `JsonText.readChars_escape`: the written form of some characters is read as the characters.
* `JsonText.readFor_of_spells`: a text that spells a value is read as it.
-/

namespace CapabilityGate.JsonText

/-! ### Numbers -/

/-- What stands behind a number does not **go on with it**. -/
def EndsNumber (rest : List Char) : Prop :=
  ∀ c ∈ rest.head?, c.isDigit = false ∧ c ≠ '.' ∧ c ≠ 'e' ∧ c ≠ 'E'

/-- The digits of a number **spell** it. -/
theorem decimalValue_toDigits (n : Nat) : decimalValue (Nat.toDigits 10 n) = n := by
  have hstep : (fun (sofar : Nat) (c : Char) => sofar * 10 + (c.toNat - 48)) =
      fun sofar c => 10 * sofar + (c.toNat - '0'.toNat) := by
    funext sofar c
    rw [Nat.mul_comm]
    rfl
  rw [decimalValue, hstep]
  exact Nat.ofDigitChars_toDigits (by decide) (by decide)

/-- The digits of a number other than zero have **no zero in front**. -/
theorem head?_toDigits_ne_zero {n : Nat} (hn : 0 < n) :
    (Nat.toDigits 10 n).head? ≠ some '0' := by
  induction n using Nat.strongRecOn with
  | ind n ih =>
      rw [Nat.toDigits_eq_if (by decide)]
      split
      next hlt =>
        have hdigit : ∀ n < 10, 0 < n → Nat.digitChar n ≠ '0' := by decide
        exact fun hhead => hdigit n hlt hn (Option.some.inj hhead)
      next hge =>
        have hpos := List.length_pos_iff.mp (Nat.length_toDigits_pos (b := 10) (n := n / 10))
        obtain ⟨c, cs, hcs⟩ := List.exists_cons_of_ne_nil hpos
        have hfront := ih (n / 10) (by omega) (by omega)
        rwa [hcs] at hfront ⊢

/-- The digits of a number have **no superfluous zero** in front. -/
theorem zero_of_head?_toDigits {n : Nat} (h : (Nat.toDigits 10 n).head? = some '0') :
    Nat.toDigits 10 n = ['0'] := by
  rcases Nat.eq_zero_or_pos n with rfl | hpos
  · rfl
  · exact absurd h (head?_toDigits_ne_zero hpos)

/-- The digits in front of a text are those of **the number there**. -/
theorem span_toDigits (n : Nat) {rest : List Char} (h : EndsNumber rest) :
    (Nat.toDigits 10 n ++ rest).takeWhile Char.isDigit = Nat.toDigits 10 n ∧
      (Nat.toDigits 10 n ++ rest).dropWhile Char.isDigit = rest := by
  have hdigits : ∀ c ∈ Nat.toDigits 10 n, c.isDigit = true :=
    fun c hc => Nat.isDigit_of_mem_toDigits (by decide) (by decide) hc
  have hrest : rest.takeWhile Char.isDigit = [] ∧ rest.dropWhile Char.isDigit = rest := by
    cases rest with
    | nil => exact ⟨rfl, rfl⟩
    | cons c more =>
        have hc := (h c rfl).1
        rw [List.takeWhile_cons_of_neg (by simp [hc]), List.dropWhile_cons_of_neg (by simp [hc])]
        exact ⟨rfl, rfl⟩
  rw [List.takeWhile_append_of_pos hdigits, List.dropWhile_append_of_pos hdigits, hrest.1, hrest.2,
    List.append_nil]
  exact ⟨rfl, rfl⟩

/-- Where a number ends, there is **no fraction and no exponent**. -/
theorem readFraction?_of_ends {rest : List Char} (h : EndsNumber rest) :
    readFraction? rest = some ([], rest) ∧ readExponent? rest = some ([], rest) := by
  cases rest with
  | nil => exact ⟨rfl, rfl⟩
  | cons c more =>
      obtain ⟨-, hdot, he, hE⟩ := h c rfl
      constructor
      · rw [readFraction?]
        rintro rest heq
        exact hdot (List.cons.inj heq).1
      · simp [readExponent?, he, hE]

/-- The digits of a number are read as **the number**, also behind a minus sign unless it is
zero. -/
theorem readNumber_toDigits (n : Nat) {rest : List Char} (h : EndsNumber rest) :
    readNumber (Nat.toDigits 10 n ++ rest) = some (.int n, rest) ∧
      (0 < n → readNumber ('-' :: Nat.toDigits 10 n ++ rest) = some (.int (-n), rest)) := by
  obtain ⟨htake, hdrop⟩ := span_toDigits n h
  obtain ⟨hfraction, hexponent⟩ := readFraction?_of_ends h
  have hne := List.length_pos_iff.mp (Nat.length_toDigits_pos (b := 10) (n := n))
  have hproper : ((Nat.toDigits 10 n).isEmpty ||
      (Nat.toDigits 10 n).head? == some '0' && (Nat.toDigits 10 n).length > 1) = false := by
    rw [Bool.or_eq_false_iff, Bool.and_eq_false_iff]
    refine ⟨by simp, ?_⟩
    by_cases hzero : (Nat.toDigits 10 n).head? = some '0'
    · rw [zero_of_head?_toDigits hzero]
      exact Or.inr rfl
    · exact Or.inl (by simpa using hzero)
  constructor
  · have hsign : ∀ more, Nat.toDigits 10 n ++ rest ≠ '-' :: more := by
      intro more heq
      obtain ⟨c, cs, hcs⟩ := List.exists_cons_of_ne_nil hne
      have hc : c.isDigit = true :=
        Nat.isDigit_of_mem_toDigits (by decide) (by decide) (hcs ▸ List.mem_cons_self)
      rw [hcs, List.cons_append] at heq
      rw [(List.cons.inj heq).1] at hc
      exact absurd hc (by decide)
    rw [readNumber]
    · simp [htake, hdrop, hproper, hfraction, hexponent, decimalValue_toDigits]
    · exact hsign
  · intro hpos
    have hzero : Nat.toDigits 10 n ≠ ['0'] := by
      intro heq
      exact head?_toDigits_ne_zero hpos (by rw [heq]; rfl)
    rw [List.cons_append, readNumber]
    simp [htake, hdrop, hproper, hfraction, hexponent, decimalValue_toDigits, hzero]

/-- The text of a whole number has its digits, behind a minus sign if need be. -/
theorem toList_toString_int (n : Int) : (toString n).toList =
    if 0 ≤ n then Nat.toDigits 10 n.toNat else '-' :: Nat.toDigits 10 (-n).toNat := by
  rw [show toString n = n.repr from rfl, Int.repr_eq_if]
  split
  · exact Nat.toList_repr
  · rw [String.toList_append, Nat.toList_repr]
    rfl

/-- The text of a whole number is read as **the number**. -/
theorem readNumber_toString (n : Int) {rest : List Char} (h : EndsNumber rest) :
    readNumber ((toString n).toList ++ rest) = some (.int n, rest) := by
  rw [toList_toString_int]
  split
  next hpos =>
    rw [(readNumber_toDigits n.toNat h).1, Int.toNat_of_nonneg hpos]
  next hneg =>
    rw [(readNumber_toDigits (-n).toNat h).2 (by omega), Int.toNat_of_nonneg (by omega),
      Int.neg_neg]

/-- A number **starts** with a digit or a minus sign. -/
def StartsNumber (c : Char) : Prop :=
  c.isDigit = true ∨ c = '-'

/-- A number starts with **no other character**. -/
theorem StartsNumber.ne {c d : Char} (hc : StartsNumber c)
    (hd : d.isDigit = false ∧ d ≠ '-') : c ≠ d := by
  rintro rfl
  rcases hc with hdigit | hminus
  · exact Bool.noConfusion (hd.1.symm.trans hdigit)
  · exact hd.2 hminus

/-- The text of a whole number starts as **a number**. -/
theorem exists_toString_cons (n : Int) :
    ∃ c s, (toString n).toList = c :: s ∧ StartsNumber c := by
  rw [toList_toString_int]
  split
  · obtain ⟨c, s, hs⟩ := List.exists_cons_of_ne_nil
      (List.length_pos_iff.mp (Nat.length_toDigits_pos (b := 10) (n := n.toNat)))
    exact ⟨c, s, hs, Or.inl (Nat.isDigit_of_mem_toDigits (by decide) (by decide)
      (hs ▸ List.mem_cons_self))⟩
  · exact ⟨'-', _, rfl, Or.inr rfl⟩

/-! ### Texts -/

/-- A digit of base sixteen is read as **its value**. -/
theorem hexValue?_hexDigit : ∀ n < 16, hexValue? (hexDigit n) = some n := by
  decide

/-- The digits of a control character spell **its number**. -/
theorem hexFour?_of_control {c : Char} (hc : c.toNat < 0x20) (rest : List Char) :
    hexFour? ('0' :: '0' :: hexDigit (c.toNat / 16) :: hexDigit (c.toNat % 16) :: rest) =
      some (c.toNat, rest) := by
  have hzero : hexValue? '0' = some 0 := by decide
  have hhigh := hexValue?_hexDigit (c.toNat / 16) (by omega)
  have hlow := hexValue?_hexDigit (c.toNat % 16) (by omega)
  have hvalue : c.toNat / 16 * 16 + c.toNat % 16 = c.toNat := by omega
  simp [hexFour?, hzero, hhigh, hlow, hvalue]

/-- The number of a control character stands for **the character**. -/
theorem escapedUnit?_of_control {c : Char} (hc : c.toNat < 0x20) (rest : List Char) :
    escapedUnit? c.toNat rest = some (c, rest) := by
  have hplain : c.toNat < 0xD800 := by omega
  simp [escapedUnit?, hplain]

/-- What the number of a control character stands for is **looked at or not**, all the same. -/
theorem Look.unit?_of_control (look : Look) {c : Char} (hc : c.toNat < 0x20) (rest : List Char) :
    look.unit? c.toNat rest = some (c, rest) := by
  cases look <;> simp [unit?, escapedUnit?_of_control hc rest]

/-- The written form of one character is read as **the character**. -/
theorem readChars_escape_append (look : Look) (fuel : Nat) (c : Char) (s : List Char) :
    readChars look (fuel + 1) (escape c ++ s) =
      (readChars look fuel s).map fun (cs, rest) => (c :: cs, rest) := by
  rw [escape.eq_def]
  split
  case h_8 _ hquote hslash _ _ _ _ _ =>
    split
    next hcontrol =>
      have hfour := hexFour?_of_control hcontrol s
      have hunit := look.unit?_of_control hcontrol s
      simp only [List.cons_append, List.nil_append]
      rw [readChars]
      simp only [hfour, hunit, bind, Option.bind]
      cases readChars look fuel s <;> rfl
    next hplain =>
      rw [List.singleton_append, readChars]
      · have hne : c ≠ '\\' := hslash
        rw [if_neg (by simp [hplain, hne])]
        cases readChars look fuel s <;> rfl
      · exact hquote
      · exact fun _ heq _ => hslash heq
      · exact fun _ _ heq _ => hslash heq
  all_goals
    rw [List.cons_append, List.cons_append, List.nil_append, readChars]
    · cases readChars look fuel s <;> rfl
    · decide

/-- The written form of some characters is read as **the characters**, up to the quote behind
them. -/
theorem readChars_escape (look : Look) {fuel : Nat} {cs : List Char} (h : cs.length < fuel)
    (rest : List Char) : readChars look fuel (cs.flatMap escape ++ '"' :: rest) = some (cs, rest) := by
  induction cs generalizing fuel with
  | nil =>
      obtain ⟨fuel, rfl⟩ := Nat.exists_eq_succ_of_ne_zero (Nat.ne_zero_of_lt h)
      rw [List.flatMap_nil, List.nil_append, readChars]
  | cons c cs ih =>
      rw [List.length_cons] at h
      obtain ⟨fuel, rfl⟩ := Nat.exists_eq_succ_of_ne_zero (Nat.ne_zero_of_lt h)
      rw [List.flatMap_cons, List.append_assoc, readChars_escape_append,
        ih (Nat.lt_of_succ_lt_succ h), Option.map_some]

/-! ### Values -/

mutual

/-- A text **spells a value** that nests at most `depth` levels. -/
inductive Spells : (depth : Nat) → Data → List Char → Prop
  /-- A gap in front of a value. -/
  | gap {depth : Nat} {d : Data} {c : Char} {s : List Char} (hgap : isGap c = true)
      (h : Spells depth d s) : Spells depth d (c :: s)
  | null {depth : Nat} : Spells depth .null ['n', 'u', 'l', 'l']
  | yes {depth : Nat} : Spells depth (.bool true) ['t', 'r', 'u', 'e']
  | no {depth : Nat} : Spells depth (.bool false) ['f', 'a', 'l', 's', 'e']
  | int {depth : Nat} (n : Int) : Spells depth (.int n) (toString n).toList
  | text {depth : Nat} (s : String) : Spells depth (.text s) (quoted s).toList
  | noMembers {depth : Nat} : Spells (depth + 1) (.list []) ['[', ']']
  | list {depth : Nat} {ds : List Data} {s : List Char} (h : SpellsMembers depth ds s) :
      Spells (depth + 1) (.list ds) ('[' :: s)
  | noFields {depth : Nat} : Spells (depth + 1) (.record []) ['\x7b', '\x7d']
  | record {depth : Nat} {fields : List (String × Data)} {s : List Char}
      (h : SpellsFields depth fields s) : Spells (depth + 1) (.record fields) ('\x7b' :: s)

/-- A text spells the members of a list, one at least, and the bracket that closes it. -/
inductive SpellsMembers : (depth : Nat) → List Data → List Char → Prop
  | last {depth : Nat} {d : Data} {s gap : List Char} (h : Spells depth d s)
      (hgap : ∀ c ∈ gap, isGap c = true) : SpellsMembers depth [d] (s ++ gap ++ [']'])
  | more {depth : Nat} {d : Data} {ds : List Data} {s rest : List Char} (h : Spells depth d s)
      (hrest : SpellsMembers depth ds rest) : SpellsMembers depth (d :: ds) (s ++ ',' :: rest)

/-- A text spells the fields of a record, one at least, and the brace that closes it. -/
inductive SpellsFields : (depth : Nat) → List (String × Data) → List Char → Prop
  | last {depth : Nat} (name : String) {d : Data} {lead s gap : List Char}
      (hlead : ∀ c ∈ lead, isGap c = true) (h : Spells depth d s)
      (hgap : ∀ c ∈ gap, isGap c = true) :
      SpellsFields depth [(name, d)]
        (lead ++ ((quoted name).toList ++ ':' :: (s ++ gap ++ ['\x7d'])))
  | more {depth : Nat} (name : String) {d : Data} {fields : List (String × Data)}
      {lead s rest : List Char} (hlead : ∀ c ∈ lead, isGap c = true) (h : Spells depth d s)
      (hrest : SpellsFields depth fields rest) :
      SpellsFields depth ((name, d) :: fields)
        (lead ++ ((quoted name).toList ++ ':' :: (s ++ ',' :: rest)))

end

/-- A gap in front of something is **skipped**. -/
theorem skipGap_cons {c : Char} (hc : isGap c = true) (s : List Char) :
    skipGap (c :: s) = skipGap s := by
  rw [skipGap, List.dropWhile_cons_of_pos hc, skipGap]

/-- What starts without a gap is **left as it is**. -/
theorem skipGap_of_not_gap {c : Char} (hc : isGap c = false) (s : List Char) :
    skipGap (c :: s) = c :: s := by
  rw [skipGap, List.dropWhile_cons_of_neg (by simp [hc])]

/-- A number starts with **no gap**. -/
theorem StartsNumber.isGap_eq_false {c : Char} (hc : StartsNumber c) : isGap c = false := by
  rw [isGap]
  simp only [Bool.or_eq_false_iff, beq_eq_false_iff_ne]
  exact ⟨⟨⟨hc.ne (by decide), hc.ne (by decide)⟩, hc.ne (by decide)⟩, hc.ne (by decide)⟩

/-- Several characters of a gap are **skipped**. -/
theorem skipGap_append {gap : List Char} (hgap : ∀ c ∈ gap, isGap c = true) (s : List Char) :
    skipGap (gap ++ s) = skipGap s := by
  rw [skipGap, List.dropWhile_append_of_pos hgap, skipGap]

theorem toList_quoted (s : String) :
    (quoted s).toList = '"' :: (s.toList.flatMap escape ++ ['"']) := by
  rw [quoted, String.toList_ofList, List.cons_append]

/-- The written form of a character has **at least one** character. -/
theorem escape_ne_nil (c : Char) : escape c ≠ [] := by
  rw [escape.eq_def]
  split
  case h_8 => split <;> exact List.cons_ne_nil _ _
  all_goals exact List.cons_ne_nil _ _

/-- The written form of some characters is **no shorter** than they are. -/
theorem length_le_escape (cs : List Char) : cs.length ≤ (cs.flatMap escape).length := by
  induction cs with
  | nil => exact Nat.le_refl 0
  | cons c cs ih =>
      have hpos := List.length_pos_iff.mpr (escape_ne_nil c)
      rw [List.flatMap_cons, List.length_append, List.length_cons]
      omega

/-- A text is read as **the text** up to the quote behind it. -/
theorem readChars_quoted (look : Look) (s : String) (rest : List Char) :
    readChars look ((s.toList.flatMap escape ++ '"' :: rest).length + 1)
      (s.toList.flatMap escape ++ '"' :: rest) = some (s.toList, rest) := by
  have hlength := length_le_escape s.toList
  refine readChars_escape look ?_ rest
  rw [List.length_append, List.length_cons]
  omega

/-! ### What a value starts with -/

/-- A gap is skipped **once and for all**. -/
theorem skipGap_skipGap (s : List Char) : skipGap (skipGap s) = skipGap s := by
  induction s with
  | nil => rfl
  | cons c s ih =>
      by_cases hc : isGap c = true
      · rw [skipGap_cons hc, ih]
      · have hc : isGap c = false := by simpa using hc
        rw [skipGap_of_not_gap hc, skipGap_of_not_gap hc]

/-- What is behind a gap is left as it is, **with what follows it**. -/
theorem skipGap_append_of_cons {c : Char} {s more : List Char} (h : skipGap s = c :: more)
    (rest : List Char) : skipGap (s ++ rest) = c :: (more ++ rest) := by
  induction s with
  | nil => exact nomatch h
  | cons d s ih =>
      rw [List.cons_append]
      by_cases hd : isGap d = true
      · rw [skipGap_cons hd] at h ⊢
        exact ih h
      · rw [skipGap_of_not_gap (by simpa using hd)] at h ⊢
        obtain ⟨rfl, rfl⟩ := List.cons.inj h
        rfl

/-- Where a list or a record goes on, it is **not closed**. -/
theorem Spells.exists_start : ∀ {depth : Nat} {d : Data} {s : List Char}, Spells depth d s →
    ∃ c more, skipGap s = c :: more ∧ c ≠ ']'
  | _, _, _, .gap hgap h => by
    rw [skipGap_cons hgap]
    exact h.exists_start
  | _, _, _, .null => ⟨'n', _, rfl, by decide⟩
  | _, _, _, .yes => ⟨'t', _, rfl, by decide⟩
  | _, _, _, .no => ⟨'f', _, rfl, by decide⟩
  | _, _, _, .int n => by
    obtain ⟨c, s, hs, hc⟩ := exists_toString_cons n
    rw [hs, skipGap_of_not_gap hc.isGap_eq_false]
    exact ⟨c, s, rfl, hc.ne (by decide)⟩
  | _, _, _, .text s => by
    rw [toList_quoted]
    exact ⟨'"', _, rfl, by decide⟩
  | _, _, _, .noMembers => ⟨'[', _, rfl, by decide⟩
  | _, _, _, .list h => ⟨'[', _, rfl, by decide⟩
  | _, _, _, .noFields => ⟨'\x7b', _, rfl, by decide⟩
  | _, _, _, .record h => ⟨'\x7b', _, rfl, by decide⟩

theorem SpellsMembers.exists_start {depth : Nat} {ds : List Data} {s : List Char}
    (h : SpellsMembers depth ds s) : ∃ c more, skipGap s = c :: more ∧ c ≠ ']' := by
  cases h with
  | last h hgap =>
      obtain ⟨c, more, hskip, hc⟩ := h.exists_start
      rw [List.append_assoc]
      exact ⟨c, _, skipGap_append_of_cons hskip _, hc⟩
  | more h hrest =>
      obtain ⟨c, more, hskip, hc⟩ := h.exists_start
      exact ⟨c, _, skipGap_append_of_cons hskip _, hc⟩

/-- The fields of a record start with **the name of the first**. -/
theorem SpellsFields.exists_start {depth : Nat} {fields : List (String × Data)} {s : List Char}
    (h : SpellsFields depth fields s) : ∃ more, skipGap s = '"' :: more := by
  cases h with
  | last name hlead h hgap =>
      rw [skipGap_append hlead, toList_quoted]
      exact ⟨_, rfl⟩
  | more name hlead h hrest =>
      rw [skipGap_append hlead, toList_quoted]
      exact ⟨_, rfl⟩

/-! ### The reader -/

/-- A list or a record is entered while values **may nest**. -/
@[simp]
theorem Look.enters_succ (look : Look) (depth : Nat) : look.enters (depth + 1) = true := by
  cases look <;> rfl

/-- A value is read from **behind a gap**. -/
theorem readValue_skipGap (fuel depth : Nat) (look : Look) (s : List Char) :
    readValue fuel depth look (skipGap s) = readValue fuel depth look s := by
  cases fuel with
  | zero => rw [readValue, readValue]
  | succ fuel => simp only [readValue, skipGap_skipGap]

/-- Members are read from **behind a gap**. -/
theorem readMembers_skipGap (fuel depth : Nat) (look : Look) (s : List Char) :
    readMembers fuel depth look (skipGap s) = readMembers fuel depth look s := by
  cases fuel with
  | zero => rw [readMembers, readMembers]
  | succ fuel => rw [readMembers, readMembers, readValue_skipGap]

/-- Fields are read from **behind a gap**. -/
theorem readFields_skipGap (fuel depth : Nat) (look : Look) (s : List Char) :
    readFields fuel depth look (skipGap s) = readFields fuel depth look s := by
  cases fuel with
  | zero => rw [readFields, readFields]
  | succ fuel => simp only [readFields, skipGap_skipGap]

/-- A gap in front of a value is skipped **with it**. -/
theorem readValue_gap {c : Char} (hc : isGap c = true) (fuel depth : Nat) (look : Look)
    (s : List Char) : readValue fuel depth look (c :: s) = readValue fuel depth look s := by
  rw [← readValue_skipGap, skipGap_cons hc, readValue_skipGap]

/-- A gap in front of fields is skipped **with them**. -/
theorem readFields_gap {lead : List Char} (hlead : ∀ c ∈ lead, isGap c = true)
    (fuel depth : Nat) (look : Look) (s : List Char) :
    readFields fuel depth look (lead ++ s) = readFields fuel depth look s := by
  rw [← readFields_skipGap, skipGap_append hlead, readFields_skipGap]

/-- A field is read as its **name and value**. The mark behind it says whether there are more
fields. -/
theorem readFields_named {fuel depth : Nat} {look : Look} (name : String) {d : Data}
    {lead s behind : List Char} (hlead : ∀ c ∈ lead, isGap c = true)
    (hread : readValue fuel depth (look.field name) s = some (d, behind))
    {mark : Char} (hmark : mark = ',' ∨ mark = '\x7d') {rest : List Char}
    (hbehind : skipGap behind = mark :: rest) :
    readFields (fuel + 1) depth look (lead ++ ((quoted name).toList ++ ':' :: s)) =
      if mark = ',' then
        (readFields fuel depth look rest).bind fun more => some ((name, d) :: more.1, more.2)
      else some ([(name, d)], rest) := by
  have hname := readChars_quoted look name (':' :: s)
  rw [readFields_gap hlead, toList_quoted]
  simp only [List.append_assoc, List.cons_append, List.nil_append]
  rw [readFields, skipGap_of_not_gap (by decide)]
  simp only [hname, bind, Option.bind]
  rw [skipGap_of_not_gap (by decide)]
  simp only [String.ofList_toList, hread, hbehind]
  rcases hmark with rfl | rfl <;> rfl

/-- What starts as a number is read as **a number**. -/
theorem readValue_of_number {c : Char} (hc : StartsNumber c) (fuel depth : Nat) (look : Look)
    (s : List Char) : readValue (fuel + 1) depth look (c :: s) = readNumber (c :: s) := by
  rw [readValue, skipGap_of_not_gap hc.isGap_eq_false]
  split
  case h_7 => rfl
  all_goals
    next heq => exact absurd (List.cons.inj heq).1 (hc.ne (by decide))

/-- A number **ends** before a mark that stands between values or behind them. -/
theorem endsNumber_of_mark {mark : Char} (hmark : mark ∈ [',', ']', '\x7d']) (rest : List Char) :
    EndsNumber (mark :: rest) := by
  intro c hc
  obtain rfl : mark = c := Option.some.inj hc
  revert hmark
  simp only [List.mem_cons, List.not_mem_nil, or_false]
  rintro (rfl | rfl | rfl) <;> decide

/-- A number **ends** before a gap. -/
theorem endsNumber_of_gap {gap : List Char} (hgap : ∀ c ∈ gap, isGap c = true) {rest : List Char}
    (h : EndsNumber rest) : EndsNumber (gap ++ rest) := by
  cases gap with
  | nil => exact h
  | cons d gap =>
      intro c hc
      obtain rfl : d = c := Option.some.inj hc
      have hd := hgap d List.mem_cons_self
      simp only [isGap, Bool.or_eq_true, beq_iff_eq] at hd
      rcases hd with ((rfl | rfl) | rfl) | rfl <;> decide

/-- There is fuel for a text that is **not empty**. -/
theorem exists_fuel {c : Char} {s : List Char} {fuel : Nat} (h : 2 * (c :: s).length ≤ fuel) :
    ∃ less, fuel = less + 1 ∧ 2 * s.length + 1 ≤ less := by
  rw [List.length_cons] at h
  exact ⟨fuel - 1, by omega, by omega⟩

mutual

/-- What spells a value is read as **the value**, and what stands behind it is left. -/
theorem Spells.read : ∀ {fuel depth : Nat} {d : Data} {s : List Char}, Spells depth d s →
    2 * s.length ≤ fuel → ∀ look rest, EndsNumber rest →
      readValue fuel depth look (s ++ rest) = some (d, rest)
  | _, _, _, _, .gap hgap h, hfuel, look, rest, hends => by
    rw [List.length_cons] at hfuel
    rw [List.cons_append, readValue_gap hgap]
    exact h.read (by omega) look rest hends
  | _, _, _, _, .null, hfuel, _, _, _ => by
    obtain ⟨fuel, rfl, -⟩ := exists_fuel hfuel
    simp [readValue, skipGap, isGap, readWord]
  | _, _, _, _, .yes, hfuel, _, _, _ => by
    obtain ⟨fuel, rfl, -⟩ := exists_fuel hfuel
    simp [readValue, skipGap, isGap, readWord]
  | _, _, _, _, .no, hfuel, _, _, _ => by
    obtain ⟨fuel, rfl, -⟩ := exists_fuel hfuel
    simp [readValue, skipGap, isGap, readWord]
  | _, _, _, _, .int n, hfuel, look, rest, hends => by
    obtain ⟨c, s, hs, hc⟩ := exists_toString_cons n
    have hread := readNumber_toString n hends
    rw [hs] at hfuel hread ⊢
    obtain ⟨fuel, rfl, -⟩ := exists_fuel hfuel
    rw [List.cons_append, readValue_of_number hc]
    exact hread
  | _, _, _, _, .text s, hfuel, look, rest, _ => by
    have hread := readChars_quoted look s rest
    rw [toList_quoted] at hfuel ⊢
    obtain ⟨fuel, rfl, -⟩ := exists_fuel hfuel
    rw [List.cons_append, List.append_assoc, List.singleton_append, readValue,
      skipGap_of_not_gap (by decide)]
    simp only [hread, bind, Option.bind, String.ofList_toList]
  | _, _, _, _, .noMembers, hfuel, _, _, _ => by
    obtain ⟨fuel, rfl, -⟩ := exists_fuel hfuel
    simp [readValue, skipGap, isGap]
  | _, _, _, _, .list h, hfuel, look, rest, _ => by
    obtain ⟨fuel, rfl, hless⟩ := exists_fuel hfuel
    obtain ⟨c, more, hskip, hc⟩ := h.exists_start
    have hstart := skipGap_append_of_cons hskip rest
    have hread := h.read (Nat.le_of_succ_le hless) look rest
    rw [← readMembers_skipGap, hstart] at hread
    rw [List.cons_append, readValue, skipGap_of_not_gap (by decide)]
    simp only [hstart, Look.enters_succ, Nat.add_sub_cancel, if_true]
    split
    next heq => exact absurd (List.cons.inj heq).1 hc
    next => simp only [hread, bind, Option.bind]
  | _, _, _, _, .noFields, hfuel, _, _, _ => by
    obtain ⟨fuel, rfl, -⟩ := exists_fuel hfuel
    simp [readValue, skipGap, isGap]
  | _, _, _, _, .record h, hfuel, look, rest, _ => by
    obtain ⟨fuel, rfl, hless⟩ := exists_fuel hfuel
    obtain ⟨more, hskip⟩ := h.exists_start
    have hstart := skipGap_append_of_cons hskip rest
    have hread := h.read (Nat.le_of_succ_le hless) look rest
    rw [← readFields_skipGap, hstart] at hread
    rw [List.cons_append, readValue, skipGap_of_not_gap (by decide)]
    simp only [hstart, Look.enters_succ, Nat.add_sub_cancel, if_true]
    split
    next heq => exact absurd (List.cons.inj heq).1 (by decide)
    next => simp only [hread, bind, Option.bind]

/-- What spells the members of a list is read as **the members**. -/
theorem SpellsMembers.read : ∀ {fuel depth : Nat} {ds : List Data} {s : List Char},
    SpellsMembers depth ds s → 2 * s.length ≤ fuel → ∀ look rest,
      readMembers fuel depth look (s ++ rest) = some (ds, rest)
  | fuel, _, _, _, @SpellsMembers.last _ _ s gap h hgap, hfuel, look, rest => by
    rw [List.length_append, List.length_append, List.length_singleton] at hfuel
    obtain ⟨fuel, rfl⟩ : ∃ less, fuel = less + 1 := ⟨fuel - 1, by omega⟩
    have hread := h.read (by omega : 2 * s.length ≤ fuel) look.first (gap ++ ']' :: rest)
      (endsNumber_of_gap hgap (endsNumber_of_mark (by decide) rest))
    rw [List.append_assoc, List.append_assoc, List.singleton_append, readMembers, hread]
    simp only [bind, Option.bind]
    rw [skipGap_append hgap, skipGap_of_not_gap (by decide)]
    rfl
  | fuel, _, _, _, @SpellsMembers.more _ _ _ s behind h hrest, hfuel, look, rest => by
    rw [List.length_append, List.length_cons] at hfuel
    obtain ⟨fuel, rfl⟩ : ∃ less, fuel = less + 1 := ⟨fuel - 1, by omega⟩
    have hread := h.read (by omega : 2 * s.length ≤ fuel) look.first (',' :: (behind ++ rest))
      (endsNumber_of_mark (by decide) _)
    have hmore := hrest.read (by omega : 2 * behind.length ≤ fuel) look.later rest
    rw [List.append_assoc, List.cons_append, readMembers, hread]
    simp only [bind, Option.bind]
    rw [skipGap_of_not_gap (by decide)]
    simp only [hmore]

/-- What spells the fields of a record is read as **the fields**. -/
theorem SpellsFields.read : ∀ {fuel depth : Nat} {fields : List (String × Data)} {s : List Char},
    SpellsFields depth fields s → 2 * s.length ≤ fuel → ∀ look rest,
      readFields fuel depth look (s ++ rest) = some (fields, rest)
  | fuel, _, _, _, @SpellsFields.last _ name _ lead s gap hlead h hgap, hfuel, look, rest => by
    simp only [List.length_append, List.length_cons] at hfuel
    obtain ⟨fuel, rfl⟩ : ∃ less, fuel = less + 1 := ⟨fuel - 1, by omega⟩
    have hread := h.read (by omega : 2 * s.length ≤ fuel) (look.field name) (gap ++ '\x7d' :: rest)
      (endsNumber_of_gap hgap (endsNumber_of_mark (by decide) rest))
    have hbehind : skipGap (gap ++ '\x7d' :: rest) = '\x7d' :: rest := by
      rw [skipGap_append hgap, skipGap_of_not_gap (by decide)]
    have hfield := readFields_named name hlead hread (Or.inr rfl) hbehind
    simpa using hfield
  | fuel, _, _, _, @SpellsFields.more _ name _ _ lead s behind hlead h hrest, hfuel, look, rest => by
    simp only [List.length_append, List.length_cons] at hfuel
    obtain ⟨fuel, rfl⟩ : ∃ less, fuel = less + 1 := ⟨fuel - 1, by omega⟩
    have hread := h.read (by omega : 2 * s.length ≤ fuel) (look.field name)
      (',' :: (behind ++ rest)) (endsNumber_of_mark (by decide) _)
    have hmore := hrest.read (by omega : 2 * behind.length ≤ fuel) look rest
    have hfield := readFields_named name hlead hread (Or.inl rfl) (skipGap_of_not_gap (by decide) _)
    simpa [hmore] using hfield

end

/-- **A text that spells a value** that does not nest too deeply is read as it, whatever is looked
at in it. -/
theorem readFor_of_spells (look : Look) {d : Data} {s : String} (h : Spells maxDepth d s.toList) :
    readFor look s = some d := by
  have hfuel : 2 * s.toList.length ≤ 2 * s.length + 2 := by
    rw [String.length_toList]
    exact Nat.le_add_right _ 2
  have hread := h.read hfuel look [] nofun
  rw [List.append_nil] at hread
  rw [readFor, hread]
  rfl

end CapabilityGate.JsonText
