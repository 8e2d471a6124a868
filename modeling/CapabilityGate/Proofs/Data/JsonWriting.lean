import CapabilityGate.Proofs.Data.JsonReading

/-!
# Writing JSON texts

The text of a value spells it, on one line or with a line for each member and field. So the value is
read back from either text, if the numbers in it are whole ones and it does not nest too deeply.

## Main definitions

* `JsonText.Writable`: a value nests at most so many levels, and the numbers in it are whole ones.

## Main results

* `JsonText.spells_compact`, `JsonText.spells_indentedAt`: the text of a value spells it.
* `JsonText.read_compact`, `JsonText.read_indented`: the value is read back from its text.
-/

namespace CapabilityGate.JsonText

mutual

/-- A value nests **at most `depth` levels**, and the numbers in it are whole ones. -/
def Writable (depth : Nat) : Data → Prop
  | .real _ => False
  | .list ds => 0 < depth ∧ AllWritable (depth - 1) ds
  | .record fields => 0 < depth ∧ FieldsWritable (depth - 1) fields
  | _ => True

/-- Several values nest at most so many levels. -/
def AllWritable (depth : Nat) : List Data → Prop
  | [] => True
  | d :: rest => Writable depth d ∧ AllWritable depth rest

/-- The values of several fields nest at most so many levels. -/
def FieldsWritable (depth : Nat) : List (String × Data) → Prop
  | [] => True
  | (_, d) :: rest => Writable depth d ∧ FieldsWritable depth rest

end

/-- Several values are written if **each of them** is. -/
theorem allWritable_iff {depth : Nat} {ds : List Data} :
    AllWritable depth ds ↔ ∀ d ∈ ds, Writable depth d := by
  induction ds with
  | nil => simp [AllWritable]
  | cons d rest ih => simp [AllWritable, ih]

/-- The value `null` can be written **at any depth**. -/
@[simp] theorem writable_null (depth : Nat) : Writable depth .null := by
  simp [Writable]

/-- So can a whole number. -/
@[simp] theorem writable_int (depth : Nat) (n : Int) : Writable depth (.int n) := by
  simp [Writable]

/-- So can a text. -/
@[simp] theorem writable_text (depth : Nat) (s : String) : Writable depth (.text s) := by
  simp [Writable]

/-- A list can be written if its members can **one level further in**. -/
@[simp] theorem writable_list {depth : Nat} {ds : List Data} :
    Writable (depth + 1) (.list ds) ↔ ∀ d ∈ ds, Writable depth d := by
  rw [Writable, allWritable_iff]
  exact and_iff_right (Nat.succ_pos depth)

/-- So can a record if the values of its fields can. -/
@[simp] theorem writable_record {depth : Nat} {fields : List (String × Data)} :
    Writable (depth + 1) (.record fields) ↔ FieldsWritable depth fields := by
  rw [Writable]
  exact and_iff_right (Nat.succ_pos depth)

/-- Something holds of a value **if it holds of everything in it**. -/
structure Inherited (motive : Nat → Data → Prop) : Prop where
  /-- It holds of values that are no lists and no records. -/
  atom : ∀ {depth d}, Writable 0 d → motive depth d
  /-- It holds of a list if it holds of each member. -/
  list : ∀ {depth ds}, (∀ d ∈ ds, motive depth d) → motive (depth + 1) (.list ds)
  /-- It holds of a record if it holds of the value of each field. -/
  record : ∀ {depth fields}, (∀ f ∈ fields, motive depth f.2) →
    motive (depth + 1) (.record fields)

mutual

/-- What holds of a value if it holds of everything in it, **holds of every value**. -/
theorem Inherited.holds {motive : Nat → Data → Prop} (hm : Inherited motive) :
    ∀ {depth : Nat} (d : Data), Writable depth d → motive depth d
  | _, .null, h => hm.atom h
  | _, .bool _, h => hm.atom h
  | _, .int _, h => hm.atom h
  | _, .text _, h => hm.atom h
  | _ + 1, .list ds, h => hm.list (hm.holdsOfAll ds h.2)
  | _ + 1, .record fields, h => hm.record (hm.holdsOfFields fields h.2)

/-- It holds of all members of a list. -/
theorem Inherited.holdsOfAll {motive : Nat → Data → Prop} (hm : Inherited motive) :
    ∀ {depth : Nat} (ds : List Data), AllWritable depth ds → ∀ d ∈ ds, motive depth d
  | _, first :: rest, h, d, hd => by
    rcases List.mem_cons.mp hd with heq | hd
    · rw [heq]
      exact hm.holds first h.1
    · exact hm.holdsOfAll rest h.2 d hd

/-- It holds of all fields of a record. -/
theorem Inherited.holdsOfFields {motive : Nat → Data → Prop} (hm : Inherited motive) :
    ∀ {depth : Nat} (fields : List (String × Data)), FieldsWritable depth fields →
      ∀ f ∈ fields, motive depth f.2
  | _, (_, d) :: rest, h, f, hf => by
    rcases List.mem_cons.mp hf with heq | hf
    · rw [heq]
      exact hm.holds d h.1
    · exact hm.holdsOfFields rest h.2 f hf

end

/-! ### Texts on one line -/

/-- A comma, a colon and a bracket are one character each. -/
theorem toList_marks : ",".toList = [','] ∧ ":".toList = [':'] ∧ "[".toList = ['['] ∧
    "]".toList = [']'] ∧ "\x7b".toList = ['\x7b'] ∧ "\x7d".toList = ['\x7d'] := by
  decide

/-- The text of a list on one line has its members **behind a bracket**. -/
theorem toList_compact_list (d : Data) (rest : List Data) :
    (compact (.list (d :: rest))).toList =
      '[' :: ((compact d).toList ++ (compactMembers rest).toList ++ [']']) := by
  obtain ⟨-, -, hopen, hclose, -, -⟩ := toList_marks
  simp [compact, hopen, hclose]

/-- The text of a record on one line has its fields **behind a brace**. -/
theorem toList_compact_record (name : String) (d : Data) (rest : List (String × Data)) :
    (compact (.record ((name, d) :: rest))).toList =
      '\x7b' :: ((quoted name).toList ++ ':' ::
        ((compact d).toList ++ (compactFields rest).toList ++ ['\x7d'])) := by
  obtain ⟨-, hcolon, -, -, hopen, hclose⟩ := toList_marks
  simp [compact, hcolon, hopen, hclose]

variable {depth : Nat}

/-- The members of a list are spelled on one line if **each of them** is. -/
theorem spellsMembers_compact {d : Data} {rest : List Data}
    (h : ∀ e ∈ d :: rest, Spells depth e (compact e).toList) :
    SpellsMembers depth (d :: rest)
      ((compact d).toList ++ (compactMembers rest).toList ++ [']']) := by
  have hfirst := h d List.mem_cons_self
  induction rest generalizing d with
  | nil =>
      rw [compactMembers]
      exact .last hfirst fun _ => nofun
  | cons next rest ih =>
      have htext : (compact d).toList ++ (compactMembers (next :: rest)).toList ++ [']'] =
          (compact d).toList ++
            ',' :: ((compact next).toList ++ (compactMembers rest).toList ++ [']']) := by
        simp [compactMembers, toList_marks.1]
      have hrest : ∀ e ∈ next :: rest, Spells depth e (compact e).toList :=
        fun e he => h e (List.mem_cons_of_mem d he)
      rw [htext]
      exact .more hfirst (ih hrest (hrest next List.mem_cons_self))

/-- The fields of a record are spelled on one line if **each value** is. -/
theorem spellsFields_compact {name : String} {d : Data} {rest : List (String × Data)}
    (h : ∀ f ∈ (name, d) :: rest, Spells depth f.2 (compact f.2).toList) :
    SpellsFields depth ((name, d) :: rest) ((quoted name).toList ++ ':' ::
      ((compact d).toList ++ (compactFields rest).toList ++ ['\x7d'])) := by
  have hfirst := h (name, d) List.mem_cons_self
  induction rest generalizing name d with
  | nil =>
      rw [compactFields, ← List.nil_append ((quoted name).toList ++ _)]
      exact .last name (fun _ => nofun) hfirst (fun _ => nofun)
  | cons next rest ih =>
      have htext : (quoted name).toList ++ ':' ::
          ((compact d).toList ++ (compactFields (next :: rest)).toList ++ ['\x7d']) =
            [] ++ ((quoted name).toList ++ ':' :: ((compact d).toList ++ ',' ::
              ((quoted next.1).toList ++ ':' ::
                ((compact next.2).toList ++ (compactFields rest).toList ++ ['\x7d'])))) := by
        simp [compactFields, toList_marks.1, toList_marks.2.1]
      have hrest : ∀ f ∈ next :: rest, Spells depth f.2 (compact f.2).toList :=
        fun f hf => h f (List.mem_cons_of_mem _ hf)
      rw [htext]
      exact .more name (fun _ => nofun) hfirst (ih hrest (hrest next List.mem_cons_self))

/-- A value that is no list and no record is spelled by its text. -/
theorem spells_atom {d : Data} (h : Writable 0 d) : Spells depth d (compact d).toList := by
  cases d with
  | null =>
      rw [compact]
      exact .null
  | bool b =>
      cases b with
      | true =>
          rw [compact]
          exact .yes
      | false =>
          rw [compact]
          exact .no
  | int n =>
      rw [compact]
      exact .int n
  | real written => exact h.elim
  | text s =>
      rw [compact]
      exact .text s
  | list ds => exact absurd h.1 (Nat.lt_irrefl 0)
  | record fields => exact absurd h.1 (Nat.lt_irrefl 0)

/-- **The text of a value on one line** spells it. -/
theorem spells_compact {d : Data} (h : Writable depth d) : Spells depth d (compact d).toList := by
  have hm : Inherited fun depth d => Spells depth d (compact d).toList :=
    { atom := spells_atom
      list := by
        intro depth ds ih
        cases ds with
        | nil =>
            rw [compact]
            exact .noMembers
        | cons d rest =>
            rw [toList_compact_list]
            exact .list (spellsMembers_compact ih)
      record := by
        intro depth fields ih
        cases fields with
        | nil =>
            rw [compact]
            exact .noFields
        | cons first rest =>
            rw [toList_compact_record]
            exact .record (spellsFields_compact ih) }
  exact hm.holds d h

/-- **A value is read back** from its text on one line. -/
theorem read_compact {d : Data} (h : Writable maxDepth d) : read (compact d) = some d :=
  readFor_of_spells .whole (spells_compact h)

/-! ### Indented texts -/

/-- A new line is **a gap**. -/
theorem isGap_newLine (level : Nat) : ∀ c ∈ (newLine level).toList, isGap c = true := by
  intro c hc
  rw [newLine, String.toList_append] at hc
  rcases List.mem_append.mp hc with hbreak | hblank
  · obtain rfl : c = '\n' := by simpa using hbreak
    decide
  · rw [String.toList_ofList] at hblank
    rw [(List.mem_replicate.mp hblank).2]
    decide

/-- A gap may stand **in front of a value**. -/
theorem Spells.gaps {d : Data} {gap s : List Char} (hgap : ∀ c ∈ gap, isGap c = true)
    (h : Spells depth d s) : Spells depth d (gap ++ s) := by
  induction gap with
  | nil => exact h
  | cons c gap ih =>
      exact .gap (hgap c List.mem_cons_self) (ih fun c hc => hgap c (List.mem_cons_of_mem _ hc))

/-- The text of an indented list has its members behind a bracket. -/
theorem toList_indented_list (level : Nat) (d : Data) (rest : List Data) :
    (indentedAt level (.list (d :: rest))).toList =
      '[' :: ((newLine (level + 1)).toList ++ (indentedAt (level + 1) d).toList ++
        ((indentedMembers (level + 1) rest).toList ++ ((newLine level).toList ++ [']']))) := by
  obtain ⟨-, -, hopen, hclose, -, -⟩ := toList_marks
  simp [indentedAt, hopen, hclose]

/-- The text of an indented record has its fields behind a brace. -/
theorem toList_indented_record (level : Nat) (name : String) (d : Data)
    (rest : List (String × Data)) : (indentedAt level (.record ((name, d) :: rest))).toList =
      '\x7b' :: ((newLine (level + 1)).toList ++ ((quoted name).toList ++ ':' :: ' ' ::
        ((indentedAt (level + 1) d).toList ++ ((indentedFields (level + 1) rest).toList ++
          ((newLine level).toList ++ ['\x7d']))))) := by
  obtain ⟨-, -, -, -, hopen, hclose⟩ := toList_marks
  have hcolon : ": ".toList = [':', ' '] := by decide
  simp [indentedAt, hcolon, hopen, hclose]

/-- The members of a list are spelled on a line each if **each of them** is. -/
theorem spellsMembers_indented {level : Nat} {d : Data} {rest : List Data} {gap : List Char}
    (hgap : ∀ c ∈ gap, isGap c = true)
    (h : ∀ e ∈ d :: rest, Spells depth e (indentedAt level e).toList) :
    SpellsMembers depth (d :: rest) ((newLine level).toList ++ (indentedAt level d).toList ++
      ((indentedMembers level rest).toList ++ (gap ++ [']']))) := by
  have hfirst := (h d List.mem_cons_self).gaps (isGap_newLine level)
  induction rest generalizing d with
  | nil =>
      rw [indentedMembers, String.toList_empty, List.nil_append, ← List.append_assoc]
      exact .last hfirst hgap
  | cons next rest ih =>
      have htext : (newLine level).toList ++ (indentedAt level d).toList ++
          ((indentedMembers level (next :: rest)).toList ++ (gap ++ [']'])) =
            ((newLine level).toList ++ (indentedAt level d).toList) ++ ',' ::
              ((newLine level).toList ++ (indentedAt level next).toList ++
                ((indentedMembers level rest).toList ++ (gap ++ [']']))) := by
        simp [indentedMembers, toList_marks.1]
      have hrest : ∀ e ∈ next :: rest, Spells depth e (indentedAt level e).toList :=
        fun e he => h e (List.mem_cons_of_mem d he)
      rw [htext]
      exact .more hfirst
        (ih hrest ((hrest next List.mem_cons_self).gaps (isGap_newLine level)))

/-- The fields of a record are spelled on a line each if **each value** is. -/
theorem spellsFields_indented {level : Nat} {name : String} {d : Data}
    {rest : List (String × Data)} {gap : List Char} (hgap : ∀ c ∈ gap, isGap c = true)
    (h : ∀ f ∈ (name, d) :: rest, Spells depth f.2 (indentedAt level f.2).toList) :
    SpellsFields depth ((name, d) :: rest) ((newLine level).toList ++
      ((quoted name).toList ++ ':' :: ' ' :: ((indentedAt level d).toList ++
        ((indentedFields level rest).toList ++ (gap ++ ['\x7d']))))) := by
  have hfirst : Spells depth d (' ' :: (indentedAt level d).toList) :=
    .gap (by decide) (h (name, d) List.mem_cons_self)
  induction rest generalizing name d with
  | nil =>
      have htext : ' ' :: ((indentedAt level d).toList ++
          ((indentedFields level []).toList ++ (gap ++ ['\x7d']))) =
            ' ' :: (indentedAt level d).toList ++ gap ++ ['\x7d'] := by
        simp [indentedFields]
      rw [htext]
      exact .last name (isGap_newLine level) hfirst hgap
  | cons next rest ih =>
      obtain ⟨nextName, value⟩ := next
      have hcolon : ": ".toList = [':', ' '] := by decide
      have htext : ' ' :: ((indentedAt level d).toList ++
          ((indentedFields level ((nextName, value) :: rest)).toList ++ (gap ++ ['\x7d']))) =
            ' ' :: (indentedAt level d).toList ++ ',' :: ((newLine level).toList ++
              ((quoted nextName).toList ++ ':' :: ' ' :: ((indentedAt level value).toList ++
                ((indentedFields level rest).toList ++ (gap ++ ['\x7d']))))) := by
        simp [indentedFields, hcolon, toList_marks.1]
      have hrest : ∀ f ∈ (nextName, value) :: rest,
          Spells depth f.2 (indentedAt level f.2).toList :=
        fun f hf => h f (List.mem_cons_of_mem _ hf)
      rw [htext]
      exact .more name (isGap_newLine level) hfirst
        (ih hrest (.gap (by decide) (hrest _ List.mem_cons_self)))

/-- **The indented text of a value** spells it, at every level. -/
theorem spells_indentedAt {d : Data} (h : Writable depth d) (level : Nat) :
    Spells depth d (indentedAt level d).toList := by
  have hm : Inherited fun depth d => ∀ level, Spells depth d (indentedAt level d).toList :=
    { atom := by
        intro depth d h level
        have hatom : indentedAt level d = compact d := by
          cases d with
          | list ds => exact absurd h.1 (Nat.lt_irrefl 0)
          | record fields => exact absurd h.1 (Nat.lt_irrefl 0)
          | _ => rw [indentedAt] <;> exact nofun
        rw [hatom]
        exact spells_atom h
      list := by
        intro depth ds ih level
        cases ds with
        | nil =>
            rw [indentedAt, compact]
            · exact .noMembers
            · exact nofun
            · exact nofun
        | cons d rest =>
            rw [toList_indented_list]
            exact .list (spellsMembers_indented (isGap_newLine level) fun e he => ih e he _)
      record := by
        intro depth fields ih level
        cases fields with
        | nil =>
            rw [indentedAt, compact]
            · exact .noFields
            · exact nofun
            · exact nofun
        | cons first rest =>
            rw [toList_indented_record]
            exact .record (spellsFields_indented (isGap_newLine level) fun f hf => ih f hf _) }
  exact hm.holds d h level

/-- **A value is read back** from its indented text. -/
theorem read_indented {d : Data} (h : Writable maxDepth d) : read (indented d) = some d :=
  readFor_of_spells .whole (spells_indentedAt h 0)

end CapabilityGate.JsonText
