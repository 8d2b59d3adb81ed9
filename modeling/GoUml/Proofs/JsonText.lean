import GoUml.Json.Parser
import GoUml.Json.Printer
import GoUml.Proofs.Delimited
import Mathlib.Tactic.SplitIfs

/-!
# Indented text is read back

The reader gives back every value without numbers that the indented form writes, as long as it
nests no deeper than the reader allows, and refuses it when it nests deeper. A reader is described
by what it makes of a text in front of any other text (`Reads`), so the statement about an item
carries over to the block it stands in.
-/

namespace GoUml.Json

open Text

def Blank (gap : List Char) : Prop := ∀ c ∈ gap, isSpace c = true

theorem skipSpace_blank_append {gap : List Char} (h : Blank gap) (cs : List Char) :
    skipSpace (gap ++ cs) = skipSpace cs := List.dropWhile_append_of_pos h

theorem skipSpace_cons {c : Char} (h : isSpace c = false) (cs : List Char) :
    skipSpace (c :: cs) = c :: cs := by
  simp [skipSpace, h]

theorem blank_nil : Blank [] := by simp [Blank]

theorem blank_space : Blank [' '] := by simp [Blank, isSpace]

theorem blank_spaces (n : Nat) : Blank (spaces n).toList := by
  intro c hc
  simp only [spaces, String.toList_ofList, List.mem_replicate] at hc
  rw [hc.2]
  decide

theorem Blank.cons_newline {gap : List Char} (h : Blank gap) : Blank ('\n' :: gap) := by
  intro c hc
  rcases List.mem_cons.1 hc with rfl | hc
  · decide
  · exact h c hc

theorem hexDigit?_hexDigit : ∀ n < 16, hexDigit? (hexDigit n) = some n := by decide

theorem hexUnit?_low {n : Nat} (h : n < 0x20) :
    hexUnit? '0' '0' (hexDigit (n / 16)) (hexDigit (n % 16)) = some n := by
  have hhigh := hexDigit?_hexDigit (n / 16) (by omega)
  have hlow := hexDigit?_hexDigit (n % 16) (by omega)
  have hzero : hexDigit? '0' = some 0 := by decide
  simp only [hexUnit?, hzero, hhigh, hlow, Option.pure_def, Option.bind_eq_bind, Option.bind_some]
  congr 1
  omega

section Strings

variable (cs : List Char)

theorem stringRest_short {letter c : Char} (hletter : letter ≠ 'u')
    (h : shortEscape? letter = some c) :
    stringRest ('\\' :: letter :: cs) =
      (stringRest cs).map fun (text, after) => (c :: text, after) := by
  rw [stringRest, h]
  intro _ _ _ _ _ heq
  exact absurd heq hletter

theorem stringRest_control {c : Char} (h : c.toNat < 0x20) :
    stringRest ('\\' :: 'u' :: '0' :: '0' ::
        hexDigit (c.toNat / 16) :: hexDigit (c.toNat % 16) :: cs) =
      (stringRest cs).map fun (text, after) => (c :: text, after) := by
  have hhigh : isHighSurrogate c.toNat = false := by
    simp only [isHighSurrogate, Bool.and_eq_false_iff, decide_eq_false_iff_not]
    omega
  have hlow : isLowSurrogate c.toNat = false := by
    simp only [isLowSurrogate, Bool.and_eq_false_iff, decide_eq_false_iff_not]
    omega
  rw [stringRest, hexUnit?_low h]
  simp only [hhigh, hlow, Char.ofNat_toNat, Bool.false_eq_true, if_false]

theorem stringRest_plain {c : Char} (hquote : c ≠ '"') (hbackslash : c ≠ '\\')
    (h : ¬c.toNat < 0x20) :
    stringRest (c :: cs) = (stringRest cs).map fun (text, after) => (c :: text, after) := by
  rw [stringRest]
  · simp [hbackslash, h]
  · exact hquote
  · intro _ _ _ _ _ heq
    exact absurd heq hbackslash
  · intro _ _ heq
    exact absurd heq hbackslash

/-- The reader undoes the escape of one character. -/
theorem stringRest_escapeChar (c : Char) :
    stringRest (escapeChar c ++ cs) =
      (stringRest cs).map fun (text, after) => (c :: text, after) := by
  unfold escapeChar
  split_ifs with hquote hbackslash hbackspace hfeed hline hreturn htab hcontrol
  · rw [eq_of_beq hquote]
    exact stringRest_short cs (by decide) rfl
  · rw [eq_of_beq hbackslash]
    exact stringRest_short cs (by decide) rfl
  · rw [eq_of_beq hbackspace]
    exact stringRest_short cs (by decide) rfl
  · rw [eq_of_beq hfeed]
    exact stringRest_short cs (by decide) rfl
  · rw [eq_of_beq hline]
    exact stringRest_short cs (by decide) rfl
  · rw [eq_of_beq hreturn]
    exact stringRest_short cs (by decide) rfl
  · rw [eq_of_beq htab]
    exact stringRest_short cs (by decide) rfl
  · exact stringRest_control cs hcontrol
  · exact stringRest_plain cs (by simpa using hquote) (by simpa using hbackslash) hcontrol

end Strings

theorem stringRest_quoted (text rest : List Char) :
    stringRest (text.flatMap escapeChar ++ '"' :: rest) = some (text, rest) := by
  induction text with
  | nil => rw [List.flatMap_nil, List.nil_append, stringRest]
  | cons c cs ih =>
    rw [List.flatMap_cons, List.append_assoc, stringRest_escapeChar, ih, Option.map_some]

theorem toList_quote_append (text : String) (rest : List Char) :
    (quote text).toList ++ rest = '"' :: (text.toList.flatMap escapeChar ++ '"' :: rest) := by
  simp [quote]

/-! ### Blocks -/

/-- A block after its first item, up to and with the text that closes it. -/
def blockTail (closing : List Char) (depth : Nat) : List String → List Char
  | [] => '\n' :: ((spaces (2 * depth)).toList ++ closing)
  | item :: more =>
    ',' :: '\n' :: ((spaces (2 * (depth + 1))).toList ++
      (item.toList ++ blockTail closing depth more))

/-- A block after its opening bracket. -/
def blockRest (closing : List Char) (depth : Nat) : List String → List Char
  | [] => closing
  | item :: more =>
    '\n' :: ((spaces (2 * (depth + 1))).toList ++ (item.toList ++ blockTail closing depth more))

theorem tails_append_eq_blockTail (closing : List Char) (depth : Nat) (items : List String) :
    tails ",\n" (items.map fun item => spaces (2 * (depth + 1)) ++ item) ++
      '\n' :: ((spaces (2 * depth)).toList ++ closing) = blockTail closing depth items := by
  induction items with
  | nil => rfl
  | cons item more ih => simp [tails_cons, blockTail, ← ih]

theorem toList_block_append (opening closing : String) (depth : Nat) (items : List String)
    (rest : List Char) :
    (block opening closing depth items).toList ++ rest =
      opening.toList ++ blockRest (closing.toList ++ rest) depth items := by
  cases items with
  | nil => simp [block, blockRest]
  | cons item more =>
    simp [block, blockRest, toList_joinWith_cons, ← tails_append_eq_blockTail]

def isClosing (c : Char) : Bool := c == ']' || c == '\x7d'

theorem isSpace_of_isClosing {c : Char} (h : isClosing c = true) : isSpace c = false := by
  simp only [isClosing, Bool.or_eq_true, beq_iff_eq] at h
  rcases h with rfl | rfl <;> decide

theorem ne_comma_of_isClosing {c : Char} (h : isClosing c = true) : c ≠ ',' := by
  rintro rfl
  cases h

/-- White space before an item makes no difference. -/
def SkipsSpace {α : Type} (item : List Char → Option (α × List Char)) : Prop :=
  ∀ {gap : List Char}, Blank gap → ∀ cs, item (gap ++ cs) = item cs

/-- `item` takes the text whole, whatever follows, and `outcome` is what it makes of it. -/
structure Reads {α : Type} (item : List Char → Option (α × List Char)) (text : String)
    (outcome : Option α) : Prop where
  starts : ∀ rest, ∃ c cs, text.toList ++ rest = c :: cs ∧ isSpace c = false ∧ isClosing c = false
  reads : ∀ rest, item (text.toList ++ rest) = outcome.map fun a => (a, rest)

section Containers

variable {α : Type} {item : List Char → Option (α × List Char)} {close : Char}

theorem itemsUntil_of_none {cs : List Char} (h : item cs = none) :
    itemsUntil item close cs = none := by
  rw [itemsUntil.eq_def, h]

theorem itemsUntil_of_close {a : α} {cs rest after : List Char} (h : item cs = some (a, rest))
    (hrest : skipSpace rest = close :: after) : itemsUntil item close cs = some ([a], after) := by
  rw [itemsUntil.eq_def, h]
  simp only [hrest, beq_self_eq_true, if_true]

theorem itemsUntil_of_comma {a : α} {cs rest after : List Char} (hclose : close ≠ ',')
    (h : item cs = some (a, rest)) (hrest : skipSpace rest = ',' :: after)
    (hshorter : after.length < cs.length) :
    itemsUntil item close cs =
      (itemsUntil item close after).map fun (more, after) => (a :: more, after) := by
  rw [itemsUntil.eq_def, h]
  simp only [hrest, beq_iff_eq, hclose.symm, if_false, hshorter, and_self, if_true]

variable {text : α → String} {outcome : α → Option α}

theorem itemsUntil_blockTail (hskips : SkipsSpace item) (hclose : isClosing close = true)
    (depth : Nat) (rest : List Char) {first : α} {more : List α}
    (hitems : ∀ a ∈ first :: more, Reads item (text a) (outcome a)) {gap : List Char}
    (hgap : Blank gap) :
    itemsUntil item close
        (gap ++ ((text first).toList ++ blockTail (close :: rest) depth (more.map text))) =
      ((first :: more).mapM outcome).map fun items => (items, rest) := by
  induction more generalizing first gap with
  | nil =>
    have hfirst := (hitems first List.mem_cons_self).reads (blockTail (close :: rest) depth [])
    have hskip : skipSpace (blockTail (close :: rest) depth []) = close :: rest := by
      rw [blockTail, ← List.cons_append, skipSpace_blank_append (blank_spaces _).cons_newline,
        skipSpace_cons (isSpace_of_isClosing hclose)]
    rw [← hskips hgap] at hfirst
    cases houtcome : outcome first with
    | none =>
      rw [houtcome] at hfirst
      rw [List.map_nil, itemsUntil_of_none hfirst]
      simp [houtcome]
    | some a =>
      rw [houtcome] at hfirst
      rw [List.map_nil, itemsUntil_of_close hfirst hskip]
      simp [houtcome]
  | cons second more ih =>
    have hfirst := (hitems first List.mem_cons_self).reads
      (blockTail (close :: rest) depth ((second :: more).map text))
    rw [← hskips hgap] at hfirst
    cases houtcome : outcome first with
    | none =>
      rw [houtcome] at hfirst
      rw [itemsUntil_of_none hfirst]
      simp [houtcome]
    | some a =>
      rw [houtcome] at hfirst
      -- behind the comma stands a text of the same form, with the indentation for a gap
      have htail := ih (fun a ha => hitems a (List.mem_cons_of_mem _ ha))
        (blank_spaces (2 * (depth + 1))).cons_newline
      rw [itemsUntil_of_comma (ne_comma_of_isClosing hclose) hfirst (skipSpace_cons (by decide) _),
        ← List.cons_append, htail]
      · cases hmore : List.mapM outcome (second :: more) <;> simp [houtcome, hmore]
      · simp [blockTail]
        omega

theorem containerRest_blockRest (hskips : SkipsSpace item) (hclose : isClosing close = true)
    (depth : Nat) (rest : List Char) {items : List α}
    (hitems : ∀ a ∈ items, Reads item (text a) (outcome a)) :
    containerRest item close (blockRest (close :: rest) depth (items.map text)) =
      (items.mapM outcome).map fun items => (items, rest) := by
  cases items with
  | nil => simp [containerRest, blockRest, skipSpace_cons (isSpace_of_isClosing hclose)]
  | cons first more =>
    obtain ⟨c, cs, htext, hspace, hopen⟩ := (hitems first List.mem_cons_self).starts
      (blockTail (close :: rest) depth (more.map text))
    have hskip : skipSpace (blockRest (close :: rest) depth ((first :: more).map text)) =
        (text first).toList ++ blockTail (close :: rest) depth (more.map text) := by
      rw [List.map_cons, blockRest, ← List.cons_append,
        skipSpace_blank_append (blank_spaces _).cons_newline, htext, skipSpace_cons hspace]
    have hne : (c == close) = false := by
      rw [beq_eq_false_iff_ne]
      rintro rfl
      rw [hclose] at hopen
      cases hopen
    rw [← itemsUntil_blockTail hskips hclose depth rest hitems blank_nil, containerRest, hskip,
      htext]
    simp only [List.nil_append, hne, Bool.false_eq_true, if_false]

end Containers

/-! ### Values -/

/-- A value without numbers. A number has no closing mark of its own, so what the reader takes for it
would depend on the text that follows. -/
inductive NumberFree : Json → Prop
  | null : NumberFree .null
  | bool (value : Bool) : NumberFree (.bool value)
  | string (value : String) : NumberFree (.string value)
  | array {items : List Json} (h : ∀ item ∈ items, NumberFree item) : NumberFree (.array items)
  | object {members : List (String × Json)} (h : ∀ member ∈ members, NumberFree member.2) :
    NumberFree (.object members)

@[simp] theorem numberFree_null : NumberFree .null := .null

@[simp] theorem numberFree_bool (value : Bool) : NumberFree (.bool value) := .bool value

@[simp] theorem numberFree_string (value : String) : NumberFree (.string value) := .string value

@[simp] theorem numberFree_array_iff {items : List Json} :
    NumberFree (.array items) ↔ ∀ item ∈ items, NumberFree item :=
  ⟨fun h => by cases h; assumption, .array⟩

@[simp] theorem numberFree_object_iff {members : List (String × Json)} :
    NumberFree (.object members) ↔ ∀ member ∈ members, NumberFree member.2 :=
  ⟨fun h => by cases h; assumption, .object⟩

def within (limit : Nat) (v : Json) : Bool := v.nesting ≤ limit

theorem itemsNesting_le_iff {items : List Json} {limit : Nat} :
    itemsNesting items ≤ limit ↔ ∀ item ∈ items, item.nesting ≤ limit := by
  induction items with
  | nil => simp [itemsNesting]
  | cons item rest ih => rw [itemsNesting, Nat.max_le, ih, List.forall_mem_cons]

theorem membersNesting_le_iff {members : List (String × Json)} {limit : Nat} :
    membersNesting members ≤ limit ↔ ∀ member ∈ members, member.2.nesting ≤ limit := by
  induction members with
  | nil => simp [membersNesting]
  | cons member rest ih => rw [membersNesting, Nat.max_le, ih, List.forall_mem_cons]

theorem within_array_succ (limit : Nat) (items : List Json) :
    within (limit + 1) (.array items) = items.all (within limit) := by
  rw [Bool.eq_iff_iff, List.all_eq_true]
  simp only [within, nesting, decide_eq_true_eq, Nat.add_le_add_iff_right, itemsNesting_le_iff]

theorem within_object_succ (limit : Nat) (members : List (String × Json)) :
    within (limit + 1) (.object members) = members.all fun member => member.2.within limit := by
  rw [Bool.eq_iff_iff, List.all_eq_true]
  simp only [within, nesting, decide_eq_true_eq, Nat.add_le_add_iff_right, membersNesting_le_iff]

theorem mapM_guard {α : Type} (p : α → Bool) (items : List α) :
    items.mapM (Option.guard p) = if items.all p then some items else none := by
  induction items with
  | nil => rfl
  | cons a rest ih =>
    rw [List.mapM_cons, ih]
    cases ha : p a <;> cases hrest : rest.all p <;> simp [Option.guard, ha, hrest]

theorem prettyItems_eq_map (depth : Nat) (items : List Json) :
    prettyItems depth items = items.map (prettyAt depth) := by
  induction items with
  | nil => rfl
  | cons item rest ih => rw [prettyItems, ih, List.map_cons]

def memberText (depth : Nat) (member : String × Json) : String :=
  quote member.1 ++ ": " ++ prettyAt depth member.2

theorem prettyMembers_eq_map (depth : Nat) (members : List (String × Json)) :
    prettyMembers depth members = members.map (memberText depth) := by
  induction members with
  | nil => rfl
  | cons member rest ih => rw [prettyMembers, ih, List.map_cons, memberText]

theorem skipsSpace_value (limit : Nat) : SkipsSpace (value limit) := by
  intro gap hgap cs
  unfold value
  simp only [skipSpace_blank_append hgap]

theorem skipsSpace_member (value : List Char → Option (Json × List Char)) :
    SkipsSpace (member value) := by
  intro gap hgap cs
  unfold member
  simp only [skipSpace_blank_append hgap]

theorem toList_array_append (depth : Nat) (items : List Json) (rest : List Char) :
    (prettyAt depth (.array items)).toList ++ rest =
      '[' :: blockRest (']' :: rest) depth (items.map (prettyAt (depth + 1))) := by
  rw [prettyAt, toList_block_append, prettyItems_eq_map]
  rfl

theorem toList_object_append (depth : Nat) (members : List (String × Json)) (rest : List Char) :
    (prettyAt depth (.object members)).toList ++ rest =
      '\x7b' :: blockRest ('\x7d' :: rest) depth (members.map (memberText (depth + 1))) := by
  rw [prettyAt, toList_block_append, prettyMembers_eq_map]
  rfl

theorem toList_memberText_append (depth : Nat) (member : String × Json) (rest : List Char) :
    (memberText depth member).toList ++ rest =
      '"' :: (member.1.toList.flatMap escapeChar ++
        '"' :: ':' :: ([' '] ++ ((prettyAt depth member.2).toList ++ rest))) := by
  rw [memberText, String.toList_append, String.toList_append, List.append_assoc,
    List.append_assoc, toList_quote_append]
  rfl

theorem reads_null (limit : Nat) : Reads (value limit) "null" (some .null) where
  starts rest := ⟨'n', 'u' :: 'l' :: 'l' :: rest, rfl, by decide, by decide⟩
  reads rest := by
    unfold value
    rfl

theorem reads_bool (limit : Nat) (b : Bool) :
    Reads (value limit) (if b then "true" else "false") (some (.bool b)) := by
  cases b with
  | false =>
    refine ⟨fun rest => ⟨'f', 'a' :: 'l' :: 's' :: 'e' :: rest, rfl, by decide, by decide⟩, ?_⟩
    intro rest
    unfold value
    rfl
  | true =>
    refine ⟨fun rest => ⟨'t', 'r' :: 'u' :: 'e' :: rest, rfl, by decide, by decide⟩, ?_⟩
    intro rest
    unfold value
    rfl

theorem reads_string (limit : Nat) (text : String) :
    Reads (value limit) (quote text) (some (.string text)) where
  starts rest := ⟨_, _, toList_quote_append text rest, by decide, by decide⟩
  reads rest := by
    rw [toList_quote_append]
    unfold value
    rw [skipSpace_cons (by decide)]
    simp only [stringRest_quoted, Option.map_some, String.ofList_toList]

theorem reads_memberText {limit depth : Nat} {member : String × Json}
    (hvalue : Reads (value limit) (prettyAt depth member.2)
      (Option.guard (within limit) member.2)) :
    Reads (Json.member (value limit)) (memberText depth member)
      (Option.guard (fun member => member.2.within limit) member) where
  starts rest := ⟨_, _, toList_memberText_append depth member rest, by decide, by decide⟩
  reads rest := by
    rw [toList_memberText_append]
    unfold Json.member
    rw [skipSpace_cons (by decide)]
    simp only [stringRest_quoted]
    rw [skipSpace_cons (by decide)]
    simp only [skipsSpace_value limit blank_space, hvalue.reads, String.ofList_toList]
    cases h : member.2.within limit <;> simp [Option.guard, h]

theorem reads_array (limit depth : Nat) {items : List Json}
    (hitems : ∀ item ∈ items, ∀ limit depth,
      Reads (value limit) (prettyAt depth item) (Option.guard (within limit) item)) :
    Reads (value limit) (prettyAt depth (.array items))
      (Option.guard (within limit) (.array items)) where
  starts rest := ⟨_, _, toList_array_append depth items rest, by decide, by decide⟩
  reads rest := by
    rw [toList_array_append]
    unfold value
    rw [skipSpace_cons (by decide)]
    cases limit with
    | zero => rfl
    | succ limit =>
      simp only []
      rw [containerRest_blockRest (skipsSpace_value limit) (by decide) depth rest
          (fun item hitem => hitems item hitem limit (depth + 1)),
        mapM_guard, Option.guard, within_array_succ]
      cases items.all (within limit) <;> rfl

theorem reads_object (limit depth : Nat) {members : List (String × Json)}
    (hmembers : ∀ member ∈ members, ∀ limit depth,
      Reads (value limit) (prettyAt depth member.2) (Option.guard (within limit) member.2)) :
    Reads (value limit) (prettyAt depth (.object members))
      (Option.guard (within limit) (.object members)) where
  starts rest := ⟨_, _, toList_object_append depth members rest, by decide, by decide⟩
  reads rest := by
    rw [toList_object_append]
    unfold value
    rw [skipSpace_cons (by decide)]
    cases limit with
    | zero => rfl
    | succ limit =>
      simp only []
      rw [containerRest_blockRest (skipsSpace_member _) (by decide) depth rest
          (fun member hmember => reads_memberText (hmembers member hmember limit (depth + 1))),
        mapM_guard, Option.guard, within_object_succ]
      cases members.all (fun member => member.2.within limit) <;> rfl

/-- The indented form is read back at every depth, and refused where it nests too deep. -/
theorem reads_prettyAt {v : Json} (h : NumberFree v) (limit depth : Nat) :
    Reads (value limit) (prettyAt depth v) (Option.guard (within limit) v) := by
  induction h generalizing limit depth with
  | null => exact reads_null limit
  | bool b => exact reads_bool limit b
  | string text => exact reads_string limit text
  | array _ ih => exact reads_array limit depth ih
  | object _ ih => exact reads_object limit depth ih

theorem parse?_pretty {v : Json} (h : NumberFree v) :
    parse? v.pretty = Option.guard (within maxNesting) v := by
  have hreads := (reads_prettyAt h maxNesting 0).reads []
  rw [List.append_nil] at hreads
  rw [parse?, parseNested?, pretty, hreads]
  cases hwithin : v.within maxNesting <;> simp [Option.guard, hwithin, skipSpace]

end GoUml.Json
