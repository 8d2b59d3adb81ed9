/-!
# Tables keyed by text

A table holds at most one entry for each key and lists its entries in ascending order of key.
Because the ascent is part of the type, two tables with the same look-ups are equal, and every
listing of a table is already in the order in which it is shown.
-/

namespace GoUml

/-- Entries in strictly ascending order of key. -/
structure Table (α : Type) where
  entries : List (String × α)
  ascending : entries.Pairwise (fun a b => a.1 < b.1)

namespace Table

variable {α β : Type}

/-! ### Entry lists -/

/-- One pass over an ascending list: the entry at `key` becomes `f (some old)`, or `f none` is put
in its place when there is none. -/
def alterEntries (key : String) (f : Option α → α) : List (String × α) → List (String × α)
  | [] => [(key, f none)]
  | (k, a) :: rest =>
    if key < k then (key, f none) :: (k, a) :: rest
    else if key = k then (key, f (some a)) :: rest
    else (k, a) :: alterEntries key f rest

/-- The value at `key`. -/
def entryAt? (key : String) : List (String × α) → Option α
  | [] => none
  | (k, a) :: rest => if key = k then some a else entryAt? key rest

theorem mem_alterEntries {key : String} {f : Option α → α} {l : List (String × α)}
    {e : String × α} (h : e ∈ alterEntries key f l) : e.1 = key ∨ e ∈ l := by
  induction l with
  | nil => left; simp [alterEntries] at h; simp [h]
  | cons head rest ih =>
    obtain ⟨k, a⟩ := head
    rw [alterEntries] at h
    split at h
    · rcases List.mem_cons.1 h with rfl | h
      · exact .inl rfl
      · exact .inr h
    · split at h
      · rcases List.mem_cons.1 h with rfl | h
        · exact .inl rfl
        · exact .inr (List.mem_cons_of_mem _ h)
      · rcases List.mem_cons.1 h with rfl | h
        · exact .inr List.mem_cons_self
        · exact (ih h).imp_right (List.mem_cons_of_mem _)

theorem lt_of_not_lt_of_ne {a b : String} (h : ¬ a < b) (hne : ¬ a = b) : b < a := by
  rcases String.le_total b a with hle | hle
  · by_cases hlt : b < a
    · exact hlt
    · exact absurd (String.le_antisymm (String.not_lt.1 hlt) hle) hne
  · exact absurd (String.le_antisymm hle (String.not_lt.1 h)) hne

theorem pairwise_alterEntries (key : String) (f : Option α → α) {l : List (String × α)}
    (h : l.Pairwise (fun a b => a.1 < b.1)) :
    (alterEntries key f l).Pairwise (fun a b => a.1 < b.1) := by
  induction l with
  | nil => exact List.pairwise_singleton _ _
  | cons head rest ih =>
    obtain ⟨k, a⟩ := head
    obtain ⟨hhead, hrest⟩ := List.pairwise_cons.1 h
    rw [alterEntries]
    split
    · next hlt =>
      refine List.pairwise_cons.2 ⟨fun e he => ?_, h⟩
      rcases List.mem_cons.1 he with rfl | he
      · exact hlt
      · exact String.lt_trans hlt (hhead e he)
    · next hlt =>
      split
      · next heq => exact List.pairwise_cons.2 ⟨fun e he => heq ▸ hhead e he, hrest⟩
      · next hne =>
        refine List.pairwise_cons.2 ⟨fun e he => ?_, ih hrest⟩
        rcases mem_alterEntries he with rfl | he
        · exact lt_of_not_lt_of_ne hlt hne
        · exact hhead e he

/-! ### Operations -/

/-- The table without entries. -/
def empty : Table α := ⟨[], List.Pairwise.nil⟩

instance : Inhabited (Table α) := ⟨empty⟩

instance [DecidableEq α] : DecidableEq (Table α) := fun a b =>
  decidable_of_iff (a.entries = b.entries) <| by
    cases a; cases b; simp

/-- The value at `key`. -/
def find? (t : Table α) (key : String) : Option α := entryAt? key t.entries

def contains (t : Table α) (key : String) : Bool := (t.find? key).isSome

/-- Replaces the value at `key` by a function of what is there. -/
def alter (t : Table α) (key : String) (f : Option α → α) : Table α :=
  ⟨alterEntries key f t.entries, pairwise_alterEntries key f t.ascending⟩

/-- The last value given for a key stays. -/
def insert (t : Table α) (key : String) (value : α) : Table α := t.alter key fun _ => value

/-- The first value given for a key stays. -/
def insertNew (t : Table α) (key : String) (value : α) : Table α :=
  t.alter key fun old => old.getD value

/-- Changes the value at `key`, if there is one. -/
def modify (t : Table α) (key : String) (f : α → α) : Table α :=
  match t.find? key with
  | some value => t.insert key (f value)
  | none => t

def keys (t : Table α) : List String := t.entries.map (·.1)

def values (t : Table α) : List α := t.entries.map (·.2)

def size (t : Table α) : Nat := t.entries.length

def isEmpty (t : Table α) : Bool := t.entries.isEmpty

/-- Changes the values and keeps the keys. -/
def map (f : String → α → β) (t : Table α) : Table β :=
  ⟨t.entries.map fun e => (e.1, f e.1 e.2), t.ascending.map _ fun _ _ h => h⟩

/-- Later entries of the list replace earlier ones with the same key. -/
def ofList (entries : List (String × α)) : Table α :=
  entries.foldl (fun t e => t.insert e.1 e.2) empty

end Table

/-! ### Sets of texts -/

/-- A set of texts, listed in ascending order. -/
abbrev TextSet := Table Unit

namespace TextSet

def insert (s : TextSet) (text : String) : TextSet := Table.insert s text ()

/-- The members in ascending order, each once. -/
def ofList (texts : List String) : TextSet := texts.foldl TextSet.insert Table.empty

end TextSet

end GoUml
