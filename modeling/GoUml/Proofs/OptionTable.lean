import GoUml.Command.Config
import GoUml.Proofs.Table

/-!
# Applying a table of options

The rendering options of a configuration file are applied one after the other until one is refused.
An entry is judged twice, first by the kind of its value and then by its key, so an entry can be
wrong in two ways of which only the first is reported. But the judgement never depends on the
options set so far, and an entry that passes sets one option and no other. Since the entries of a
table are in ascending order of key, the outcome is that of the table as a set of entries: all of
them count if all are valid, and otherwise those whose keys come before the first key with an
invalid value.
-/

namespace GoUml

def RenderingOptions.value (o : RenderingOptions) : OptionKey → OptionValue
  | .title => .text o.title
  | .notes => .list o.notes
  | .theme => .text o.theme
  | .toggle t => .bool (t.get o)

/-- There is nothing else in the options than the values under their keys. -/
theorem RenderingOptions.ext_value {o o' : RenderingOptions}
    (h : ∀ key, o.value key = o'.value key) : o = o' := by
  have htitle := OptionValue.text.inj (h .title)
  have hnotes := OptionValue.list.inj (h .notes)
  have htheme := OptionValue.text.inj (h .theme)
  have htoggle (t : Toggle) : t.get o = t.get o' := OptionValue.bool.inj (h (.toggle t))
  have hfields := htoggle .fields
  have hmethods := htoggle .methods
  have hcompositions := htoggle .compositions
  have himplementations := htoggle .implementations
  have haggregations := htoggle .aggregations
  have haliases := htoggle .aliases
  have hlabels := htoggle .connectionLabels
  have haggregate := htoggle .aggregatePrivateMembers
  have hprivate := htoggle .privateMembers
  cases o
  cases o'
  simp_all [Toggle.get]

theorem Toggle.get_put (o : RenderingOptions) (value : Bool) (t s : Toggle) :
    s.get (t.put o value) = if s = t then value else s.get o := by
  cases t <;> cases s <;> rfl

namespace OptionKey

theorem ofWord?_word (key : OptionKey) : ofWord? key.word = some key := by
  cases key with
  | toggle t => cases t <;> decide
  | _ => decide

theorem ofWord?_eq_some_iff {word : String} {key : OptionKey} :
    ofWord? word = some key ↔ key.word = word := by
  constructor
  · intro h
    simpa using List.find?_some h
  · rintro rfl
    exact ofWord?_word key

theorem word_inj {key other : OptionKey} (h : key.word = other.word) : key = other := by
  have hsome := ofWord?_word key
  rw [h, ofWord?_word, Option.some.injEq] at hsome
  exact hsome.symm

def kind : OptionKey → ValueKind
  | title => .text
  | notes => .textOrList
  | theme => .text
  | toggle _ => .boolean

end OptionKey

namespace Toml

theorem mapM_string?_eq_some_iff {items : List Toml} {texts : List String} :
    items.mapM string? = some texts ↔ items = texts.map .string := by
  induction items generalizing texts with
  | nil => cases texts <;> simp
  | cons item rest ih =>
    simp only [List.mapM_cons, Option.bind_eq_bind, Option.bind_eq_some_iff, Option.pure_def,
      Option.some.injEq, ih]
    constructor
    · rintro ⟨text, htext, texts, rfl, rfl⟩
      cases item with
      | string s => cases htext; rfl
      | _ => cases htext
    · intro h
      cases texts with
      | nil => cases h
      | cons text texts =>
        obtain ⟨rfl, rfl⟩ := List.cons.inj h
        exact ⟨text, rfl, texts, rfl, rfl⟩

theorem strings?_eq_some_iff {value : Toml} {texts : List String} :
    value.strings? = some texts ↔ value = .array (texts.map .string) := by
  cases value with
  | array items => rw [strings?, mapM_string?_eq_some_iff, array.injEq]
  | _ => exact ⟨nofun, nofun⟩

end Toml

namespace FileConfig

/-! ### Entries -/

/-- The values that an option can be given at all. -/
inductive Reads : Toml → OptionValue → Prop
  | boolean (b : Bool) : Reads (.boolean b) (.bool b)
  | string (s : String) : Reads (.string s) (.text s)
  | strings (texts : List String) : Reads (.array (texts.map .string)) (.list texts)

/-- The value that an entry gives to the option of its key. -/
inductive Gives : OptionKey → Toml → OptionValue → Prop
  | title (s : String) : Gives .title (.string s) (.text s)
  | theme (s : String) : Gives .theme (.string s) (.text s)
  | notes (s : String) : Gives .notes (.string s) (.list (Text.lines s))
  | noteList (texts : List String) : Gives .notes (.array (texts.map .string)) (.list texts)
  | toggle (t : Toggle) (b : Bool) : Gives (.toggle t) (.boolean b) (.bool b)

/-- The word is the key of an option, and the value is one for it. -/
def Fits (word : String) (value : Toml) : Prop := ∃ key v, key.word = word ∧ Gives key value v

/-- Why an entry is refused. Of a key that is none and a value that no option takes, the value is
reported. -/
inductive Refuses : String → Toml → OptionError → Prop
  | unknown {word : String} {value : Toml} {v : OptionValue}
      (hword : ∀ key : OptionKey, key.word ≠ word) (hreads : Reads value v) :
      Refuses word value (.unknownOption word)
  | unreadable {word : String} {value : Toml} (hreads : ∀ v, ¬Reads value v) :
      Refuses word value (.invalidValue word .booleanTextOrTexts)
  | misfit {key : OptionKey} {value : Toml} {v : OptionValue} (hreads : Reads value v)
      (hgives : ∀ v, ¬Gives key value v) :
      Refuses key.word value (.invalidValue key.word key.kind)

variable {key : OptionKey} {word : String} {value : Toml} {v v' : OptionValue}
  {o o₁ o' : RenderingOptions} {e : OptionError}

theorem Gives.reads (h : Gives key value v) : ∃ v, Reads value v := by
  cases h with
  | title s => exact ⟨_, .string s⟩
  | theme s => exact ⟨_, .string s⟩
  | notes s => exact ⟨_, .string s⟩
  | noteList texts => exact ⟨_, .strings texts⟩
  | toggle t b => exact ⟨_, .boolean b⟩

theorem Gives.unique (h : Gives key value v) (h' : Gives key value v') : v = v' := by
  generalize hvalue : value = same at h'
  cases h with
  | noteList texts =>
    cases h' with
    | notes => cases hvalue
    | noteList others =>
      have hmap := (Toml.array.inj hvalue)
      rw [List.map_injective_iff.2 (fun _ _ => Toml.string.inj) hmap]
  | notes s =>
    cases h' with
    | notes => cases hvalue; rfl
    | noteList => cases hvalue
  | _ => cases h'; cases hvalue; rfl

theorem Refuses.not_fits (h : Refuses word value e) : ¬Fits word value := by
  rintro ⟨key, v, hkey, hgives⟩
  cases h with
  | unknown hword => exact hword key hkey
  | unreadable hreads =>
    obtain ⟨v, hv⟩ := hgives.reads
    exact hreads v hv
  | misfit _ hnone =>
    obtain rfl := OptionKey.word_inj hkey
    exact hnone v hgives

theorem Refuses.unique {e' : OptionError} (h : Refuses word value e) (h' : Refuses word value e') :
    e = e' := by
  generalize hword : word = same at h'
  cases h with
  | unknown hnone hreads =>
    cases h' with
    | unknown => rw [hword]
    | unreadable hunread => exact absurd hreads (hunread _)
    | misfit => exact absurd hword.symm (hnone _)
  | unreadable hunread =>
    cases h' with
    | unknown _ hreads => exact absurd hreads (hunread _)
    | unreadable => rw [hword]
    | misfit hreads => exact absurd hreads (hunread _)
  | misfit hreads hmisfit =>
    cases h' with
    | unknown hnone => exact absurd hword (hnone _)
    | unreadable hunread => exact absurd hreads (hunread _)
    | misfit => rw [OptionKey.word_inj hword]

/-- One option is given a value and the others keep theirs. -/
structure Sets (o : RenderingOptions) (key : OptionKey) (v : OptionValue) (o' : RenderingOptions) :
    Prop where
  value_eq : o'.value key = v
  others : ∀ other, other ≠ key → o'.value other = o.value other

/-- Assigning a value leaves the options of all other keys as they are. -/
theorem value_assign_of_ne (h : o.assign key v = .ok o') {other : OptionKey} (hne : other ≠ key) :
    o'.value other = o.value other := by
  cases key with
  | toggle t =>
    cases v with
    | bool b =>
      cases h
      cases other with
      | toggle s =>
        have hst : s ≠ t := fun h => hne (congrArg OptionKey.toggle h)
        rw [RenderingOptions.value, RenderingOptions.value, Toggle.get_put, if_neg hst]
      | _ => cases t <;> rfl
    | _ => cases h
  | _ =>
    cases v <;> cases h
    all_goals cases other with
      | toggle s => cases s <;> rfl
      | _ => first | rfl | exact absurd rfl hne

theorem sets_of_assign (h : o.assign key v = .ok o') (hvalue : o'.value key = v') :
    Sets o key v' o' :=
  ⟨hvalue, fun _ => value_assign_of_ne h⟩

theorem optionValue_cases (word : String) (value : Toml) :
    (∃ v, Reads value v ∧ optionValue word value = .ok v) ∨
      (∀ v, ¬Reads value v) ∧
        optionValue word value = .error (.invalidValue word .booleanTextOrTexts) := by
  cases value with
  | boolean b => exact .inl ⟨_, .boolean b, rfl⟩
  | string s => exact .inl ⟨_, .string s, rfl⟩
  | array items =>
    rw [optionValue]
    cases hitems : (Toml.array items).strings? with
    | some texts =>
      rw [Toml.strings?_eq_some_iff.1 hitems]
      exact .inl ⟨_, .strings texts, rfl⟩
    | none =>
      refine .inr ⟨?_, rfl⟩
      rintro _ (_ | _ | texts)
      rw [Toml.strings?_eq_some_iff.2 rfl] at hitems
      cases hitems
    all_goals nofun
  | _ => exact .inr ⟨nofun, rfl⟩

/-- Assigning a value judges it by its key, and sets no other option. -/
theorem assign_cases (o : RenderingOptions) (key : OptionKey) (h : Reads value v) :
    (∃ v' o', Gives key value v' ∧ Sets o key v' o' ∧ o.assign key v = .ok o') ∨
      (∀ v', ¬Gives key value v') ∧
        o.assign key v = .error (.invalidValue key.word key.kind) := by
  cases key with
  | title =>
    cases h with
    | string s => exact .inl ⟨_, _, .title s, sets_of_assign (v := .text s) rfl rfl, rfl⟩
    | _ => exact .inr ⟨nofun, rfl⟩
  | theme =>
    cases h with
    | string s => exact .inl ⟨_, _, .theme s, sets_of_assign (v := .text s) rfl rfl, rfl⟩
    | _ => exact .inr ⟨nofun, rfl⟩
  | notes =>
    cases h with
    | boolean b => exact .inr ⟨nofun, rfl⟩
    | string s => exact .inl ⟨_, _, .notes s, sets_of_assign (v := .text s) rfl rfl, rfl⟩
    | strings texts =>
      exact .inl ⟨_, _, .noteList texts, sets_of_assign (v := .list texts) rfl rfl, rfl⟩
  | toggle t =>
    cases h with
    | boolean b =>
      have hvalue : (t.put o b).value (.toggle t) = .bool b := by
        rw [RenderingOptions.value, Toggle.get_put, if_pos rfl]
      exact .inl ⟨_, _, .toggle t b, sets_of_assign (v := .bool b) rfl hvalue, rfl⟩
    | _ => exact .inr ⟨nofun, rfl⟩

/-- An entry is either applied, and sets the option of its key, or refused. -/
theorem applyEntry_cases (o : RenderingOptions) (word : String) (value : Toml) :
    (∃ key v o', key.word = word ∧ Gives key value v ∧ Sets o key v o' ∧
        applyEntry o word value = .ok o') ∨
      ∃ e, Refuses word value e ∧ applyEntry o word value = .error e := by
  obtain ⟨v, hreads, hv⟩ | ⟨hreads, hv⟩ := optionValue_cases word value
  · have happly : applyEntry o word value = o.set word v := by
      rw [applyEntry, hv]
      rfl
    rw [happly, RenderingOptions.set]
    cases hkey : OptionKey.ofWord? word with
    | none =>
      refine .inr ⟨_, .unknown (fun key hword => ?_) hreads, rfl⟩
      rw [OptionKey.ofWord?_eq_some_iff.2 hword] at hkey
      cases hkey
    | some key =>
      obtain rfl := OptionKey.ofWord?_eq_some_iff.1 hkey
      obtain ⟨v', o', hgives, hsets, ho'⟩ | ⟨hnone, he⟩ := assign_cases o key hreads
      · exact .inl ⟨key, v', o', rfl, hgives, hsets, ho'⟩
      · exact .inr ⟨_, .misfit hreads hnone, he⟩
  · refine .inr ⟨_, .unreadable hreads, ?_⟩
    rw [applyEntry, hv]
    rfl

/-! ### All entries -/

/-- The options after the entries whose keys are in `taken`: those of the entries have the values
given there, and the others are as before. -/
structure Takes (taken : String → Prop) (entries : List (String × Toml))
    (o o' : RenderingOptions) : Prop where
  listed : ∀ key value v, taken key.word → (key.word, value) ∈ entries → Gives key value v →
    o'.value key = v
  others : ∀ key, (∀ value, (key.word, value) ∈ entries → ¬taken key.word) →
    o'.value key = o.value key

/-- The outcome of applying entries: all of them are valid and applied, or the one with the smallest
key among those that are not valid is the error and those with smaller keys are applied. -/
inductive Applied (entries : List (String × Toml)) (o : RenderingOptions) :
    RenderingOptions → Option OptionError → Prop
  | whole {o' : RenderingOptions} (hvalid : ∀ word value, (word, value) ∈ entries → Fits word value)
      (htakes : Takes (fun _ => True) entries o o') : Applied entries o o' none
  | upTo {o' : RenderingOptions} {word : String} {value : Toml} {e : OptionError}
      (hentry : (word, value) ∈ entries) (hrefused : Refuses word value e)
      (hsmaller : ∀ smaller value, smaller < word → (smaller, value) ∈ entries →
        Fits smaller value)
      (htakes : Takes (· < word) entries o o') : Applied entries o o' (some e)

variable {entries rest : List (String × Toml)} {taken : String → Prop}

theorem not_mem_of_forall_lt (h : ∀ entry ∈ rest, word < entry.1) (value : Toml) :
    (word, value) ∉ rest :=
  fun hentry => String.lt_irrefl _ (h _ hentry)

theorem Takes.cons (hset : Sets o key v o₁) (hgives : Gives key value v) (htaken : taken key.word)
    (hfirst : ∀ entry ∈ rest, key.word < entry.1) (h : Takes taken rest o₁ o') :
    Takes taken ((key.word, value) :: rest) o o' := by
  -- All keys behind are greater, so none of the later entries sets this option again.
  have hvalue : o'.value key = v := by
    rw [h.others key fun other hother => absurd hother (not_mem_of_forall_lt hfirst other),
      hset.value_eq]
  constructor
  · intro other value' v' hother hentry hgives'
    rcases List.mem_cons.1 hentry with heq | hentry
    · obtain ⟨hword, rfl⟩ := Prod.mk.inj heq
      obtain rfl := OptionKey.word_inj hword
      rw [hvalue, hgives.unique hgives']
    · exact h.listed other value' v' hother hentry hgives'
  · intro other hnone
    have hne : other ≠ key := by
      rintro rfl
      exact hnone value List.mem_cons_self htaken
    rw [h.others other fun value' hentry => hnone value' (List.mem_cons_of_mem _ hentry),
      hset.others other hne]

/-- An entry that is applied comes before the others. -/
theorem Applied.cons {refused : Option OptionError} (hset : Sets o key v o₁)
    (hgives : Gives key value v) (hfirst : ∀ entry ∈ rest, key.word < entry.1)
    (h : Applied rest o₁ o' refused) : Applied ((key.word, value) :: rest) o o' refused := by
  have hfits : Fits key.word value := ⟨key, v, rfl, hgives⟩
  cases h with
  | whole hvalid htakes =>
    refine .whole (fun word value' hentry => ?_) (htakes.cons hset hgives trivial hfirst)
    rcases List.mem_cons.1 hentry with heq | hentry
    · cases heq
      exact hfits
    · exact hvalid word value' hentry
  | upTo hentry hrefused hsmaller htakes =>
    refine .upTo (List.mem_cons_of_mem _ hentry) hrefused (fun smaller value' hlt hother => ?_)
      (htakes.cons hset hgives (hfirst _ hentry) hfirst)
    rcases List.mem_cons.1 hother with heq | hother
    · cases heq
      exact hfits
    · exact hsmaller smaller value' hlt hother

/-- An entry that is refused ends the run before any other is looked at. -/
theorem Applied.refused (hrefused : Refuses word value e)
    (hfirst : ∀ entry ∈ rest, word < entry.1) (o : RenderingOptions) :
    Applied ((word, value) :: rest) o o (some e) := by
  have hnone : ∀ smaller, smaller < word → ∀ value', (smaller, value') ∉ (word, value) :: rest := by
    intro smaller hlt value' hentry
    rcases List.mem_cons.1 hentry with heq | hentry
    · rw [(Prod.mk.inj heq).1] at hlt
      exact String.lt_irrefl _ hlt
    · exact String.lt_irrefl _ (String.lt_trans hlt (hfirst _ hentry))
  refine .upTo List.mem_cons_self hrefused
    (fun smaller value' hlt hentry => absurd hentry (hnone smaller hlt value'))
    ⟨fun key value' v hlt hentry _ => absurd hentry (hnone _ hlt value'), fun _ _ => rfl⟩

theorem applied_applyEntries (h : entries.Pairwise fun a b => a.1 < b.1) (o : RenderingOptions) :
    Applied entries o (applyEntries entries o).1 (applyEntries entries o).2 := by
  -- On the entries, for any options, as each entry that is applied hands on others.
  induction entries generalizing o with
  | nil => exact .whole nofun ⟨nofun, fun _ _ => rfl⟩
  | cons entry rest ih =>
    obtain ⟨word, value⟩ := entry
    obtain ⟨hfirst, hrest⟩ := List.pairwise_cons.1 h
    rw [applyEntries]
    obtain ⟨key, v, o₁, rfl, hgives, hset, hok⟩ | ⟨e, hrefused, herror⟩ :=
      applyEntry_cases o word value
    · rw [hok]
      exact (ih hrest o₁).cons hset hgives hfirst
    · rw [herror]
      exact .refused hrefused hfirst o

theorem Takes.unique {o'' : RenderingOptions}
    (hvalid : ∀ word value, taken word → (word, value) ∈ entries → Fits word value)
    (h : Takes taken entries o o') (h' : Takes taken entries o o'') : o' = o'' := by
  apply RenderingOptions.ext_value
  intro key
  by_cases hlisted : ∃ value, (key.word, value) ∈ entries ∧ taken key.word
  · obtain ⟨value, hentry, htaken⟩ := hlisted
    obtain ⟨other, v, hword, hgives⟩ := hvalid key.word value htaken hentry
    obtain rfl := OptionKey.word_inj hword
    rw [h.listed other value v htaken hentry hgives, h'.listed other value v htaken hentry hgives]
  · have hnone : ∀ value, (key.word, value) ∈ entries → ¬taken key.word :=
      fun value hentry htaken => hlisted ⟨value, hentry, htaken⟩
    rw [h.others key hnone, h'.others key hnone]

/-- There is but one smallest key whose value does not fit. -/
theorem eq_of_smallest {t : Table Toml} {word' : String} {value' : Toml}
    (hentry : (word, value) ∈ t.entries) (hentry' : (word', value') ∈ t.entries)
    (hunfit : ¬Fits word value) (hunfit' : ¬Fits word' value')
    (hsmaller : ∀ smaller value, smaller < word → (smaller, value) ∈ t.entries →
      Fits smaller value)
    (hsmaller' : ∀ smaller value, smaller < word' → (smaller, value) ∈ t.entries →
      Fits smaller value) : word = word' ∧ value = value' := by
  have hlt : ¬word < word' := fun hlt => hunfit (hsmaller' _ _ hlt hentry)
  have hlt' : ¬word' < word := fun hlt => hunfit' (hsmaller _ _ hlt hentry')
  obtain rfl : word = word' := by
    by_contra hne
    exact hlt' (Table.lt_of_not_lt_of_ne hlt hne)
  rw [Table.mem_entries_iff] at hentry hentry'
  exact ⟨rfl, Option.some.inj (hentry.symm.trans hentry')⟩

theorem Applied.unique {t : Table Toml} {o'' : RenderingOptions}
    {refused refused' : Option OptionError} (h : Applied t.entries o o' refused)
    (h' : Applied t.entries o o'' refused') : o' = o'' ∧ refused = refused' := by
  cases h with
  | whole hvalid htakes =>
    cases h' with
    | whole _ htakes' => exact ⟨htakes.unique (fun word value _ => hvalid word value) htakes', rfl⟩
    | upTo hentry hrefused => exact absurd (hvalid _ _ hentry) hrefused.not_fits
  | upTo hentry hrefused hsmaller htakes =>
    cases h' with
    | whole hvalid => exact absurd (hvalid _ _ hentry) hrefused.not_fits
    | upTo hentry' hrefused' hsmaller' htakes' =>
      obtain ⟨rfl, rfl⟩ := eq_of_smallest hentry hentry' hrefused.not_fits hrefused'.not_fits
        hsmaller hsmaller'
      exact ⟨htakes.unique hsmaller htakes', congrArg some (hrefused.unique hrefused')⟩

/-- Applying a configuration succeeds exactly when every entry of its table fits its key, and it has
the outcome that the table determines, which is but one. -/
theorem apply_eq_iff_applied (config : FileConfig) (o : RenderingOptions) :
    ((config.apply o).2 = none ↔
        ∀ word value, (word, value) ∈ config.rendering.entries → Fits word value) ∧
      ∀ o' refused, config.apply o = (o', refused) ↔
        Applied config.rendering.entries o o' refused := by
  have happlied : Applied config.rendering.entries o (config.apply o).1 (config.apply o).2 :=
    applied_applyEntries config.rendering.ascending o
  constructor
  · constructor
    · intro hnone
      rw [hnone] at happlied
      cases happlied with
      | whole hvalid => exact hvalid
    · intro hvalid
      cases hrefused : (config.apply o).2 with
      | none => rfl
      | some e =>
        rw [hrefused] at happlied
        cases happlied with
        | upTo hentry hrefused => exact absurd (hvalid _ _ hentry) hrefused.not_fits
  · intro o' refused
    constructor
    · rintro heq
      rwa [heq] at happlied
    · intro h
      obtain ⟨ho, hrefused⟩ := happlied.unique h
      exact Prod.ext ho hrefused

/-- A misspelt key takes what comes behind it with it. -/
example :
    applyEntries
        [("fields", .boolean false), ("titel", .string "Shop"), ("title", .string "Shop")] {} =
      ({ fields := false }, some (.unknownOption "titel")) := by
  decide

end FileConfig

end GoUml
