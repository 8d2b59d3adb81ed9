import GoUml.Go.Grammar.File
import GoUml.Proofs.Correspondence

/-!
# Reading around a comment

A comment that is put into a source text leaves its tokens as they are but for two things: the token
in front of it may take it up, and the text in front of the token behind it may show it. Two rows of
tokens that differ in this way are read alike by every reader of the grammar: both readings fail or
both succeed, they stop at the same place, and what they give differs only where the comment was
looked at.
-/

namespace GoUml.Go

/-- A list and what may become of it when copies of `extra` can be put in. -/
inductive Widened {α : Type} (allowed : Prop) (extra : α) : List α → List α → Prop
  | nil : Widened allowed extra [] []
  | cons (a : α) {l l' : List α} (h : Widened allowed extra l l') :
      Widened allowed extra (a :: l) (a :: l')
  | put (hallowed : allowed) {l l' : List α} (h : Widened allowed extra l l') :
      Widened allowed extra l (extra :: l')

namespace Widened

variable {α : Type} {allowed : Prop} {extra : α} {l l' m m' : List α}

theorem refl (l : List α) : Widened allowed extra l l := by
  induction l with
  | nil => exact .nil
  | cons a l ih => exact .cons a ih

theorem mono {allowed' : Prop} (hallowed : allowed → allowed') (h : Widened allowed extra l l') :
    Widened allowed' extra l l' := by
  induction h with
  | nil => exact .nil
  | cons a _ ih => exact .cons a ih
  | put h _ ih => exact .put (hallowed h) ih

theorem append (h : Widened allowed extra l l') (hm : Widened allowed extra m m') :
    Widened allowed extra (l ++ m) (l' ++ m') := by
  induction h with
  | nil => exact hm
  | cons a _ ih => exact .cons a ih
  | put hallowed _ ih => exact .put hallowed ih

end Widened

/-- A comment that is put into a text: the tokens of the text without it, those of them from the one
in front of the comment on, and those behind the comment. -/
structure Insertion where
  comment : String
  row : List Token
  spot : List Token
  behind : List Token

namespace Insertion

variable {i : Insertion}

def lexeme (i : Insertion) : Lexeme := ⟨.comment, i.comment⟩

/-- A token and what may become of it, its own comment aside; `shown` says whether the text in front
of it can show the comment. -/
structure Alike (i : Insertion) (shown : Prop) (t t' : Token) : Prop where
  kind : t'.kind = t.kind
  text : t'.text = t.text
  gap : Widened shown i.lexeme t.gap t'.gap

/-- The tokens from some place of a text on and those of the text with the comment put in. -/
inductive Marked (i : Insertion) : List Token → List Token → Prop
  | nil : Marked i [] []
  | cons {t t' : Token} {rest rest' : List Token} (hrow : t :: rest <:+ i.row)
      (halike : i.Alike True t t') (hgap : t'.gap = t.gap ∨ t :: rest = i.behind)
      (hcomment : t'.comment = t.comment ∨ t :: rest = i.spot ∧ t'.comment = some i.comment)
      (hrest : Marked i rest rest') : Marked i (t :: rest) (t' :: rest')

variable {shown : Prop} {t t' : Token} {ts ts' : List Token}

theorem Alike.isNewline (h : i.Alike shown t t') : t'.isNewline = t.isNewline := by
  rw [Token.isNewline, Token.isNewline, h.kind]

theorem Alike.isWord (h : i.Alike shown t t') (w : String) : t'.isWord w = t.isWord w := by
  rw [Token.isWord, Token.isWord, h.kind, h.text]

theorem Alike.isSymbol (h : i.Alike shown t t') (s : String) : t'.isSymbol s = t.isSymbol s := by
  rw [Token.isSymbol, Token.isSymbol, h.kind, h.text]

theorem Marked.length_eq (h : i.Marked ts ts') : ts'.length = ts.length := by
  induction h with
  | nil => rfl
  | cons _ _ _ _ _ ih => rw [List.length_cons, List.length_cons, ih]

theorem Marked.dropNewlines (h : i.Marked ts ts') :
    i.Marked (Reader.dropNewlines ts) (Reader.dropNewlines ts') := by
  induction h with
  | nil => exact .nil
  | @cons t t' rest rest' hrow halike hgap hcomment hrest ih =>
    rw [Reader.dropNewlines, Reader.dropNewlines, List.dropWhile_cons, List.dropWhile_cons,
      halike.isNewline]
    split
    · exact ih
    · exact .cons hrow halike hgap hcomment hrest

/-- Tokens in front of `more` show the comment only if it stands between the first of them and
`more`. -/
theorem Marked.alike {more more' : List Token} (h : i.Marked (ts ++ more) (ts' ++ more'))
    (hlength : ts'.length = ts.length)
    (hshown : more.length < i.behind.length → i.behind.length ≤ (ts ++ more).length → shown) :
    List.Forall₂ (i.Alike shown) ts ts' := by
  induction ts generalizing ts' with
  | nil =>
    cases List.length_eq_zero_iff.1 hlength
    exact .nil
  | cons t ts ih =>
    obtain ⟨t', ts', rfl⟩ := List.exists_cons_of_length_eq_add_one hlength
    rw [List.cons_append] at h hshown
    cases h with
    | cons hrow halike hgap hcomment hrest =>
      refine .cons ⟨halike.kind, halike.text, ?_⟩ (ih hrest (Nat.succ.inj hlength)
        fun hlong hshort => hshown hlong (hshort.trans (Nat.le_succ _)))
      obtain hsame | hbehind := hgap
      · exact hsame ▸ .refl _
      · refine halike.gap.mono fun _ => hshown ?_ (hbehind ▸ le_rfl)
        rw [← hbehind, List.length_cons, List.length_append]
        omega

/-! ### Readers -/

/-- Two readers that give related values for a text and for the text with the comment put in. How
the values are related may depend on how many tokens there are where the reading starts and where
it stops. -/
def SimTo {α β : Type} (i : Insertion) (W : Nat → Nat → α → β → Prop) (p : Reader α)
    (p' : Reader β) : Prop :=
  ∀ ts ts', i.Marked ts ts' → Option.Rel
    (fun x x' => W ts.length x.2.length x.1 x'.1 ∧ i.Marked x.2 x'.2 ∧ x.2.length ≤ ts.length)
    (p ts) (p' ts')

/-- Two readers that give related values for a text and for the text with the comment put in. -/
def Sim {α β : Type} (i : Insertion) (V : α → β → Prop) (p : Reader α) (p' : Reader β) : Prop :=
  i.SimTo (fun _ _ => V) p p'

/-- A reader that gives the same value with and without the comment. -/
def Steady {α : Type} (i : Insertion) (p : Reader α) : Prop := i.Sim Eq p p

/-- A reader that goes equally far with and without the comment. -/
def Even {α : Type} (i : Insertion) (p : Reader α) : Prop := i.Sim (fun _ _ => True) p p

/-- A relation between values that stays when more is read, before or behind. -/
def Lasting {α β : Type} (W : Nat → Nat → α → β → Prop) : Prop :=
  ∀ ⦃start start' rest rest' a b⦄, start ≤ start' → rest' ≤ rest → W start rest a b →
    W start' rest' a b

section Combinators

variable {α β γ δ : Type} {U : α → β → Prop} {V : γ → δ → Prop} {W : Nat → Nat → α → β → Prop}
  {X : Nat → Nat → γ → δ → Prop}

theorem Lasting.const : Lasting fun _ _ => U := fun _ _ _ _ _ _ _ _ h => h

theorem SimTo.imp {Y : Nat → Nat → α → β → Prop} {p : Reader α} {p' : Reader β}
    (h : i.SimTo W p p') (hWY : ∀ start rest a b, W start rest a b → Y start rest a b) :
    i.SimTo Y p p' :=
  fun ts ts' hts => rel_imp (h ts ts' hts) fun _ _ hx => ⟨hWY _ _ _ _ hx.1, hx.2⟩

theorem SimTo.map {p : Reader α} {p' : Reader β} {f : α → γ} {f' : β → δ} (hp : i.SimTo W p p')
    (hf : ∀ start rest a b, W start rest a b → X start rest (f a) (f' b)) :
    i.SimTo X (f <$> p) (f' <$> p') :=
  fun ts ts' hts => rel_bind (hp ts ts' hts) fun _ _ hx => .some ⟨hf _ _ _ _ hx.1, hx.2⟩

theorem SimTo.orElse {p q : Reader α} {p' q' : Reader β} (hp : i.SimTo W p p')
    (hq : i.SimTo W q q') : i.SimTo W (p <|> q) (p' <|> q') :=
  fun ts ts' hts => rel_orElse (hp ts ts' hts) (hq ts ts' hts)

theorem SimTo.within (hW : Lasting W) {p : Reader α} {p' : Reader β} (h : i.SimTo W p p')
    (hts : i.Marked ts ts') {start : Nat} (hstart : ts.length ≤ start) :
    Option.Rel (fun x x' => W start x.2.length x.1 x'.1 ∧ i.Marked x.2 x'.2 ∧ x.2.length ≤ start)
      (p ts) (p' ts') :=
  rel_imp (h ts ts' hts) fun _ _ hx => ⟨hW hstart le_rfl hx.1, hx.2.1, hx.2.2.trans hstart⟩

theorem SimTo.after {p : Reader α} {p' : Reader β} {f : α → Reader γ} {f' : β → Reader δ}
    (hX : Lasting X) (hp : i.Sim U p p') (hf : ∀ a b, U a b → i.SimTo X (f a) (f' b)) :
    i.SimTo X (p >>= f) (p' >>= f') :=
  fun ts ts' hts => rel_bind (hp ts ts' hts) fun _ _ hx => (hf _ _ hx.1).within hX hx.2.1 hx.2.2

theorem SimTo.seqLeft {p : Reader α} {p' : Reader β} {q : Reader γ} {q' : Reader δ}
    (hW : Lasting W) (hp : i.SimTo W p p') (hq : i.Sim V q q') : i.SimTo W (p <* q) (p' <* q') := by
  intro ts ts' hts
  refine rel_bind (hp ts ts' hts) fun x x' hx => rel_bind (hq _ _ hx.2.1) fun y y' hy => ?_
  exact .some ⟨hW le_rfl hy.2.2 hx.1, hy.2.1, hy.2.2.trans hx.2.2⟩

namespace Sim

theorem imp {V : α → β → Prop} {p : Reader α} {p' : Reader β} (hUV : ∀ a b, U a b → V a b)
    (h : i.Sim U p p') : i.Sim V p p' :=
  SimTo.imp h fun _ _ => hUV

theorem pure {a : α} {b : β} (h : U a b) : i.Sim U (Pure.pure a) (Pure.pure b) :=
  fun _ _ hts => .some ⟨h, hts, le_rfl⟩

theorem failure : i.Sim U Alternative.failure Alternative.failure := fun _ _ _ => .none

theorem bind {p : Reader α} {p' : Reader β} {f : α → Reader γ} {f' : β → Reader δ}
    (hp : i.Sim U p p') (hf : ∀ a b, U a b → i.Sim V (f a) (f' b)) :
    i.Sim V (p >>= f) (p' >>= f') :=
  SimTo.after .const hp hf

theorem map {p : Reader α} {p' : Reader β} {f : α → γ} {f' : β → δ} (hp : i.Sim U p p')
    (hf : ∀ a b, U a b → V (f a) (f' b)) : i.Sim V (f <$> p) (f' <$> p') :=
  SimTo.map hp fun _ _ => hf

theorem orElse {p q : Reader α} {p' q' : Reader β} (hp : i.Sim U p p') (hq : i.Sim U q q') :
    i.Sim U (p <|> q) (p' <|> q') :=
  SimTo.orElse hp hq

theorem seqRight {p : Reader α} {p' : Reader β} {q : Reader γ} {q' : Reader δ}
    (hp : i.Sim U p p') (hq : i.Sim V q q') : i.Sim V (p *> q) (p' *> q') :=
  hp.bind fun _ _ _ => hq

theorem seqLeft {p : Reader α} {p' : Reader β} {q : Reader γ} {q' : Reader δ}
    (hp : i.Sim U p p') (hq : i.Sim V q q') : i.Sim U (p <* q) (p' <* q') :=
  SimTo.seqLeft .const hp hq

end Sim

theorem Sim.iterateWithin {p : α → Reader α} {p' : β → Reader β}
    (hp : ∀ a b, U a b → i.Sim U (p a) (p' b)) {bound bound' : List Token}
    (hbound : bound'.length = bound.length) {a : α} {b : β} (hab : U a b)
    (hts : i.Marked ts ts') :
    U (Reader.iterateWithin p bound a ts).1 (Reader.iterateWithin p' bound' b ts').1 ∧
      i.Marked (Reader.iterateWithin p bound a ts).2 (Reader.iterateWithin p' bound' b ts').2 ∧
      (Reader.iterateWithin p bound a ts).2.length ≤ ts.length := by
  induction bound generalizing bound' a b ts ts' with
  | nil =>
    cases List.length_eq_zero_iff.1 hbound
    exact ⟨hab, hts, le_rfl⟩
  | cons t bound ih =>
    obtain ⟨t', bound', rfl⟩ := List.exists_cons_of_length_eq_add_one hbound
    rw [Reader.iterateWithin, Reader.iterateWithin]
    obtain ⟨hx, hx'⟩ | ⟨x, x', hx, hx', hstep, hrest, hless⟩ := rel_cases (hp a b hab ts ts' hts)
    · rw [hx, hx']
      exact ⟨hab, hts, le_rfl⟩
    · rw [hx, hx']
      obtain ⟨hvalue, hend, hshort⟩ := ih (Nat.succ.inj hbound) hstep hrest
      exact ⟨hvalue, hend, hshort.trans hless⟩

theorem Sim.iterate {p : α → Reader α} {p' : β → Reader β}
    (hp : ∀ a b, U a b → i.Sim U (p a) (p' b)) {a : α} {b : β} (hab : U a b) :
    i.Sim U (Reader.iterate p a) (Reader.iterate p' b) :=
  fun _ _ hts => .some (iterateWithin hp hts.length_eq hab hts)

theorem SimTo.manyWithin (hW : Lasting W) {p : Reader α} {p' : Reader β} (hp : i.SimTo W p p')
    {bound bound' : List Token} (hbound : bound'.length = bound.length) (hts : i.Marked ts ts') :
    List.Forall₂ (W ts.length (Reader.manyWithin p bound ts).2.length)
        (Reader.manyWithin p bound ts).1 (Reader.manyWithin p' bound' ts').1 ∧
      i.Marked (Reader.manyWithin p bound ts).2 (Reader.manyWithin p' bound' ts').2 ∧
      (Reader.manyWithin p bound ts).2.length ≤ ts.length := by
  induction bound generalizing bound' ts ts' with
  | nil =>
    cases List.length_eq_zero_iff.1 hbound
    exact ⟨.nil, hts, le_rfl⟩
  | cons t bound ih =>
    obtain ⟨t', bound', rfl⟩ := List.exists_cons_of_length_eq_add_one hbound
    rw [Reader.manyWithin, Reader.manyWithin]
    obtain ⟨hx, hx'⟩ | ⟨x, x', hx, hx', hstep, hrest, hless⟩ := rel_cases (hp ts ts' hts)
    · rw [hx, hx']
      exact ⟨.nil, hts, le_rfl⟩
    · rw [hx, hx']
      obtain ⟨hmore, hend, hshort⟩ := ih (Nat.succ.inj hbound) hrest
      exact ⟨.cons (hW le_rfl hshort hstep) (hmore.imp fun _ _ => hW hless le_rfl), hend,
        hshort.trans hless⟩

theorem SimTo.many (hW : Lasting W) {p : Reader α} {p' : Reader β} (hp : i.SimTo W p p') :
    i.SimTo (fun start rest => List.Forall₂ (W start rest)) (Reader.many p) (Reader.many p') :=
  fun _ _ hts => .some (hp.manyWithin hW hts.length_eq hts)

theorem Sim.many {p : Reader α} {p' : Reader β} (hp : i.Sim U p p') :
    i.Sim (List.Forall₂ U) (Reader.many p) (Reader.many p') :=
  SimTo.many .const hp

theorem Sim.ahead {p : Reader α} {p' : Reader β} (hp : i.Sim U p p') :
    i.Sim Eq (Reader.ahead p) (Reader.ahead p') :=
  fun ts ts' hts => rel_map (hp ts ts' hts) fun _ _ _ => ⟨rfl, hts, le_rfl⟩

theorem Sim.notAhead {p : Reader α} {p' : Reader β} (hp : i.Sim U p p') :
    i.Sim Eq (Reader.notAhead p) (Reader.notAhead p') := by
  intro ts ts' hts
  rw [Reader.notAhead, Reader.notAhead]
  obtain ⟨hx, hx'⟩ | ⟨x, x', hx, hx', -⟩ := rel_cases (hp ts ts' hts)
  · rw [hx, hx']
    exact .some ⟨rfl, hts, le_rfl⟩
  · rw [hx, hx']
    exact .none

theorem Sim.maybe {p : Reader α} {p' : Reader β} (hp : i.Sim U p p') :
    i.Sim (Option.Rel U) (Reader.maybe p) (Reader.maybe p') :=
  (hp.map fun _ _ hab => .some hab).orElse (.pure .none)

theorem length_dropNewlines (ts : List Token) : (Reader.dropNewlines ts).length ≤ ts.length :=
  (List.dropWhile_suffix Token.isNewline).length_le

/-- A reader that takes tokens somewhere between `start` and `rest`, and the tokens it takes from a
text and from the text with the comment put in. -/
def TakenBy (i : Insertion) (p : Reader α) (start rest : Nat) (tokens tokens' : List Token) :
    Prop :=
  ∃ more more', i.Marked (tokens ++ more) (tokens' ++ more') ∧
    tokens'.length = tokens.length ∧ (p (tokens ++ more)).isSome = true ∧
    (tokens ++ more).length ≤ start ∧ rest ≤ more.length

theorem SimTo.withTokens {p : Reader α} {p' : Reader β} (hp : i.Sim U p p') :
    i.SimTo (fun start rest x x' => U x.1 x'.1 ∧ i.TakenBy p start rest x.2 x'.2)
      (Reader.withTokens p) (Reader.withTokens p') := by
  intro ts ts' hts
  rw [Reader.withTokens, Reader.withTokens]
  have hstart := length_dropNewlines ts
  generalize hfrom : Reader.dropNewlines ts = start, hfrom' : Reader.dropNewlines ts' = start'
    at hstart
  have hdrop : i.Marked start start' := hfrom ▸ hfrom' ▸ hts.dropNewlines
  obtain ⟨hx, hx'⟩ | ⟨x, x', hx, hx', hvalue, hrest, hless⟩ := rel_cases (hp _ _ hdrop)
  · rw [hx, hx']
    exact .none
  · rw [hx, hx']
    have hlength : start'.length - x'.2.length = start.length - x.2.length := by
      rw [hdrop.length_eq, hrest.length_eq]
    refine .some ⟨⟨hvalue, start.drop (start.length - x.2.length),
      start'.drop (start'.length - x'.2.length), ?_, ?_, ?_, ?_, ?_⟩, hrest, hless.trans hstart⟩
    · show i.Marked (start.take _ ++ start.drop _) (start'.take _ ++ start'.drop _)
      rw [List.take_append_drop, List.take_append_drop]
      exact hdrop
    · show (start'.take _).length = (start.take _).length
      rw [List.length_take, List.length_take, hlength, hdrop.length_eq]
    · show (p (start.take _ ++ start.drop _)).isSome = true
      rw [List.take_append_drop, hx]
      rfl
    · show (start.take _ ++ start.drop _).length ≤ ts.length
      rw [List.take_append_drop]
      exact hstart
    · show x.2.length ≤ (start.drop _).length
      rw [List.length_drop]
      omega

end Combinators

/-- A token in `p` that is taken, with and without the comment. -/
structure Taken (i : Insertion) (p : Token → Bool) (t t' : Token) : Prop where
  alike : i.Alike True t t'
  holds : p t = true
  comment : t'.comment = t.comment ∨ i.spot.head? = some t ∧ t'.comment = some i.comment

theorem sim_tokenIf_taken (lines : Reader.Lines) {p : Token → Bool}
    (hp : ∀ t t', i.Alike True t t' → p t' = p t) :
    i.Sim (i.Taken p) (Reader.tokenIf lines p) (Reader.tokenIf lines p) := by
  have hnext : i.Sim (i.Taken p) (Reader.tokenIf .count p) (Reader.tokenIf .count p) := by
    intro ts ts' hts
    cases hts with
    | nil => exact .none
    | @cons t t' rest rest' hrow halike hgap hcomment hrest =>
      show Option.Rel _ (if p t then some (t, rest) else none)
        (if p t' then some (t', rest') else none)
      rw [hp t t' halike]
      split
      case isTrue ht =>
        refine .some ⟨⟨halike, ht, hcomment.imp_right fun hspot => ?_⟩, hrest, Nat.le_succ _⟩
        exact ⟨by rw [← hspot.1]; rfl, hspot.2⟩
      case isFalse => exact .none
  cases lines with
  | count => exact hnext
  | pass => exact fun ts ts' hts => hnext.within .const hts.dropNewlines (length_dropNewlines ts)

theorem sim_tokenIf (lines : Reader.Lines) {p : Token → Bool}
    (hp : ∀ t t', i.Alike True t t' → p t' = p t) :
    i.Sim (i.Alike True) (Reader.tokenIf lines p) (Reader.tokenIf lines p) :=
  (sim_tokenIf_taken lines hp).imp fun _ _ h => h.alike

theorem sim_token : i.Sim (i.Alike True) Reader.token Reader.token :=
  sim_tokenIf .pass fun _ _ _ => rfl

theorem sim_symbol {s : String} {lines : Reader.Lines} :
    i.Sim (i.Alike True) (Reader.symbol s lines) (Reader.symbol s lines) :=
  sim_tokenIf lines fun _ _ h => h.isSymbol s

theorem sim_keyword {w : String} {lines : Reader.Lines} :
    i.Sim (i.Alike True) (Reader.keyword w lines) (Reader.keyword w lines) :=
  sim_tokenIf lines fun _ _ h => h.isWord w

theorem sim_symbolIn {texts : List String} {lines : Reader.Lines} :
    i.Sim (i.Alike True) (Reader.symbolIn texts lines) (Reader.symbolIn texts lines) :=
  sim_tokenIf lines fun _ _ h => by rw [h.kind, h.text]

theorem sim_terminator : i.Sim (i.Alike True) Reader.terminator Reader.terminator :=
  sim_tokenIf .count fun _ _ h => by rw [h.isNewline, h.isSymbol, h.isSymbol]

theorem sim_peek : i.Sim (i.Alike True) Reader.peek Reader.peek := by
  intro ts ts' hts
  have hdrop := hts.dropNewlines
  rw [Reader.peek, Reader.peek]
  generalize Reader.dropNewlines ts = start, Reader.dropNewlines ts' = start' at hdrop
  cases hdrop with
  | nil => exact .none
  | cons _ halike _ _ _ => exact .some ⟨halike, hts, le_rfl⟩

/-! ### Readers that do not look at the comment -/

section Closure

variable {α β γ : Type} {U : α → β → Prop} {p q : Reader α}

theorem Sim.even {V : α → α → Prop} (h : i.Sim V p p) : i.Even p := h.imp fun _ _ _ => trivial

namespace Steady

theorem pure (a : α) : i.Steady (Pure.pure a) := Sim.pure rfl

theorem failure : i.Steady (Alternative.failure : Reader α) := Sim.failure

theorem bind {f : α → Reader β} (hp : i.Steady p) (hf : ∀ a, i.Steady (f a)) :
    i.Steady (p >>= f) :=
  Sim.bind hp fun a _ hab => hab ▸ hf a

theorem map {f : α → β} (hp : i.Steady p) : i.Steady (f <$> p) :=
  Sim.map hp fun _ _ hab => congrArg f hab

theorem orElse (hp : i.Steady p) (hq : i.Steady q) : i.Steady (p <|> q) := Sim.orElse hp hq

theorem ite {c : Prop} [Decidable c] (hp : i.Steady p) (hq : i.Steady q) :
    i.Steady (if c then p else q) := by
  split
  · exact hp
  · exact hq

theorem many (hp : i.Steady p) : i.Steady (Reader.many p) :=
  (Sim.many hp).imp fun _ _ h => List.forall₂_eq_eq_eq ▸ h

theorem maybe (hp : i.Steady p) : i.Steady (Reader.maybe p) := hp.map.orElse (pure none)

theorem iterate {p : α → Reader α} (hp : ∀ a, i.Steady (p a)) (a : α) :
    i.Steady (Reader.iterate p a) :=
  Sim.iterate (fun a _ hab => hab ▸ hp a) rfl

theorem even (hp : i.Steady p) : i.Even p := Sim.even hp

end Steady

namespace Even

variable {p : Reader α} {q : Reader β}

theorem discard (hp : i.Even p) : i.Steady (discard p) := Sim.map hp fun _ _ _ => rfl

theorem skip (hp : i.Even p) : i.Steady (Reader.skip p) :=
  Sim.orElse (Sim.map hp fun _ _ _ => rfl) (.pure rfl)

theorem ahead (hp : i.Even p) : i.Steady (Reader.ahead p) := Sim.ahead hp

theorem notAhead (hp : i.Even p) : i.Steady (Reader.notAhead p) := Sim.notAhead hp

theorem seqRight (hp : i.Even p) (hq : i.Steady q) : i.Steady (p *> q) := Sim.seqRight hp hq

theorem before (hp : i.Even p) (hq : i.Even q) : i.Even (p *> q) := Sim.seqRight hp hq

theorem seqLeft (hp : i.Steady p) (hq : i.Even q) : i.Steady (p <* q) := Sim.seqLeft hp hq

theorem orElse {q : Reader α} (hp : i.Even p) (hq : i.Even q) : i.Even (p <|> q) :=
  Sim.orElse hp hq

end Even

theorem even_symbol {s : String} {lines : Reader.Lines} : i.Even (Reader.symbol s lines) :=
  sim_symbol.even

theorem even_keyword {w : String} {lines : Reader.Lines} : i.Even (Reader.keyword w lines) :=
  sim_keyword.even

theorem even_symbolIn {texts : List String} {lines : Reader.Lines} :
    i.Even (Reader.symbolIn texts lines) :=
  sim_symbolIn.even

theorem steady_word {lines : Reader.Lines} : i.Steady (Reader.word lines) :=
  Sim.map (sim_tokenIf lines fun _ _ h => by rw [h.kind]) fun _ _ h => h.text.symm

theorem steady_wordExcept {keywords : List String} {lines : Reader.Lines} :
    i.Steady (Reader.wordExcept keywords lines) :=
  Sim.map (sim_tokenIf lines fun _ _ h => by rw [h.kind, h.text]) fun _ _ h => h.text.symm

theorem steady_quoted {lines : Reader.Lines} : i.Steady (Reader.quoted lines) :=
  Sim.map (sim_tokenIf lines fun _ _ h => by rw [h.kind]) fun _ _ h => h.text.symm

theorem steady_sameLine {lines : Reader.Lines} : i.Steady (Reader.sameLine lines) := by
  cases lines with
  | count => exact (sim_tokenIf .count fun _ _ h => h.isNewline).notAhead
  | pass => exact .pure ()

theorem steady_atEnd : i.Steady Reader.atEnd := by
  intro ts ts' hts
  have hdrop := hts.dropNewlines
  rw [Reader.atEnd, Reader.atEnd]
  generalize Reader.dropNewlines ts = start, Reader.dropNewlines ts' = start' at hdrop
  cases hdrop with
  | nil => exact .some ⟨rfl, .nil, Nat.zero_le _⟩
  | cons _ _ _ _ _ => exact .none

/-! ### Lists of phrases -/

variable {p' : Reader β}

theorem SimTo.separated {W : Nat → Nat → α → β → Prop} (hW : Lasting W) {s : Reader γ}
    (hs : i.Even s) {p : Reader α} (hp : i.SimTo W p p') :
    i.SimTo (fun start rest => List.Forall₂ (W start rest)) (Reader.separated s p)
      (Reader.separated s p') := by
  have hnext : i.SimTo W (s *> p) (s *> p') := SimTo.after hW hs fun _ _ _ => hp
  intro ts ts' hts
  refine rel_bind (hp ts ts' hts) fun x x' hx => ?_
  obtain ⟨hfirst, hrest, hless⟩ := hx
  obtain ⟨hmore, hend, hshort⟩ := SimTo.manyWithin hW hnext hrest.length_eq hrest
  exact .some ⟨.cons (hW le_rfl hshort hfirst) (hmore.imp fun _ _ => hW hless le_rfl), hend,
    hshort.trans hless⟩

theorem SimTo.commasOrNone {W : Nat → Nat → α → β → Prop} (hW : Lasting W) {p : Reader α}
    (hp : i.SimTo W p p') :
    i.SimTo (fun start rest => List.Forall₂ (W start rest)) (Reader.commasOrNone p)
      (Reader.commasOrNone p') := by
  have hnone : i.SimTo (fun start rest => List.Forall₂ (W start rest)) (Pure.pure [])
      (Pure.pure []) :=
    fun _ _ hts => .some ⟨.nil, hts, le_rfl⟩
  exact SimTo.seqLeft (fun _ _ _ _ _ _ hstart hrest h => h.imp fun _ _ => hW hstart hrest)
    ((SimTo.separated hW even_symbol hp).orElse hnone) even_symbol.skip

theorem Sim.separated {s : Reader γ} (hs : i.Even s) {p : Reader α} (hp : i.Sim U p p') :
    i.Sim (List.Forall₂ U) (Reader.separated s p) (Reader.separated s p') :=
  SimTo.separated .const hs hp

theorem Sim.commas {p : Reader α} (hp : i.Sim U p p') :
    i.Sim (List.Forall₂ U) (Reader.commas p) (Reader.commas p') :=
  .separated even_symbol hp

theorem Sim.commasMayTrail {p : Reader α} (hp : i.Sim U p p') :
    i.Sim (List.Forall₂ U) (Reader.commasMayTrail p) (Reader.commasMayTrail p') :=
  hp.commas.seqLeft even_symbol.skip

theorem Sim.commasOrNone {p : Reader α} (hp : i.Sim U p p') :
    i.Sim (List.Forall₂ U) (Reader.commasOrNone p) (Reader.commasOrNone p') :=
  SimTo.commasOrNone .const hp

theorem Sim.terminated {p : Reader α} (hp : i.Sim U p p') :
    i.Sim (List.Forall₂ U) (Reader.terminated p) (Reader.terminated p') :=
  ((Sim.separated sim_terminator.even hp).seqLeft (Sim.even sim_terminator).skip).orElse
    (.pure .nil)

theorem Sim.group {p : Reader α} (hp : i.Sim U p p') :
    i.Sim (List.Forall₂ U) (Reader.group p) (Reader.group p') :=
  (sim_symbol.seqRight (hp.seqLeft sim_terminator).many).seqLeft sim_symbol

/-- Readers of lists whose phrases are the same with and without the comment. -/
theorem Steady.of_forall₂ {p : Reader (List α)} (h : i.Sim (List.Forall₂ Eq) p p) : i.Steady p :=
  h.imp fun _ _ hab => List.forall₂_eq_eq_eq ▸ hab

end Closure

end Insertion

end GoUml.Go
