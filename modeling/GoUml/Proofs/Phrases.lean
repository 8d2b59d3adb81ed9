import GoUml.Proofs.Reading
import Mathlib.Data.List.DropRight

/-!
# Phrases around a comment

Every phrase of the grammar is read alike with and without a comment put in. Types are the only
phrases that look at the comment, so a reading that gives types gives related ones, and every other
reading gives the same. The grammar is the same on both sides; the lemmas go through its readers in
the order in which they are defined, each in terms of readers for the phrases inside.
-/

namespace GoUml.Go

section Relations

variable {τ : Type}

inductive ParamRel (V : τ → τ → Prop) : ParamOf τ → ParamOf τ → Prop
  | mk (name : String) {t t' : τ} (h : V t t') : ParamRel V ⟨name, t⟩ ⟨name, t'⟩

inductive SignatureRel (V : τ → τ → Prop) : SignatureOf τ → SignatureOf τ → Prop
  | mk {ps ps' rs rs' : List (ParamOf τ)} (hparams : List.Forall₂ (ParamRel V) ps ps')
      (hresults : List.Forall₂ (ParamRel V) rs rs') : SignatureRel V ⟨ps, rs⟩ ⟨ps', rs'⟩

inductive FieldRel (V : τ → τ → Prop) : FieldOf τ → FieldOf τ → Prop
  | mk (name : String) (embedded : Bool) {t t' : τ} (h : V t t') :
      FieldRel V ⟨name, t, embedded⟩ ⟨name, t', embedded⟩

inductive MethodRel (V : τ → τ → Prop) : MethodOf τ → MethodOf τ → Prop
  | mk (name : String) {s s' : SignatureOf τ} (h : SignatureRel V s s') :
      MethodRel V ⟨name, s⟩ ⟨name, s'⟩

end Relations

namespace TypeExpr

/-- A type and what is left of it when types in it are hidden. -/
inductive Masks : TypeExpr → TypeExpr → Prop
  | hidden (t : TypeExpr) : Masks t .unknown
  | name (own : String) : Masks (.name own) (.name own)
  | qualified (package own : String) : Masks (.qualified package own) (.qualified package own)
  | pointer {t t' : TypeExpr} (h : Masks t t') : Masks (.pointer t) (.pointer t')
  | slice {t t' : TypeExpr} (h : Masks t t') : Masks (.slice t) (.slice t')
  | array {t t' : TypeExpr} (h : Masks t t') : Masks (.array t) (.array t')
  | map {k k' v v' : TypeExpr} (hkey : Masks k k') (hvalue : Masks v v') :
      Masks (.map k v) (.map k' v')
  | chan {t t' : TypeExpr} (h : Masks t t') : Masks (.chan t) (.chan t')
  | func {s s' : SignatureOf TypeExpr} (h : SignatureRel Masks s s') : Masks (.func s) (.func s')
  | struct {fs fs' : List (FieldOf TypeExpr)} (h : List.Forall₂ (FieldRel Masks) fs fs') :
      Masks (.struct fs) (.struct fs')
  | interface {ms ms' : List (MethodOf TypeExpr)} {es es' : List TypeExpr}
      (hmethods : List.Forall₂ (MethodRel Masks) ms ms') (hembeds : List.Forall₂ Masks es es') :
      Masks (.interface ms es) (.interface ms' es')
  | union {ts ts' : List TypeExpr} (h : List.Forall₂ Masks ts ts') :
      Masks (.union ts) (.union ts')
  | approx {t t' : TypeExpr} (h : Masks t t') : Masks (.approx t) (.approx t')

/-- A relation that holds of two types when it holds of their parts. -/
structure Congruence (V : TypeExpr → TypeExpr → Prop) : Prop where
  name (own : String) : V (.name own) (.name own)
  qualified (package own : String) : V (.qualified package own) (.qualified package own)
  pointer {t t' : TypeExpr} (h : V t t') : V (.pointer t) (.pointer t')
  slice {t t' : TypeExpr} (h : V t t') : V (.slice t) (.slice t')
  array {t t' : TypeExpr} (h : V t t') : V (.array t) (.array t')
  map {k k' v v' : TypeExpr} (hkey : V k k') (hvalue : V v v') : V (.map k v) (.map k' v')
  chan {t t' : TypeExpr} (h : V t t') : V (.chan t) (.chan t')
  func {s s' : SignatureOf TypeExpr} (h : SignatureRel V s s') : V (.func s) (.func s')
  struct {fs fs' : List (FieldOf TypeExpr)} (h : List.Forall₂ (FieldRel V) fs fs') :
      V (.struct fs) (.struct fs')
  interface {ms ms' : List (MethodOf TypeExpr)} {es es' : List TypeExpr}
      (hmethods : List.Forall₂ (MethodRel V) ms ms') (hembeds : List.Forall₂ V es es') :
      V (.interface ms es) (.interface ms' es')
  union {ts ts' : List TypeExpr} (h : List.Forall₂ V ts ts') : V (.union ts) (.union ts')
  approx {t t' : TypeExpr} (h : V t t') : V (.approx t) (.approx t')
  unknown : V .unknown .unknown

theorem congruence_masks : Congruence Masks :=
  ⟨.name, .qualified, .pointer, .slice, .array, .map, .chan, .func, .struct, .interface, .union,
    .approx, .hidden _⟩

theorem congruence_true : Congruence fun _ _ => True := by
  constructor <;> intros <;> trivial

end TypeExpr

section Equality

variable {τ : Type}

theorem eq_of_forall₂ {R : τ → τ → Prop} {l l' : List τ} (h : List.Forall₂ R l l')
    (hR : ∀ a b, R a b → a = b) : l = l' := by
  induction h with
  | nil => rfl
  | cons hab _ ih => rw [hR _ _ hab, ih]

theorem eq_of_paramRel {p p' : ParamOf τ} (h : ParamRel Eq p p') : p = p' := by
  obtain ⟨name, rfl⟩ := h
  rfl

theorem eq_of_signatureRel {s s' : SignatureOf τ} (h : SignatureRel Eq s s') : s = s' := by
  obtain ⟨hparams, hresults⟩ := h
  rw [eq_of_forall₂ hparams fun _ _ => eq_of_paramRel,
    eq_of_forall₂ hresults fun _ _ => eq_of_paramRel]

theorem eq_of_fieldRel {f f' : FieldOf τ} (h : FieldRel Eq f f') : f = f' := by
  obtain ⟨name, embedded, rfl⟩ := h
  rfl

theorem eq_of_methodRel {m m' : MethodOf τ} (h : MethodRel Eq m m') : m = m' := by
  obtain ⟨name, h⟩ := h
  rw [eq_of_signatureRel h]

end Equality

theorem TypeExpr.congruence_eq : Congruence Eq where
  name _ := rfl
  qualified _ _ := rfl
  pointer h := congrArg _ h
  slice h := congrArg _ h
  array h := congrArg _ h
  map hkey hvalue := congrArg₂ _ hkey hvalue
  chan h := congrArg _ h
  func h := congrArg _ (eq_of_signatureRel h)
  struct h := congrArg _ (eq_of_forall₂ h fun _ _ => eq_of_fieldRel)
  interface hmethods hembeds := congrArg₂ _ (eq_of_forall₂ hmethods fun _ _ => eq_of_methodRel)
    (eq_of_forall₂ hembeds fun _ _ => id)
  union h := congrArg _ (eq_of_forall₂ h fun _ _ => id)
  approx h := congrArg _ h
  unknown := rfl

namespace Insertion

open Grammar
open TypeExpr (Congruence Masks)

variable {i : Insertion} {V : TypeExpr → TypeExpr → Prop} {g : Grammar}

/-- A grammar whose phrases are read alike with and without the comment. -/
structure Respects (i : Insertion) (V : TypeExpr → TypeExpr → Prop) (g : Grammar) : Prop where
  type (lines : Reader.Lines) : i.Sim V (g.type lines) (g.type lines)
  expression (place : Place) : i.Steady (g.expression place)
  literal : i.Steady g.literal
  statement : i.Steady g.statement

theorem Respects.evenType (hg : i.Respects V g) (lines : Reader.Lines) : i.Even (g.type lines) :=
  (hg.type lines).even

theorem rel_unionOf (hV : Congruence V) {terms terms' : List TypeExpr}
    (h : List.Forall₂ V terms terms') : V (unionOf terms) (unionOf terms') := by
  cases h with
  | nil => exact hV.union .nil
  | cons hfirst hrest =>
    cases hrest with
    | nil => exact hfirst
    | cons hsecond hrest => exact hV.union (.cons hfirst (.cons hsecond hrest))

theorem sim_alternatives (hV : Congruence V) (hg : i.Respects V g) (lines : Reader.Lines) :
    i.Sim V (alternatives g lines) (alternatives g lines) :=
  (Sim.separated even_symbol (hg.type lines)).map fun _ _ h => rel_unionOf hV h

theorem even_alternatives (hg : i.Respects V g) (lines : Reader.Lines) :
    i.Even (alternatives g lines) :=
  (Sim.separated even_symbol (hg.type lines)).map fun _ _ _ => trivial

theorem steady_typeArguments (hg : i.Respects V g) (lines : Reader.Lines) :
    i.Steady (typeArguments g lines) :=
  .bind even_symbol.discard fun _ =>
    .bind (Sim.commasMayTrail (even_alternatives hg .pass)).even.discard fun _ =>
      even_symbol.discard

theorem sim_namedType (hV : Congruence V) (hg : i.Respects V g) (lines : Reader.Lines)
    (name : String) :
    i.Sim (fun t t' => t = t' ∧ V t t') (namedType g lines name) (namedType g lines name) :=
  Sim.bind (Sim.orElse
      (Sim.map (Even.seqRight even_symbol steady_word) fun own _ hown =>
        ⟨congrArg _ hown, hown ▸ hV.qualified name own⟩)
      (.pure ⟨rfl, hV.name name⟩))
    fun _ _ htype => Sim.bind (steady_typeArguments hg lines).even.skip fun _ _ _ => .pure htype

/-- Entries of a parameter list, whose types a reader takes with and without the comment. -/
structure GroupRel (i : Insertion) (V : TypeExpr → TypeExpr → Prop) (p : Reader TypeExpr)
    (start rest : Nat) (group group' : ParamGroup) : Prop where
  names : group'.names = group.names
  type : V group.type group'.type
  variadic : group'.variadic = group.variadic
  tokens : i.TakenBy p start rest group.typeTokens group'.typeTokens

theorem lasting_groupRel {p : Reader TypeExpr} : Lasting (i.GroupRel V p) := by
  intro start start' rest rest' group group' hstart hrest h
  obtain ⟨more, more', hmarked, hlength, hread, hfrom, hto⟩ := h.tokens
  exact ⟨h.names, h.type, h.variadic,
    more, more', hmarked, hlength, hread, hfrom.trans hstart, hrest.trans hto⟩

/-- An entry whose names are read already. -/
theorem simTo_group (hg : i.Respects V g) (names : List String) (variadic : Bool) :
    i.SimTo (i.GroupRel V (g.type .pass))
      (do let (type, tokens) ← (g.type .pass).withTokens; return ⟨names, type, variadic, tokens⟩)
      (do let (type, tokens) ← (g.type .pass).withTokens; return ⟨names, type, variadic, tokens⟩) :=
  fun ts ts' hts => rel_bind (SimTo.withTokens (hg.type .pass) ts ts' hts) fun _ _ hx =>
    .some ⟨⟨rfl, hx.1.1, rfl, hx.1.2⟩, hx.2⟩

theorem simTo_variadicGroup (hg : i.Respects V g) :
    i.SimTo (i.GroupRel V (g.type .pass)) (variadicGroup g) (variadicGroup g) :=
  .after lasting_groupRel steady_wordExcept.maybe fun name _ hname =>
    .after lasting_groupRel even_symbol.discard fun _ _ _ =>
      hname ▸ simTo_group hg name.toList true

theorem simTo_namedGroup (hg : i.Respects V g) :
    i.SimTo (i.GroupRel V (g.type .pass)) (namedGroup g) (namedGroup g) :=
  .after lasting_groupRel steady_wordExcept fun first _ hfirst =>
    .after lasting_groupRel (even_symbol.seqRight steady_word).many fun more _ hmore =>
      hfirst ▸ hmore ▸ simTo_group hg (first :: more) false

theorem simTo_unnamedGroup (hg : i.Respects V g) :
    i.SimTo (i.GroupRel V (g.type .pass)) (unnamedGroup g) (unnamedGroup g) :=
  simTo_group hg [] false

theorem lasting_forall₂_groupRel {p : Reader TypeExpr} :
    Lasting fun start rest => List.Forall₂ (i.GroupRel V p start rest) :=
  fun _ _ _ _ _ _ hstart hrest h => h.imp fun _ _ => lasting_groupRel hstart hrest

theorem simTo_paramGroups (hg : i.Respects V g) (lines : Reader.Lines) :
    i.SimTo (fun start rest => List.Forall₂ (i.GroupRel V (g.type .pass) start rest))
      (paramGroups g lines) (paramGroups g lines) :=
  .after lasting_forall₂_groupRel even_symbol.discard fun _ _ _ =>
    .seqLeft lasting_forall₂_groupRel
      (.commasOrNone lasting_groupRel ((simTo_variadicGroup hg).orElse
        (((simTo_namedGroup hg).seqLeft lasting_groupRel even_symbolIn.ahead).orElse
          (simTo_unnamedGroup hg)))) even_symbol.discard

theorem GroupRel.params (hV : Congruence V) {p : Reader TypeExpr} {start rest : Nat}
    {group group' : ParamGroup} (h : i.GroupRel V p start rest group group') :
    List.Forall₂ (ParamRel V) group.params group'.params := by
  have hshown : V (if group.variadic then .slice group.type else group.type)
      (if group.variadic then .slice group'.type else group'.type) := by
    split
    · exact hV.slice h.type
    · exact h.type
  rw [ParamGroup.params, ParamGroup.params, h.names, h.variadic]
  cases group.names with
  | nil => exact .cons (.mk "" hshown) .nil
  | cons first more =>
    rw [List.forall₂_map_left_iff, List.forall₂_map_right_iff]
    exact List.forall₂_same.2 fun name _ => .mk name hshown

theorem sim_parameters (hV : Congruence V) (hg : i.Respects V g) (lines : Reader.Lines) :
    i.Sim (List.Forall₂ (ParamRel V)) (parameters g lines) (parameters g lines) :=
  (simTo_paramGroups hg lines).map fun _ _ _ _ h =>
    List.rel_flatMap h fun _ _ hgroup => hgroup.params hV

theorem sim_results (hV : Congruence V) (hg : i.Respects V g) (lines : Reader.Lines) :
    i.Sim (List.Forall₂ (ParamRel V)) (results g lines) (results g lines) :=
  (sim_parameters hV hg lines).orElse
    (Sim.orElse (Sim.seqRight (even_symbol.notAhead.even.seqRight steady_sameLine)
      ((hg.type lines).map fun _ _ h => .cons (.mk "" h) .nil)) (.pure .nil))

theorem sim_signature (hV : Congruence V) (hg : i.Respects V g) (lines : Reader.Lines) :
    i.Sim (SignatureRel V) (signature g lines) (signature g lines) :=
  (sim_parameters hV hg .pass).bind fun _ _ hparams =>
    (sim_results hV hg lines).bind fun _ _ hresults => .pure (.mk hparams hresults)

theorem steady_typeParameters (hg : i.Respects V g) : i.Steady (typeParameters g) :=
  .bind even_symbol.discard fun _ =>
    .bind (.of_forall₂ (Sim.commasMayTrail
      (Even.seqLeft (.of_forall₂ (Sim.commas steady_word)) (even_alternatives hg .pass))))
      fun _ => .bind even_symbol.discard fun _ => .pure _

theorem sim_embeddedField (hV : Congruence V) (hg : i.Respects V g) :
    i.Sim (List.Forall₂ (FieldRel V)) (embeddedField g) (embeddedField g) := by
  refine Sim.bind sim_symbol.maybe fun star star' hstar => Sim.bind steady_word fun own _ hown => ?_
  subst hown
  refine (sim_namedType hV hg .count own).bind fun type type' htype => ?_
  obtain ⟨rfl, hrel⟩ := htype
  refine Sim.bind steady_quoted.even.skip fun _ _ _ => Sim.bind
    (Even.ahead (Steady.orElse sim_terminator.even.discard even_symbol.discard).even)
    fun _ _ _ => .pure (.cons ?_ .nil)
  have hsome : star'.isSome = star.isSome := by cases hstar <;> rfl
  rw [hsome]
  refine .mk _ true ?_
  split
  · exact hV.pointer hrel
  · exact hrel

theorem sim_namedFields (hg : i.Respects V g) :
    i.Sim (List.Forall₂ (FieldRel V)) (namedFields g) (namedFields g) := by
  refine Sim.bind (Steady.of_forall₂ (Sim.commas steady_word)) fun names _ hnames =>
    (hg.type .count).bind fun type type' htype => Sim.bind steady_quoted.even.skip fun _ _ _ =>
      .pure ?_
  subst hnames
  rw [List.forall₂_map_left_iff, List.forall₂_map_right_iff]
  exact List.forall₂_same.2 fun name _ => .mk name false htype

theorem sim_structType (hV : Congruence V) (hg : i.Respects V g) :
    i.Sim V (structType g) (structType g) :=
  Sim.bind even_symbol.discard fun _ _ _ =>
    Sim.bind ((sim_embeddedField hV hg).orElse (sim_namedFields hg)).terminated fun _ _ hfields =>
      Sim.bind even_symbol.discard fun _ _ _ => .pure (hV.struct (List.rel_flatten hfields))

/-! ### Types -/

theorem sim_sequenceType (hV : Congruence V) (hg : i.Respects V g) (lines : Reader.Lines) :
    i.Sim V (sequenceType g lines) (sequenceType g lines) :=
  (Sim.seqRight even_symbol ((hg.type lines).map fun _ _ h => hV.slice h)).orElse
    (Sim.seqRight ((hg.expression .enclosed).even.before even_symbol)
      ((hg.type lines).map fun _ _ h => hV.array h))

theorem sim_interfaceElement (hV : Congruence V) (hg : i.Respects V g) :
    i.Sim (Sum.LiftRel (MethodRel V) V) (interfaceElement g) (interfaceElement g) := by
  refine Sim.orElse (Sim.bind steady_wordExcept fun name _ hname =>
    Sim.bind even_symbol.ahead fun _ _ _ => (sim_signature hV hg .count).bind fun _ _ h => .pure ?_)
    ((sim_alternatives hV hg .count).map fun _ _ h => .inr h)
  subst hname
  exact .inl (.mk name h)

theorem rel_elements {elements elements' : List (MethodOf TypeExpr ⊕ TypeExpr)}
    (h : List.Forall₂ (Sum.LiftRel (MethodRel V) V) elements elements') :
    List.Forall₂ (MethodRel V) (elements.filterMap Sum.getLeft?)
        (elements'.filterMap Sum.getLeft?) ∧
      List.Forall₂ V (elements.filterMap Sum.getRight?) (elements'.filterMap Sum.getRight?) := by
  induction h with
  | nil => exact ⟨.nil, .nil⟩
  | cons hfirst _ ih =>
    cases hfirst with
    | inl hmethod => exact ⟨.cons hmethod ih.1, ih.2⟩
    | inr htype => exact ⟨ih.1, .cons htype ih.2⟩

theorem sim_interfaceType (hV : Congruence V) (hg : i.Respects V g) :
    i.Sim V (interfaceType g) (interfaceType g) :=
  Sim.bind even_symbol.discard fun _ _ _ =>
    (sim_interfaceElement hV hg).terminated.bind fun _ _ h =>
      Sim.bind even_symbol.discard fun _ _ _ =>
        .pure (hV.interface (rel_elements h).1 (rel_elements h).2)

theorem sim_mapType (hV : Congruence V) (hg : i.Respects V g) (lines : Reader.Lines) :
    i.Sim V (mapType g lines) (mapType g lines) :=
  Sim.bind even_symbol.discard fun _ _ _ => (hg.type .pass).bind fun _ _ hkey =>
    Sim.bind even_symbol.discard fun _ _ _ => (hg.type lines).bind fun _ _ hvalue =>
      .pure (hV.map hkey hvalue)

/-- What a type phrase reads behind its first token, with `hide` for what the comment hides. -/
def typeRest (g : Grammar) (lines : Reader.Lines) (kind : LexemeKind) (text : String)
    (hide : TypeExpr → TypeExpr) : Reader TypeExpr :=
  match kind, text with
  | .word, "struct" => structType g
  | .word, "interface" => interfaceType g
  | .word, "map" => mapType g lines
  | .word, "chan" => Reader.skip (Reader.symbol "<-") *> (.chan <$> g.type lines)
  | .word, "func" => .func <$> signature g lines
  | .word, name => namedType g lines name
  | .symbol, "*" => (.pointer <| hide ·) <$> g.type lines
  | .symbol, "~" => (.approx <| hide ·) <$> g.type lines
  | .symbol, "(" => hide <$> (g.type .pass <* Reader.symbol ")")
  | .symbol, "[" => sequenceType g lines
  | .symbol, "<-" => Reader.keyword "chan" *> (.chan <$> g.type lines)
  | _, _ => failure

theorem typePhrase_eq (g : Grammar) (lines : Reader.Lines) :
    typePhrase g lines =
      Reader.token >>= fun t => typeRest g lines t.kind t.text (unlessHidden t) := rfl

theorem sim_typeRest (hV : Congruence V) (hg : i.Respects V g) (lines : Reader.Lines)
    (kind : LexemeKind) (text : String) {hide hide' : TypeExpr → TypeExpr}
    (hhide : kind = .symbol → ∀ t t', V t t' → V (hide t) (hide' t')) :
    i.Sim V (typeRest g lines kind text hide) (typeRest g lines kind text hide') := by
  unfold typeRest
  split
  · exact sim_structType hV hg
  · exact sim_interfaceType hV hg
  · exact sim_mapType hV hg lines
  · exact Sim.seqRight even_symbol.skip ((hg.type lines).map fun _ _ h => hV.chan h)
  · exact (sim_signature hV hg lines).map fun _ _ h => hV.func h
  · exact (sim_namedType hV hg lines _).imp fun _ _ h => h.2
  · exact (hg.type lines).map fun _ _ h => hV.pointer (hhide rfl _ _ h)
  · exact (hg.type lines).map fun _ _ h => hV.approx (hhide rfl _ _ h)
  · exact ((hg.type .pass).seqLeft even_symbol).map (hhide rfl)
  · exact sim_sequenceType hV hg lines
  · exact Sim.seqRight even_keyword ((hg.type lines).map fun _ _ h => hV.chan h)
  · exact Sim.failure

/-- The comment stands behind a symbol from which on a type can be read. -/
def OpensType (i : Insertion) : Prop :=
  ∃ t rest depth lines, i.spot = t :: rest ∧ t.kind = .symbol ∧
    (typePhrase (ofDepth depth) lines i.spot).isSome = true

theorem Respects.even (hg : i.Respects V g) : i.Respects (fun _ _ => True) g :=
  ⟨fun lines => hg.evenType lines, hg.expression, hg.literal, hg.statement⟩

theorem typePhrase_cons {t : Token} (ht : t.isNewline = false) (g : Grammar) (lines : Reader.Lines)
    (rest : List Token) :
    typePhrase g lines (t :: rest) = typeRest g lines t.kind t.text (unlessHidden t) rest := by
  have htoken : Reader.token (t :: rest) = some (t, rest) := by
    simp [Reader.token, Reader.tokenIf, Reader.dropNewlines, ht]
  rw [typePhrase_eq]
  show (Reader.token (t :: rest)).bind _ = _
  rw [htoken]
  rfl

theorem typePhrase_dropNewlines (g : Grammar) (lines : Reader.Lines) (ts : List Token) :
    typePhrase g lines (Reader.dropNewlines ts) = typePhrase g lines ts := by
  have htoken : Reader.token (Reader.dropNewlines ts) = Reader.token ts := by
    rw [Reader.token, Reader.tokenIf, Reader.tokenIf, Reader.dropNewlines, Reader.dropNewlines,
      List.dropWhile_idempotent]
  rw [typePhrase_eq]
  show (Reader.token (Reader.dropNewlines ts)).bind _ = (Reader.token ts).bind _
  rw [htoken]

/-- A type phrase is the one place that looks at the comment, and only if it begins with the token
in front of it. -/
theorem sim_typePhrase (hV : Congruence V) (hhidden : i.OpensType → ∀ t, V t .unknown) {depth : Nat}
    (hg : i.Respects V (ofDepth depth)) (lines : Reader.Lines) :
    i.Sim V (typePhrase (ofDepth depth) lines) (typePhrase (ofDepth depth) lines) := by
  intro ts ts' hts
  have hdrop := hts.dropNewlines
  rw [← typePhrase_dropNewlines _ _ ts, ← typePhrase_dropNewlines _ _ ts']
  have hfirst : ∀ t ∈ (Reader.dropNewlines ts).head?, t.isNewline = false := by
    intro t ht
    have hnot := List.head?_dropWhile_not Token.isNewline ts
    rw [Reader.dropNewlines] at ht
    rwa [ht] at hnot
  have hlength := length_dropNewlines ts
  generalize Reader.dropNewlines ts = start, Reader.dropNewlines ts' = start'
    at hdrop hfirst hlength
  cases hdrop with
  | nil => exact .none
  | @cons t t' rest rest' hrow halike hgap hcomment hrest =>
    have ht := hfirst t rfl
    have hless : rest.length ≤ ts.length := (Nat.le_succ _).trans hlength
    rw [typePhrase_cons ht, typePhrase_cons (halike.isNewline.trans ht), halike.kind, halike.text]
    obtain hsame | ⟨hspot, hmarked⟩ := hcomment
    · refine (sim_typeRest hV hg lines _ _ fun _ type type' htype => ?_).within .const hrest hless
      rw [unlessHidden, unlessHidden, hsame]
      split
      · exact hV.unknown
      · exact htype
    · have hhide' : unlessHidden t' = fun _ => .unknown := by
        funext type
        rw [unlessHidden, hmarked]
        rfl
      rw [hhide']
      cases hread : typeRest (ofDepth depth) lines t.kind t.text (unlessHidden t) rest with
      | some x =>
        have hopens : t.kind = .symbol → i.OpensType := by
          intro hkind
          refine ⟨t, rest, depth, lines, hspot.symm, hkind, ?_⟩
          rw [← hspot, typePhrase_cons ht, hread]
          rfl
        rw [← hread]
        exact (sim_typeRest hV hg lines _ _ fun hkind type _ _ => hhidden (hopens hkind) _).within
          .const hrest hless
      | none =>
        have hmasked : i.Sim (fun _ _ => True)
            (typeRest (ofDepth depth) lines t.kind t.text (unlessHidden t))
            (typeRest (ofDepth depth) lines t.kind t.text fun _ => .unknown) :=
          sim_typeRest TypeExpr.congruence_true hg.even lines _ _ fun _ _ _ _ => trivial
        rw [eq_none_of_rel (hmasked rest rest' hrest) hread]
        exact .none

/-! ### Expressions -/

section Expressions

variable (hg : i.Respects V g)
include hg

theorem even_typePhrase (lines : Reader.Lines) : i.Even (typePhrase g lines) := by
  refine sim_token.bind fun t t' h => ?_
  rw [h.kind, h.text]
  exact sim_typeRest TypeExpr.congruence_true hg.even lines t.kind t.text fun _ _ _ _ => trivial

theorem steady_block : i.Steady (block g) :=
  .bind even_symbol.discard fun _ =>
    .bind (Sim.terminated hg.statement).even.discard fun _ => even_symbol.discard

theorem steady_literalPhrase : i.Steady (literalPhrase g) := by
  have hitem : i.Steady (g.literal <|> g.expression .enclosed) :=
    hg.literal.orElse (hg.expression .enclosed)
  exact .bind even_symbol.discard fun _ =>
    .bind (Sim.commasOrNone (hitem.even.seqRight (even_symbol.before hitem.even).skip)).even.discard
      fun _ => even_symbol.discard

theorem steady_arguments (lines : Reader.Lines) : i.Steady (arguments g lines) :=
  .bind even_symbol.discard fun _ =>
    .bind (Sim.commasMayTrail ((hg.expression .enclosed).even.seqRight even_symbol.skip)).even.skip
      fun _ => even_symbol.discard

theorem steady_functionLiteral (hV : Congruence V) : i.Steady (functionLiteral g) :=
  .bind even_keyword.discard fun _ =>
    .bind (sim_signature hV hg .pass).even.discard fun _ => steady_block hg

theorem steady_allocation : i.Steady (allocation g) :=
  .bind (even_keyword.orElse even_keyword).discard fun _ => .bind even_symbol.discard fun _ =>
    .bind (hg.evenType .pass).discard fun _ =>
      .bind (even_symbol.seqRight (hg.expression .enclosed)).many.even.discard fun _ =>
        .bind even_symbol.skip fun _ => even_symbol.discard

theorem steady_countedArray : i.Steady (countedArray g) :=
  .bind even_symbol.discard fun _ => .bind even_symbol.discard fun _ =>
    .bind even_symbol.discard fun _ => (hg.evenType .pass).discard

theorem steady_parenthesized : i.Steady (Grammar.parenthesized g) :=
  .bind even_symbol.discard fun _ =>
    .orElse ((hg.expression .enclosed).even.seqRight even_symbol.discard)
      (((hg.evenType .pass).before even_symbol).seqRight (steady_arguments hg .pass))

theorem steady_selector (place : Place) (shape : OperandShape) :
    i.Steady (selector g place shape) :=
  .bind even_symbol.discard fun _ =>
    .orElse (steady_word.even.seqRight (.pure _))
      (((even_symbol.before (hg.evenType .pass)).before even_symbol).seqRight (.pure _))

theorem steady_furtherBounds : i.Steady (furtherBounds g) :=
  .bind even_symbol.discard fun _ =>
    ((hg.expression .enclosed).even.before
      (even_symbol.before (hg.expression .enclosed).even).skip.even).skip

theorem steady_index (place : Place) (shape : OperandShape) : i.Steady (index g place shape) := by
  have hsliced : i.Steady (furtherBounds g *> Reader.symbol "]" *> pure OperandShape.other) :=
    ((steady_furtherBounds hg).even.before even_symbol).seqRight (.pure _)
  exact .bind even_symbol.discard fun _ =>
    .orElse ((hg.expression .enclosed).even.seqRight
        (.orElse (even_symbol.seqRight (.pure _)) hsliced))
      (.orElse hsliced (((Sim.commasMayTrail (even_alternatives hg .pass)).even.before
        even_symbol).seqRight (.pure _)))

theorem steady_literalOf (place : Place) (shape : OperandShape) :
    i.Steady (literalOf g place shape) :=
  .ite (.bind even_symbol.ahead fun _ => .bind (steady_literalPhrase hg) fun _ => .pure _) .failure

theorem steady_typedOperand : i.Steady (typedOperand g) := by
  refine Sim.bind sim_peek fun t t' h => ?_
  simp only [h.isSymbol, h.isWord]
  exact Steady.ite (.bind (.orElse (even_typePhrase hg .pass).discard (steady_countedArray hg))
    fun _ => .ite (.orElse (steady_literalPhrase hg) (steady_arguments hg .pass))
      (steady_arguments hg .pass)) .failure

theorem steady_operand (hV : Congruence V) : i.Steady (operand g) := by
  have hliteral : i.Even (Reader.tokenIf .pass fun t =>
      t.kind == .number || t.kind == .quoted || t.kind == .rune) :=
    (sim_tokenIf .pass fun _ _ h => by rw [h.kind]).even
  have hother := hliteral.discard.orElse ((steady_functionLiteral hg hV).orElse
    ((steady_allocation hg).orElse ((steady_typedOperand hg).orElse (steady_parenthesized hg))))
  exact .orElse (hother.even.seqRight (.pure _)) (steady_wordExcept.even.seqRight (.pure _))

theorem steady_primary (hV : Congruence V) (place : Place) : i.Steady (primary g place) :=
  .bind (steady_operand hg hV) fun shape => Even.discard <| Steady.even <|
    .iterate (fun shape => .orElse (steady_selector hg place shape)
      (.orElse (steady_index hg place shape)
        (.orElse ((steady_arguments hg place.lines).even.seqRight (.pure _))
          (steady_literalOf hg place shape)))) shape

theorem steady_expressionPhrase (hV : Congruence V) (place : Place) :
    i.Steady (expressionPhrase g place) := by
  have hunary : i.Steady (unary g place) :=
    .bind (Sim.many sim_symbolIn).even.discard fun _ => steady_primary hg hV place
  exact (Sim.separated even_symbolIn hunary).even.discard

theorem steady_expressions (hV : Congruence V) (place : Place) : i.Steady (expressions g place) :=
  Sim.map (Sim.separated even_symbol (steady_expressionPhrase hg hV place)) fun _ _ h => h.length_eq

end Expressions

inductive SpecRel (V : TypeExpr → TypeExpr → Prop) : TypeSpec → TypeSpec → Prop
  | mk (name : String) (typeParams : List String) (isAlias : Bool) {t t' : TypeExpr} (h : V t t') :
      SpecRel V ⟨name, typeParams, isAlias, t⟩ ⟨name, typeParams, isAlias, t'⟩

theorem Sim.declared {α : Type} {U : α → α → Prop} {spec : Reader α} (h : i.Sim U spec spec)
    (word : String) : i.Sim (List.Forall₂ U) (declared word spec) (declared word spec) :=
  sim_keyword.seqRight (h.group.orElse (h.map fun _ _ hab => .cons hab .nil))

theorem sim_typeSpec (hg : i.Respects V g) : i.Sim (SpecRel V) (typeSpec g) (typeSpec g) := by
  refine Sim.bind steady_word fun name _ hname => ?_
  subst hname
  refine Sim.orElse
    ((Sim.seqRight even_symbol (hg.type .count)).map fun _ _ h => .mk name [] true h)
    (Sim.orElse ((hg.type .count).map fun _ _ h => .mk name [] false h) ?_)
  refine Sim.bind (Sim.map (steady_typeParameters hg) fun params _ hparams => ?_)
    fun make make' hmake => (hg.type .count).map hmake
  exact fun _ _ h => hparams ▸ .mk name params false h

theorem sim_typeDeclaration (hg : i.Respects V g) :
    i.Sim (List.Forall₂ (SpecRel V)) (typeDeclaration g) (typeDeclaration g) :=
  (sim_typeSpec hg).declared "type"

/-! ### Statements -/

section Statements

variable (hV : Congruence V) (hg : i.Respects V g)
include hV hg

theorem steady_values : i.Steady (values g) :=
  even_symbol.seqRight (steady_expressions hg hV .line).even.discard

theorem steady_variableSpec : i.Steady (variableSpec g) :=
  .bind (Sim.commas steady_word).even.discard fun _ =>
    .orElse ((hg.evenType .count).seqRight (steady_values hV hg).even.skip)
      (even_symbol.seqRight (steady_expressions hg hV .line).even.discard)

theorem steady_constantSpec : i.Steady (constantSpec g) :=
  .bind (Sim.commas steady_word).even.discard fun _ =>
    ((steady_sameLine.even.before (hg.evenType .count).skip.even).before
      (steady_values hV hg).even).skip

theorem steady_simpleStatement (place : Place) : i.Steady (simpleStatement g place) :=
  .bind (steady_expressions hg hV place) fun _ =>
    .orElse (even_symbolIn.seqRight (steady_expressions hg hV place).even.discard)
      (.ite (.orElse even_symbolIn.discard
        (.orElse (even_symbol.seqRight (steady_expressionPhrase hg hV place)) (.pure _))) .failure)

theorem steady_condition : i.Steady (condition g) := steady_expressionPhrase hg hV .header

theorem steady_ifStatement : i.Steady (ifStatement g) :=
  .bind even_keyword.discard fun _ =>
    .bind (.orElse (((steady_simpleStatement hV hg .header).even.before even_symbol).seqRight
      (steady_condition hV hg)) (steady_condition hV hg)) fun _ =>
      .bind (steady_block hg) fun _ => (even_keyword.before (Steady.even <|
        .orElse (steady_block hg) (even_keyword.ahead.even.seqRight hg.statement))).skip

theorem steady_rangeClause : i.Steady (rangeClause g) :=
  .bind ((steady_expressions hg hV .header).even.before even_symbolIn).skip fun _ =>
    .bind even_keyword.discard fun _ => steady_condition hV hg

theorem steady_forClause : i.Steady (forClause g) :=
  .bind even_keyword.notAhead fun _ =>
    .bind (steady_simpleStatement hV hg .header).even.skip fun _ =>
      .bind even_symbol.discard fun _ => .bind (steady_condition hV hg).even.skip fun _ =>
        .bind even_symbol.discard fun _ => (steady_simpleStatement hV hg .header).even.skip

theorem steady_forStatement : i.Steady (forStatement g) :=
  .bind even_keyword.discard fun _ =>
    .bind (Even.skip <| Steady.even <| .orElse (steady_rangeClause hV hg)
      (.orElse (steady_forClause hV hg)
        (even_keyword.notAhead.even.seqRight (steady_condition hV hg)))) fun _ => steady_block hg

omit hV in
theorem steady_clauses {label : Reader Unit} (hlabel : i.Steady label) :
    i.Steady (clauses g label) := by
  have hclause : i.Steady (do
      (Reader.keyword "case" *> label) <|> discard (Reader.keyword "default")
      discard <| Reader.symbol ":"
      discard <| Reader.terminated g.statement) :=
    .bind (.orElse (even_keyword.seqRight hlabel) even_keyword.discard) fun _ =>
      .bind even_symbol.discard fun _ => (Sim.terminated hg.statement).even.discard
  exact .bind even_symbol.discard fun _ => .bind hclause.many.even.discard fun _ =>
    even_symbol.discard

theorem steady_communication : i.Steady (communication g) := by
  have hexpression := steady_expressionPhrase hg hV .enclosed
  exact .orElse ((hexpression.even.before even_symbol).seqRight hexpression)
    (((steady_expressions hg hV .enclosed).even.before even_symbolIn).skip.even.seqRight
      hexpression)

omit hV in
theorem steady_labeledStatement : i.Steady (labeledStatement g) :=
  .bind steady_word.even.discard fun _ => .bind even_symbol.discard fun _ =>
    .orElse hg.statement (Even.ahead (Steady.even (.orElse even_symbol.discard
      (.orElse even_keyword.discard even_keyword.discard))))

omit hV hg in
theorem asksType_congr {tokens tokens' : List Token}
    (h : List.Forall₂ (i.Alike True) tokens tokens') : asksType tokens' = asksType tokens := by
  have htexts : (tokens'.filter fun t => !t.isNewline).map (·.text) =
      (tokens.filter fun t => !t.isNewline).map (·.text) := by
    induction h with
    | nil => rfl
    | cons halike _ ih =>
      rw [List.filter_cons, List.filter_cons, halike.isNewline]
      split
      · rw [List.map_cons, List.map_cons, halike.text, ih]
      · exact ih
  rw [asksType, asksType, htexts]

theorem steady_switchStatement : i.Steady (switchStatement g) := by
  have hheader : i.Steady
      ((expressions g .header *> Reader.symbol ":=" *> condition g *> pure true) <|>
        (Reader.skip (condition g) *> pure false)) :=
    .orElse ((((steady_expressions hg hV .header).even.before even_symbol).before
        (steady_condition hV hg).even).seqRight (.pure true))
      ((steady_condition hV hg).even.skip.even.seqRight (.pure false))
  refine .bind even_keyword.discard fun _ =>
    .bind ((steady_simpleStatement hV hg .header).even.before even_symbol).skip fun _ =>
      SimTo.after .const (U := fun x x' => x.1 = x'.1 ∧ asksType x'.2 = asksType x.2)
        ((SimTo.withTokens hheader).imp fun _ _ x x' hx => ?_) fun x x' hx => ?_
  · obtain ⟨hbinds, more, more', hmarked, hlength, -⟩ := hx
    exact ⟨hbinds, asksType_congr (hmarked.alike hlength fun _ _ => trivial)⟩
  · obtain ⟨binds, tokens⟩ := x
    obtain ⟨binds', tokens'⟩ := x'
    obtain ⟨rfl, hasks⟩ := hx
    show i.Sim Eq _ (if asksType tokens' then _ else _)
    rw [hasks]
    exact Steady.ite (steady_clauses hg (Sim.commas (hg.type .pass)).even.discard)
      (.ite .failure (steady_clauses hg (steady_expressions hg hV .enclosed).even.discard))

theorem steady_selectStatement : i.Steady (selectStatement g) :=
  .bind even_keyword.discard fun _ => steady_clauses hg (steady_communication hV hg)

theorem steady_statementPhrase : i.Steady (statementPhrase g) := by
  have hvariables := (Sim.declared (steady_variableSpec hV hg) "var").even
  have hconstants := (Sim.declared (steady_constantSpec hV hg) "const").even
  have hreturned : i.Steady (Reader.skip (Reader.sameLine .count *> expressions g .line)) :=
    (steady_sameLine.even.before (steady_expressions hg hV .line).even).skip
  refine Sim.bind sim_peek fun t t' h => ?_
  rw [h.kind, h.text]
  show i.Steady _
  split
  · exact (sim_typeDeclaration hg).even.discard
  · exact hvariables.discard
  · exact hconstants.discard
  · exact steady_ifStatement hV hg
  · exact steady_forStatement hV hg
  · exact steady_switchStatement hV hg
  · exact steady_selectStatement hV hg
  · exact even_keyword.seqRight hreturned
  · exact even_keyword.seqRight (steady_expressionPhrase hg hV .line)
  · exact even_keyword.seqRight (steady_expressionPhrase hg hV .line)
  · exact even_keyword.seqRight steady_word.even.skip
  · exact even_keyword.seqRight steady_word.even.skip
  · exact even_keyword.seqRight steady_word.even.discard
  · exact sim_token.even.discard
  · exact .failure
  · exact .failure
  · exact .orElse (steady_labeledStatement hg) (steady_simpleStatement hV hg .line)
  · exact sim_token.even.discard
  · exact steady_block hg
  · exact steady_simpleStatement hV hg .line

end Statements

/-- Phrases are read alike however deep they nest. -/
theorem respects_ofDepth (hV : Congruence V) (hhidden : i.OpensType → ∀ t, V t .unknown) (depth : Nat) :
    i.Respects V (ofDepth depth) := by
  induction depth with
  | zero => exact ⟨fun _ => .failure, fun _ => .failure, .failure, .failure⟩
  | succ depth ih =>
    exact ⟨sim_typePhrase hV hhidden ih, steady_expressionPhrase ih hV, steady_literalPhrase ih,
      steady_statementPhrase hV ih⟩

end Insertion

end GoUml.Go
