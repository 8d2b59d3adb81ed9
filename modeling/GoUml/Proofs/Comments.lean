import GoUml.Proofs.Receivers

/-!
# Comments in source files

A comment is put between two lexemes of a source text that can be read. The text with the comment
can be read as well, and it declares the same but for three things. Directly behind the star, the
tilde or the parenthesis that opens a type the comment hides the type; directly behind `package` it
is taken for the name of the package; and inside the type of a receiver it shows in the text of the
receiver or among its type parameters. Everywhere else the file is the same.
-/

namespace GoUml.Go

namespace Insertion

open Grammar
open TypeExpr (Congruence Masks)

variable {i : Insertion} {V : TypeExpr → TypeExpr → Prop} {g : Grammar}

def BehindPackage (i : Insertion) : Prop := ∃ t, i.spot.head? = some t ∧ t.isWord "package" = true

/-- The type of a receiver, by the number of tokens behind it and from its first one on: a method
can be read from some place on, and this is the receiver that counts. -/
inductive ReceiverType (i : Insertion) : Nat → Nat → Prop
  | intro {depth : Nat} {start : List Token} {receivers : List ParamGroup} {rest : List Token}
      {receiver : ParamGroup} {more : List Token} (hstart : start <:+ i.row)
      (hmethod : (methodDeclaration (ofDepth depth) start).isSome = true)
      (hreceivers : receiverList (ofDepth depth) start = some (receivers, rest))
      (hfind : receivers.find? (fun group => !group.variadic) = some receiver)
      (htype : receiver.typeTokens ++ more <:+ start) (hmore : rest <:+ more) :
      ReceiverType i more.length (receiver.typeTokens ++ more).length

/-- The comment stands inside the type of a receiver, with tokens of it in front and behind. -/
def InReceiver (i : Insertion) : Prop :=
  ∃ last first, i.ReceiverType last first ∧ last < i.behind.length ∧ i.behind.length < first

/-- The token that takes the comment up belongs to the type of a receiver. -/
def MasksReceiver (i : Insertion) : Prop :=
  ∃ last first, i.ReceiverType last first ∧ last < i.spot.length ∧ i.spot.length ≤ first

/-- The tokens of which the one in front of the comment has taken it up. -/
def masked (i : Insertion) : List Token → List Token
  | [] => []
  | t :: rest =>
    { t with comment := if t :: rest = i.spot then some i.comment else t.comment } :: i.masked rest

/-- The comment hides a type: it stands behind a symbol from which on a type can be read, and that
type counts, as part of a receiver or because the file is another one when it is masked. -/
def Hides (i : Insertion) : Prop :=
  i.OpensType ∧ (i.MasksReceiver ∨ file? (i.masked i.row) ≠ file? i.row)

def PackageRel (i : Insertion) (name name' : String) : Prop :=
  name' = name ∨ i.BehindPackage ∧ name' = i.comment

structure MethodSpecRel (i : Insertion) (V : TypeExpr → TypeExpr → Prop) (m m' : MethodSpec) :
    Prop where
  name : m'.name = m.name
  signature : SignatureRel V m.signature m'.signature
  receiver : i.ReceiverRel i.InReceiver i.MasksReceiver
    ⟨m.receiver, m.pointerReceiver, m.typeParams⟩ ⟨m'.receiver, m'.pointerReceiver, m'.typeParams⟩

inductive ItemRel (i : Insertion) (V : TypeExpr → TypeExpr → Prop) : Item → Item → Prop
  | packageClause {name name' : String} (h : i.PackageRel name name') :
      ItemRel i V (.packageClause name) (.packageClause name')
  | imports (specs : List ImportSpec) : ItemRel i V (.imports specs) (.imports specs)
  | types {specs specs' : List TypeSpec} (h : List.Forall₂ (SpecRel V) specs specs') :
      ItemRel i V (.types specs) (.types specs')
  | method {spec spec' : MethodSpec} (h : i.MethodSpecRel V spec spec') :
      ItemRel i V (.method spec) (.method spec')
  | other : ItemRel i V .other .other

theorem not_opensType (h : i.spot = []) : ¬i.OpensType := by
  rintro ⟨t, rest, depth, lines, hspot, -⟩
  rw [h] at hspot
  cases hspot

theorem not_hides (h : i.spot = []) : ¬i.Hides := fun hhides => not_opensType h hhides.1

theorem not_behindPackage (h : i.spot = []) : ¬i.BehindPackage := by
  rintro ⟨t, ht, -⟩
  rw [h] at ht
  cases ht

/-- Without functions there are no receivers. -/
theorem not_inReceiver (h : ∀ t ∈ i.row, t.isWord "func" = false) : ¬i.InReceiver := by
  rintro ⟨last, first, @⟨depth, start, receivers, rest, _, _, hstart, _, hreceivers, _, _, _⟩, -⟩
  have hfunc : (Reader.keyword "func" .pass start).isSome = true :=
    isSome_of_map (isSome_of_bind (Option.isSome_of_eq_some hreceivers))
  have hrow : Reader.dropNewlines start ⊆ i.row :=
    ((List.dropWhile_suffix Token.isNewline).trans hstart).subset
  simp only [Reader.keyword, Reader.tokenIf] at hfunc
  generalize Reader.dropNewlines start = tokens at hfunc hrow
  cases tokens with
  | nil => exact absurd hfunc Bool.false_ne_true
  | cons t tokens => simp [h t (hrow List.mem_cons_self)] at hfunc

theorem sim_packageClause : i.Sim (i.ItemRel V) packageClause packageClause := by
  refine Sim.bind (sim_tokenIf_taken .pass fun _ _ h => h.isWord "package") fun t t' ht =>
    Sim.bind steady_word fun name _ hname => .pure (.packageClause ?_)
  subst hname
  obtain hsame | ⟨hspot, hcomment⟩ := ht.comment
  · rw [hsame]
    exact .inl rfl
  · rw [hcomment]
    exact .inr ⟨⟨t, hspot, ht.holds⟩, rfl⟩

theorem steady_importSpec : i.Steady importSpec :=
  .bind (Steady.maybe (steady_word.orElse (Sim.map sim_symbol fun _ _ h => h.text.symm))) fun _ =>
    .bind steady_quoted fun _ => .pure _

theorem sim_importDeclaration : i.Sim (i.ItemRel V) importDeclaration importDeclaration := by
  have hspecs : i.Steady
      ((Reader.symbol "(" *> Reader.terminated importSpec <* Reader.symbol ")") <|>
        (fun s => [s]) <$> importSpec) :=
    .orElse (Even.seqLeft (even_symbol.seqRight (.of_forall₂ (Sim.terminated steady_importSpec)))
      even_symbol) steady_importSpec.map
  exact Sim.bind even_keyword.discard fun _ _ _ =>
    Sim.map hspecs fun specs _ h => h ▸ .imports specs

theorem Marked.suffix {ts ts' : List Token} (h : i.Marked ts ts') : ts <:+ i.row := by
  cases h with
  | nil => exact List.nil_suffix
  | cons hrow _ _ _ _ => exact hrow

theorem simTo_receiverList (hg : i.Respects V g) :
    i.SimTo (fun start rest => List.Forall₂ (i.GroupRel V (g.type .pass) start rest))
      (receiverList g) (receiverList g) :=
  .after lasting_forall₂_groupRel even_keyword.discard fun _ _ _ => simTo_paramGroups hg .pass

theorem sim_functionDeclaration (hV : Congruence V) (hg : i.Respects V g) :
    i.Sim (i.ItemRel V) (functionDeclaration g) (functionDeclaration g) :=
  Sim.bind even_keyword.discard fun _ _ _ => Sim.bind steady_word.even.discard fun _ _ _ =>
    Sim.bind (steady_typeParameters hg).even.skip fun _ _ _ =>
      Sim.bind (sim_signature hV hg .count).even.discard fun _ _ _ =>
        Sim.bind (steady_sameLine.even.before (steady_block hg).even).skip fun _ _ _ => .pure .other

section Method

variable (hV : Congruence V) (hg : i.Respects V g)
include hV hg

/-- What a method declaration reads behind its receivers. -/
theorem sim_methodRest {receivers receivers' : List ParamGroup} {U : Item → Item → Prop}
    (hitem : ∀ name s s', SignatureRel V s s' →
      U (methodItem receivers name s) (methodItem receivers' name s')) :
    i.Sim U
      (do
        let name ← Reader.wordExcept typeKeywords
        let signature ← signature g .count
        Reader.skip (Reader.sameLine .count *> block g)
        return methodItem receivers name signature)
      (do
        let name ← Reader.wordExcept typeKeywords
        let signature ← signature g .count
        Reader.skip (Reader.sameLine .count *> block g)
        return methodItem receivers' name signature) :=
  Sim.bind steady_wordExcept fun name _ hname =>
    Sim.bind (sim_signature hV hg .count) fun s s' hs =>
      Sim.bind (steady_sameLine.even.before (steady_block hg).even).skip fun _ _ _ =>
        .pure (hname ▸ hitem name s s' hs)

theorem even_methodDeclaration : i.Even (methodDeclaration g) :=
  Sim.bind ((simTo_receiverList hg).imp fun _ _ _ _ _ => trivial) fun _ _ _ =>
    sim_methodRest hV hg fun _ _ _ _ => trivial

end Method

theorem rel_methodItem {depth : Nat} {start : List Token} (hstart : start <:+ i.row)
    (hmethod : (methodDeclaration (ofDepth (depth + 1)) start).isSome = true)
    {receivers receivers' : List ParamGroup} {rest : List Token} (hrest : rest <:+ i.row)
    (hreceivers : receiverList (ofDepth (depth + 1)) start = some (receivers, rest))
    (hgroups : List.Forall₂ (i.GroupRel V ((ofDepth (depth + 1)).type .pass) start.length
      rest.length) receivers receivers') (name : String) {s s' : SignatureOf TypeExpr}
    (hs : SignatureRel V s s') :
    i.ItemRel V (methodItem receivers name s) (methodItem receivers' name s') := by
  have hfind := rel_find?_of_forall₂ hgroups (p := fun group => !group.variadic)
    (q := fun group => !group.variadic) fun _ _ h => by rw [h.variadic]
  rw [methodItem, methodItem]
  obtain ⟨hx, hx'⟩ | ⟨group, group', hx, hx', hgroup⟩ := rel_cases hfind
  · rw [hx, hx']
    exact .other
  · rw [hx, hx']
    obtain ⟨more, more', hmarked, hlength, hread, hfrom, hto⟩ := hgroup.tokens
    have hmore : more <:+ i.row := (List.suffix_append _ _).trans hmarked.suffix
    have htype : i.ReceiverType more.length (group.typeTokens ++ more).length :=
      .intro hstart hmethod hreceivers hx
        (List.suffix_of_suffix_length_le hmarked.suffix hstart hfrom)
        (List.suffix_of_suffix_length_le hrest hmore hto)
    exact .method ⟨rfl, hs, receiverRel_receiverOf hmarked hlength hread
      (fun hlong hshort => ⟨_, _, htype, hlong, hshort⟩)
      fun hlong hshort => ⟨_, _, htype, hlong, hshort⟩⟩

theorem sim_methodDeclaration (hV : Congruence V) {depth : Nat}
    (hg : i.Respects V (ofDepth (depth + 1))) :
    i.Sim (i.ItemRel V) (methodDeclaration (ofDepth (depth + 1)))
      (methodDeclaration (ofDepth (depth + 1))) := by
  intro ts ts' hts
  by_cases hmethod : (methodDeclaration (ofDepth (depth + 1)) ts).isSome = true
  · show Option.Rel _ ((receiverList _ ts).bind _) ((receiverList _ ts').bind _)
    obtain ⟨hx, hx'⟩ | ⟨x, x', hx, hx', hgroups, hmarked, hless⟩ :=
      rel_cases (simTo_receiverList hg ts ts' hts)
    · rw [hx, hx']
      exact .none
    · have hrest := sim_methodRest hV hg fun name s s' hs =>
        rel_methodItem hts.suffix hmethod hmarked.suffix hx hgroups name hs
      rw [hx, hx']
      exact hrest.within .const hmarked hless
  · -- Where no method can be read nothing is said about receivers.
    have hnone : methodDeclaration (ofDepth (depth + 1)) ts = none := by simpa using hmethod
    rw [hnone, eq_none_of_rel (even_methodDeclaration hV hg ts ts' hts) hnone]
    exact .none

section File

variable (hV : Congruence V) {depth : Nat} (hg : i.Respects V (ofDepth (depth + 1)))
include hV hg

theorem sim_openDeclaration :
    i.Sim (i.ItemRel V) (openDeclaration (ofDepth (depth + 1)))
      (openDeclaration (ofDepth (depth + 1))) :=
  sim_packageClause.orElse (sim_importDeclaration.orElse ((sim_methodDeclaration hV hg).orElse
    (sim_functionDeclaration hV hg)))

theorem sim_item :
    i.Sim (i.ItemRel V) (item (ofDepth (depth + 1))) (item (ofDepth (depth + 1))) := by
  have hopen := sim_openDeclaration hV hg
  have hstatement : i.Sim (i.ItemRel V) (statementPhrase (ofDepth (depth + 1)) *> pure .other)
      (statementPhrase (ofDepth (depth + 1)) *> pure .other) :=
    Sim.seqRight (steady_statementPhrase hV hg) (.pure .other)
  refine Sim.bind sim_peek fun t t' h => ?_
  simp only [h.isWord]
  split
  · exact hopen
  · split
    · exact (sim_typeDeclaration hg).map fun _ _ h => .types h
    · split
      · exact hopen.orElse hstatement
      · exact hstatement

theorem sim_items :
    i.Sim (List.Forall₂ (i.ItemRel V)) (items (ofDepth (depth + 1)))
      (items (ofDepth (depth + 1))) := by
  refine Sim.bind ((sim_item hV hg).seqLeft sim_terminator).many fun items items' hitems =>
    Sim.bind (sim_openDeclaration hV hg).maybe fun last last' hlast =>
      Sim.bind steady_atEnd fun _ _ _ => .pure (List.rel_append hitems ?_)
  cases hlast with
  | none => exact .nil
  | some h => exact .cons h .nil

end File

structure FileRel (i : Insertion) (V : TypeExpr → TypeExpr → Prop) (f f' : SourceFile) : Prop where
  package : i.PackageRel f.package f'.package
  imports : f'.imports = f.imports
  types : List.Forall₂ (SpecRel V) f.types f'.types
  methods : List.Forall₂ (i.MethodSpecRel V) f.methods f'.methods

theorem packageRel_getLastD {names names' : List String}
    (h : List.Forall₂ i.PackageRel names names') {name name' : String}
    (hname : i.PackageRel name name') :
    i.PackageRel (names.getLastD name) (names'.getLastD name') := by
  induction h generalizing name name' with
  | nil => exact hname
  | cons hfirst _ ih =>
    rw [List.getLastD_cons, List.getLastD_cons]
    exact ih hfirst

theorem fileRel_gather {items items' : List Item} (h : List.Forall₂ (i.ItemRel V) items items') :
    i.FileRel V (gather items) (gather items') where
  package := by
    refine packageRel_getLastD (List.rel_filterMap (fun _ _ h => ?_) h) (.inl rfl)
    cases h with
    | packageClause h => exact .some h
    | _ => exact .none
  imports := by
    refine congrArg List.flatten (eq_of_forall₂ (List.rel_filterMap (P := Eq) (fun _ _ h => ?_) h)
      fun _ _ => id).symm
    cases h with
    | imports specs => exact .some rfl
    | _ => exact .none
  types := by
    refine List.rel_flatten (List.rel_filterMap (fun _ _ h => ?_) h)
    cases h with
    | types h => exact .some h
    | _ => exact .none
  methods := by
    refine List.rel_filterMap (fun _ _ h => ?_) h
    cases h with
    | method h => exact .some h
    | _ => exact .none

theorem eq_of_specRel {spec spec' : TypeSpec} (h : SpecRel Eq spec spec') : spec = spec' := by
  obtain ⟨name, typeParams, isAlias, rfl⟩ := h
  rfl

theorem MethodSpecRel.eq {m m' : MethodSpec} (h : i.MethodSpecRel Eq m m') (hhides : ¬i.Hides)
    (hreceiver : ¬i.InReceiver) : m = m' := by
  obtain ⟨htext, hpointer, htypeParams⟩ := h.receiver.resolve_right fun hhidden =>
    hhides ⟨hhidden.1.1, .inl hhidden.1.2⟩
  obtain ⟨receiver, pointer, typeParams, name, signature⟩ := m
  obtain ⟨receiver', pointer', typeParams', name', signature'⟩ := m'
  cases h.name
  cases eq_of_signatureRel h.signature
  cases htext.eq hreceiver
  cases hpointer
  cases htypeParams.eq hreceiver
  rfl

theorem FileRel.eq {f f' : SourceFile} (h : i.FileRel Eq f f') (hhides : ¬i.Hides)
    (hpackage : ¬i.BehindPackage) (hreceiver : ¬i.InReceiver) : f' = f := by
  obtain ⟨package, imports, types, methods⟩ := f
  obtain ⟨package', imports', types', methods'⟩ := f'
  cases h.package.resolve_right fun hbehind => hpackage hbehind.1
  cases h.imports
  cases eq_of_forall₂ h.types fun _ _ => eq_of_specRel
  cases eq_of_forall₂ h.methods fun _ _ hm => hm.eq hhides hreceiver
  rfl

/-- A file can be read with the comment if and only if it can be read without. -/
theorem rel_file? (hV : Congruence V) (hhidden : i.OpensType → ∀ t, V t .unknown)
    {tokens tokens' : List Token} (h : i.Marked tokens tokens') :
    Option.Rel (i.FileRel V) (file? tokens) (file? tokens') := by
  rw [file?, file?, h.length_eq]
  exact rel_map (sim_items hV (respects_ofDepth hV hhidden _) _ _ h) fun _ _ hx =>
    fileRel_gather hx.1

/-! ### Masked types -/

theorem masked_of_length_lt {ts : List Token} (h : ts.length < i.spot.length) :
    i.masked ts = ts := by
  induction ts with
  | nil => rfl
  | cons t ts ih =>
    have hne : t :: ts ≠ i.spot := fun heq => by rw [heq] at h; exact lt_irrefl _ h
    rw [masked, if_neg hne, ih ((Nat.lt_succ_self _).trans h)]

theorem masked_suffix {ts row : List Token} (h : ts <:+ row) : i.masked ts <:+ i.masked row := by
  obtain ⟨front, rfl⟩ := h
  induction front with
  | nil => exact List.suffix_rfl
  | cons t front ih => exact ih.trans (List.suffix_cons _ _)

/-- The token in front of the comment has taken it up or not, and no other token has. -/
theorem Marked.comments_eq {ts ts' : List Token} (h : i.Marked ts ts') :
    ts'.map Token.comment = ts.map Token.comment ∨
      ts'.map Token.comment = (i.masked ts).map Token.comment := by
  induction h with
  | nil => exact .inl rfl
  | @cons t t' rest rest' hrow halike hgap hcomment hrest ih =>
    rw [List.map_cons, List.map_cons, masked, List.map_cons]
    by_cases hspot : t :: rest = i.spot
    · -- Behind this token nothing is masked.
      have hless : rest.length < i.spot.length := by rw [← hspot]; exact Nat.lt_succ_self _
      rw [masked_of_length_lt hless, or_self] at ih
      rw [masked_of_length_lt hless, if_pos hspot, ih]
      exact hcomment.imp (fun hsame => by rw [hsame]) fun htaken => by rw [htaken.2]
    · obtain hsame | ⟨hspot', -⟩ := hcomment
      · rw [hsame, if_neg hspot]
        exact ih.imp (congrArg _) (congrArg _)
      · exact absurd hspot' hspot

theorem Marked.of_untaken {ts ts' : List Token} (h : i.Marked ts ts')
    (hcomments : ts'.map Token.comment = ts.map Token.comment) :
    Marked { i with spot := [] } ts ts' := by
  induction h with
  | nil => exact .nil
  | cons hrow halike hgap _ _ ih =>
    obtain ⟨hfirst, hrest⟩ := List.cons.inj hcomments
    exact .cons hrow ⟨halike.kind, halike.text, halike.gap⟩ hgap (.inl hfirst) (ih hrest)

/-- The comment among the tokens of which one has taken it up already. -/
def besideMasked (i : Insertion) : Insertion where
  comment := i.comment
  row := i.masked i.row
  spot := []
  behind := i.masked i.behind

theorem Marked.of_taken {ts ts' : List Token} (h : i.Marked ts ts')
    (hcomments : ts'.map Token.comment = (i.masked ts).map Token.comment) :
    i.besideMasked.Marked (i.masked ts) ts' := by
  induction h with
  | nil => exact .nil
  | cons hrow halike hgap _ _ ih =>
    obtain ⟨hfirst, hrest⟩ := List.cons.inj hcomments
    exact .cons (masked_suffix hrow) ⟨halike.kind, halike.text, halike.gap⟩
      (hgap.imp_right (congrArg i.masked)) (.inl hfirst) (ih hrest)

/-- Which types and signatures two files have does not depend on where the comment is said to
stand. -/
theorem FileRel.of_types {j : Insertion} {f f' : SourceFile} (h : i.FileRel V f f')
    (htypes : j.FileRel Eq f f') : i.FileRel Eq f f' where
  package := h.package
  imports := h.imports
  types := htypes.types
  methods := by
    have hboth := h.methods
    have hsignatures := htypes.methods
    generalize f.methods = methods, f'.methods = methods' at hboth hsignatures
    induction hboth with
    | nil => exact .nil
    | cons hm _ ih =>
      obtain ⟨hm', hrest⟩ := List.forall₂_cons.1 hsignatures
      exact .cons ⟨hm.name, hm'.signature, hm.receiver⟩ (ih hrest)

/-- A comment that hides no type leaves the types as they are. -/
theorem fileRel_eq_of_not_hides {tokens' : List Token} {f f' : SourceFile}
    (hmarked : i.Marked i.row tokens') (hfile : file? i.row = some f)
    (hfile' : file? tokens' = some f') (hrel : i.FileRel V f f') (hhides : ¬i.Hides) :
    i.FileRel Eq f f' := by
  have hrelated : ∀ {j : Insertion} {tokens : List Token}, j.spot = [] → j.Marked tokens tokens' →
      file? tokens = some f → i.FileRel Eq f f' := by
    intro j tokens hspot hj htokens
    obtain ⟨f'', hf'', hsame⟩ := exists_of_rel (rel_file? TypeExpr.congruence_eq
      (fun hopens => absurd hopens (not_opensType hspot)) hj) htokens
    cases hfile'.symm.trans hf''
    exact hrel.of_types hsame
  obtain huntaken | htaken := hmarked.comments_eq
  · exact hrelated rfl (hmarked.of_untaken huntaken) hfile
  · by_cases hopens : i.OpensType
    · have hsame : file? (i.masked i.row) = file? i.row := by
        by_contra hdiffers
        exact hhides ⟨hopens, .inr hdiffers⟩
      exact hrelated rfl (hmarked.of_taken htaken) (hsame.trans hfile)
    · obtain ⟨f'', hf'', hsame⟩ := exists_of_rel (rel_file? TypeExpr.congruence_eq
        (fun h => absurd h hopens) hmarked) hfile
      cases hfile'.symm.trans hf''
      exact hsame

end Insertion

/-! ### Places between lexemes -/

namespace Lexeme

def isDropped (l : Lexeme) : Bool := l.kind == .comment || l.kind == .blank

def isIdle (l : Lexeme) : Bool := l.isDropped || l.kind == .newline

end Lexeme

namespace Token

theorem ofLexemesFrom_cons (nesting : Nesting) (gap : List Lexeme) (l : Lexeme)
    (rest : List Lexeme) :
    ofLexemesFrom nesting gap (l :: rest) =
      if l.isDropped then ofLexemesFrom nesting (if nesting.keepsGap then gap ++ [l] else gap) rest
      else ⟨l.kind, l.text, if mindsComments l then nextComment? rest else none, gap⟩ ::
        ofLexemesFrom (nesting.after l) [] rest := by
  obtain ⟨kind, text⟩ := l
  cases kind <;> rfl

def behind (rest : List Lexeme) (nesting : Nesting) (gap : List Lexeme) :
    List Lexeme → List Token
  | [] => ofLexemesFrom nesting gap rest
  | l :: front =>
    if l.isDropped then behind rest nesting (if nesting.keepsGap then gap ++ [l] else gap) front
    else behind rest (nesting.after l) [] front

variable {l : Lexeme} {idle after : List Lexeme}

theorem nextComment?_cons (l : Lexeme) (rest : List Lexeme) :
    nextComment? (l :: rest) =
      if l.kind == .comment then some l.text else if l.isIdle then nextComment? rest else none := by
  obtain ⟨kind, text⟩ := l
  cases kind <;> rfl

theorem nextComment?_token (hl : l.isIdle = false) (front rest rest' : List Lexeme) :
    nextComment? (front ++ l :: rest) = nextComment? (front ++ l :: rest') := by
  induction front with
  | nil =>
    rw [List.nil_append, List.nil_append, nextComment?_cons, nextComment?_cons, hl]
    rfl
  | cons first front ih =>
    rw [List.cons_append, List.cons_append, nextComment?_cons, nextComment?_cons, ih]

theorem nextComment?_idle (hidle : ∀ l ∈ idle, l.isIdle = true) (comment : String) :
    nextComment? (idle ++ ⟨.comment, comment⟩ :: after) =
      if idle.any (fun l => l.kind == .comment) then nextComment? (idle ++ after)
      else some comment := by
  induction idle with
  | nil => rfl
  | cons first idle ih =>
    rw [List.cons_append, List.cons_append, nextComment?_cons, nextComment?_cons,
      hidle first List.mem_cons_self, ih fun l hl => hidle l (List.mem_cons_of_mem _ hl),
      List.any_cons]
    cases first.kind == .comment <;> rfl

end Token

namespace Insertion

open Token

variable {i : Insertion} {nesting : Nesting} {gap gap' : List Lexeme} {l : Lexeme}
  {idle after front : List Lexeme}

theorem marked_after (hgap : Widened True i.lexeme gap gap')
    (hrow : ofLexemesFrom nesting gap after <:+ i.row)
    (hbehind : gap' = gap ∨ ofLexemesFrom nesting gap after = i.behind) :
    i.Marked (ofLexemesFrom nesting gap after) (ofLexemesFrom nesting gap' after) := by
  induction after generalizing nesting gap gap' with
  | nil => exact .nil
  | cons l after ih =>
    rw [ofLexemesFrom_cons] at hrow hbehind
    rw [ofLexemesFrom_cons, ofLexemesFrom_cons]
    split
    case isTrue hl =>
      rw [if_pos hl] at hrow hbehind
      cases hkept : nesting.keepsGap with
      | true =>
        simp only [hkept, if_true] at hrow hbehind ⊢
        exact ih (hgap.append (.refl _)) hrow (hbehind.imp_left fun h => by rw [h])
      | false =>
        simp only [hkept, Bool.false_eq_true, if_false] at hrow hbehind ⊢
        exact ih hgap hrow hbehind
    case isFalse hl =>
      rw [if_neg hl] at hrow hbehind
      exact .cons hrow ⟨rfl, rfl, hgap⟩ hbehind (.inl rfl)
        (ih .nil ((List.suffix_cons _ _).trans hrow) (.inl rfl))

theorem marked_idle (hidle : ∀ l ∈ idle, l.isIdle = true)
    (hrow : ofLexemesFrom nesting gap (idle ++ after) <:+ i.row)
    (hbehind : Token.behind after nesting gap idle = i.behind) :
    i.Marked (ofLexemesFrom nesting gap (idle ++ after))
      (ofLexemesFrom nesting gap (idle ++ i.lexeme :: after)) := by
  induction idle generalizing nesting gap with
  | nil =>
    have hdropped : i.lexeme.isDropped = true := rfl
    rw [List.nil_append, List.nil_append, ofLexemesFrom_cons _ _ i.lexeme, if_pos hdropped]
    split
    · have hwidened : Widened True i.lexeme (gap ++ []) (gap ++ [i.lexeme]) :=
        .append (.refl gap) (.put trivial .nil)
      rw [List.append_nil] at hwidened
      exact marked_after hwidened hrow (.inr hbehind)
    · exact marked_after (.refl _) hrow (.inl rfl)
  | cons l idle ih =>
    have hrest : ∀ l ∈ idle, l.isIdle = true := fun l hl => hidle l (List.mem_cons_of_mem _ hl)
    rw [Token.behind] at hbehind
    rw [List.cons_append, ofLexemesFrom_cons] at hrow
    rw [List.cons_append, List.cons_append, ofLexemesFrom_cons, ofLexemesFrom_cons]
    split
    case isTrue hl =>
      rw [if_pos hl] at hrow hbehind
      exact ih hrest hrow hbehind
    case isFalse hl =>
      rw [if_neg hl] at hrow hbehind
      have hkind : l.kind = .newline := by
        simpa [Lexeme.isIdle, hl] using hidle l List.mem_cons_self
      have hminds : mindsComments l = false := by
        rw [mindsComments, hkind]
        rfl
      rw [hminds] at hrow ⊢
      exact .cons hrow ⟨rfl, rfl, .refl _⟩ (.inl rfl) (.inl rfl)
        (ih hrest ((List.suffix_cons _ _).trans hrow) hbehind)

theorem marked_front (hl : l.isIdle = false) (hidle : ∀ l ∈ idle, l.isIdle = true)
    (hrow : ofLexemesFrom nesting gap (front ++ l :: (idle ++ after)) <:+ i.row)
    (hspot : (mindsComments l && !idle.any fun l => l.kind == .comment) = true →
      Token.behind (l :: (idle ++ after)) nesting gap front = i.spot)
    (hbehind : Token.behind after nesting gap (front ++ l :: idle) = i.behind) :
    i.Marked (ofLexemesFrom nesting gap (front ++ l :: (idle ++ after)))
      (ofLexemesFrom nesting gap (front ++ l :: (idle ++ i.lexeme :: after))) := by
  induction front generalizing nesting gap with
  | nil =>
    have hdropped : l.isDropped = false := by
      rw [Lexeme.isIdle, Bool.or_eq_false_iff] at hl
      exact hl.1
    rw [List.nil_append, Token.behind, hdropped] at hbehind
    rw [List.nil_append, ofLexemesFrom_cons, hdropped] at hrow
    rw [List.nil_append, List.nil_append, ofLexemesFrom_cons, ofLexemesFrom_cons, hdropped]
    refine .cons hrow ⟨rfl, rfl, .refl _⟩ (.inl rfl) ?_
      (marked_idle hidle ((List.suffix_cons _ _).trans hrow) hbehind)
    rw [Token.behind, ofLexemesFrom_cons, hdropped] at hspot
    -- This token takes the comment up if it minds comments and has none yet.
    cases hminds : mindsComments l with
    | false => exact .inl rfl
    | true =>
      have hnext : nextComment? (idle ++ i.lexeme :: after) = _ := nextComment?_idle hidle i.comment
      rw [hminds] at hspot
      cases hany : idle.any fun l => l.kind == .comment with
      | true =>
        rw [hany] at hnext
        exact .inl hnext
      | false =>
        rw [hany] at hspot hnext
        exact .inr ⟨hspot rfl, hnext⟩
  | cons first front ih =>
    rw [List.cons_append, ofLexemesFrom_cons] at hrow
    rw [List.cons_append, Token.behind] at hbehind
    rw [Token.behind] at hspot
    rw [List.cons_append, List.cons_append, ofLexemesFrom_cons, ofLexemesFrom_cons]
    split
    case isTrue hfirst =>
      simp only [hfirst, if_true] at hrow hspot hbehind
      exact ih hrow hspot hbehind
    case isFalse hfirst =>
      simp only [hfirst] at hrow hspot hbehind
      -- Between any earlier token and the comment stands `l`.
      rw [nextComment?_token hl front (idle ++ i.lexeme :: after) (idle ++ after)]
      exact .cons hrow ⟨rfl, rfl, .refl _⟩ (.inl rfl) (.inl rfl)
        (ih ((List.suffix_cons _ _).trans hrow) hspot hbehind)

end Insertion

/-- A place between two lexemes of a source text. -/
structure Gap where
  front : List Lexeme
  /-- The last word, literal or symbol in front of the place. -/
  token : Lexeme
  /-- What stands between that and the place. -/
  idle : List Lexeme
  after : List Lexeme
  token_isIdle : token.isIdle = false
  idle_isIdle : ∀ l ∈ idle, l.isIdle = true

namespace Gap

def lexemes (gap : Gap) : List Lexeme := gap.front ++ gap.token :: (gap.idle ++ gap.after)

def lexemesWith (gap : Gap) (comment : String) : List Lexeme :=
  gap.front ++ gap.token :: (gap.idle ++ ⟨.comment, comment⟩ :: gap.after)

/-- The comment is looked at if it is the first behind a token that minds comments. -/
def insertion (gap : Gap) (comment : String) : Insertion where
  comment := comment
  row := Token.ofLexemes gap.lexemes
  spot :=
    if Token.mindsComments gap.token && !gap.idle.any (fun l => l.kind == .comment) then
      Token.behind (gap.token :: (gap.idle ++ gap.after)) .outside [] gap.front
    else []
  behind := Token.behind gap.after .outside [] (gap.front ++ gap.token :: gap.idle)

theorem marked (gap : Gap) (comment : String) :
    (gap.insertion comment).Marked (Token.ofLexemes gap.lexemes)
      (Token.ofLexemes (gap.lexemesWith comment)) :=
  Insertion.marked_front (i := gap.insertion comment) gap.token_isIdle gap.idle_isIdle
    List.suffix_rfl (fun hspot => (if_pos hspot).symm) rfl

end Gap

/-! ### Source texts -/

theorem SourceFile.parse_eq_ok_iff {text : String} {f : SourceFile} :
    SourceFile.parse text = .ok f ↔
      (Token.ofText? text).bind Grammar.file? = some f ∧ f.package ≠ "" := by
  rw [SourceFile.parse]
  cases (Token.ofText? text).bind Grammar.file? with
  | none => simp
  | some file =>
    dsimp only
    split
    case isTrue hempty =>
      simp only [reduceCtorEq, Option.some.injEq, false_iff, not_and, not_not]
      exact fun heq => heq ▸ beq_iff_eq.1 hempty
    case isFalse hnamed =>
      simp only [Except.ok.injEq, Option.some.injEq, iff_self_and]
      exact fun heq hempty => hnamed (beq_iff_eq.2 (heq ▸ hempty))

namespace Gap

/-- A source text with a general comment put in declares what it declares without it, but for the
types that the comment hides, a package name that it takes the place of and receivers that it shows
in. -/
theorem parse_commented (gap : Gap) {text text' comment body : String} {f : SourceFile}
    (hcomment : comment = "/*" ++ body ++ "*/")
    (htext : Lexeme.ofText? text = some gap.lexemes)
    (htext' : Lexeme.ofText? text' = some (gap.lexemesWith comment))
    (hparse : SourceFile.parse text = .ok f) :
    ∃ f', SourceFile.parse text' = .ok f' ∧
      (gap.insertion comment).FileRel TypeExpr.Masks f f' ∧
      (¬(gap.insertion comment).Hides → (gap.insertion comment).FileRel Eq f f') ∧
      (¬(gap.insertion comment).Hides → ¬(gap.insertion comment).BehindPackage →
        ¬(gap.insertion comment).InReceiver → f' = f) := by
  obtain ⟨hfile, hnamed⟩ := SourceFile.parse_eq_ok_iff.1 hparse
  rw [Token.ofText?, htext] at hfile
  have hmasked := Insertion.rel_file? TypeExpr.congruence_masks (fun _ => .hidden)
    (gap.marked comment)
  obtain ⟨f', hfile', hrel⟩ := exists_of_rel hmasked hfile
  have htokens' : Grammar.file? (Token.ofLexemes (gap.lexemesWith comment)) = some f' := hfile'
  have hsame := fun hhides =>
    Insertion.fileRel_eq_of_not_hides (gap.marked comment) hfile htokens' hrel hhides
  refine ⟨f', SourceFile.parse_eq_ok_iff.2 ⟨?_, ?_⟩, hrel, hsame,
    fun hhides hpackage hreceiver => (hsame hhides).eq hhides hpackage hreceiver⟩
  · rw [Token.ofText?, htext']
    exact hfile'
  · obtain hpackage | ⟨-, hpackage⟩ := hrel.package
    · rwa [hpackage]
    · rw [hpackage]
      show comment ≠ ""
      rw [hcomment]
      simp

def behindOpening (opening : List Lexeme) (token : Lexeme) (htoken : token.isIdle = false) :
    Gap where
  front := [⟨.word, "package"⟩, ⟨.blank, " "⟩, ⟨.word, "shop"⟩, ⟨.newline, "\n"⟩, ⟨.word, "type"⟩,
    ⟨.blank, " "⟩, ⟨.word, "Price"⟩, ⟨.blank, " "⟩] ++ opening
  token := token
  idle := []
  after := [⟨.word, "Coin"⟩, ⟨.newline, "\n"⟩]
  token_isIdle := htoken
  idle_isIdle := by simp

/-- The place behind the parenthesis of a parameter list, which opens no type. -/
def behindParenthesis : Gap where
  front := [⟨.word, "package"⟩, ⟨.blank, " "⟩, ⟨.word, "shop"⟩, ⟨.newline, "\n"⟩, ⟨.word, "func"⟩,
    ⟨.blank, " "⟩, ⟨.word, "Pay"⟩]
  token := ⟨.symbol, "("⟩
  idle := []
  after := [⟨.word, "Coin"⟩, ⟨.symbol, ")"⟩, ⟨.newline, "\n"⟩]
  token_isIdle := rfl
  idle_isIdle := by simp

theorem not_receiverType_parameter {last first : Nat} :
    ¬(behindParenthesis.insertion "/* sum */").ReceiverType last first := by
  rintro @⟨depth, start, receivers, rest, _, _, hstart, _, hreceivers, _, _, _⟩
  -- Behind `func` stands a name, wherever one starts to read.
  have hnone : ∀ start ∈ (behindParenthesis.insertion "/* sum */").row.tails,
      Grammar.receiverList (Grammar.ofDepth depth) start = none := by
    simp only [insertion, behindParenthesis, lexemes]
    repeat first | exact List.forall_mem_nil _ | refine List.forall_mem_cons.2 ⟨rfl, ?_⟩
  rw [hnone start ((List.mem_tails _ _).2 hstart)] at hreceivers
  cases hreceivers

theorem exists_of_isOk {text : String} (h : (SourceFile.parse text).isOk = true) :
    ∃ f, SourceFile.parse text = .ok f := by
  cases hparse : SourceFile.parse text with
  | error e => rw [hparse] at h; exact absurd h Bool.false_ne_true
  | ok f => exact ⟨f, rfl⟩

/-- A comment behind the brackets of a slice type leaves the file as it is, and so does one behind
the parenthesis of a parameter list. -/
theorem parse_commented_slice :
    SourceFile.parse "package shop\ntype Price []/* all */Coin\n" =
      SourceFile.parse "package shop\ntype Price []Coin\n" ∧
    SourceFile.parse "package shop\nfunc Pay(/* sum */Coin)\n" =
      SourceFile.parse "package shop\nfunc Pay(Coin)\n" := by
  constructor
  · obtain ⟨f, hparse⟩ : ∃ f, SourceFile.parse "package shop\ntype Price []Coin\n" = .ok f :=
      exists_of_isOk (by decide +kernel)
    have htext : Lexeme.ofText? "package shop\ntype Price []Coin\n" =
        some (behindOpening [⟨.symbol, "["⟩] ⟨.symbol, "]"⟩ rfl).lexemes := by
      decide +kernel
    have htext' : Lexeme.ofText? "package shop\ntype Price []/* all */Coin\n" =
        some ((behindOpening [⟨.symbol, "["⟩] ⟨.symbol, "]"⟩ rfl).lexemesWith "/* all */") := by
      decide +kernel
    have hcomment : "/* all */" = "/*" ++ " all " ++ "*/" := rfl
    obtain ⟨f', hparse', -, -, hsame⟩ := parse_commented _ hcomment htext htext' hparse
    rw [hparse, hparse', hsame (Insertion.not_hides rfl) (Insertion.not_behindPackage rfl)
      (Insertion.not_inReceiver (by decide +kernel))]
  · obtain ⟨f, hparse⟩ : ∃ f, SourceFile.parse "package shop\nfunc Pay(Coin)\n" = .ok f :=
      exists_of_isOk (by decide +kernel)
    have htext : Lexeme.ofText? "package shop\nfunc Pay(Coin)\n" =
        some behindParenthesis.lexemes := by
      decide +kernel
    have htext' : Lexeme.ofText? "package shop\nfunc Pay(/* sum */Coin)\n" =
        some (behindParenthesis.lexemesWith "/* sum */") := by
      decide +kernel
    have hcomment : "/* sum */" = "/*" ++ " sum " ++ "*/" := rfl
    have hhides : ¬(behindParenthesis.insertion "/* sum */").Hides := by
      rintro ⟨-, ⟨_, _, htype, -⟩ | hdiffers⟩
      · exact not_receiverType_parameter htype
      · exact hdiffers rfl
    obtain ⟨f', hparse', -, -, hsame⟩ := parse_commented _ hcomment htext htext' hparse
    rw [hparse, hparse', hsame hhides (fun ⟨t, ht, hpackage⟩ => by cases ht; cases hpackage)
      fun ⟨_, _, htype, _⟩ => not_receiverType_parameter htype]

/-- A comment behind the star of a pointer type hides what it points to. -/
theorem comment_hides_pointee :
    ¬ ∀ (gap : Gap) (text text' comment body : String) (f : SourceFile),
      comment = "/*" ++ body ++ "*/" → Lexeme.ofText? text = some gap.lexemes →
      Lexeme.ofText? text' = some (gap.lexemesWith comment) → SourceFile.parse text = .ok f →
      SourceFile.parse text' = .ok f := by
  intro h
  have hplain : (SourceFile.parse "package shop\ntype Price *Coin\n").toOption.map
      (fun f => f.types.map fun spec => spec.type.embeddedName) = some ["Coin"] := by
    decide +kernel
  have hhidden : (SourceFile.parse "package shop\ntype Price */* one */Coin\n").toOption.map
      (fun f => f.types.map fun spec => spec.type.embeddedName) = some [""] := by
    decide +kernel
  cases hparse : SourceFile.parse "package shop\ntype Price *Coin\n" with
  | error e =>
    rw [hparse] at hplain
    cases hplain
  | ok f =>
    have hsame := h (behindOpening [] ⟨.symbol, "*"⟩ rfl) _
      "package shop\ntype Price */* one */Coin\n" "/* one */" " one " f rfl (by decide +kernel)
      (by decide +kernel) hparse
    rw [hsame, ← hparse, hplain] at hhidden
    exact absurd hhidden (by decide)

end Gap

end GoUml.Go
