import GoUml.Proofs.Phrases

/-!
# Receivers around a comment

A method shows the text of its receiver's type, so the receiver is where a comment can come to light
that hides nothing. Behind a star or a parenthesis of the type it takes the place of the type;
anywhere else the text of the type, or a list of its arguments, has it in addition.
-/

namespace GoUml.Go

/-- A text and what may become of it when the comment can show in it. -/
inductive Shows (allowed : Prop) (comment : String) : String → String → Prop
  | same (s : String) : Shows allowed comment s s
  | here (hallowed : allowed) : Shows allowed comment "" comment
  | append {s s' t t' : String} (hs : Shows allowed comment s s')
      (ht : Shows allowed comment t t') :
      Shows allowed comment (s ++ t) (s' ++ t')

/-- Texts and what may become of them when the comment can show in each of them and between them. -/
inductive ShowsAmong (allowed : Prop) (comment : String) : List String → List String → Prop
  | nil : ShowsAmong allowed comment [] []
  | cons {s s' : String} {texts texts' : List String} (hs : Shows allowed comment s s')
      (h : ShowsAmong allowed comment texts texts') :
      ShowsAmong allowed comment (s :: texts) (s' :: texts')
  | here (hallowed : allowed) {texts texts' : List String}
      (h : ShowsAmong allowed comment texts texts') :
      ShowsAmong allowed comment texts (comment :: texts')

section Texts

variable {allowed : Prop} {comment : String} {s s' : String} {texts texts' more more' : List String}

theorem Shows.eq (h : Shows allowed comment s s') (hallowed : ¬allowed) : s' = s := by
  induction h with
  | same s => rfl
  | here h => exact absurd h hallowed
  | append _ _ ihs iht => rw [ihs, iht]

theorem ShowsAmong.eq (h : ShowsAmong allowed comment texts texts') (hallowed : ¬allowed) :
    texts' = texts := by
  induction h with
  | nil => rfl
  | cons hs _ ih => rw [hs.eq hallowed, ih]
  | here h _ _ => exact absurd h hallowed

theorem ShowsAmong.append (h : ShowsAmong allowed comment texts texts')
    (hmore : ShowsAmong allowed comment more more') :
    ShowsAmong allowed comment (texts ++ more) (texts' ++ more') := by
  induction h with
  | nil => exact hmore
  | cons hs _ ih => exact .cons hs ih
  | here h _ ih => exact .here h ih

theorem ShowsAmong.flatMap {α : Type} {R : α → α → Prop} {f : α → List String} {l l' : List α}
    (h : List.Forall₂ R l l') (hf : ∀ a b, R a b → ShowsAmong allowed comment (f a) (f b)) :
    ShowsAmong allowed comment (l.flatMap f) (l'.flatMap f) := by
  induction h with
  | nil => exact .nil
  | cons hab _ ih =>
    rw [List.flatMap_cons, List.flatMap_cons]
    exact (hf _ _ hab).append ih

end Texts

namespace Insertion

open Grammar

variable {i : Insertion} {shown masked : Prop} {t t' : Token} {ts ts' : List Token}

theorem Alike.shows_gapText (h : i.Alike shown t t') :
    Shows shown i.comment t.gapText t'.gapText := by
  have hgap := h.gap
  rw [Token.gapText, Token.gapText]
  generalize t.gap = gap, t'.gap = gap' at hgap
  induction hgap with
  | nil => exact .same ""
  | cons l _ ih => exact .append (.same l.text) ih
  | put hshown _ ih =>
    have happend := Shows.append (.here hshown) ih
    rwa [String.empty_append] at happend

theorem Alike.showsAmong_gapComments (h : i.Alike shown t t') :
    ShowsAmong shown i.comment t.gapComments t'.gapComments := by
  have hgap := h.gap
  rw [Token.gapComments, Token.gapComments]
  generalize t.gap = gap, t'.gap = gap' at hgap
  induction hgap with
  | nil => exact .nil
  | cons l _ ih =>
    rw [List.filter_cons, List.filter_cons]
    split
    · exact .cons (.same _) ih
    · exact ih
  | put hshown _ ih => exact .here hshown ih

theorem shows_sourceText (h : List.Forall₂ (i.Alike shown) ts ts') :
    Shows shown i.comment (Token.sourceText ts) (Token.sourceText ts') := by
  cases h with
  | nil => exact .same ""
  | cons hfirst hrest =>
    rw [Token.sourceText, Token.sourceText, hfirst.text]
    refine .append (.same _) ?_
    induction hrest with
    | nil => exact .same ""
    | cons h _ ih =>
      rw [List.foldr_cons, List.foldr_cons, h.text]
      exact .append (.append h.shows_gapText (.same _)) ih

theorem alike_joinLines (h : List.Forall₂ (i.Alike shown) ts ts') {gap gap' : List Lexeme}
    (hgap : Widened shown i.lexeme gap gap') :
    List.Forall₂ (i.Alike shown) (joinLines gap ts) (joinLines gap' ts') := by
  induction h generalizing gap gap' with
  | nil => exact .nil
  | @cons t t' _ _ hfirst _ ih =>
    rw [joinLines, joinLines, hfirst.isNewline, hfirst.kind, hfirst.text]
    split
    · exact ih ((hgap.append hfirst.gap).append (.refl _))
    · exact .cons ⟨rfl, rfl, hgap.append hfirst.gap⟩ (ih .nil)

theorem depthAfter_congr (h : i.Alike shown t t') (depth : Nat) :
    depthAfter depth t' = depthAfter depth t := by
  simp only [depthAfter, h.isSymbol]

theorem alike_cutAfter (h : List.Forall₂ (i.Alike shown) ts ts') (separator : String)
    (depth : Nat) :
    List.Forall₂ (List.Forall₂ (i.Alike shown)) (cutAfter separator depth ts)
      (cutAfter separator depth ts') := by
  induction h generalizing depth with
  | nil => exact .nil
  | @cons t t' rest rest' hfirst hrest ih =>
    rw [cutAfter, cutAfter, hfirst.isSymbol, depthAfter_congr hfirst]
    split
    · exact .cons (.cons hfirst .nil) (ih _)
    · have hpieces := ih (depthAfter depth t)
      generalize cutAfter separator (depthAfter depth t) rest = pieces,
        cutAfter separator (depthAfter depth t) rest' = pieces' at hpieces
      cases hpieces with
      | nil => exact .cons (.cons hfirst .nil) .nil
      | cons hpiece hmore => exact .cons (.cons hfirst hpiece) hmore

theorem showsAmong_gapComments_getLast? (h : List.Forall₂ (i.Alike shown) ts ts') :
    ShowsAmong shown i.comment ((ts.getLast?.map Token.gapComments).getD [])
      ((ts'.getLast?.map Token.gapComments).getD []) := by
  induction h with
  | nil => exact .nil
  | cons hfirst hrest ih =>
    cases hrest with
    | nil => exact hfirst.showsAmong_gapComments
    | cons hsecond hrest =>
      rw [List.getLast?_cons_cons, List.getLast?_cons_cons]
      exact ih

theorem alike_dropLast (h : List.Forall₂ (i.Alike shown) ts ts') :
    List.Forall₂ (i.Alike shown) ts.dropLast ts'.dropLast := by
  rw [List.dropLast_eq_take, List.dropLast_eq_take, h.length_eq]
  exact List.forall₂_take _ h

theorem showsAmong_argumentNames (h : List.Forall₂ (i.Alike shown) ts ts') :
    ShowsAmong shown i.comment (argumentNames ts) (argumentNames ts') := by
  have halternative : List.Forall₂ (i.Alike shown) ((cutAfter "|" 0 ts).headD [])
      ((cutAfter "|" 0 ts').headD []) := by
    have hpieces := alike_cutAfter h "|" 0
    generalize cutAfter "|" 0 ts = pieces, cutAfter "|" 0 ts' = pieces' at hpieces
    cases hpieces with
    | nil => exact .nil
    | cons hpiece _ => exact hpiece
  cases h with
  | nil => exact .nil
  | cons hfirst hmore =>
    cases hmore with
    | nil => exact hfirst.showsAmong_gapComments
    | cons hsecond hrest =>
      exact hfirst.showsAmong_gapComments.append (.cons
        (shows_sourceText (alike_dropLast halternative))
        (showsAmong_gapComments_getLast? (.cons hsecond hrest)))

/-! ### Receivers -/

theorem alike_span {p : Token → Bool} (hp : ∀ t t', i.Alike shown t t' → p t' = p t)
    (h : List.Forall₂ (i.Alike shown) ts ts') :
    List.Forall₂ (i.Alike shown) (ts.takeWhile p) (ts'.takeWhile p) ∧
      List.Forall₂ (i.Alike shown) (ts.dropWhile p) (ts'.dropWhile p) := by
  induction h with
  | nil => exact ⟨.nil, .nil⟩
  | @cons t t' _ _ hfirst hrest ih =>
    rw [List.takeWhile_cons, List.takeWhile_cons, List.dropWhile_cons, List.dropWhile_cons,
      hp t t' hfirst]
    split
    · exact ⟨.cons hfirst ih.1, ih.2⟩
    · exact ⟨.nil, .cons hfirst hrest⟩

theorem all_congr {p : Token → Bool} (hp : ∀ t t', i.Alike shown t t' → p t' = p t)
    (h : List.Forall₂ (i.Alike shown) ts ts') : ts'.all p = ts.all p := by
  induction h with
  | nil => rfl
  | cons hfirst _ ih => rw [List.all_cons, List.all_cons, hp _ _ hfirst, ih]

theorem rel_genericParts? (h : List.Forall₂ (i.Alike shown) ts ts') :
    Option.Rel (fun x x' => List.Forall₂ (i.Alike shown) x.1 x'.1 ∧
      List.Forall₂ (i.Alike shown) x.2 x'.2) (genericParts? ts) (genericParts? ts') := by
  have hopen := alike_span (fun t t' h => by rw [h.isSymbol])
    h (p := fun t => !t.isSymbol "[")
  unfold genericParts?
  dsimp only
  generalize ts.takeWhile (fun t => !t.isSymbol "[") = base,
    ts'.takeWhile (fun t => !t.isSymbol "[") = base',
    ts.dropWhile (fun t => !t.isSymbol "[") = rest,
    ts'.dropWhile (fun t => !t.isSymbol "[") = rest' at hopen
  obtain ⟨hbase, hrest⟩ := hopen
  have hall := all_congr (fun t t' h => by rw [h.kind, h.isSymbol]) hbase
    (p := fun t => t.kind == .word || t.isSymbol ".")
  cases hbase with
  | nil => exact .none
  | cons hfirst hmore =>
    cases hrest with
    | nil => exact .none
    | cons hbracket harguments =>
      dsimp only [List.head?_cons]
      rw [hall, hfirst.kind, hfirst.text]
      split
      · exact .some ⟨.cons hfirst hmore, harguments⟩
      · exact .none

/-- Receivers that the comment can show in. -/
structure ReceiverShows (i : Insertion) (shown : Prop) (r r' : Receiver) : Prop where
  text : Shows shown i.comment r.text r'.text
  pointer : r'.pointer = r.pointer
  typeParams : ShowsAmong shown i.comment r.typeParams r'.typeParams

theorem receiverShows_plainReceiver (h : List.Forall₂ (i.Alike shown) ts ts') :
    i.ReceiverShows shown (plainReceiver ts) (plainReceiver ts') := by
  have hjoined := alike_joinLines h .nil
  rw [plainReceiver, plainReceiver]
  obtain ⟨hx, hx'⟩ | ⟨x, x', hx, hx', hbase, harguments⟩ := rel_cases (rel_genericParts? hjoined)
  · rw [hx, hx']
    exact ⟨shows_sourceText hjoined, rfl, .nil⟩
  · rw [hx, hx']
    exact ⟨shows_sourceText hbase, rfl,
      .flatMap (alike_cutAfter harguments "," 0) fun _ _ => showsAmong_argumentNames⟩

theorem ReceiverShows.refl (r : Receiver) : i.ReceiverShows shown r r := by
  have hparams : ∀ texts : List String, ShowsAmong shown i.comment texts texts := by
    intro texts
    induction texts with
    | nil => exact .nil
    | cons s _ ih => exact .cons (.same s) ih
  exact ⟨.same _, rfl, hparams _⟩

theorem dropNewlines_append (ts more : List Token) :
    Reader.dropNewlines (Reader.dropNewlines ts ++ more) = Reader.dropNewlines (ts ++ more) := by
  induction ts with
  | nil => rfl
  | cons t ts ih =>
    rw [Reader.dropNewlines, Reader.dropNewlines, Reader.dropNewlines, List.cons_append,
      List.dropWhile_cons, List.dropWhile_cons]
    split
    · exact ih
    · rw [List.cons_append, List.dropWhile_cons]
      rw [if_neg (by assumption)]

theorem Marked.dropNewlines_append {more more' : List Token}
    (h : i.Marked (ts ++ more) (ts' ++ more')) (hlength : ts'.length = ts.length) :
    i.Marked (Reader.dropNewlines ts ++ more) (Reader.dropNewlines ts' ++ more') ∧
      (Reader.dropNewlines ts').length = (Reader.dropNewlines ts).length := by
  induction ts generalizing ts' with
  | nil =>
    cases List.length_eq_zero_iff.1 hlength
    exact ⟨h, rfl⟩
  | cons t ts ih =>
    obtain ⟨t', ts', rfl⟩ := List.exists_cons_of_length_eq_add_one hlength
    rw [List.cons_append, List.cons_append] at h
    cases h with
    | cons hrow halike hgap hcomment hrest =>
      rw [Reader.dropNewlines, Reader.dropNewlines, List.dropWhile_cons, List.dropWhile_cons,
        halike.isNewline]
      split
      · exact ih hrest (Nat.succ.inj hlength)
      · exact ⟨.cons hrow halike hgap hcomment hrest, hlength⟩

/-- The tokens of a type with and without the comment; `masked` says whether the token in front of
the comment can be one of them. -/
def TypeTokens (i : Insertion) (masked : Prop) (tokens tokens' : List Token) : Prop :=
  ∃ depth lines more more', i.Marked (tokens ++ more) (tokens' ++ more') ∧
    tokens'.length = tokens.length ∧
    (typePhrase (ofDepth depth) lines (tokens ++ more)).isSome = true ∧
    (more.length < i.spot.length → i.spot.length ≤ (tokens ++ more).length → masked)

theorem TypeTokens.dropNewlines (h : i.TypeTokens masked ts ts') :
    i.TypeTokens masked (Reader.dropNewlines ts) (Reader.dropNewlines ts') := by
  obtain ⟨depth, lines, more, more', hmarked, hlength, hread, hmasked⟩ := h
  obtain ⟨hdropped, hdroppedLength⟩ := hmarked.dropNewlines_append hlength
  refine ⟨depth, lines, more, more', hdropped, hdroppedLength, ?_, fun hlong hshort => ?_⟩
  · rwa [← typePhrase_dropNewlines, Insertion.dropNewlines_append, typePhrase_dropNewlines]
  · have hless : (Reader.dropNewlines ts).length ≤ ts.length := length_dropNewlines ts
    rw [List.length_append] at hmasked hshort
    exact hmasked hlong (by omega)

/-- Behind the symbol that opens a type only a comment that masks the type is looked at. -/
theorem TypeTokens.comment_cases (h : i.TypeTokens masked (t :: ts) (t' :: ts')) {symbol : String}
    (ht : t.isSymbol symbol = true) :
    t'.comment = t.comment ∨ (i.OpensType ∧ masked) ∧ t'.comment = some i.comment := by
  obtain ⟨depth, lines, more, more', hmarked, hlength, hread, hmasked⟩ := h
  rw [List.cons_append] at hmarked hread
  rw [Token.isSymbol, Bool.and_eq_true, beq_iff_eq] at ht
  cases hmarked with
  | cons hrow halike hgap hcomment hrest =>
    refine hcomment.imp_right fun hspot => ⟨⟨?_, ?_⟩, hspot.2⟩
    · exact ⟨t, _, depth, lines, hspot.1.symm, ht.1, hspot.1 ▸ hread⟩
    · rw [← hspot.1, List.length_cons, List.length_append] at hmasked
      exact hmasked (by omega) (by rw [List.cons_append, List.length_cons, List.length_append])

theorem isSome_of_bind {α β : Type} {p : Reader α} {f : α → Reader β} {ts : List Token}
    (h : ((p >>= f) ts).isSome = true) : (p ts).isSome = true := by
  have hbind : (p >>= f) ts = (p ts).bind fun x => f x.1 x.2 := rfl
  cases hp : p ts with
  | some x => rfl
  | none =>
    rw [hbind, hp] at h
    exact absurd h Bool.false_ne_true

theorem isSome_of_map {α β : Type} {p : Reader α} {f : α → β} {ts : List Token}
    (h : ((f <$> p) ts).isSome = true) : (p ts).isSome = true :=
  isSome_of_bind (f := fun a => pure (f a)) h

theorem isSome_of_seqLeft {α β : Type} {p : Reader α} {q : Reader β} {ts : List Token}
    (h : ((p <* q) ts).isSome = true) : (p ts).isSome = true :=
  isSome_of_bind (f := fun a => q >>= fun _ => pure a) h

/-- Behind the star of a pointer and the parenthesis around a type stands a type. -/
theorem exists_typePhrase_tail {depth : Nat} {lines : Reader.Lines}
    (h : (typePhrase (ofDepth depth) lines (t :: ts)).isSome = true)
    (ht : t.isSymbol "*" = true ∨ t.isSymbol "(" = true) :
    ∃ depth lines, (typePhrase (ofDepth depth) lines ts).isSome = true := by
  have hinner : ∃ lines, ((ofDepth depth).type lines ts).isSome = true := by
    obtain ⟨kind, text, comment, gap⟩ := t
    simp only [Token.isSymbol, Bool.and_eq_true, beq_iff_eq] at ht
    obtain ⟨rfl, rfl⟩ | ⟨rfl, rfl⟩ := ht
    · rw [typePhrase_cons rfl] at h
      exact ⟨lines, isSome_of_map h⟩
    · rw [typePhrase_cons rfl] at h
      exact ⟨.pass, isSome_of_seqLeft (isSome_of_map h)⟩
  obtain ⟨lines, hinner⟩ := hinner
  cases depth with
  | zero => exact absurd hinner Bool.false_ne_true
  | succ depth => exact ⟨depth, lines, hinner⟩

theorem TypeTokens.tail (h : i.TypeTokens masked (t :: ts) (t' :: ts'))
    (ht : t.isSymbol "*" = true ∨ t.isSymbol "(" = true) : i.TypeTokens masked ts ts' := by
  obtain ⟨depth, lines, more, more', hmarked, hlength, hread, hmasked⟩ := h
  obtain ⟨depth, lines, hinner⟩ := exists_typePhrase_tail hread ht
  rw [List.cons_append] at hmarked
  cases hmarked with
  | cons hrow halike hgap hcomment hmarked =>
    exact ⟨depth, lines, more, more', hmarked, Nat.succ.inj hlength, hinner,
      fun hlong hshort => hmasked hlong (hshort.trans (Nat.le_succ _))⟩

theorem TypeTokens.dropLast (h : i.TypeTokens masked ts ts') :
    i.TypeTokens masked ts.dropLast ts'.dropLast := by
  obtain ⟨depth, lines, more, more', hmarked, hlength, hread, hmasked⟩ := h
  have hcut : ∀ l more : List Token, l.dropLast ++ (l.drop (l.length - 1) ++ more) = l ++ more := by
    intro l more
    rw [List.dropLast_eq_take, ← List.append_assoc, List.take_append_drop]
  refine ⟨depth, lines, ts.drop (ts.length - 1) ++ more, ts'.drop (ts'.length - 1) ++ more',
    ?_, ?_, ?_, fun hlong hshort => ?_⟩
  · rwa [hcut, hcut]
  · rw [List.length_dropLast, List.length_dropLast, hlength]
  · rwa [hcut]
  · rw [hcut] at hshort
    rw [List.length_append] at hlong
    exact hmasked (by omega) hshort

def ReceiverRel (i : Insertion) (shown masked : Prop) (r r' : Receiver) : Prop :=
  i.ReceiverShows shown r r' ∨ (i.OpensType ∧ masked) ∧ r'.text = i.comment ∧ r'.typeParams = []

theorem receiverRel_receiverUpTo (limit : Nat) (h : i.TypeTokens masked ts ts')
    (halike : List.Forall₂ (i.Alike shown) ts ts') :
    i.ReceiverRel shown masked (receiverUpTo limit ts) (receiverUpTo limit ts') := by
  -- Behind each star and inside each parenthesis stand the tokens of a type again, so a comment
  -- that one of them minds is a comment that masks a type.
  induction limit generalizing ts ts' with
  | zero => exact .inl (receiverShows_plainReceiver halike)
  | succ limit ih =>
    have hdropped := h.dropNewlines
    have hrest : List.Forall₂ (i.Alike shown) (Reader.dropNewlines ts) (Reader.dropNewlines ts') :=
      (alike_span (fun _ _ h => h.isNewline) halike).2
    rw [receiverUpTo, receiverUpTo]
    generalize Reader.dropNewlines ts = tokens, Reader.dropNewlines ts' = tokens' at hdropped hrest
    cases hrest with
    | nil => exact .inl (.refl _)
    | @cons t t' tail tail' hfirst hmore =>
      dsimp only
      rw [hfirst.isSymbol, hfirst.isSymbol]
      split
      case isTrue hstar =>
        obtain hcomment | ⟨hmasks, hcomment⟩ := hdropped.comment_cases hstar
        · rw [hcomment]
          split
          · exact .inl (.refl _)
          · exact (ih (hdropped.tail (.inl hstar)) hmore).imp
              (fun hinner => ⟨hinner.text, rfl, hinner.typeParams⟩) id
        · rw [hcomment]
          exact .inr ⟨hmasks, rfl, rfl⟩
      case isFalse =>
        split
        case isTrue hparenthesis =>
          obtain hcomment | ⟨hmasks, hcomment⟩ := hdropped.comment_cases hparenthesis
          · rw [hcomment]
            split
            · exact .inl (.refl _)
            · exact ih (hdropped.tail (.inr hparenthesis)).dropLast (alike_dropLast hmore)
          · rw [hcomment]
            exact .inr ⟨hmasks, rfl, rfl⟩
        case isFalse => exact .inl (receiverShows_plainReceiver (.cons hfirst hmore))

/-! ### The text in front of a receiver -/

theorem genericParts?_gap (t : Token) (gap : List Lexeme) (ts : List Token) :
    (genericParts? ({ t with gap := gap } :: ts)).map (fun x => (Token.sourceText x.1, x.2)) =
      (genericParts? (t :: ts)).map fun x => (Token.sourceText x.1, x.2) := by
  have hopen : Token.isSymbol "[" { t with gap := gap } = t.isSymbol "[" := rfl
  simp only [genericParts?, List.takeWhile_cons, List.dropWhile_cons, hopen]
  cases t.isSymbol "[" with
  | true => rfl
  | false =>
    simp only [Bool.not_false, if_true, List.head?_cons, List.all_cons]
    have hcond : Token.isSymbol "." { t with gap := gap } = t.isSymbol "." := rfl
    rw [hcond]
    cases ts.dropWhile fun t => !t.isSymbol "[" with
    | nil => rfl
    | cons bracket arguments =>
      dsimp only
      split <;> rfl

theorem plainReceiver_gap (ht : t.isNewline = false) (gap : List Lexeme) :
    plainReceiver ({ t with gap := gap } :: ts) = plainReceiver (t :: ts) := by
  have hnewline : Token.isNewline { t with gap := gap } = false := ht
  have hparts := genericParts?_gap { t with gap := t.gap } gap (joinLines [] ts)
  simp only [plainReceiver, joinLines, ht, hnewline, Bool.false_eq_true, if_false, List.nil_append]
  cases hx : genericParts? ({ t with gap := gap } :: joinLines [] ts) with
  | none =>
    have hnone : genericParts? (t :: joinLines [] ts) = none := by simpa [hx] using hparts.symm
    rw [hnone]
    rfl
  | some x =>
    rw [hx] at hparts
    obtain ⟨y, hy, hxy⟩ := Option.map_eq_some_iff.1 hparts.symm
    have hbase := congrArg Prod.fst hxy
    have harguments := congrArg Prod.snd hxy
    dsimp only at hbase harguments
    rw [hy]
    dsimp only
    rw [hbase, harguments]

/-- The text in front of a receiver's type does not matter. -/
theorem receiverOf_gap (t : Token) (gap : List Lexeme) (ts : List Token) :
    receiverOf ({ t with gap := gap } :: ts) = receiverOf (t :: ts) := by
  have hnewline : Token.isNewline { t with gap := gap } = t.isNewline := rfl
  show receiverUpTo (ts.length + 1) _ = receiverUpTo (ts.length + 1) _
  rw [receiverUpTo, receiverUpTo, Reader.dropNewlines, Reader.dropNewlines, List.dropWhile_cons,
    List.dropWhile_cons, hnewline]
  cases ht : t.isNewline with
  | true => rfl
  | false =>
    simp only [Bool.false_eq_true, if_false]
    rw [plainReceiver_gap ht]
    rfl

/-- A receiver shows the comment only if it stands behind the first token of the receiver's type and
in front of the last, and is masked by it only if it stands behind one of these tokens. -/
theorem receiverRel_receiverOf {depth : Nat} {lines : Reader.Lines}
    {more more' : List Token} (hmarked : i.Marked (ts ++ more) (ts' ++ more'))
    (hlength : ts'.length = ts.length)
    (hread : (typePhrase (ofDepth depth) lines (ts ++ more)).isSome = true)
    (hshown : more.length < i.behind.length → i.behind.length < (ts ++ more).length → shown)
    (hmasked : more.length < i.spot.length → i.spot.length ≤ (ts ++ more).length → masked) :
    i.ReceiverRel shown masked (receiverOf ts) (receiverOf ts') := by
  cases ts with
  | nil =>
    cases List.length_eq_zero_iff.1 hlength
    exact .inl (.refl _)
  | cons t ts =>
    obtain ⟨t', ts', rfl⟩ := List.exists_cons_of_length_eq_add_one hlength
    rw [List.cons_append] at hmarked hshown
    cases hmarked with
    | cons hrow halike hgap hcomment hrest =>
      have htail : List.Forall₂ (i.Alike shown) ts ts' := hrest.alike (Nat.succ.inj hlength)
        fun hlong hshort => hshown hlong (Nat.lt_succ_of_le hshort)
      have hfirst : ∀ allowed, i.Alike allowed t { t' with gap := t.gap } :=
        fun _ => ⟨halike.kind, halike.text, .refl _⟩
      have htokens : i.TypeTokens masked (t :: ts) ({ t' with gap := t.gap } :: ts') :=
        ⟨depth, lines, more, more', .cons hrow (hfirst True) (.inl rfl) hcomment hrest, hlength,
          hread, hmasked⟩
      rw [← receiverOf_gap t' t.gap ts', receiverOf, receiverOf, List.length_cons, List.length_cons,
        htail.length_eq]
      exact receiverRel_receiverUpTo _ htokens (.cons (hfirst shown) htail)

end Insertion

end GoUml.Go
