import GoUml.Proofs.Delimited
import GoUml.Proofs.TypeIdentity
import Mathlib.Data.List.Perm.Basic
import Mathlib.Data.List.TakeWhile

/-!
# Equal keys mean identical types

A key is a flat text without escaping, in which words such as `chan` and `func` are also legal
names. It can nevertheless be read in one way only: the longest run of path characters at its
beginning, with the character behind it, tells the shape of the type, and what stands between
brackets can be cut apart again. So two types have the same key exactly when they are identical.
-/

namespace GoUml

open Text

/-- The longest run of path characters at the beginning of a text, and the character behind it. -/
def leadOf (cs : List Char) : List Char × Option Char :=
  (cs.takeWhile isPathChar, (cs.dropWhile isPathChar).head?)

theorem leadOf_path {w : List Char} (hw : IsPath w) : leadOf w = (w, none) := by
  have htake : w.takeWhile isPathChar = w := List.takeWhile_eq_self_iff.2 hw
  have hdrop : w.dropWhile isPathChar = [] := List.dropWhile_eq_nil_iff.2 hw
  rw [leadOf, htake, hdrop, List.head?_nil]

theorem leadOf_append {w rest : List Char} {c : Char} (hw : IsPath w) (hc : isPathChar c = false) :
    leadOf (w ++ c :: rest) = (w, some c) := by
  rw [leadOf, List.takeWhile_append_of_pos hw, List.dropWhile_append_of_pos hw,
    List.takeWhile_cons_of_neg (by simp [hc]), List.dropWhile_cons_of_neg (by simp [hc]),
    List.append_nil, List.head?_cons]

theorem run_append_inj {p : Char → Bool} {v w r s : List Char} {c d : Char}
    (hv : ∀ x ∈ v, p x = true) (hw : ∀ x ∈ w, p x = true) (hc : p c = false) (hd : p d = false)
    (h : v ++ c :: r = w ++ d :: s) : v = w ∧ c :: r = d :: s := by
  have hrun : ∀ {v r : List Char} {c : Char}, (∀ x ∈ v, p x = true) → p c = false →
      (v ++ c :: r).takeWhile p = v := by
    intro v r c hv hc
    rw [List.takeWhile_append_of_pos hv, List.takeWhile_cons_of_neg (by simp [hc]), List.append_nil]
  have hvw : v = w := by
    calc
      v = (v ++ c :: r).takeWhile p := (hrun hv hc).symm
      _ = (w ++ d :: s).takeWhile p := by rw [h]
      _ = w := hrun hw hd
  subst hvw
  exact ⟨rfl, List.append_cancel_left h⟩

/-- A name is what stands behind the last dot. -/
theorem dotted_inj {v w r s : List Char} (hr : '.' ∉ r) (hs : '.' ∉ s)
    (h : v ++ '.' :: r = w ++ '.' :: s) : v = w ∧ r = s := by
  have hno_dot : ∀ {r : List Char}, '.' ∉ r → ∀ x ∈ r.reverse, (x != '.') = true := by
    intro r hr x hx
    rw [bne_iff_ne]
    rintro rfl
    exact hr (List.mem_reverse.1 hx)
  have hreverse : r.reverse ++ '.' :: v.reverse = s.reverse ++ '.' :: w.reverse := by
    simpa using congrArg List.reverse h
  obtain ⟨hname, hpath⟩ := run_append_inj (hno_dot hr) (hno_dot hs) rfl rfl hreverse
  rw [List.cons.injEq] at hpath
  exact ⟨List.reverse_inj.1 hpath.2, List.reverse_inj.1 hname⟩

def GoType.lead : GoType → List Char × Option Char
  | .basic name => (name.toList, none)
  | .named name none => (name.toList, none)
  | .named name (some package) => (package.path.toList ++ '.' :: name.toList, none)
  | .typeParam _ => ([], some '$')
  | .pointer _ => ([], some '*')
  | .slice _ => ([], some '[')
  | .array _ => ([], some '[')
  | .chan _ => (['c', 'h', 'a', 'n'], some ' ')
  | .map _ _ => (['m', 'a', 'p'], some '[')
  | .signature _ => (['f', 'u', 'n', 'c'], some '(')
  | .struct _ => (['s', 't', 'r', 'u', 'c', 't'], some '\x7b')
  | .interface _ _ => (['i', 'n', 't', 'e', 'r', 'f', 'a', 'c', 'e'], some '\x7b')
  | .tuple _ => ([], some '(')

theorem toList_named (name : String) (package : PackageId) :
    (GoType.named name (some package)).key.toList = package.path.toList ++ '.' :: name.toList := by
  rw [GoType.key, String.toList_append, String.toList_append, List.append_assoc]
  rfl

theorem toList_typeParam (name : String) :
    (GoType.typeParam name).key.toList = '$' :: name.toList := by
  rw [GoType.key, String.toList_append]
  rfl

theorem toList_pointer (elem : GoType) :
    (GoType.pointer elem).key.toList = '*' :: elem.key.toList := by
  rw [GoType.key, String.toList_append]
  rfl

theorem toList_slice (elem : GoType) :
    (GoType.slice elem).key.toList = '[' :: ']' :: elem.key.toList := by
  rw [GoType.key, String.toList_append]
  rfl

theorem toList_array (elem : GoType) :
    (GoType.array elem).key.toList = '[' :: '#' :: ']' :: elem.key.toList := by
  rw [GoType.key, String.toList_append]
  rfl

theorem toList_chan (elem : GoType) :
    (GoType.chan elem).key.toList = ['c', 'h', 'a', 'n'] ++ ' ' :: elem.key.toList := by
  rw [GoType.key, String.toList_append]
  rfl

theorem toList_map (key value : GoType) :
    (GoType.map key value).key.toList =
      ['m', 'a', 'p'] ++ '[' :: (key.key.toList ++ ']' :: value.key.toList) := by
  rw [GoType.key, String.toList_append, String.toList_append, String.toList_append,
    List.append_assoc, List.append_assoc]
  rfl

theorem toList_parenthesized (xs ys : List String) :
    (parenthesized xs ys).toList =
      '(' :: ((joinWith ", " xs).toList ++ ')' :: '(' :: ((joinWith ", " ys).toList ++ [')'])) := by
  rw [parenthesized, String.toList_append, String.toList_append, String.toList_append,
    String.toList_append, List.append_assoc, List.append_assoc, List.append_assoc]
  rfl

theorem toList_signatureKey (s : Signature) :
    (signatureKey s).toList =
      ['f', 'u', 'n', 'c'] ++ (parenthesized (paramKeys s.params) (paramKeys s.results)).toList := by
  obtain ⟨params, results⟩ := s
  rw [signatureKey, String.toList_append]
  rfl

theorem toList_struct (fields : List StructField) :
    (GoType.struct fields).key.toList =
      ['s', 't', 'r', 'u', 'c', 't'] ++
        '\x7b' :: ((joinWith "; " (fieldKeys fields)).toList ++ ['\x7d']) := by
  rw [GoType.key, String.toList_append, String.toList_append, List.append_assoc]
  rfl

theorem toList_interface (methods : List InterfaceMethod) (embeds : List GoType) :
    (GoType.interface methods embeds).key.toList =
      ['i', 'n', 't', 'e', 'r', 'f', 'a', 'c', 'e'] ++
        '\x7b' :: ((joinWith "; " (sort (methodKeys methods ++ typeKeys embeds))).toList ++
          ['\x7d']) := by
  rw [GoType.key, String.toList_append, String.toList_append, List.append_assoc]
  rfl

theorem toList_tuple (elems : List GoType) :
    (GoType.tuple elems).key.toList = '(' :: ((joinWith ", " (typeKeys elems)).toList ++ [')']) := by
  rw [GoType.key, String.toList_append, String.toList_append, List.append_assoc]
  rfl

theorem GoType.WellNamed.leadOf_key {t : GoType} (h : t.WellNamed) :
    leadOf t.key.toList = t.lead := by
  cases h with
  | basic hname => exact leadOf_path hname.path
  | unpackaged hname => exact leadOf_path hname.path
  | named hname hpath =>
    rw [toList_named]
    apply leadOf_path
    intro c hc
    rcases List.mem_append.1 hc with hc | hc
    · exact hpath c hc
    · rcases List.mem_cons.1 hc with rfl | hc
      · decide
      · exact hname.path c hc
  | typeParam _ =>
    rw [toList_typeParam]
    exact leadOf_append (w := []) (by decide) (by decide)
  | pointer _ =>
    rw [toList_pointer]
    exact leadOf_append (w := []) (by decide) (by decide)
  | slice _ =>
    rw [toList_slice]
    exact leadOf_append (w := []) (by decide) (by decide)
  | array _ =>
    rw [toList_array]
    exact leadOf_append (w := []) (by decide) (by decide)
  | chan _ =>
    rw [toList_chan]
    exact leadOf_append (by decide) (by decide)
  | map _ _ =>
    rw [toList_map]
    exact leadOf_append (by decide) (by decide)
  | signature _ _ =>
    rw [GoType.key, toList_signatureKey, toList_parenthesized]
    exact leadOf_append (by decide) (by decide)
  | struct _ _ =>
    rw [toList_struct]
    exact leadOf_append (by decide) (by decide)
  | interface _ _ _ =>
    rw [toList_interface]
    exact leadOf_append (by decide) (by decide)
  | tuple _ =>
    rw [toList_tuple]
    exact leadOf_append (w := []) (by decide) (by decide)

theorem GoType.WellNamed.lead_eq {t u : GoType} (ht : t.WellNamed) (hu : u.WellNamed)
    (h : t.key = u.key) : t.lead = u.lead := by
  rw [← ht.leadOf_key, ← hu.leadOf_key, h]

theorem GoType.WellNamed.nonempty_key {t : GoType} (h : t.WellNamed) : t.key.toList ≠ [] := by
  intro hempty
  have hlead : t.lead = ([], none) := by rw [← h.leadOf_key, hempty, leadOf]; rfl
  cases h with
  | basic hname => exact hname.nonempty hempty
  | unpackaged hname => exact hname.nonempty hempty
  | named => simp at hempty
  | _ => simp [GoType.lead] at hlead

theorem markOf_of_isPathChar {c : Char} (h : isPathChar c = true) : markOf c = .plain := by
  rw [markOf]
  split
  · next hc => rcases hc with rfl | rfl | rfl <;> exact absurd h (by decide)
  · split
    · next hc => rcases hc with rfl | rfl | rfl <;> exact absurd h (by decide)
    · split
      · next hc => rcases hc with rfl | rfl <;> exact absurd h (by decide)
      · rfl

theorem IsPath.closed {cs : List Char} (h : IsPath cs) : Closed cs :=
  closed_of_plain fun c hc => markOf_of_isPathChar (h c hc)

theorem separates_comma : Separates ", " := ⟨',', [' '], rfl, rfl⟩

theorem separates_semicolon : Separates "; " := ⟨';', [' '], rfl, rfl⟩

theorem closed_space : Closed [' '] := closed_of_plain (List.forall_mem_singleton.2 rfl)

theorem closedInside_comma : ClosedInside ", ".toList := by
  have hcomma : ClosedInside [','] := closedInside_separator rfl
  exact hcomma.append closed_space.inside

theorem closedInside_semicolon : ClosedInside "; ".toList := by
  have hsemicolon : ClosedInside [';'] := closedInside_separator rfl
  exact hsemicolon.append closed_space.inside

/-- A list of pieces in parentheses, in front of closed text. -/
theorem closed_list {xs : List String} (hxs : ∀ x ∈ xs, Piece x) {rest : List Char}
    (hrest : Closed rest) : Closed ('(' :: ((joinWith ", " xs).toList ++ ')' :: rest)) :=
  Closed.bracket rfl rfl (closedInside_joinWith closedInside_comma hxs) hrest

/-- A list of pieces in braces. -/
theorem closed_block {xs : List String} (hxs : ∀ x ∈ xs, Piece x) :
    Closed ('\x7b' :: ((joinWith "; " xs).toList ++ ['\x7d'])) :=
  Closed.bracket rfl rfl (closedInside_joinWith closedInside_semicolon hxs) closed_nil

theorem closed_parenthesized {xs ys : List String} (hxs : ∀ x ∈ xs, Piece x)
    (hys : ∀ y ∈ ys, Piece y) : Closed (parenthesized xs ys).toList := by
  rw [toList_parenthesized]
  exact closed_list hxs (closed_list hys closed_nil)

theorem FieldOf.isPath_spelledName {f : StructField} (h : f.embedded = false → IsName f.name) :
    IsPath f.spelledName.toList := by
  rw [FieldOf.spelledName]
  split
  · intro c hc
    cases hc
  · next hnot => exact (h (Bool.eq_false_iff.2 hnot)).path

theorem FieldOf.toList_part (f : StructField) :
    f.part.toList = f.spelledName.toList ++ ' ' :: f.type.key.toList := by
  simp [FieldOf.part]

theorem FieldOf.piece_part {f : StructField} (hname : f.embedded = false → IsName f.name)
    (htype : Piece f.type.key) : Piece f.part := by
  constructor
  · rw [FieldOf.toList_part]
    exact (FieldOf.isPath_spelledName hname).closed.append (closed_space.append htype.closed)
  · rw [FieldOf.toList_part]
    exact List.append_ne_nil_of_right_ne_nil _ (List.cons_ne_nil _ _)

theorem MethodOf.toList_part (m : InterfaceMethod) :
    m.part.toList = m.name.toList ++ (signatureKey m.signature).toList := by
  rw [MethodOf.part, String.toList_append]

theorem MethodOf.piece_part {m : InterfaceMethod} (hname : IsName m.name)
    (hsignature : Closed (signatureKey m.signature).toList) : Piece m.part := by
  constructor
  · rw [MethodOf.toList_part]
    exact hname.path.closed.append hsignature
  · rw [MethodOf.toList_part]
    exact List.append_ne_nil_of_left_ne_nil hname.nonempty _

theorem pieces_paramKeys {params : List Param} (h : ∀ p ∈ params, Piece p.type.key) :
    ∀ x ∈ paramKeys params, Piece x := by
  rw [paramKeys_eq_map]
  exact List.forall_mem_map.2 h

theorem pieces_typeKeys {types : List GoType} (h : ∀ t ∈ types, Piece t.key) :
    ∀ x ∈ typeKeys types, Piece x := by
  rw [typeKeys_eq_map]
  exact List.forall_mem_map.2 h

theorem pieces_fieldKeys {fields : List StructField}
    (hnames : ∀ f ∈ fields, f.embedded = false → IsName f.name)
    (htypes : ∀ f ∈ fields, Piece f.type.key) : ∀ x ∈ fieldKeys fields, Piece x := by
  rw [fieldKeys_eq_map]
  exact List.forall_mem_map.2 fun f hf => FieldOf.piece_part (hnames f hf) (htypes f hf)

/-- The parts of an interface are pieces in whatever order they stand. -/
theorem pieces_parts {methods : List InterfaceMethod} {embeds : List GoType}
    (hnames : ∀ m ∈ methods, IsName m.name)
    (hmethods : ∀ m ∈ methods, Closed (signatureKey m.signature).toList)
    (hembeds : ∀ e ∈ embeds, Piece e.key) :
    ∀ x ∈ sort (methodKeys methods ++ typeKeys embeds), Piece x := by
  intro x hx
  rcases List.mem_append.1 (List.mem_mergeSort.1 hx) with hx | hx
  · rw [methodKeys_eq_map] at hx
    obtain ⟨m, hm, rfl⟩ := List.mem_map.1 hx
    exact MethodOf.piece_part (hnames m hm) (hmethods m hm)
  · exact pieces_typeKeys hembeds x hx

theorem GoType.WellNamed.closed_key {t : GoType} (h : t.WellNamed) : Closed t.key.toList := by
  induction h with
  | basic hname => exact hname.path.closed
  | unpackaged hname => exact hname.path.closed
  | named hname hpath =>
    have hdot : IsPath ['.'] := by decide
    rw [toList_named]
    exact hpath.closed.append (hdot.closed.append hname.path.closed)
  | typeParam hname =>
    have hdollar : Closed ['$'] := closed_of_plain (List.forall_mem_singleton.2 rfl)
    rw [toList_typeParam]
    exact hdollar.append hname.path.closed
  | pointer _ ih =>
    have hstar : Closed ['*'] := closed_of_plain (List.forall_mem_singleton.2 rfl)
    rw [toList_pointer]
    exact hstar.append ih
  | slice _ ih =>
    rw [toList_slice]
    exact Closed.bracket rfl rfl closed_nil.inside ih
  | array _ ih =>
    have hlength : IsPath ['#'] := by decide
    rw [toList_array]
    exact Closed.bracket rfl rfl hlength.closed.inside ih
  | chan _ ih =>
    have hword : IsPath ['c', 'h', 'a', 'n'] := by decide
    rw [toList_chan]
    exact hword.closed.append (closed_space.append ih)
  | map _ _ ihKey ihValue =>
    have hword : IsPath ['m', 'a', 'p'] := by decide
    rw [toList_map]
    exact hword.closed.append (Closed.bracket rfl rfl ihKey.inside ihValue)
  | signature hparams hresults ihParams ihResults =>
    have hword : IsPath ['f', 'u', 'n', 'c'] := by decide
    have hparamPieces := pieces_paramKeys fun p hp => ⟨ihParams p hp, (hparams p hp).nonempty_key⟩
    have hresultPieces := pieces_paramKeys fun r hr => ⟨ihResults r hr, (hresults r hr).nonempty_key⟩
    rw [GoType.key, toList_signatureKey]
    exact hword.closed.append (closed_parenthesized hparamPieces hresultPieces)
  | struct hnames htypes ih =>
    have hword : IsPath ['s', 't', 'r', 'u', 'c', 't'] := by decide
    have hpieces := pieces_fieldKeys hnames fun f hf => ⟨ih f hf, (htypes f hf).nonempty_key⟩
    rw [toList_struct]
    exact hword.closed.append (closed_block hpieces)
  | interface hnames _ hembeds ihMethods ihEmbeds =>
    have hword : IsPath ['i', 'n', 't', 'e', 'r', 'f', 'a', 'c', 'e'] := by decide
    have hpieces := pieces_parts hnames ihMethods
      fun e he => ⟨ihEmbeds e he, (hembeds e he).nonempty_key⟩
    rw [toList_interface]
    exact hword.closed.append (closed_block hpieces)
  | tuple helems ih =>
    have hpieces := pieces_typeKeys fun e he => ⟨ih e he, (helems e he).nonempty_key⟩
    rw [toList_tuple]
    exact closed_list hpieces closed_nil

theorem GoType.WellNamed.piece {t : GoType} (h : t.WellNamed) : Piece t.key :=
  ⟨h.closed_key, h.nonempty_key⟩

/-! ### Cutting a key apart -/

theorem parenthesized_inj {xs ys vs ws : List String} (hxs : ∀ x ∈ xs, Piece x)
    (hys : ∀ y ∈ ys, Piece y) (hvs : ∀ v ∈ vs, Piece v) (hws : ∀ w ∈ ws, Piece w)
    (h : parenthesized xs vs = parenthesized ys ws) : xs = ys ∧ vs = ws := by
  have hchars := congrArg String.toList h
  rw [toList_parenthesized, toList_parenthesized, List.cons.injEq] at hchars
  obtain ⟨hparams, hrest⟩ := joinWith_append_inj separates_comma hxs hys (closes_cons rfl _)
    (closes_cons rfl _) hchars.2
  rw [List.cons.injEq, List.cons.injEq] at hrest
  obtain ⟨hresults, -⟩ := joinWith_append_inj separates_comma hvs hws (closes_cons rfl _)
    (closes_cons rfl _) hrest.2.2
  exact ⟨hparams, hresults⟩

theorem named_key_inj {m n : String} {p q : PackageId} (hm : IsName m) (hn : IsName n)
    (h : (GoType.named m (some p)).key = (GoType.named n (some q)).key) : p.path = q.path ∧ m = n := by
  have hchars := congrArg String.toList h
  rw [toList_named, toList_named] at hchars
  obtain ⟨hpath, hname⟩ := dotted_inj hm.no_dot hn.no_dot hchars
  exact ⟨String.toList_inj.1 hpath, String.toList_inj.1 hname⟩

/-- A name without a package has no dot in its key. -/
theorem IsName.ne_named_key {m n : String} {package : PackageId} (hm : IsName m) :
    m ≠ (GoType.named n (some package)).key := by
  rintro rfl
  apply hm.no_dot
  rw [toList_named]
  exact List.mem_append_right _ List.mem_cons_self

theorem slice_key_ne_array_key (t u : GoType) : (GoType.slice t).key ≠ (GoType.array u).key := by
  intro h
  have hchars := congrArg String.toList h
  rw [toList_slice, toList_array] at hchars
  simp at hchars

theorem map_key_inj {k l v w : GoType} (hk : k.WellNamed) (hl : l.WellNamed)
    (h : (GoType.map k v).key = (GoType.map l w).key) : k.key = l.key ∧ v.key = w.key := by
  have hchars := congrArg String.toList h
  rw [toList_map, toList_map, List.append_cancel_left_eq, List.cons.injEq] at hchars
  obtain ⟨hkey, hvalue⟩ := hk.closed_key.append_inj hl.closed_key (closes_cons rfl _).ends
    (closes_cons rfl _).ends hchars.2
  rw [List.cons.injEq] at hvalue
  exact ⟨String.toList_inj.1 hkey, String.toList_inj.1 hvalue.2⟩

theorem signature_key_inj {ps qs rs ss : List Param} (hps : ∀ p ∈ ps, p.type.WellNamed)
    (hqs : ∀ q ∈ qs, q.type.WellNamed) (hrs : ∀ r ∈ rs, r.type.WellNamed)
    (hss : ∀ s ∈ ss, s.type.WellNamed)
    (h : (GoType.signature ⟨ps, rs⟩).key = (GoType.signature ⟨qs, ss⟩).key) :
    paramKeys ps = paramKeys qs ∧ paramKeys rs = paramKeys ss := by
  have hchars := congrArg String.toList h
  rw [GoType.key, GoType.key, toList_signatureKey, toList_signatureKey,
    List.append_cancel_left_eq] at hchars
  exact parenthesized_inj (pieces_paramKeys fun p hp => (hps p hp).piece)
    (pieces_paramKeys fun q hq => (hqs q hq).piece) (pieces_paramKeys fun r hr => (hrs r hr).piece)
    (pieces_paramKeys fun s hs => (hss s hs).piece) (String.toList_inj.1 hchars)

theorem tuple_key_inj {ts us : List GoType} (hts : ∀ t ∈ ts, t.WellNamed)
    (hus : ∀ u ∈ us, u.WellNamed) (h : (GoType.tuple ts).key = (GoType.tuple us).key) :
    typeKeys ts = typeKeys us := by
  have hchars := congrArg String.toList h
  rw [toList_tuple, toList_tuple, List.cons.injEq] at hchars
  exact (joinWith_append_inj separates_comma (pieces_typeKeys fun t ht => (hts t ht).piece)
    (pieces_typeKeys fun u hu => (hus u hu).piece) (closes_cons rfl _) (closes_cons rfl _)
    hchars.2).1

theorem FieldOf.spelledName_eq_empty_iff {f : StructField} (h : f.embedded = false → IsName f.name) :
    f.spelledName = "" ↔ f.embedded = true := by
  rw [FieldOf.spelledName]
  split
  · next hembedded => exact ⟨fun _ => hembedded, fun _ => rfl⟩
  · next hnot =>
    constructor
    · intro hempty
      refine absurd ?_ (h (Bool.eq_false_iff.2 hnot)).nonempty
      rw [hempty]
      rfl
    · intro hembedded
      exact absurd hembedded hnot

theorem FieldOf.part_inj {f g : StructField} (hf : f.embedded = false → IsName f.name)
    (hg : g.embedded = false → IsName g.name) (h : f.part = g.part) :
    f.embedded = g.embedded ∧ (f.embedded = false → f.name = g.name) ∧ f.type.key = g.type.key := by
  have hchars := congrArg String.toList h
  rw [FieldOf.toList_part, FieldOf.toList_part] at hchars
  obtain ⟨hname, hrest⟩ := run_append_inj (FieldOf.isPath_spelledName hf)
    (FieldOf.isPath_spelledName hg) (by decide) (by decide) hchars
  have hspelled : f.spelledName = g.spelledName := String.toList_inj.1 hname
  have hembedded : f.embedded = g.embedded := by
    rw [Bool.eq_iff_iff, ← FieldOf.spelledName_eq_empty_iff hf,
      ← FieldOf.spelledName_eq_empty_iff hg, hspelled]
  rw [List.cons.injEq] at hrest
  refine ⟨hembedded, fun hnot => ?_, String.toList_inj.1 hrest.2⟩
  rwa [FieldOf.spelledName, FieldOf.spelledName, ← hembedded, hnot] at hspelled

theorem struct_key_inj {fs gs : List StructField}
    (hfsNames : ∀ f ∈ fs, f.embedded = false → IsName f.name) (hfs : ∀ f ∈ fs, f.type.WellNamed)
    (hgsNames : ∀ g ∈ gs, g.embedded = false → IsName g.name) (hgs : ∀ g ∈ gs, g.type.WellNamed)
    (h : (GoType.struct fs).key = (GoType.struct gs).key) :
    fs.length = gs.length ∧ ∀ x ∈ fs.zip gs, x.1.embedded = x.2.embedded ∧
      (x.1.embedded = false → x.1.name = x.2.name) ∧ x.1.type.key = x.2.type.key := by
  have hchars := congrArg String.toList h
  rw [toList_struct, toList_struct, List.append_cancel_left_eq, List.cons.injEq] at hchars
  obtain ⟨hkeys, -⟩ := joinWith_append_inj separates_semicolon
    (pieces_fieldKeys hfsNames fun f hf => (hfs f hf).piece)
    (pieces_fieldKeys hgsNames fun g hg => (hgs g hg).piece) (closes_cons rfl _) (closes_cons rfl _)
    hchars.2
  obtain ⟨hcount, hparts⟩ := fieldKeys_eq_iff.1 hkeys
  refine ⟨hcount, fun x hx => ?_⟩
  obtain ⟨hleft, hright⟩ := List.of_mem_zip hx
  exact FieldOf.part_inj (hfsNames _ hleft) (hgsNames _ hright) (hparts x hx)

theorem MethodOf.toList_part_run (m : InterfaceMethod) :
    ∃ rest, m.part.toList = (m.name.toList ++ ['f', 'u', 'n', 'c']) ++ '(' :: rest ∧
      (signatureKey m.signature).toList = ['f', 'u', 'n', 'c'] ++ '(' :: rest := by
  obtain ⟨rest, hrest⟩ : ∃ rest, (parenthesized (paramKeys m.signature.params)
      (paramKeys m.signature.results)).toList = '(' :: rest := ⟨_, toList_parenthesized _ _⟩
  have hsignature : (signatureKey m.signature).toList = ['f', 'u', 'n', 'c'] ++ '(' :: rest := by
    rw [toList_signatureKey, hrest]
  refine ⟨rest, ?_, hsignature⟩
  rw [MethodOf.toList_part, hsignature, List.append_assoc]

theorem MethodOf.path_run {m : InterfaceMethod} (hname : IsName m.name) :
    IsPath (m.name.toList ++ ['f', 'u', 'n', 'c']) := by
  have hword : IsPath ['f', 'u', 'n', 'c'] := by decide
  intro c hc
  rcases List.mem_append.1 hc with hc | hc
  · exact hname.path c hc
  · exact hword c hc

theorem MethodOf.part_inj {m n : InterfaceMethod} (hm : IsName m.name) (hn : IsName n.name)
    (h : m.part = n.part) : m.name = n.name ∧ signatureKey m.signature = signatureKey n.signature := by
  obtain ⟨r, hmChars, hmSignature⟩ := m.toList_part_run
  obtain ⟨s, hnChars, hnSignature⟩ := n.toList_part_run
  have hchars := congrArg String.toList h
  rw [hmChars, hnChars] at hchars
  obtain ⟨hname, hrest⟩ := run_append_inj (MethodOf.path_run hm) (MethodOf.path_run hn) (by decide)
    (by decide) hchars
  refine ⟨String.toList_inj.1 (List.append_cancel_right hname), String.toList_inj.1 ?_⟩
  rw [hmSignature, hnSignature, hrest]

/-- Whether a part of an interface is a method: a run longer than the word `func` stands in front of
a parenthesis. -/
def isMethodPart (part : String) : Bool :=
  (leadOf part.toList).2 = some '(' ∧ 4 < (leadOf part.toList).1.length

theorem MethodOf.isMethodPart_part {m : InterfaceMethod} (hname : IsName m.name) :
    isMethodPart m.part = true := by
  obtain ⟨rest, hchars, -⟩ := m.toList_part_run
  have hlength : 0 < m.name.toList.length := List.length_pos_of_ne_nil hname.nonempty
  rw [isMethodPart, hchars, leadOf_append (MethodOf.path_run hname) (by decide)]
  simp only [List.length_append, List.length_cons, List.length_nil, true_and, decide_eq_true_eq]
  omega

theorem GoType.WellNamed.not_isMethodPart_key {t : GoType} (h : t.WellNamed) :
    isMethodPart t.key = false := by
  rw [isMethodPart, h.leadOf_key]
  cases h <;> simp [GoType.lead]

theorem filter_parts {methods : List InterfaceMethod} {embeds : List GoType}
    (hnames : ∀ m ∈ methods, IsName m.name) (hembeds : ∀ e ∈ embeds, e.WellNamed) :
    (methodKeys methods ++ typeKeys embeds).filter isMethodPart = methodKeys methods ∧
      (methodKeys methods ++ typeKeys embeds).filter (!isMethodPart ·) = typeKeys embeds := by
  have hmethodParts : ∀ x ∈ methodKeys methods, isMethodPart x = true := by
    rw [methodKeys_eq_map]
    exact List.forall_mem_map.2 fun m hm => MethodOf.isMethodPart_part (hnames m hm)
  have hembedParts : ∀ x ∈ typeKeys embeds, isMethodPart x = false := by
    rw [typeKeys_eq_map]
    exact List.forall_mem_map.2 fun e he => (hembeds e he).not_isMethodPart_key
  constructor
  · rw [List.filter_append, List.filter_eq_self.2 hmethodParts,
      List.filter_eq_nil_iff.2 fun x hx => by simp [hembedParts x hx], List.append_nil]
  · rw [List.filter_append, List.filter_eq_nil_iff.2 fun x hx => by simp [hmethodParts x hx],
      List.filter_eq_self.2 fun x hx => by simp [hembedParts x hx], List.nil_append]

/-- Lists of the same parts in any order can be brought into the same order. -/
theorem exists_perm_of_map_perm {α : Type} {f : α → String} {xs ys : List α}
    (h : (xs.map f).Perm (ys.map f)) :
    ∃ zs, ys.Perm zs ∧ xs.length = zs.length ∧ ∀ x ∈ xs.zip zs, f x.1 = f x.2 := by
  have hcomp : Relation.Comp (· = List.map f ·) List.Perm (xs.map f) ys := by
    rw [List.eq_map_comp_perm]
    exact h
  obtain ⟨zs, hmap, hperm⟩ := hcomp
  exact ⟨zs, hperm.symm, map_eq_map_iff_zip.1 hmap⟩

theorem interface_key_inj {ms ns : List InterfaceMethod} {es fs : List GoType}
    (hmsNames : ∀ m ∈ ms, IsName m.name)
    (hms : ∀ m ∈ ms, (GoType.signature m.signature).WellNamed) (hes : ∀ e ∈ es, e.WellNamed)
    (hnsNames : ∀ n ∈ ns, IsName n.name)
    (hns : ∀ n ∈ ns, (GoType.signature n.signature).WellNamed) (hfs : ∀ f ∈ fs, f.WellNamed)
    (h : (GoType.interface ms es).key = (GoType.interface ns fs).key) :
    (∃ ns', ns.Perm ns' ∧ ms.length = ns'.length ∧ ∀ x ∈ ms.zip ns', x.1.part = x.2.part) ∧
      ∃ fs', fs.Perm fs' ∧ es.length = fs'.length ∧ ∀ x ∈ es.zip fs', x.1.key = x.2.key := by
  have hchars := congrArg String.toList h
  rw [toList_interface, toList_interface, List.append_cancel_left_eq, List.cons.injEq] at hchars
  obtain ⟨hsorted, -⟩ := joinWith_append_inj separates_semicolon
    (pieces_parts hmsNames (fun m hm => (hms m hm).closed_key) fun e he => (hes e he).piece)
    (pieces_parts hnsNames (fun n hn => (hns n hn).closed_key) fun f hf => (hfs f hf).piece)
    (closes_cons rfl _) (closes_cons rfl _) hchars.2
  have hparts := sort_eq_sort_iff.1 hsorted
  constructor
  · have hmethods := hparts.filter isMethodPart
    rw [(filter_parts hmsNames hes).1, (filter_parts hnsNames hfs).1, methodKeys_eq_map,
      methodKeys_eq_map] at hmethods
    exact exists_perm_of_map_perm hmethods
  · have hembeds := hparts.filter (!isMethodPart ·)
    rw [(filter_parts hmsNames hes).2, (filter_parts hnsNames hfs).2, typeKeys_eq_map,
      typeKeys_eq_map] at hembeds
    exact exists_perm_of_map_perm hembeds

/-! ### Equal keys -/

/-- Types of equal keys are of the same shape, and the keys of their parts are equal. -/
theorem GoType.WellNamed.identical {t u : GoType} (ht : t.WellNamed) (hu : u.WellNamed)
    (h : t.key = u.key) : t.Identical u := by
  induction ht generalizing u with
  | basic hname =>
    have hlead := (GoType.WellNamed.basic hname).lead_eq hu h
    cases hu with
    | basic _ => cases h; exact .basic _
    | unpackaged _ => cases h; exact .basicUnpackaged _
    | named => exact absurd h hname.ne_named_key
    | _ => simp [GoType.lead] at hlead
  | unpackaged hname =>
    have hlead := (GoType.WellNamed.unpackaged hname).lead_eq hu h
    cases hu with
    | basic _ => cases h; exact .unpackagedBasic _
    | unpackaged _ => cases h; exact .unpackaged _
    | named => exact absurd h hname.ne_named_key
    | _ => simp [GoType.lead] at hlead
  | named hname hpath =>
    have hlead := (GoType.WellNamed.named hname hpath).lead_eq hu h
    cases hu with
    | basic hname' => exact absurd h.symm hname'.ne_named_key
    | unpackaged hname' => exact absurd h.symm hname'.ne_named_key
    | named hname' _ =>
      obtain ⟨hpaths, rfl⟩ := named_key_inj hname hname' h
      exact .named _ hpaths
    | _ => simp [GoType.lead] at hlead
  | typeParam hname =>
    have hlead := (GoType.WellNamed.typeParam hname).lead_eq hu h
    cases hu with
    | typeParam _ =>
      obtain rfl := (String.append_right_inj _).1 h
      exact .typeParam _
    | _ => simp [GoType.lead] at hlead
  | pointer helem ih =>
    have hlead := helem.pointer.lead_eq hu h
    cases hu with
    | pointer hu => exact .pointer (ih hu ((String.append_right_inj _).1 h))
    | _ => simp [GoType.lead] at hlead
  | slice helem ih =>
    have hlead := helem.slice.lead_eq hu h
    cases hu with
    | slice hu => exact .slice (ih hu ((String.append_right_inj _).1 h))
    | array _ => exact absurd h (slice_key_ne_array_key _ _)
    | _ => simp [GoType.lead] at hlead
  | array helem ih =>
    have hlead := helem.array.lead_eq hu h
    cases hu with
    | array hu => exact .array (ih hu ((String.append_right_inj _).1 h))
    | slice _ => exact absurd h.symm (slice_key_ne_array_key _ _)
    | _ => simp [GoType.lead] at hlead
  | chan helem ih =>
    have hlead := helem.chan.lead_eq hu h
    cases hu with
    | chan hu => exact .chan (ih hu ((String.append_right_inj _).1 h))
    | _ => simp [GoType.lead] at hlead
  | map hkey hvalue ihKey ihValue =>
    have hlead := (hkey.map hvalue).lead_eq hu h
    cases hu with
    | map hkey' hvalue' =>
      obtain ⟨hkeys, hvalues⟩ := map_key_inj hkey hkey' h
      exact .map (ihKey hkey' hkeys) (ihValue hvalue' hvalues)
    | _ => simp [GoType.lead] at hlead
  | signature hparams hresults ihParams ihResults =>
    have hlead := (GoType.WellNamed.signature hparams hresults).lead_eq hu h
    cases hu with
    | signature hparams' hresults' =>
      obtain ⟨hparamKeys, hresultKeys⟩ :=
        signature_key_inj hparams hparams' hresults hresults' h
      obtain ⟨hparamCount, hparamTypes⟩ := paramKeys_eq_iff.1 hparamKeys
      obtain ⟨hresultCount, hresultTypes⟩ := paramKeys_eq_iff.1 hresultKeys
      refine .signature hparamCount (fun x hx => ?_) hresultCount (fun x hx => ?_)
      · obtain ⟨hleft, hright⟩ := List.of_mem_zip hx
        exact ihParams _ hleft (hparams' _ hright) (hparamTypes x hx)
      · obtain ⟨hleft, hright⟩ := List.of_mem_zip hx
        exact ihResults _ hleft (hresults' _ hright) (hresultTypes x hx)
    | _ => simp [GoType.lead] at hlead
  | struct hnames htypes ih =>
    have hlead := (GoType.WellNamed.struct hnames htypes).lead_eq hu h
    cases hu with
    | struct hnames' htypes' =>
      obtain ⟨hcount, hfields⟩ := struct_key_inj hnames htypes hnames' htypes' h
      refine .struct hcount (fun x hx => (hfields x hx).1) (fun x hx => (hfields x hx).2.1)
        (fun x hx => ?_)
      obtain ⟨hleft, hright⟩ := List.of_mem_zip hx
      exact ih _ hleft (htypes' _ hright) (hfields x hx).2.2
    | _ => simp [GoType.lead] at hlead
  | interface hnames hmethods hembeds ihMethods ihEmbeds =>
    have hlead := (GoType.WellNamed.interface hnames hmethods hembeds).lead_eq hu h
    cases hu with
    | interface hnames' hmethods' hembeds' =>
      obtain ⟨⟨ns, hmethodOrder, hmethodCount, hparts⟩, fs, hembedOrder, hembedCount, hkeys⟩ :=
        interface_key_inj hnames hmethods hembeds hnames' hmethods' hembeds' h
      refine .interface hmethodOrder hmethodCount (fun x hx => ?_) (fun x hx => ?_) hembedOrder
        hembedCount (fun x hx => ?_)
      · obtain ⟨hleft, hright⟩ := List.of_mem_zip hx
        have hright := hmethodOrder.mem_iff.2 hright
        exact (MethodOf.part_inj (hnames _ hleft) (hnames' _ hright) (hparts x hx)).1
      · obtain ⟨hleft, hright⟩ := List.of_mem_zip hx
        have hright := hmethodOrder.mem_iff.2 hright
        exact ihMethods _ hleft (hmethods' _ hright)
          (MethodOf.part_inj (hnames _ hleft) (hnames' _ hright) (hparts x hx)).2
      · obtain ⟨hleft, hright⟩ := List.of_mem_zip hx
        exact ihEmbeds _ hleft (hembeds' _ (hembedOrder.mem_iff.2 hright)) (hkeys x hx)
    | _ => simp [GoType.lead] at hlead
  | tuple helems ih =>
    have hlead := (GoType.WellNamed.tuple helems).lead_eq hu h
    cases hu with
    | tuple helems' =>
      obtain ⟨hcount, htypes⟩ := typeKeys_eq_iff.1 (tuple_key_inj helems helems' h)
      refine .tuple hcount (fun x hx => ?_)
      obtain ⟨hleft, hright⟩ := List.of_mem_zip hx
      exact ih _ hleft (helems' _ hright) (htypes x hx)
    | _ => simp [GoType.lead] at hlead

/-- **Keys decide identity.** The key spells enough of a type to tell it from every type that is not
identical to it, and nothing that identical types differ in. -/
theorem GoType.key_eq_iff_identical {t u : GoType} (ht : t.WellNamed) (hu : u.WellNamed) :
    t.key = u.key ↔ t.Identical u :=
  ⟨ht.identical hu, GoType.Identical.key_eq⟩

/-- An interface with two methods and an embedded interface. -/
def readCloser : GoType :=
  .interface
    [⟨"Read", ⟨[⟨"p", .slice (.basic "byte")⟩], []⟩⟩, ⟨"Close", ⟨[], [⟨"", .basic "error"⟩]⟩⟩]
    [.named "Seeker" (some ⟨"io", "std/io"⟩)]

/-- The same interface in another order, and with other names where names do not matter. -/
def closeReader : GoType :=
  .interface
    [⟨"Close", ⟨[], [⟨"failure", .named "error" none⟩]⟩⟩,
      ⟨"Read", ⟨[⟨"buffer", .slice (.basic "byte")⟩], []⟩⟩]
    [.named "Seeker" (some ⟨"stdio", "std/io"⟩)]

theorem readCloser_identical_closeReader :
    readCloser.WellNamed ∧ closeReader.WellNamed ∧ readCloser.Identical closeReader := by
  have hnames : IsName "Read" ∧ IsName "Close" ∧ IsName "Seeker" ∧ IsName "byte" ∧ IsName "error" := by
    refine ⟨?_, ?_, ?_, ?_, ?_⟩ <;> exact isName_of_identifier (by decide) (by decide)
  obtain ⟨hRead, hClose, hSeeker, hbyte, herror⟩ := hnames
  have hpath : IsPath "std/io".toList := by decide
  have hread : ∀ name, (GoType.signature ⟨[⟨name, .slice (.basic "byte")⟩], []⟩).WellNamed :=
    fun _ => .signature (by simpa using .slice (.basic hbyte)) (by simp)
  have hclose : ∀ {name result}, result.WellNamed →
      (GoType.signature ⟨[], [⟨name, result⟩]⟩).WellNamed :=
    fun hresult => .signature (by simp) (by simpa using hresult)
  have hleft : readCloser.WellNamed :=
    .interface (by simpa using ⟨hRead, hClose⟩)
      (by simpa using ⟨hread "p", hclose (.basic herror)⟩) (by simpa using .named hSeeker hpath)
  have hright : closeReader.WellNamed :=
    .interface (by simpa using ⟨hClose, hRead⟩)
      (by simpa using ⟨hclose (.unpackaged herror), hread "buffer"⟩)
      (by simpa using .named hSeeker hpath)
  have hkey : readCloser.key = closeReader.key := by
    rw [readCloser, closeReader, GoType.key, GoType.key, sort_eq_sort_iff.2]
    decide +kernel
  exact ⟨hleft, hright, (GoType.key_eq_iff_identical hleft hright).1 hkey⟩

end GoUml
