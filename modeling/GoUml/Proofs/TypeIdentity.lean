import GoUml.Naming
import GoUml.Text.Identifier
import Mathlib.Data.List.Forall2

/-!
# Identity of types

Two types are identical when they differ only in what a caller cannot see: the names of parameters,
results and embedded fields, the names that packages go by, and the order in which an interface
lists its parts. Identity is said here by rules of its own, without reference to keys, and identical
types are shown to have equal keys.
-/

namespace GoUml

open Text

def keyMarks : List Char := [' ', '*', '$', '[', ']', '(', ')', '\x7b', '\x7d', ',', ';']

/-- A character that is none of the marks. An import path without white space and without the other
marks has such characters only. -/
def isPathChar (c : Char) : Bool := !keyMarks.contains c

def IsPath (cs : List Char) : Prop := ∀ c ∈ cs, isPathChar c = true

instance (cs : List Char) : Decidable (IsPath cs) :=
  decidable_of_iff (cs.all isPathChar = true) List.all_eq_true

/-- A text of path characters other than the dot, and not empty. -/
structure IsName (text : String) : Prop where
  nonempty : text.toList ≠ []
  path : IsPath text.toList
  no_dot : '.' ∉ text.toList

/-- Letters, digits and underscores make names. -/
theorem isName_of_identifier {text : String} (hnonempty : text.toList ≠ [])
    (h : text.toList.all isIdentifierRest = true) : IsName text := by
  have hmarks : ('.' :: keyMarks).all (!isIdentifierRest ·) = true := by decide
  have hnot_mem : ∀ c ∈ text.toList, c ∉ '.' :: keyMarks := by
    intro c hc hmem
    have hnot := List.all_eq_true.1 hmarks c hmem
    rw [List.all_eq_true.1 h c hc] at hnot
    cases hnot
  refine ⟨hnonempty, fun c hc => ?_, fun hdot => ?_⟩
  · rw [isPathChar, Bool.not_eq_true', List.contains_eq_mem, decide_eq_false_iff_not]
    exact fun hmem => hnot_mem c hc (List.mem_cons_of_mem _ hmem)
  · exact hnot_mem '.' hdot List.mem_cons_self

/-- Every name that a key spells is a name, and every import path that it spells is a path. Names of
parameters, results and embedded fields are free, and so are names of packages. -/
inductive GoType.WellNamed : GoType → Prop
  | basic {name : String} (hname : IsName name) : WellNamed (.basic name)
  | unpackaged {name : String} (hname : IsName name) : WellNamed (.named name none)
  | named {name : String} {package : PackageId} (hname : IsName name)
      (hpath : IsPath package.path.toList) : WellNamed (.named name (some package))
  | typeParam {name : String} (hname : IsName name) : WellNamed (.typeParam name)
  | pointer {elem : GoType} (helem : WellNamed elem) : WellNamed (.pointer elem)
  | slice {elem : GoType} (helem : WellNamed elem) : WellNamed (.slice elem)
  | array {elem : GoType} (helem : WellNamed elem) : WellNamed (.array elem)
  | chan {elem : GoType} (helem : WellNamed elem) : WellNamed (.chan elem)
  | map {key value : GoType} (hkey : WellNamed key) (hvalue : WellNamed value) :
      WellNamed (.map key value)
  | signature {params results : List Param} (hparams : ∀ p ∈ params, WellNamed p.type)
      (hresults : ∀ r ∈ results, WellNamed r.type) : WellNamed (.signature ⟨params, results⟩)
  | struct {fields : List StructField} (hnames : ∀ f ∈ fields, f.embedded = false → IsName f.name)
      (htypes : ∀ f ∈ fields, WellNamed f.type) : WellNamed (.struct fields)
  | interface {methods : List InterfaceMethod} {embeds : List GoType}
      (hnames : ∀ m ∈ methods, IsName m.name)
      (hmethods : ∀ m ∈ methods, WellNamed (.signature m.signature))
      (hembeds : ∀ e ∈ embeds, WellNamed e) : WellNamed (.interface methods embeds)
  | tuple {elems : List GoType} (helems : ∀ e ∈ elems, WellNamed e) : WellNamed (.tuple elems)

/-! ### Identity of types -/

/-- Two types are identical when they are equal up to the names of parameters, results and embedded
fields, the names of packages, and the order in which an interface lists its methods and embeds. A
basic type is identical to a type of the same name that belongs to no package. -/
inductive GoType.Identical : GoType → GoType → Prop
  | basic (name : String) : Identical (.basic name) (.basic name)
  | basicUnpackaged (name : String) : Identical (.basic name) (.named name none)
  | unpackagedBasic (name : String) : Identical (.named name none) (.basic name)
  | unpackaged (name : String) : Identical (.named name none) (.named name none)
  | named (name : String) {p q : PackageId} (hpath : p.path = q.path) :
      Identical (.named name (some p)) (.named name (some q))
  | typeParam (name : String) : Identical (.typeParam name) (.typeParam name)
  | pointer {t u : GoType} (h : Identical t u) : Identical (.pointer t) (.pointer u)
  | slice {t u : GoType} (h : Identical t u) : Identical (.slice t) (.slice u)
  | array {t u : GoType} (h : Identical t u) : Identical (.array t) (.array u)
  | chan {t u : GoType} (h : Identical t u) : Identical (.chan t) (.chan u)
  | map {k l v w : GoType} (hkey : Identical k l) (hvalue : Identical v w) :
      Identical (.map k v) (.map l w)
  | signature {ps qs rs ss : List Param} (hparamCount : ps.length = qs.length)
      (hparams : ∀ x ∈ ps.zip qs, Identical x.1.type x.2.type)
      (hresultCount : rs.length = ss.length)
      (hresults : ∀ x ∈ rs.zip ss, Identical x.1.type x.2.type) :
      Identical (.signature ⟨ps, rs⟩) (.signature ⟨qs, ss⟩)
  | struct {fs gs : List StructField} (hcount : fs.length = gs.length)
      (hembedded : ∀ x ∈ fs.zip gs, x.1.embedded = x.2.embedded)
      (hnames : ∀ x ∈ fs.zip gs, x.1.embedded = false → x.1.name = x.2.name)
      (htypes : ∀ x ∈ fs.zip gs, Identical x.1.type x.2.type) : Identical (.struct fs) (.struct gs)
  | interface {ms ns ns' : List InterfaceMethod} {es fs fs' : List GoType}
      (hmethodOrder : ns.Perm ns') (hmethodCount : ms.length = ns'.length)
      (hnames : ∀ x ∈ ms.zip ns', x.1.name = x.2.name)
      (hmethods : ∀ x ∈ ms.zip ns',
        Identical (.signature x.1.signature) (.signature x.2.signature))
      (hembedOrder : fs.Perm fs') (hembedCount : es.length = fs'.length)
      (hembeds : ∀ x ∈ es.zip fs', Identical x.1 x.2) :
      Identical (.interface ms es) (.interface ns fs)
  | tuple {ts us : List GoType} (hcount : ts.length = us.length)
      (helems : ∀ x ∈ ts.zip us, Identical x.1 x.2) : Identical (.tuple ts) (.tuple us)

theorem map_eq_map_iff_zip {α β γ : Type} {f : α → γ} {g : β → γ} {xs : List α} {ys : List β} :
    xs.map f = ys.map g ↔ xs.length = ys.length ∧ ∀ x ∈ xs.zip ys, f x.1 = g x.2 := by
  rw [← List.forall₂_eq_eq_eq, List.forall₂_map_left_iff, List.forall₂_map_right_iff,
    List.forall₂_iff_zip]
  constructor
  · rintro ⟨hlength, h⟩
    exact ⟨hlength, fun x hx => h hx⟩
  · rintro ⟨hlength, h⟩
    exact ⟨hlength, fun hx => h _ hx⟩

theorem paramKeys_eq_map (params : List Param) : paramKeys params = params.map (·.type.key) := by
  induction params with
  | nil => rfl
  | cons p rest ih => rw [paramKeys, ih, List.map_cons]

theorem paramKeys_eq_iff {ps qs : List Param} :
    paramKeys ps = paramKeys qs ↔
      ps.length = qs.length ∧ ∀ x ∈ ps.zip qs, x.1.type.key = x.2.type.key := by
  rw [paramKeys_eq_map, paramKeys_eq_map, map_eq_map_iff_zip]

theorem typeKeys_eq_map (types : List GoType) : typeKeys types = types.map GoType.key := by
  induction types with
  | nil => rfl
  | cons t rest ih => rw [typeKeys, ih, List.map_cons]

theorem typeKeys_eq_iff {ts us : List GoType} :
    typeKeys ts = typeKeys us ↔ ts.length = us.length ∧ ∀ x ∈ ts.zip us, x.1.key = x.2.key := by
  rw [typeKeys_eq_map, typeKeys_eq_map, map_eq_map_iff_zip]

def FieldOf.spelledName (f : StructField) : String := if f.embedded then "" else f.name

def FieldOf.part (f : StructField) : String := f.spelledName ++ " " ++ f.type.key

theorem fieldKeys_eq_map (fields : List StructField) :
    fieldKeys fields = fields.map FieldOf.part := by
  induction fields with
  | nil => rfl
  | cons f rest ih =>
    rw [fieldKeys, ih, List.map_cons]
    rfl

theorem fieldKeys_eq_iff {fs gs : List StructField} :
    fieldKeys fs = fieldKeys gs ↔ fs.length = gs.length ∧ ∀ x ∈ fs.zip gs, x.1.part = x.2.part := by
  rw [fieldKeys_eq_map, fieldKeys_eq_map, map_eq_map_iff_zip]

def MethodOf.part (m : InterfaceMethod) : String := m.name ++ signatureKey m.signature

theorem methodKeys_eq_map (methods : List InterfaceMethod) :
    methodKeys methods = methods.map MethodOf.part := by
  induction methods with
  | nil => rfl
  | cons m rest ih =>
    rw [methodKeys, ih, List.map_cons]
    rfl

theorem methodKeys_eq_iff {ms ns : List InterfaceMethod} :
    methodKeys ms = methodKeys ns ↔
      ms.length = ns.length ∧ ∀ x ∈ ms.zip ns, x.1.part = x.2.part := by
  rw [methodKeys_eq_map, methodKeys_eq_map, map_eq_map_iff_zip]

theorem notAfter_trans (a b c : String) (hab : notAfter a b = true) (hbc : notAfter b c = true) :
    notAfter a c = true := by
  simp only [notAfter, Bool.not_eq_true', decide_eq_false_iff_not, String.not_lt] at *
  exact String.le_trans hab hbc

theorem notAfter_total (a b : String) : (notAfter a b || notAfter b a) = true := by
  simp only [notAfter, Bool.or_eq_true, Bool.not_eq_true', decide_eq_false_iff_not, String.not_lt]
  exact String.le_total a b

theorem notAfter_antisymm {a b : String} (hab : notAfter a b = true) (hba : notAfter b a = true) :
    a = b := by
  simp only [notAfter, Bool.not_eq_true', decide_eq_false_iff_not, String.not_lt] at *
  exact String.le_antisymm hab hba

theorem sort_eq_sort_iff {xs ys : List String} : sort xs = sort ys ↔ xs.Perm ys := by
  have hx : (sort xs).Perm xs := List.mergeSort_perm xs notAfter
  have hy : (sort ys).Perm ys := List.mergeSort_perm ys notAfter
  constructor
  · intro h
    exact hx.symm.trans (h ▸ hy)
  · intro h
    exact (hx.trans (h.trans hy.symm)).eq_of_pairwise (fun _ _ _ _ => notAfter_antisymm)
      (List.pairwise_mergeSort notAfter_trans notAfter_total xs)
      (List.pairwise_mergeSort notAfter_trans notAfter_total ys)

/-! ### Identical types have equal keys -/

theorem GoType.Identical.key_eq {t u : GoType} (h : t.Identical u) : t.key = u.key := by
  induction h with
  | basic | basicUnpackaged | unpackagedBasic | unpackaged | typeParam => rfl
  | named name hpath => rw [GoType.key, GoType.key, hpath]
  | pointer _ ih | slice _ ih | array _ ih | chan _ ih => rw [GoType.key, GoType.key, ih]
  | map _ _ ihKey ihValue => rw [GoType.key, GoType.key, ihKey, ihValue]
  | signature hparamCount _ hresultCount _ ihParams ihResults =>
    have hparams := paramKeys_eq_iff.2 ⟨hparamCount, ihParams⟩
    have hresults := paramKeys_eq_iff.2 ⟨hresultCount, ihResults⟩
    rw [GoType.key, GoType.key, signatureKey, signatureKey, hparams, hresults]
  | struct hcount hembedded hnames _ ih =>
    have hfields := fieldKeys_eq_iff.2 ⟨hcount, fun x hx => by
      rw [FieldOf.part, FieldOf.part, ih x hx, FieldOf.spelledName, FieldOf.spelledName,
        ← hembedded x hx]
      split
      · rfl
      · next hnot => rw [hnames x hx (Bool.eq_false_iff.2 hnot)]⟩
    rw [GoType.key, GoType.key, hfields]
  | interface hmethodOrder hmethodCount hnames _ hembedOrder hembedCount _ ihMethods ihEmbeds =>
    have hmethods := methodKeys_eq_iff.2 ⟨hmethodCount, fun x hx => by
      have hsignature : signatureKey x.1.signature = signatureKey x.2.signature := ihMethods x hx
      rw [MethodOf.part, MethodOf.part, hnames x hx, hsignature]⟩
    have hembeds := typeKeys_eq_iff.2 ⟨hembedCount, ihEmbeds⟩
    have hmethodPerm := hmethodOrder.symm.map MethodOf.part
    have hembedPerm := hembedOrder.symm.map GoType.key
    rw [← methodKeys_eq_map, ← methodKeys_eq_map] at hmethodPerm
    rw [← typeKeys_eq_map, ← typeKeys_eq_map] at hembedPerm
    rw [GoType.key, GoType.key, hmethods, hembeds,
      sort_eq_sort_iff.2 (hmethodPerm.append hembedPerm)]
  | tuple hcount _ ih => rw [GoType.key, GoType.key, typeKeys_eq_iff.2 ⟨hcount, ih⟩]

end GoUml
