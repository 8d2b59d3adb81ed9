import GoUml.Proofs.PromotedNames

/-!
# Shallower methods come first

Of several methods with one name, a struct should have one that is promoted from the smallest depth
of embedding. The search takes level after level, and the first method it meets stays, so what is
found on a level is never replaced by anything deeper. One kind of declaration does not wait for its
level: the method of an embedded predeclared `error` is added together with the methods of the
struct that embeds it, one level early. So it comes before the methods of the structs that stand
behind that struct on the same level, although they are shallower. For every other name, and
wherever no struct at the depth in question embeds `error`, the method of a struct is a shallowest
one.
-/

namespace GoUml

/-- The struct embeds the predeclared `error` and declares no method `Error` itself. -/
structure Struct.TakesError (t : Struct) : Prop where
  embeds : ∃ f ∈ t.embeddedFields, f.isError = true
  undeclared : ∀ m ∈ t.methods, m.name ≠ "Error"

namespace Catalog

/-- The second struct is embedded in the first one through this many fields. -/
inductive EmbeddedAt (c : Catalog) (s : Struct) : Nat → Struct → Prop
  | self : EmbeddedAt c s 0 s
  | deeper {depth : Nat} {t u : Struct} (h : EmbeddedAt c s depth t) (hembeds : c.EmbedsStruct t u) :
      EmbeddedAt c s (depth + 1) u

/-- The struct is embedded at this depth and at no smaller one. -/
structure FirstReached (c : Catalog) (s t : Struct) (depth : Nat) : Prop where
  reached : c.EmbeddedAt s depth t
  first : ∀ e < depth, ¬ c.EmbeddedAt s e t

/-- The embedded field contributes a method with this name and key. An interface contributes what it
requires, and when it cannot be collected to the end, what is found before the search stops. -/
inductive Contributes (c : Catalog) (f : Field) (name key : String) : Prop
  | struct {u : Struct} {m : Function} (hu : c.fieldEntity? f = some (.struct u))
      (hm : m ∈ u.methods) (hname : m.name = name) (hkey : m.signatureKey = key) :
      Contributes c f name key
  | defined {d : DefinedType} {m : Function} (hd : c.fieldEntity? f = some (.defined d))
      (hm : m ∈ d.methods) (hname : m.name = name) (hkey : m.signatureKey = key) :
      Contributes c f name key
  | interface {i : Interface} {required : MethodSet}
      (hi : c.fieldEntity? f = some (.interface i)) (hrequired : c.requiredMethods? i = some required)
      (hkey : required.find? name = some key) : Contributes c f name key
  | unfinished {i : Interface} (hi : c.fieldEntity? f = some (.interface i))
      (hrequired : c.requiredMethods? i = none)
      (hkey : (c.ownMethods (.interface i)).find? name = some key) : Contributes c f name key
  | error (herror : f.isError = true) (hname : name = "Error") (hkey : key = "()(string)") :
      Contributes c f name key

/-- A method with this name and key is declared at this depth: depth zero is the struct itself, and
what the embedded fields of a struct contribute is one deeper than that struct. -/
inductive DeclaredAt (c : Catalog) (s : Struct) (name key : String) : Nat → Prop
  | own {m : Function} (hm : m ∈ s.methods) (hname : m.name = name) (hkey : m.signatureKey = key) :
      DeclaredAt c s name key 0
  | embedded {t : Struct} {f : Field} {depth : Nat} (hreached : c.FirstReached s t depth)
      (hf : f ∈ t.embeddedFields) (h : c.Contributes f name key) :
      DeclaredAt c s name key (depth + 1)

/-- The smallest depth at which a method of this name is declared. -/
structure Shallowest (c : Catalog) (s : Struct) (name : String) (depth : Nat) : Prop where
  declared : ∃ key, c.DeclaredAt s name key depth
  least : ∀ e < depth, ∀ key, ¬ c.DeclaredAt s name key e

variable {c : Catalog} {s t : Struct} {f : Field} {name key : String} {depth : Nat}

/-! ### Depths and layers -/

theorem struct_mem_layer_iff : .struct t ∈ c.layer s depth ↔ c.EmbeddedAt s depth t := by
  induction depth generalizing t with
  | zero =>
    rw [layer, List.mem_singleton]
    constructor
    · intro h
      cases h
      exact .self
    · intro h
      cases h
      rfl
  | succ depth ih =>
    rw [layer, List.mem_flatMap]
    constructor
    · rintro ⟨above, habove, hbrings⟩
      cases above with
      | struct u => exact .deeper (ih.1 habove) (struct_mem_brings_iff.1 hbrings)
      | interface i => cases hbrings
      | methods fs => cases hbrings
    · intro h
      cases h with
      | deeper h hembeds => exact ⟨_, ih.2 h, struct_mem_brings_iff.2 hembeds⟩

def Above (c : Catalog) (s : Struct) (name : String) (depth : Nat) : Prop :=
  ∀ e < depth, ∀ item ∈ c.layer s e, (c.ownMethods item).find? name = none

/-- A struct of a layer that has the name, or brings in something that has it, is reached there
first if nothing above has the name. -/
theorem firstReached_of_mem_layer (later : Nat) (hmem : .struct t ∈ c.layer s depth)
    (hnone : c.Above s name (depth + later)) {item : Promoted}
    (hitem : ∀ e, .struct t ∈ c.layer s e → item ∈ c.layer s (e + later))
    (hkey : (c.ownMethods item).find? name = some key) : c.FirstReached s t depth := by
  refine ⟨struct_mem_layer_iff.1 hmem, fun e he hreached => ?_⟩
  have habove := hnone (e + later) (by omega) item (hitem e (struct_mem_layer_iff.2 hreached))
  rw [hkey] at habove
  cases habove

/-- A struct has the first of its own methods with a name, or else that of an embedded `error`. -/
theorem declared_or_takesError (h : t.ownMethods.find? name = some key) :
    (∃ m ∈ t.methods, m.name = name ∧ m.signatureKey = key) ∨
      name = "Error" ∧ key = "()(string)" ∧ t.TakesError := by
  rw [find?_struct_ownMethods, Option.or_eq_some_iff] at h
  rcases h with hown | ⟨hnone, herror⟩
  · exact .inl (MethodSet.exists_of_find?_ofFunctions hown)
  · split at herror
    · next hembeds =>
      obtain ⟨hany, rfl⟩ := hembeds
      refine .inr ⟨rfl, (Option.some.inj herror).symm, List.any_eq_true.1 hany, fun m hm hname => ?_⟩
      have hsome := isSome_find?_ofFunctions_iff.2 ⟨m, hm, hname⟩
      rw [hnone] at hsome
      cases hsome
    · cases herror

theorem contributes_interface {i : Interface} (hi : c.fieldEntity? f = some (.interface i))
    (h : (c.ownMethods (.interface i)).find? name = some key) : c.Contributes f name key := by
  cases hrequired : c.requiredMethods? i with
  | none => exact .unfinished hi hrequired h
  | some required =>
    rw [find?_ownMethods_interface hrequired] at h
    exact .interface hi hrequired h

/-- What a field contributes is found in an item that the field brings in, or in the struct of the
field when it is an `error`. -/
theorem exists_item_of_contributes (hf : f ∈ t.embeddedFields) (h : c.Contributes f name key) :
    ∃ item, (item = .struct t ∨ item ∈ c.brings (.struct t)) ∧
      ((c.ownMethods item).find? name).isSome = true := by
  cases h with
  | @struct u m hu hm hname hkey =>
    refine ⟨.struct u, .inr (mem_brings_iff.2 ⟨f, hf, .struct u, hu, rfl⟩), ?_⟩
    exact isSome_find?_struct_ownMethods_iff.2 (.inl ⟨m, hm, hname⟩)
  | @defined d m hd hm hname hkey =>
    refine ⟨.methods d.methods, .inr (mem_brings_iff.2 ⟨f, hf, .defined d, hd, rfl⟩), ?_⟩
    exact isSome_find?_ofFunctions_iff.2 ⟨m, hm, hname⟩
  | @interface i required hi hrequired hkey =>
    refine ⟨.interface i, .inr (mem_brings_iff.2 ⟨f, hf, .interface i, hi, rfl⟩), ?_⟩
    rw [find?_ownMethods_interface hrequired, hkey]
    rfl
  | @unfinished i hi hrequired hkey =>
    refine ⟨.interface i, .inr (mem_brings_iff.2 ⟨f, hf, .interface i, hi, rfl⟩), ?_⟩
    rw [hkey]
    rfl
  | error herror hname hkey =>
    exact ⟨.struct t, .inl rfl, isSome_find?_struct_ownMethods_iff.2 (.inr ⟨⟨f, hf, herror⟩, hname⟩)⟩

/-- Nothing is declared above a depth when no item above it has the name: a declaration has its item
at its own depth, or one level higher when it is that of an `error`. -/
theorem not_declaredAt_of_above (hnone : c.Above s name depth) {e : Nat} (he : e < depth) :
    ¬ c.DeclaredAt s name key e := by
  have hcontra : ∀ {e item}, e < depth → item ∈ c.layer s e →
      ¬ ((c.ownMethods item).find? name).isSome = true := by
    intro e item he hitem hsome
    rw [hnone e he item hitem] at hsome
    cases hsome
  intro h
  cases h with
  | own hm hname hkey =>
    exact hcontra he (List.mem_singleton.2 rfl)
      (isSome_find?_struct_ownMethods_iff.2 (.inl ⟨_, hm, hname⟩))
  | embedded hreached hf hcontributes =>
    have hmem := struct_mem_layer_iff.2 hreached.reached
    obtain ⟨item, hitem, hsome⟩ := exists_item_of_contributes hf hcontributes
    rcases hitem with rfl | hbrings
    · exact hcontra (by omega) hmem hsome
    · exact hcontra he (List.mem_flatMap.2 ⟨_, hmem, hbrings⟩) hsome

/-- The item that decides is declared at its depth, unless it is a struct with an `error`. -/
theorem declaredAt_or_takesError {item : Promoted} (hitem : item ∈ c.layer s depth)
    (hnone : c.Above s name depth) (h : (c.ownMethods item).find? name = some key) :
    c.DeclaredAt s name key depth ∨ name = "Error" ∧ key = "()(string)" ∧
      ∃ t, c.FirstReached s t depth ∧ t.TakesError := by
  have hstruct : ∀ t, item = .struct t → name = "Error" ∧ key = "()(string)" ∧ t.TakesError →
      name = "Error" ∧ key = "()(string)" ∧ ∃ t, c.FirstReached s t depth ∧ t.TakesError := by
    rintro t rfl ⟨hname, hkey, htakes⟩
    exact ⟨hname, hkey, t,
      firstReached_of_mem_layer 0 hitem hnone (fun _ hmem => hmem) h, htakes⟩
  cases depth with
  | zero =>
    cases List.mem_singleton.1 hitem
    rcases declared_or_takesError h with ⟨m, hm, hname, hkey⟩ | herror
    · exact .inl (.own hm hname hkey)
    · exact .inr (hstruct s rfl herror)
  | succ depth =>
    obtain ⟨above, habove, hbrings⟩ := List.mem_flatMap.1 hitem
    cases above with
    | interface i => cases hbrings
    | methods fs => cases hbrings
    | struct t =>
      have hreached : c.FirstReached s t depth := by
        refine firstReached_of_mem_layer 1 habove hnone (fun e hmem => ?_) h
        exact List.mem_flatMap.2 ⟨_, hmem, hbrings⟩
      obtain ⟨f, hf, e, he, hpromoted⟩ := mem_brings_iff.1 hbrings
      cases e with
      | struct u =>
        cases hpromoted
        rcases declared_or_takesError h with ⟨m, hm, hname, hkey⟩ | herror
        · exact .inl (.embedded hreached hf (.struct he hm hname hkey))
        · exact .inr (hstruct u rfl herror)
      | interface i =>
        cases hpromoted
        exact .inl (.embedded hreached hf (contributes_interface he h))
      | defined d =>
        cases hpromoted
        obtain ⟨m, hm, hname, hkey⟩ := MethodSet.exists_of_find?_ofFunctions h
        exact .inl (.embedded hreached hf (.defined he hm hname hkey))
      | typeAlias a => cases hpromoted

/-- The method that a struct has of a name is declared at the smallest depth that declares the name.
The one exception is the method of an embedded `error`, which can also stand for a method `Error`
that is one level shallower, when the struct that embeds it is at the depth of that method. -/
theorem methodSet_shallowest (packages : List Package) {s : Struct}
    (hs : s ∈ (ofPackages packages).structs.all) {name key : String}
    (h : ((ofPackages packages).methodSet s).find? name = some key) :
    ∃ depth, (ofPackages packages).Shallowest s name depth ∧
      ((ofPackages packages).DeclaredAt s name key depth ∨
        name = "Error" ∧ key = "()(string)" ∧
          ∃ t, (ofPackages packages).FirstReached s t depth ∧ t.TakesError) := by
  have hfiled := (reachable_ofPackages packages).filed
  obtain ⟨path, own, hfound⟩ := PackageTable.mem_all_iff.1 hs
  obtain ⟨depth, ⟨item, hitem, hkey⟩, hnone⟩ :=
    exists_of_find?_methodSet hfiled (loaded_of_findStruct? hfiled hfound) h
  have hleast : ∀ e < depth, ∀ key', ¬ (ofPackages packages).DeclaredAt s name key' e :=
    fun e he key' => not_declaredAt_of_above hnone he
  rcases declaredAt_or_takesError hitem hnone hkey with hdeclared | herror
  · exact ⟨depth, ⟨⟨key, hdeclared⟩, hleast⟩, .inl hdeclared⟩
  · by_cases hrival : ∃ key', (ofPackages packages).DeclaredAt s name key' depth
    · exact ⟨depth, ⟨hrival, hleast⟩, .inr herror⟩
    · -- Without a rival the `error` is the shallowest declaration, at its own depth.
      obtain ⟨hname, hkey, t, hreached, htakes⟩ := herror
      obtain ⟨f, hf, hfield⟩ := htakes.embeds
      have hdeclared : (ofPackages packages).DeclaredAt s name key (depth + 1) :=
        .embedded hreached hf (.error hfield hname hkey)
      refine ⟨depth + 1, ⟨⟨key, hdeclared⟩, fun e he key' hkey' => ?_⟩, .inl hdeclared⟩
      rcases Nat.lt_succ_iff_lt_or_eq.1 he with hlt | rfl
      · exact hleast e hlt key' hkey'
      · exact hrival ⟨key', hkey'⟩

/-- Two ways lead to a method `Ring`, one longer than the other. A method `Error` is declared as deep
as the shorter way, and an `error` is embedded in the struct on the longer way. -/
def station : Package where
  name := "station"
  path := "example.com/station"
  imports := []
  declarations :=
    [⟨"Alarm", false, .struct [field (named "Bell"), field (.basic "error")]⟩,
     ⟨"Bell", false, .struct []⟩,
     ⟨"Panel", false, .struct []⟩,
     ⟨"Station", false, .struct [field (named "Alarm"), field (named "Panel")]⟩]
  methods :=
    [⟨"Bell", true, "Ring", ⟨[⟨"times", .basic "int"⟩], []⟩⟩,
     ⟨"Panel", true, "Ring", ⟨[], []⟩⟩,
     ⟨"Panel", true, "Error", ⟨[], [⟨"", .basic "int"⟩]⟩⟩]
where
  named (name : String) : GoType := .named name (some ⟨"station", "example.com/station"⟩)
  field (type : GoType) : StructField := ⟨"", type, true⟩

theorem methodSet_shallowest_station :
    ∃ s ∈ (ofPackages [station]).structs.all, s.name = "Station" ∧
      ((ofPackages [station]).methodSet s).find? "Ring" = some "()()" ∧
      ∃ depth, (ofPackages [station]).Shallowest s "Ring" depth ∧
        (ofPackages [station]).DeclaredAt s "Ring" "()()" depth := by
  have hfound : ((ofPackages [station]).structs.all.any fun s => s.name == "Station" &&
      ((ofPackages [station]).methodSet s).find? "Ring" == some "()()") = true := by
    decide +kernel
  obtain ⟨s, hs, hfound⟩ := List.any_eq_true.1 hfound
  obtain ⟨hname, hkey⟩ := Bool.and_eq_true_iff.1 hfound
  have hring := beq_iff_eq.1 hkey
  obtain ⟨depth, hshallowest, hdeclared | ⟨herror, -⟩⟩ := methodSet_shallowest [station] hs hring
  · exact ⟨s, hs, beq_iff_eq.1 hname, hring, depth, hshallowest, hdeclared⟩
  · exact absurd herror (by decide)

def stationStruct : Struct :=
  ⟨"Station", ⟨"station", "example.com/station"⟩, [embedded "Alarm", embedded "Panel"], [], []⟩
where
  view (type : GoType) : TypeView := PackageId.view ⟨"station", "example.com/station"⟩ type
  embedded (name : String) : Field := ⟨"", view (station.named name), true⟩

def alarmStruct : Struct :=
  ⟨"Alarm", ⟨"station", "example.com/station"⟩,
    [stationStruct.embedded "Bell", ⟨"", stationStruct.view (.basic "error"), true⟩], [], []⟩

def panelStruct : Struct :=
  ⟨"Panel", ⟨"station", "example.com/station"⟩, [],
    [⟨"Ring", [], []⟩, ⟨"Error", [], [stationStruct.view (.basic "int")]⟩], []⟩

/-- The method `Error` of the station is that of the `error` at depth two, although its panel
declares one at depth one. -/
theorem deeper_error_comes_first :
    ¬ ∀ (packages : List Package) (s : Struct), s ∈ (ofPackages packages).structs.all →
      ∀ name key, ((ofPackages packages).methodSet s).find? name = some key →
        ∃ depth, (ofPackages packages).Shallowest s name depth ∧
          (ofPackages packages).DeclaredAt s name key depth := by
  intro h
  have hstation : stationStruct ∈ (ofPackages [station]).structs.all := by decide +kernel
  have hfound : ((ofPackages [station]).methodSet stationStruct).find? "Error" =
      some "()(string)" := by
    decide +kernel
  have halarm : (ofPackages [station]).fieldEntity? (stationStruct.embedded "Alarm") =
      some (.struct alarmStruct) := by
    decide +kernel
  have hpanel : (ofPackages [station]).fieldEntity? (stationStruct.embedded "Panel") =
      some (.struct panelStruct) := by
    decide +kernel
  have hself : (ofPackages [station]).FirstReached stationStruct stationStruct 0 :=
    ⟨.self, fun e he => by omega⟩
  have hrival : (ofPackages [station]).DeclaredAt stationStruct "Error" "()(int)" 1 :=
    .embedded hself (List.mem_of_elem_eq_true (by decide +kernel))
      (.struct hpanel (List.mem_of_mem_tail List.mem_cons_self) rfl (by decide +kernel))
  obtain ⟨depth, hshallowest, hdeclared⟩ := h [station] _ hstation "Error" "()(string)" hfound
  cases hdeclared with
  | own hm => cases hm
  | @embedded t f depth hreached hf hcontributes =>
    -- The panel bounds the depth, so the declaration is one of the two fields of the station.
    have hdepth : depth = 0 := by
      by_contra hdeeper
      exact hshallowest.least 1 (by omega) _ hrival
    subst hdepth
    cases hreached.reached
    have hentity : f.isError = false ∧ ∃ u, (ofPackages [station]).fieldEntity? f =
        some (.struct u) ∧ ∀ m ∈ u.methods, m.signatureKey ≠ "()(string)" := by
      rcases List.mem_pair.1 (List.mem_of_mem_filter hf) with rfl | rfl
      · exact ⟨by decide +kernel, _, halarm, by decide +kernel⟩
      · exact ⟨by decide +kernel, _, hpanel, by decide +kernel⟩
    obtain ⟨hnoError, u, hu, hkeys⟩ := hentity
    cases hcontributes with
    | struct hv hm hname hkey =>
      cases hu.symm.trans hv
      exact hkeys _ hm hkey
    | defined hd => cases hu.symm.trans hd
    | interface hi => cases hu.symm.trans hi
    | unfinished hi => cases hu.symm.trans hi
    | error hisError => cases hnoError.symm.trans hisError

end Catalog

end GoUml
