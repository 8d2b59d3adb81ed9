import GoUml.Model.Writer
import GoUml.Proofs.JsonText

/-!
# A model is recovered from its text

Writing a model as indented JSON and reading the text gives the model back. On values this needs no
bound: each record is read from the slots that its writer fills, and a type inside another one nests
less deep, so the depth that the reader counts down never runs out. On texts the only bound is how
deep the JSON reader lets values nest.
-/

namespace GoUml

open Json

namespace Json

theorem mapM_map_eq_some {α β γ : Type} {read : β → Option γ} {write : α → β} {result : α → γ}
    {items : List α} (h : ∀ a ∈ items, read (write a) = some (result a)) :
    (items.map write).mapM read = some (items.map result) := by
  induction items with
  | nil => rfl
  | cons a rest ih =>
    rw [List.map_cons, List.mapM_cons, h a List.mem_cons_self,
      ih fun b hb => h b (List.mem_cons_of_mem _ hb)]
    rfl

theorem listOf?_map {α : Type} {read : Json → Option α} {write : α → Json} {items : List α}
    (h : ∀ a ∈ items, read (write a) = some a) :
    listOf? read (.array (items.map write)) = some items := by
  have hitems : (items.map write).mapM read = some (items.map id) := mapM_map_eq_some h
  rwa [List.map_id] at hitems

theorem membersNamed_eq_nil {name : String} {members : List (String × Json)}
    (h : name ∉ members.map Prod.fst) : membersNamed name members = [] := by
  rw [membersNamed, List.filterMap_eq_nil_iff]
  intro m hm
  rw [if_neg]
  rintro rfl
  exact h (List.mem_map_of_mem hm)

theorem membersNamed_of_mem {members : List (String × Json)} (hnodup : (members.map Prod.fst).Nodup)
    {m : String × Json} (hm : m ∈ members) : membersNamed m.1 members = [m.2] := by
  induction members with
  | nil => cases hm
  | cons first rest ih =>
    rw [List.map_cons, List.nodup_cons] at hnodup
    rcases List.mem_cons.1 hm with rfl | hrest
    · have hnone := membersNamed_eq_nil hnodup.1
      simpa [membersNamed] using hnone
    · have hne : first.1 ≠ m.1 := by
        intro heq
        exact hnodup.1 (heq ▸ List.mem_map_of_mem hrest)
      rw [← ih hnodup.2 hrest]
      simp [membersNamed, hne]

/-- An object whose names differ has a filled slot for each of them. -/
theorem objectSlots?_eq_some {fields : List String} {members written : List (String × Json)}
    (hnodup : (members.map Prod.fst).Nodup) (hwritten : written ⊆ members)
    (hfields : written.map Prod.fst = fields) :
    objectSlots? fields members = some (written.map fun member => some member.2) := by
  rw [← hfields]
  apply mapM_map_eq_some
  intro member hmember
  rw [slot?, membersNamed_of_mem hnodup (hwritten hmember)]

theorem slots?_object {fields : List String} {members : List (String × Json)}
    (hnodup : fields.Nodup) (hfields : members.map Prod.fst = fields) :
    slots? fields (.object members) = some (members.map fun member => some member.2) :=
  objectSlots?_eq_some (hfields ▸ hnodup) (List.Subset.refl _) hfields

theorem nullable?_optional {α : Type} {read : Json → Option α} {write : α → Json}
    (hnull : ∀ a, write a ≠ .null) (h : ∀ a, read (write a) = some a) (a : Option α) :
    nullable? read (some (optional write a)) = some a := by
  cases a with
  | none => rfl
  | some a =>
    rw [optional, nullable?, h a, Option.map_some]
    exact hnull a

theorem nesting_lt_of_mem_items {item : Json} {items : List Json} (h : item ∈ items) :
    item.nesting < (Json.array items).nesting := by
  rw [nesting]
  exact Nat.lt_succ_of_le (itemsNesting_le_iff.1 (Nat.le_refl _) item h)

theorem nesting_lt_of_mem_members {name : String} {v : Json} {members : List (String × Json)}
    (h : (name, v) ∈ members) : v.nesting < (Json.object members).nesting := by
  rw [nesting]
  exact Nat.lt_succ_of_le (membersNesting_le_iff.1 (Nat.le_refl _) (name, v) h)

theorem nesting_lt_array_map {α : Type} {write : α → Json} {items : List α} {a : α} {v : Json}
    (ha : a ∈ items) (hv : v.nesting ≤ (write a).nesting) :
    v.nesting < (Json.array (items.map write)).nesting :=
  Nat.lt_of_le_of_lt hv (nesting_lt_of_mem_items (List.mem_map_of_mem ha))

end Json

/-- What is written of a type after its kind. -/
def GoType.members : GoType → List (String × Json)
  | .basic name => [("name", .string name)]
  | .named name package =>
    [("name", .string name), ("package", optional PackageId.toJson package)]
  | .typeParam name => [("name", .string name)]
  | .pointer elem => [("elem", elem.toJson)]
  | .slice elem => [("elem", elem.toJson)]
  | .array elem => [("elem", elem.toJson)]
  | .chan elem => [("elem", elem.toJson)]
  | .map key value => [("key", key.toJson), ("value", value.toJson)]
  | .signature s => signatureMembers s
  | .struct fields => [("fields", .array (fieldsToJson fields))]
  | .interface methods embeds => [("methods", .array (interfaceMethodsToJson methods)),
      ("embeddeds", .array (typesToJson embeds))]
  | .tuple elems => [("elems", .array (typesToJson elems))]

def GoType.kind : GoType → TypeKind
  | .basic _ => .basic
  | .named _ _ => .named
  | .typeParam _ => .typeParam
  | .pointer _ => .pointer
  | .slice _ => .slice
  | .array _ => .array
  | .chan _ => .chan
  | .map _ _ => .map
  | .signature _ => .signature
  | .struct _ => .struct
  | .interface _ _ => .interface
  | .tuple _ => .tuple

theorem GoType.toJson_eq_tagged (t : GoType) : t.toJson = t.kind.tagged t.members := by
  cases t <;> rfl

theorem map_fst_signatureMembers (s : Signature) :
    (signatureMembers s).map Prod.fst = ["params", "results"] := by
  cases s
  rfl

theorem GoType.map_fst_members (t : GoType) : t.members.map Prod.fst = t.kind.fields := by
  cases t with
  | signature s => exact map_fst_signatureMembers s
  | _ => rfl

theorem TypeKind.ofWord?_word (kind : TypeKind) : ofWord? kind.word = some kind := by
  cases kind <;> decide

theorem TypeKind.nodup_kind_fields (kind : TypeKind) : ("kind" :: kind.fields).Nodup := by
  cases kind <;> decide

/-- The reader finds the kind of a written type and every field of that kind. -/
theorem kindAndSlots?_toJson (t : GoType) :
    kindAndSlots? t.toJson = some (t.kind, t.members.map fun member => some member.2) := by
  have hnodup : ((("kind", .string t.kind.word) :: t.members).map Prod.fst).Nodup := by
    rw [List.map_cons, t.map_fst_members]
    exact t.kind.nodup_kind_fields
  have hkind := membersNamed_of_mem hnodup List.mem_cons_self
  have hslots := objectSlots?_eq_some hnodup (List.subset_cons_self _ _) t.map_fst_members
  rw [t.toJson_eq_tagged, TypeKind.tagged, kindAndSlots?, slot?, hkind]
  simp only [Option.bind_eq_bind, Option.bind_some, required?, string?, TypeKind.ofWord?_word,
    hslots]
  rfl

def SignatureOf.types (s : Signature) : List GoType :=
  s.params.map (·.type) ++ s.results.map (·.type)

theorem SignatureOf.forall_types_iff {P : GoType → Prop} {s : Signature} :
    (∀ t ∈ s.types, P t) ↔ (∀ p ∈ s.params, P p.type) ∧ ∀ p ∈ s.results, P p.type := by
  rw [types, List.forall_mem_append, List.forall_mem_map, List.forall_mem_map]

def GoType.parts : GoType → List GoType
  | .basic _ | .named _ _ | .typeParam _ => []
  | .pointer elem | .slice elem | .array elem | .chan elem => [elem]
  | .map key value => [key, value]
  | .signature s => s.types
  | .struct fields => fields.map (·.type)
  | .interface methods embeds => methods.flatMap (·.signature.types) ++ embeds
  | .tuple elems => elems

def ParamOf.toJson (p : Param) : Json := .object [("name", .string p.name), ("ty", p.type.toJson)]

def FieldOf.toJson (f : StructField) : Json :=
  .object [("name", .string f.name), ("ty", f.type.toJson), ("embedded", .bool f.embedded)]

def MethodOf.toJson (m : InterfaceMethod) : Json :=
  .object [("name", .string m.name), ("signature", Signature.toJson m.signature)]

theorem paramsToJson_eq_map (params : List Param) :
    paramsToJson params = params.map ParamOf.toJson := by
  induction params with
  | nil => rfl
  | cons p rest ih => rw [paramsToJson, ih, List.map_cons, ParamOf.toJson]

theorem fieldsToJson_eq_map (fields : List StructField) :
    fieldsToJson fields = fields.map FieldOf.toJson := by
  induction fields with
  | nil => rfl
  | cons f rest ih => rw [fieldsToJson, ih, List.map_cons, FieldOf.toJson]

theorem interfaceMethodsToJson_eq_map (methods : List InterfaceMethod) :
    interfaceMethodsToJson methods = methods.map MethodOf.toJson := by
  induction methods with
  | nil => rfl
  | cons m rest ih =>
    rw [interfaceMethodsToJson, ih, List.map_cons, MethodOf.toJson, Signature.toJson]

theorem typesToJson_eq_map (types : List GoType) : typesToJson types = types.map GoType.toJson := by
  induction types with
  | nil => rfl
  | cons t rest ih => rw [typesToJson, ih, List.map_cons]

/-! ### Reading the parts of a type -/

section Parts

variable {type : Json → Option GoType}

theorem paramOfJson?_toJson {p : Param} (h : type p.type.toJson = some p.type) :
    paramOfJson? type p.toJson = some p := by
  have hslots : slots? ["name", "ty"] p.toJson = some [some (.string p.name), some p.type.toJson] :=
    slots?_object (by decide) rfl
  simp [paramOfJson?, hslots, defaulted?, required?, string?, h]

theorem fieldOfJson?_toJson {f : StructField} (h : type f.type.toJson = some f.type) :
    fieldOfJson? type f.toJson = some f := by
  have hslots : slots? ["name", "ty", "embedded"] f.toJson =
      some [some (.string f.name), some f.type.toJson, some (.bool f.embedded)] :=
    slots?_object (by decide) rfl
  simp [fieldOfJson?, hslots, defaulted?, required?, string?, bool?, h]

theorem listOf?_paramsToJson {params : List Param}
    (h : ∀ p ∈ params, type p.type.toJson = some p.type) :
    listOf? (paramOfJson? type) (.array (paramsToJson params)) = some params := by
  rw [paramsToJson_eq_map]
  exact listOf?_map fun p hp => paramOfJson?_toJson (h p hp)

theorem signatureOfSlots?_signatureMembers {s : Signature}
    (h : ∀ t ∈ s.types, type t.toJson = some t) :
    signatureOfSlots? type ((signatureMembers s).map fun member => some member.2) = some s := by
  obtain ⟨params, results⟩ := s
  obtain ⟨hparams, hresults⟩ := SignatureOf.forall_types_iff.1 h
  simp [signatureMembers, signatureOfSlots?, defaulted?, listOf?_paramsToJson hparams,
    listOf?_paramsToJson hresults]

theorem signatureOfJson?_toJson {s : Signature} (h : ∀ t ∈ s.types, type t.toJson = some t) :
    signatureOfJson? type (Signature.toJson s) = some s := by
  have hslots : slots? ["params", "results"] (Signature.toJson s) =
      some ((signatureMembers s).map fun member => some member.2) :=
    slots?_object (by decide) (map_fst_signatureMembers s)
  rw [signatureOfJson?, hslots]
  exact signatureOfSlots?_signatureMembers h

theorem interfaceMethodOfJson?_toJson {m : InterfaceMethod}
    (h : ∀ t ∈ m.signature.types, type t.toJson = some t) :
    interfaceMethodOfJson? type m.toJson = some m := by
  have hslots : slots? ["name", "signature"] m.toJson =
      some [some (.string m.name), some (Signature.toJson m.signature)] :=
    slots?_object (by decide) rfl
  simp [interfaceMethodOfJson?, hslots, required?, string?, signatureOfJson?_toJson h]

end Parts

theorem PackageId.toJson_ne_null (p : PackageId) : p.toJson ≠ .null := nofun

theorem PackageId.ofJson?_toJson (p : PackageId) : ofJson? p.toJson = some p := by
  have hslots : slots? ["name", "path"] p.toJson =
      some [some (.string p.name), some (.string p.path)] :=
    slots?_object (by decide) rfl
  rw [ofJson?, hslots]
  rfl

theorem GoType.build?_members {type : Json → Option GoType} {t : GoType}
    (h : ∀ part ∈ t.parts, type part.toJson = some part) :
    t.kind.build? type (t.members.map fun member => some member.2) = some t := by
  cases t with
  | basic name => rfl
  | named name package =>
    have hpackage : nullable? PackageId.ofJson? (some (optional PackageId.toJson package)) =
        some package := nullable?_optional PackageId.toJson_ne_null PackageId.ofJson?_toJson package
    simp [kind, members, TypeKind.build?, required?, string?, hpackage]
  | typeParam name => rfl
  | pointer elem | slice elem | array elem | chan elem =>
    simp [kind, members, TypeKind.build?, required?, h elem List.mem_cons_self]
  | map key value =>
    have hkey := h key List.mem_cons_self
    have hvalue := h value (List.mem_cons_of_mem _ List.mem_cons_self)
    simp [kind, members, TypeKind.build?, required?, hkey, hvalue]
  | signature s =>
    have hslots := signatureOfSlots?_signatureMembers h
    simp only [kind, members, TypeKind.build?, hslots, Option.map_some]
  | struct fields =>
    have hfields : listOf? (fieldOfJson? type) (.array (fieldsToJson fields)) = some fields := by
      rw [fieldsToJson_eq_map]
      exact listOf?_map fun f hf => fieldOfJson?_toJson (h f.type (List.mem_map_of_mem hf))
    simp [kind, members, TypeKind.build?, defaulted?, hfields]
  | interface methods embeds =>
    have hmethods : listOf? (interfaceMethodOfJson? type)
        (.array (interfaceMethodsToJson methods)) = some methods := by
      rw [interfaceMethodsToJson_eq_map]
      refine listOf?_map fun m hm => interfaceMethodOfJson?_toJson fun t ht => h t ?_
      exact List.mem_append_left _ (List.mem_flatMap_of_mem hm ht)
    have hembeds : listOf? type (.array (typesToJson embeds)) = some embeds := by
      rw [typesToJson_eq_map]
      exact listOf?_map fun t ht => h t (List.mem_append_right _ ht)
    simp [kind, members, TypeKind.build?, defaulted?, hmethods, hembeds]
  | tuple elems =>
    have helems : listOf? type (.array (typesToJson elems)) = some elems := by
      rw [typesToJson_eq_map]
      exact listOf?_map fun t ht => h t ht
    simp [kind, members, TypeKind.build?, defaulted?, helems]

theorem ParamOf.nesting_type_lt (p : Param) : p.type.toJson.nesting < p.toJson.nesting :=
  nesting_lt_of_mem_members (List.mem_cons_of_mem _ List.mem_cons_self)

theorem FieldOf.nesting_type_lt (f : StructField) : f.type.toJson.nesting < f.toJson.nesting :=
  nesting_lt_of_mem_members (List.mem_cons_of_mem _ List.mem_cons_self)

theorem nesting_lt_paramsToJson {params : List Param} {t : GoType}
    (h : t ∈ params.map (·.type)) :
    t.toJson.nesting < (Json.array (paramsToJson params)).nesting := by
  obtain ⟨p, hp, rfl⟩ := List.mem_map.1 h
  rw [paramsToJson_eq_map]
  exact nesting_lt_array_map hp (Nat.le_of_lt p.nesting_type_lt)

theorem exists_signatureMember {s : Signature} {t : GoType} (h : t ∈ s.types) :
    ∃ member ∈ signatureMembers s, t.toJson.nesting < member.2.nesting := by
  obtain ⟨params, results⟩ := s
  rcases List.mem_append.1 h with h | h
  · exact ⟨_, List.mem_cons_self, nesting_lt_paramsToJson h⟩
  · exact ⟨_, List.mem_cons_of_mem _ List.mem_cons_self, nesting_lt_paramsToJson h⟩

theorem MethodOf.nesting_lt {m : InterfaceMethod} {t : GoType} (h : t ∈ m.signature.types) :
    t.toJson.nesting < m.toJson.nesting := by
  obtain ⟨member, hmember, hlt⟩ := exists_signatureMember h
  have hsignature : member.2.nesting < (Signature.toJson m.signature).nesting :=
    nesting_lt_of_mem_members hmember
  have hmethod : (Signature.toJson m.signature).nesting < m.toJson.nesting :=
    nesting_lt_of_mem_members (List.mem_cons_of_mem _ List.mem_cons_self)
  omega

theorem GoType.exists_member_of_mem_parts {t part : GoType} (h : part ∈ t.parts) :
    ∃ member ∈ t.members, part.toJson.nesting ≤ member.2.nesting := by
  cases t with
  | basic _ | named _ _ | typeParam _ => cases h
  | pointer elem | slice elem | array elem | chan elem =>
    obtain rfl := List.mem_singleton.1 h
    exact ⟨_, List.mem_cons_self, Nat.le_refl _⟩
  | map key value =>
    rcases List.mem_cons.1 h with rfl | h
    · exact ⟨_, List.mem_cons_self, Nat.le_refl _⟩
    · obtain rfl := List.mem_singleton.1 h
      exact ⟨_, List.mem_cons_of_mem _ List.mem_cons_self, Nat.le_refl _⟩
  | signature s =>
    obtain ⟨member, hmember, hlt⟩ := exists_signatureMember h
    exact ⟨member, hmember, Nat.le_of_lt hlt⟩
  | struct fields =>
    obtain ⟨f, hf, rfl⟩ := List.mem_map.1 h
    refine ⟨_, List.mem_cons_self, ?_⟩
    rw [fieldsToJson_eq_map]
    exact Nat.le_of_lt (nesting_lt_array_map hf (Nat.le_of_lt f.nesting_type_lt))
  | interface methods embeds =>
    rcases List.mem_append.1 h with h | h
    · obtain ⟨m, hm, hpart⟩ := List.mem_flatMap.1 h
      refine ⟨_, List.mem_cons_self, ?_⟩
      rw [interfaceMethodsToJson_eq_map]
      exact Nat.le_of_lt (nesting_lt_array_map hm (Nat.le_of_lt (MethodOf.nesting_lt hpart)))
    · refine ⟨_, List.mem_cons_of_mem _ List.mem_cons_self, ?_⟩
      rw [typesToJson_eq_map]
      exact Nat.le_of_lt (nesting_lt_array_map h (Nat.le_refl _))
  | tuple elems =>
    refine ⟨_, List.mem_cons_self, ?_⟩
    rw [typesToJson_eq_map]
    exact Nat.le_of_lt (nesting_lt_array_map h (Nat.le_refl _))

/-- A type that stands directly inside another nests less deep. -/
theorem GoType.nesting_part_lt {t part : GoType} (h : part ∈ t.parts) :
    part.toJson.nesting < t.toJson.nesting := by
  obtain ⟨member, hmember, hle⟩ := exists_member_of_mem_parts h
  rw [t.toJson_eq_tagged, TypeKind.tagged]
  exact Nat.lt_of_le_of_lt hle (nesting_lt_of_mem_members (List.mem_cons_of_mem _ hmember))

/-- A type is recovered at every depth that its value does not exceed. -/
theorem GoType.read?_toJson (depth : Nat) {t : GoType} (h : t.toJson.nesting ≤ depth) :
    read? depth t.toJson = some t := by
  induction depth generalizing t with
  | zero =>
    rw [t.toJson_eq_tagged, TypeKind.tagged, nesting] at h
    cases h
  | succ depth ih =>
    rw [read?, kindAndSlots?_toJson]
    apply build?_members
    intro part hpart
    have hlt := nesting_part_lt hpart
    exact ih (by omega)

theorem GoType.ofJson?_toJson (t : GoType) : ofJson? t.toJson = some t :=
  read?_toJson _ (Nat.le_refl _)

/-! ### Packages -/

theorem Signature.ofJson?_toJson (s : Signature) :
    Signature.ofJson? (Signature.toJson s) = some s :=
  signatureOfJson?_toJson fun t _ => t.ofJson?_toJson

theorem Declaration.ofJson?_toJson (d : Declaration) : ofJson? d.toJson = some d := by
  have hslots : slots? ["name", "alias", "underlying"] d.toJson =
      some [some (.string d.name), some (.bool d.isAlias), some d.underlying.toJson] :=
    slots?_object (by decide) rfl
  simp [ofJson?, hslots, required?, defaulted?, string?, bool?, GoType.ofJson?_toJson]

theorem MethodDecl.ofJson?_toJson (m : MethodDecl) : ofJson? m.toJson = some m := by
  have hslots : slots? ["receiver", "pointer_receiver", "name", "signature"] m.toJson =
      some [some (.string m.receiver), some (.bool m.pointerReceiver), some (.string m.name),
        some (Signature.toJson m.signature)] :=
    slots?_object (by decide) rfl
  simp [ofJson?, hslots, required?, defaulted?, string?, bool?, Signature.ofJson?_toJson]

theorem Import.ofJson?_toJson (i : Import) : ofJson? i.toJson = some i := by
  have hslots : slots? ["path", "name", "alias"] i.toJson =
      some [some (.string i.path), some (.string i.name), some (optional .string i.localName)] :=
    slots?_object (by decide) rfl
  have hname : nullable? string? (some (optional .string i.localName)) = some i.localName :=
    nullable?_optional (by simp) (by simp [string?]) i.localName
  simp [ofJson?, hslots, required?, string?, hname]

theorem Package.ofJson?_toJson (p : Package) : ofJson? p.toJson = some p := by
  have hslots : slots? ["name", "path", "imports", "objects", "methods"] p.toJson =
      some [some (.string p.name), some (.string p.path),
        some (.array (p.imports.map Import.toJson)),
        some (.array (p.declarations.map Declaration.toJson)),
        some (.array (p.methods.map MethodDecl.toJson))] :=
    slots?_object (by decide) rfl
  have himports : listOf? Import.ofJson? (.array (p.imports.map Import.toJson)) = some p.imports :=
    listOf?_map fun i _ => i.ofJson?_toJson
  have hdeclarations : listOf? Declaration.ofJson?
      (.array (p.declarations.map Declaration.toJson)) = some p.declarations :=
    listOf?_map fun d _ => d.ofJson?_toJson
  have hmethods : listOf? MethodDecl.ofJson? (.array (p.methods.map MethodDecl.toJson)) =
      some p.methods :=
    listOf?_map fun m _ => m.ofJson?_toJson
  simp [ofJson?, hslots, required?, defaulted?, string?, himports, hdeclarations, hmethods]

/-- A model is recovered from its value, however deep it nests. -/
theorem packagesOfJson?_packagesToJson (packages : List Package) :
    packagesOfJson? (packagesToJson packages) = some packages :=
  listOf?_map fun p _ => p.ofJson?_toJson

theorem numberFree_paramsToJson {params : List Param}
    (h : ∀ p ∈ params, NumberFree p.type.toJson) : NumberFree (.array (paramsToJson params)) := by
  simpa [paramsToJson_eq_map, ParamOf.toJson] using h

theorem numberFree_signatureMembers {s : Signature} (h : ∀ t ∈ s.types, NumberFree t.toJson) :
    ∀ member ∈ signatureMembers s, NumberFree member.2 := by
  obtain ⟨params, results⟩ := s
  obtain ⟨hparams, hresults⟩ := SignatureOf.forall_types_iff.1 h
  exact List.forall_mem_cons.2 ⟨numberFree_paramsToJson hparams,
    List.forall_mem_singleton.2 (numberFree_paramsToJson hresults)⟩

theorem GoType.numberFree_members {t : GoType} (h : ∀ part ∈ t.parts, NumberFree part.toJson) :
    ∀ member ∈ t.members, NumberFree member.2 := by
  cases t with
  | basic name | typeParam name => simp [members]
  | named name package => cases package <;> simp [members, Json.optional, PackageId.toJson]
  | pointer elem | slice elem | array elem | chan elem => simpa [members, parts] using h
  | map key value => simpa [members, parts] using h
  | signature s => exact numberFree_signatureMembers h
  | struct fields => simpa [members, parts, fieldsToJson_eq_map, FieldOf.toJson] using h
  | interface methods embeds =>
    have hmethods : ∀ m ∈ methods, NumberFree m.toJson := by
      intro m hm
      have hsignature := numberFree_signatureMembers fun t ht =>
        h t (List.mem_append_left _ (List.mem_flatMap_of_mem hm ht))
      exact .object (List.forall_mem_cons.2
        ⟨.string m.name, List.forall_mem_singleton.2 (.object hsignature)⟩)
    have hembeds : ∀ t ∈ embeds, NumberFree t.toJson :=
      fun t ht => h t (List.mem_append_right _ ht)
    simpa [members, interfaceMethodsToJson_eq_map, typesToJson_eq_map] using ⟨hmethods, hembeds⟩
  | tuple elems => simpa [members, parts, typesToJson_eq_map] using h

theorem GoType.numberFree_toJson (t : GoType) : NumberFree t.toJson := by
  -- the parts nest less deep, which ends the recursion
  have hmembers : ∀ member ∈ t.members, NumberFree member.2 :=
    numberFree_members fun part hpart => numberFree_toJson part
  rw [t.toJson_eq_tagged, TypeKind.tagged]
  exact .object (List.forall_mem_cons.2 ⟨.string _, hmembers⟩)
termination_by t.toJson.nesting
decreasing_by exact nesting_part_lt hpart

theorem Package.numberFree_toJson (p : Package) : NumberFree p.toJson := by
  have himports : ∀ i ∈ p.imports, NumberFree i.toJson := by
    intro i _
    cases hname : i.localName <;> simp [Import.toJson, Json.optional, hname]
  have hdeclarations : ∀ d ∈ p.declarations, NumberFree d.toJson := by
    intro d _
    simp [Declaration.toJson, GoType.numberFree_toJson]
  have hmethods : ∀ m ∈ p.methods, NumberFree m.toJson := by
    intro m _
    have hsignature : ∀ member ∈ signatureMembers m.signature, NumberFree member.2 :=
      numberFree_signatureMembers fun t _ => t.numberFree_toJson
    simpa [MethodDecl.toJson, Signature.toJson] using hsignature
  simpa [toJson] using ⟨himports, hdeclarations, hmethods⟩

/-- The text of a model gives the model back when it nests at most 127 deep, and is refused when it
nests deeper. -/
theorem parsePackages?_renderPackages (packages : List Package) :
    parsePackages? (renderPackages packages) =
      if (packagesToJson packages).nesting ≤ 127 then some packages else none := by
  have hfree : NumberFree (packagesToJson packages) := by
    simpa [packagesToJson] using fun p (_ : p ∈ packages) => p.numberFree_toJson
  rw [parsePackages?, renderPackages, parse?_pretty hfree]
  by_cases hnesting : (packagesToJson packages).nesting ≤ 127
  · have hwithin : (packagesToJson packages).within maxNesting = true := decide_eq_true hnesting
    rw [Option.guard, if_pos hwithin, if_pos hnesting]
    exact packagesOfJson?_packagesToJson packages
  · have hwithin : (packagesToJson packages).within maxNesting = false := decide_eq_false hnesting
    rw [Option.guard, hwithin, if_neg hnesting]
    rfl

end GoUml
