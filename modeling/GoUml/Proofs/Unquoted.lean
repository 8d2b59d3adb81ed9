import GoUml.Proofs.Contents
import GoUml.Proofs.Implementation
import GoUml.Proofs.Splitting

/-!
# Names without double quotes

Every line of a diagram puts the names in it between double quotes. A catalog holds names as they are
printed, composite types included, but printing adds no double quote to the names that are written in
the packages. So packages without a double quote in a name make a catalog without one.
-/

namespace GoUml

open Text

def IsUnquoted (text : String) : Prop := '"' ∉ text.toList

instance : DecidablePred IsUnquoted := fun text =>
  inferInstanceAs (Decidable ('"' ∉ text.toList))

theorem isUnquoted_append {a b : String} : IsUnquoted (a ++ b) ↔ IsUnquoted a ∧ IsUnquoted b := by
  simp [IsUnquoted]

def AllUnquoted (texts : List String) : Prop := ∀ text ∈ texts, IsUnquoted text

instance : DecidablePred AllUnquoted := fun texts =>
  inferInstanceAs (Decidable (∀ text ∈ texts, IsUnquoted text))

theorem allUnquoted_nil : AllUnquoted [] := by
  rintro _ ⟨⟩

theorem allUnquoted_cons {text : String} {texts : List String} :
    AllUnquoted (text :: texts) ↔ IsUnquoted text ∧ AllUnquoted texts :=
  List.forall_mem_cons

theorem allUnquoted_append {texts others : List String} :
    AllUnquoted (texts ++ others) ↔ AllUnquoted texts ∧ AllUnquoted others :=
  List.forall_mem_append

theorem allUnquoted_flatMap {α : Type} {l : List α} {f : α → List String} :
    AllUnquoted (l.flatMap f) ↔ ∀ a ∈ l, AllUnquoted (f a) := by
  simp only [AllUnquoted, List.mem_flatMap]
  exact ⟨fun h a ha text htext => h text ⟨a, ha, htext⟩,
    fun h text ⟨a, ha, htext⟩ => h a ha text htext⟩

theorem AllUnquoted.of_subset {texts others : List String} (h : AllUnquoted others)
    (hsub : texts ⊆ others) : AllUnquoted texts :=
  fun text htext => h text (hsub htext)

theorem isUnquoted_joinWith {separator : String} (hseparator : IsUnquoted separator)
    {pieces : List String} (h : AllUnquoted pieces) : IsUnquoted (joinWith separator pieces) :=
  not_mem_joinWith hseparator h

mutual

/-- The type, package, field and method names in a type. -/
def GoType.names : GoType → List String
  | .basic name => [name]
  | .named name package => name :: (package.map (·.name)).toList
  | .typeParam name => [name]
  | .pointer elem => elem.names
  | .slice elem => elem.names
  | .array elem => elem.names
  | .chan elem => elem.names
  | .map key value => key.names ++ value.names
  | .signature s => signatureNames s
  | .struct fields => fieldNames fields
  | .interface methods embeds => methodNames methods ++ typeNames embeds
  | .tuple elems => typeNames elems

/-- Names of parameters are no part of them. -/
def signatureNames : SignatureOf GoType → List String
  | ⟨params, results⟩ => paramNames params ++ paramNames results

def paramNames : List (ParamOf GoType) → List String
  | [] => []
  | p :: rest => p.type.names ++ paramNames rest

def fieldNames : List (FieldOf GoType) → List String
  | [] => []
  | f :: rest => f.name :: (f.type.names ++ fieldNames rest)

def methodNames : List (MethodOf GoType) → List String
  | [] => []
  | m :: rest => m.name :: (signatureNames m.signature ++ methodNames rest)

def typeNames : List GoType → List String
  | [] => []
  | t :: rest => t.names ++ typeNames rest

end

def Declaration.names (d : Declaration) : List String := d.name :: d.underlying.names

def MethodDecl.names (m : MethodDecl) : List String :=
  m.receiver :: m.name :: signatureNames m.signature

def Package.names (p : Package) : List String :=
  p.name :: (p.declarations.flatMap Declaration.names ++ p.methods.flatMap MethodDecl.names)

/-! ### Printing -/

theorem isUnquoted_namedDisplay (viewer : PackageId) (qualify : Bool) {name : String}
    {package : Option PackageId} (h : AllUnquoted (GoType.named name package).names) :
    IsUnquoted (namedDisplay viewer qualify name package) := by
  have hname : IsUnquoted name := h name (by simp [GoType.names])
  cases package with
  | none => exact hname
  | some package =>
    have hpackage : IsUnquoted package.name := h package.name (by simp [GoType.names])
    rw [namedDisplay]
    split
    · exact isUnquoted_append.2 ⟨isUnquoted_append.2 ⟨hpackage, by decide⟩, hname⟩
    · exact hname

theorem isUnquoted_functionDisplay {params results : List String} (hparams : AllUnquoted params)
    (hresults : AllUnquoted results) : IsUnquoted (functionDisplay params results) := by
  have hjoined {texts : List String} (h : AllUnquoted texts) : IsUnquoted (joinWith ", " texts) :=
    isUnquoted_joinWith (by decide) h
  unfold functionDisplay
  split
  · simp only [isUnquoted_append]
    exact ⟨⟨by decide, hjoined hparams⟩, by decide⟩
  · simp only [isUnquoted_append]
    exact ⟨⟨⟨by decide, hjoined hparams⟩, by decide⟩, (allUnquoted_cons.1 hresults).1⟩
  · simp only [isUnquoted_append]
    exact ⟨⟨⟨⟨by decide, hjoined hparams⟩, by decide⟩, hjoined hresults⟩, by decide⟩

mutual

theorem GoType.isUnquoted_display (viewer : PackageId) (qualify : Bool) :
    ∀ {t : GoType}, AllUnquoted t.names → IsUnquoted (t.display viewer qualify)
  | .basic name, h => h name List.mem_cons_self
  | .typeParam name, h => h name List.mem_cons_self
  | .named name package, h => isUnquoted_namedDisplay viewer qualify h
  | .pointer elem, h =>
    isUnquoted_append.2 ⟨by decide, GoType.isUnquoted_display viewer qualify (t := elem) h⟩
  | .slice elem, h =>
    isUnquoted_append.2 ⟨by decide, GoType.isUnquoted_display viewer qualify (t := elem) h⟩
  | .array elem, h =>
    isUnquoted_append.2 ⟨by decide, GoType.isUnquoted_display viewer qualify (t := elem) h⟩
  | .chan elem, h =>
    isUnquoted_append.2 ⟨by decide, GoType.isUnquoted_display viewer qualify (t := elem) h⟩
  | .map key value, h => by
    obtain ⟨hkey, hvalue⟩ := allUnquoted_append.1 h
    simp only [GoType.display, isUnquoted_append]
    exact ⟨⟨⟨by decide, GoType.isUnquoted_display viewer qualify hkey⟩, by decide⟩,
      GoType.isUnquoted_display viewer qualify hvalue⟩
  | .signature s, h => isUnquoted_signatureDisplay viewer h
  | .struct fields, h => by
    simp only [GoType.display, isUnquoted_append]
    exact ⟨⟨by decide, isUnquoted_joinWith (by decide) (allUnquoted_fieldDisplays viewer qualify h)⟩,
      by decide⟩
  | .interface methods embeds, h => by
    simp only [GoType.display, isUnquoted_append]
    have hmethods := allUnquoted_methodDisplays viewer (allUnquoted_append.1 h).1
    exact ⟨⟨by decide, isUnquoted_joinWith (by decide) hmethods⟩, by decide⟩
  | .tuple _, _ => List.not_mem_nil

theorem isUnquoted_signatureDisplay (viewer : PackageId) :
    ∀ {s : SignatureOf GoType}, AllUnquoted (signatureNames s) →
      IsUnquoted (signatureDisplay viewer s)
  | ⟨_, _⟩, h =>
    isUnquoted_functionDisplay (allUnquoted_paramDisplays viewer (allUnquoted_append.1 h).1)
      (allUnquoted_paramDisplays viewer (allUnquoted_append.1 h).2)

theorem allUnquoted_paramDisplays (viewer : PackageId) :
    ∀ {params : List (ParamOf GoType)}, AllUnquoted (paramNames params) →
      AllUnquoted (paramDisplays viewer params)
  | [], _ => allUnquoted_nil
  | ⟨_, _⟩ :: _, h =>
    allUnquoted_cons.2 ⟨GoType.isUnquoted_display viewer true (allUnquoted_append.1 h).1,
      allUnquoted_paramDisplays viewer (allUnquoted_append.1 h).2⟩

theorem allUnquoted_fieldDisplays (viewer : PackageId) (qualify : Bool) :
    ∀ {fields : List (FieldOf GoType)}, AllUnquoted (fieldNames fields) →
      AllUnquoted (fieldDisplays viewer qualify fields)
  | [], _ => allUnquoted_nil
  | ⟨_, _, _⟩ :: _, h => by
    obtain ⟨-, h⟩ := allUnquoted_cons.1 h
    obtain ⟨htype, hrest⟩ := allUnquoted_append.1 h
    exact allUnquoted_cons.2 ⟨GoType.isUnquoted_display viewer qualify htype,
      allUnquoted_fieldDisplays viewer qualify hrest⟩

theorem allUnquoted_methodDisplays (viewer : PackageId) :
    ∀ {methods : List (MethodOf GoType)}, AllUnquoted (methodNames methods) →
      AllUnquoted (methodDisplays viewer methods)
  | [], _ => allUnquoted_nil
  | ⟨_, _⟩ :: _, h => by
    obtain ⟨hname, h⟩ := allUnquoted_cons.1 h
    obtain ⟨hsignature, hrest⟩ := allUnquoted_append.1 h
    refine allUnquoted_cons.2 ⟨?_, allUnquoted_methodDisplays viewer hrest⟩
    exact isUnquoted_append.2 ⟨isUnquoted_append.2 ⟨hname, by decide⟩,
      isUnquoted_signatureDisplay viewer hsignature⟩

end

mutual

theorem GoType.allUnquoted_terminals :
    ∀ {t : GoType}, AllUnquoted t.names → ∀ part ∈ t.terminals, AllUnquoted part.names
  | .basic name, h, part, hpart => by
    cases List.mem_singleton.1 hpart
    exact h
  | .named name package, h, part, hpart => by
    cases List.mem_singleton.1 hpart
    exact h
  | .pointer elem, h, part, hpart => GoType.allUnquoted_terminals (t := elem) h part hpart
  | .slice elem, h, part, hpart => GoType.allUnquoted_terminals (t := elem) h part hpart
  | .array elem, h, part, hpart => GoType.allUnquoted_terminals (t := elem) h part hpart
  | .chan elem, h, part, hpart => GoType.allUnquoted_terminals (t := elem) h part hpart
  | .map key value, h, part, hpart => by
    obtain ⟨hkey, hvalue⟩ := allUnquoted_append.1 h
    rcases List.mem_append.1 hpart with hpart | hpart
    · exact GoType.allUnquoted_terminals hkey part hpart
    · exact GoType.allUnquoted_terminals hvalue part hpart
  | .signature ⟨_, _⟩, h, part, hpart => by
    obtain ⟨hparams, hresults⟩ := allUnquoted_append.1 h
    rcases List.mem_append.1 hpart with hpart | hpart
    · exact allUnquoted_paramTerminals hparams part hpart
    · exact allUnquoted_paramTerminals hresults part hpart
  | .typeParam _, _, _, hpart => nomatch hpart
  | .struct _, _, _, hpart => nomatch hpart
  | .interface _ _, _, _, hpart => nomatch hpart
  | .tuple _, _, _, hpart => nomatch hpart

theorem allUnquoted_paramTerminals :
    ∀ {params : List (ParamOf GoType)}, AllUnquoted (paramNames params) →
      ∀ part ∈ paramTerminals params, AllUnquoted part.names
  | ⟨_, _⟩ :: _, h, part, hpart => by
    obtain ⟨htype, hrest⟩ := allUnquoted_append.1 h
    rcases List.mem_append.1 hpart with hpart | hpart
    · exact GoType.allUnquoted_terminals htype part hpart
    · exact allUnquoted_paramTerminals hrest part hpart

end

def TypeName.names (t : TypeName) : List String := [t.goName, t.packageName]

def TypeView.names (t : TypeView) : List String :=
  t.toTypeName.names ++ t.terminals.flatMap TypeName.names

def Field.names (f : Field) : List String := f.name :: f.type.names

def Function.names (f : Function) : List String :=
  f.name :: (f.parameters.flatMap (·.type.names) ++ f.results.flatMap TypeView.names)

def InterfaceRef.names (r : InterfaceRef) : List String := [r.package.name, r.name]

def Entity.names : Entity → List String
  | .struct s => s.package.name :: s.name :: (s.fields.flatMap Field.names ++
      s.methods.flatMap Function.names ++ s.implemented.flatMap InterfaceRef.names)
  | .interface i => i.package.name :: i.name ::
      (i.methods.flatMap Function.names ++ i.embedded.flatMap TypeView.names)
  | .defined d => d.package.name :: d.name ::
      (d.underlying.names ++ d.methods.flatMap Function.names)
  | .typeAlias a => a.package.name :: a.name :: a.underlying.names

namespace Catalog

def entities (c : Catalog) : List Entity :=
  c.structs.all.map .struct ++ c.interfaces.all.map .interface ++ c.definedTypes.all.map .defined ++
    c.typeAliases.all.map .typeAlias

def names (c : Catalog) : List String :=
  c.packages.values.map (·.name) ++ c.entities.flatMap Entity.names

/-- No package, type, field or method name contains a double quote. -/
def Unquoted (c : Catalog) : Prop := AllUnquoted c.names

variable {c : Catalog}

theorem Unquoted.struct (h : c.Unquoted) {path : String} {s : Struct}
    (hs : s ∈ c.structs.inPackage path) : AllUnquoted (Entity.struct s).names := by
  obtain ⟨name, hs⟩ := PackageTable.mem_inPackage_iff.1 hs
  have hall : s ∈ c.structs.all := PackageTable.mem_all_iff.2 ⟨path, name, hs⟩
  exact allUnquoted_flatMap.1 (allUnquoted_append.1 h).2 (.struct s) (by simp [entities, hall])

theorem Unquoted.interface (h : c.Unquoted) {path : String} {i : Interface}
    (hi : i ∈ c.interfaces.inPackage path) : AllUnquoted (Entity.interface i).names := by
  obtain ⟨name, hi⟩ := PackageTable.mem_inPackage_iff.1 hi
  have hall : i ∈ c.interfaces.all := PackageTable.mem_all_iff.2 ⟨path, name, hi⟩
  exact allUnquoted_flatMap.1 (allUnquoted_append.1 h).2 (.interface i) (by simp [entities, hall])

end Catalog

/-! ### Extraction -/

variable {viewer : PackageId}

theorem GoType.isUnquoted_owner (hviewer : IsUnquoted viewer.name) {t : GoType}
    (h : AllUnquoted t.names) {owner : PackageId} (howner : t.owner viewer = some owner) :
    IsUnquoted owner.name := by
  unfold GoType.owner at howner
  split at howner
  · cases howner
  · split at howner
    · cases howner
      exact h owner.name (by simp [GoType.names])
    · cases howner
      exact hviewer

theorem allUnquoted_typeName (hviewer : IsUnquoted viewer.name) {t : GoType}
    (h : AllUnquoted t.names) : AllUnquoted (viewer.typeName t).names := by
  refine allUnquoted_cons.2 ⟨GoType.isUnquoted_display viewer false h, ?_⟩
  refine allUnquoted_cons.2 ⟨?_, allUnquoted_nil⟩
  have hname : (viewer.typeName t).packageName = ((t.owner viewer).map (·.name)).getD "" := rfl
  rw [hname]
  cases howner : t.owner viewer with
  | none => exact List.not_mem_nil
  | some owner => exact GoType.isUnquoted_owner hviewer h howner

theorem allUnquoted_view (hviewer : IsUnquoted viewer.name) {t : GoType} (h : AllUnquoted t.names) :
    AllUnquoted (viewer.view t).names := by
  refine allUnquoted_append.2 ⟨allUnquoted_typeName hviewer h, allUnquoted_flatMap.2 fun name hname => ?_⟩
  obtain ⟨part, hpart, rfl⟩ := List.mem_map.1 hname
  exact allUnquoted_typeName hviewer (GoType.allUnquoted_terminals h part hpart)

theorem paramNames_eq_flatMap (params : List Param) :
    paramNames params = params.flatMap (·.type.names) := by
  induction params with
  | nil => rfl
  | cons p rest ih => rw [paramNames, ih, List.flatMap_cons]

theorem fieldNames_eq_flatMap (fields : List StructField) :
    fieldNames fields = fields.flatMap fun f => f.name :: f.type.names := by
  induction fields with
  | nil => rfl
  | cons f rest ih => rw [fieldNames, ih, List.flatMap_cons, List.cons_append]

theorem methodNames_eq_flatMap (methods : List InterfaceMethod) :
    methodNames methods = methods.flatMap fun m => m.name :: signatureNames m.signature := by
  induction methods with
  | nil => rfl
  | cons m rest ih => rw [methodNames, ih, List.flatMap_cons, List.cons_append]

theorem typeNames_eq_flatMap (types : List GoType) : typeNames types = types.flatMap (·.names) := by
  induction types with
  | nil => rfl
  | cons t rest ih => rw [typeNames, ih, List.flatMap_cons]

theorem allUnquoted_ofSignature (hviewer : IsUnquoted viewer.name) {name : String} {s : Signature}
    (h : AllUnquoted (name :: signatureNames s)) :
    AllUnquoted (Function.ofSignature viewer name s).names := by
  obtain ⟨hname, h⟩ := allUnquoted_cons.1 h
  rw [signatureNames, allUnquoted_append] at h
  obtain ⟨hparams, hresults⟩ := h
  rw [paramNames_eq_flatMap, allUnquoted_flatMap] at hparams hresults
  refine allUnquoted_cons.2 ⟨hname, allUnquoted_append.2 ⟨?_, ?_⟩⟩
  · refine allUnquoted_flatMap.2 fun p hp => ?_
    obtain ⟨param, hparam, rfl⟩ := List.mem_map.1 hp
    exact allUnquoted_view hviewer (hparams param hparam)
  · refine allUnquoted_flatMap.2 fun t ht => ?_
    obtain ⟨result, hresult, rfl⟩ := List.mem_map.1 ht
    exact allUnquoted_view hviewer (hresults result hresult)

namespace Package

variable {p : Package} {name : String}

theorem allUnquoted_lastDeclaration? (h : AllUnquoted p.names) {d : Declaration}
    (hlast : p.lastDeclaration? name = some d) : AllUnquoted d.names := by
  have hmem : d ∈ p.declarations := List.mem_reverse.1 (List.mem_of_find?_eq_some hlast)
  obtain ⟨-, h⟩ := allUnquoted_cons.1 h
  exact allUnquoted_flatMap.1 (allUnquoted_append.1 h).1 d hmem

theorem allUnquoted_method (h : AllUnquoted p.names) {m : MethodDecl} (hm : m ∈ p.methods) :
    AllUnquoted m.names := by
  obtain ⟨-, h⟩ := allUnquoted_cons.1 h
  exact allUnquoted_flatMap.1 (allUnquoted_append.1 h).2 m hm

theorem allUnquoted_methodsOf (h : AllUnquoted p.names) (name : String) :
    AllUnquoted ((p.methodsOf name).flatMap Function.names) := by
  refine allUnquoted_flatMap.2 fun f hf => ?_
  obtain ⟨m, hm, rfl⟩ := List.mem_map.1 hf
  have hmethod := allUnquoted_method h (List.mem_filter.1 hm).1
  exact allUnquoted_ofSignature (h p.name List.mem_cons_self) (allUnquoted_cons.1 hmethod).2

theorem Declares.allUnquoted (h : AllUnquoted p.names) {e : Entity} (he : p.Declares name e) :
    AllUnquoted e.names := by
  have hpackage : IsUnquoted p.id.name := h p.name List.mem_cons_self
  have hmethods := allUnquoted_methodsOf h name
  have hnamed {d : Declaration} (hlast : p.lastDeclaration? name = some d) :
      IsUnquoted name ∧ AllUnquoted d.underlying.names := by
    have hd := allUnquoted_lastDeclaration? h hlast
    rw [Declaration.names, allUnquoted_cons, name_of_lastDeclaration? hlast] at hd
    exact hd
  cases he with
  | @struct d fields hlast hshape =>
    obtain ⟨hname, hfields⟩ := hnamed hlast
    rw [hshape, GoType.names, fieldNames_eq_flatMap, allUnquoted_flatMap] at hfields
    simp only [Entity.names, allUnquoted_cons, allUnquoted_append]
    refine ⟨hpackage, hname, ⟨allUnquoted_flatMap.2 fun f hf => ?_, hmethods⟩, allUnquoted_nil⟩
    obtain ⟨field, hfield, rfl⟩ := List.mem_map.1 hf
    obtain ⟨hfieldName, htype⟩ := allUnquoted_cons.1 (hfields field hfield)
    exact allUnquoted_cons.2 ⟨hfieldName, allUnquoted_view hpackage htype⟩
  | @interface d methods embeds hlast hshape =>
    obtain ⟨hname, hshapeNames⟩ := hnamed hlast
    rw [hshape, GoType.names, methodNames_eq_flatMap, typeNames_eq_flatMap, allUnquoted_append,
      allUnquoted_flatMap, allUnquoted_flatMap] at hshapeNames
    simp only [Entity.names, allUnquoted_cons, allUnquoted_append, allUnquoted_flatMap]
    refine ⟨hpackage, hname, fun f hf => ?_, fun t ht => ?_⟩
    · obtain ⟨m, hm, rfl⟩ := List.mem_map.1 hf
      exact allUnquoted_ofSignature hpackage (hshapeNames.1 m hm)
    · obtain ⟨embed, hembed, rfl⟩ := List.mem_map.1 ht
      exact allUnquoted_view hpackage (hshapeNames.2 embed (List.mem_filter.1 hembed).1)
  | defined hlast hstruct hinterface halias =>
    obtain ⟨hname, hunderlying⟩ := hnamed hlast
    simp only [Entity.names, allUnquoted_cons, allUnquoted_append]
    exact ⟨hpackage, hname, allUnquoted_view hpackage hunderlying, hmethods⟩
  | typeAlias hlast hstruct hinterface halias =>
    obtain ⟨hname, hunderlying⟩ := hnamed hlast
    simp only [Entity.names, allUnquoted_cons]
    exact ⟨hpackage, hname, allUnquoted_view hpackage hunderlying⟩
  | @receiver hnone m hm hreceiver =>
    have hname := (allUnquoted_cons.1 (allUnquoted_method h hm)).1
    rw [hreceiver] at hname
    simp only [Entity.names, allUnquoted_cons, allUnquoted_append]
    exact ⟨hpackage, hname, ⟨allUnquoted_nil, hmethods⟩, allUnquoted_nil⟩

end Package

namespace Catalog

variable {c : Catalog}

theorem allUnquoted_packages_ofPackages {packages : List Package}
    (h : ∀ p ∈ packages, AllUnquoted p.names) {path : String} {id : PackageId}
    (hid : (ofPackages packages).packages.find? path = some id) : IsUnquoted id.name := by
  rw [find?_packages_ofPackages, Option.map_eq_some_iff] at hid
  obtain ⟨p, hp, rfl⟩ := hid
  exact h p (List.mem_of_find?_eq_some hp) p.name List.mem_cons_self

theorem Shelf.allUnquoted_ofPackages {α : Type} (shelf : Shelf α) {packages : List Package}
    (h : ∀ p ∈ packages, AllUnquoted p.names) {a : α}
    (ha : a ∈ (shelf.table (ofPackages packages)).all) : AllUnquoted (shelf.wrap a).names := by
  obtain ⟨path, name, ha⟩ := PackageTable.mem_all_iff.1 ha
  rw [shelf.get?_eq_some_iff, find?_eq_some_iff] at ha
  obtain ⟨p, hp, hdeclares⟩ := ha
  exact hdeclares.allUnquoted (h p (List.mem_of_find?_eq_some hp))

/-- Packages without a double quote in a name make a catalog without one. -/
theorem unquoted_ofPackages {packages : List Package} (h : ∀ p ∈ packages, AllUnquoted p.names) :
    (ofPackages packages).Unquoted := by
  rw [Unquoted, names, entities]
  simp only [List.flatMap_append, allUnquoted_append, allUnquoted_flatMap, List.forall_mem_map]
  refine ⟨?_, ⟨⟨fun s hs => ?_, fun i hi => ?_⟩, fun d hd => ?_⟩, fun a ha => ?_⟩
  · intro name hname
    obtain ⟨id, hid, rfl⟩ := List.mem_map.1 hname
    obtain ⟨path, hid⟩ := Table.mem_values_iff.1 hid
    exact allUnquoted_packages_ofPackages h hid
  · exact Shelf.structs.allUnquoted_ofPackages h hs
  · exact Shelf.interfaces.allUnquoted_ofPackages h hi
  · exact Shelf.definedTypes.allUnquoted_ofPackages h hd
  · exact Shelf.typeAliases.allUnquoted_ofPackages h ha

/-- Classifying writes down names of interfaces only. -/
theorem Unquoted.classify (h : c.Unquoted) (hfiled : c.Filed) : c.classify.Unquoted := by
  rw [classify_eq_listing hfiled]
  rw [Unquoted, names, entities] at h ⊢
  simp only [List.flatMap_append, allUnquoted_append, allUnquoted_flatMap, List.forall_mem_map]
    at h ⊢
  obtain ⟨hpackages, ⟨⟨hstructs, hinterfaces⟩, hdefined⟩, haliases⟩ := h
  refine ⟨hpackages, ⟨⟨fun s hs => ?_, hinterfaces⟩, hdefined⟩, haliases⟩
  obtain ⟨path, name, hs⟩ := PackageTable.mem_all_iff.1 hs
  rw [listing, PackageTable.get?_mapValues, Option.map_eq_some_iff] at hs
  obtain ⟨plain, hplain, rfl⟩ := hs
  have hnames := hstructs plain (PackageTable.mem_all_iff.2 ⟨path, name, hplain⟩)
  simp only [Entity.names, allUnquoted_cons, allUnquoted_append, allUnquoted_flatMap] at hnames ⊢
  obtain ⟨hpackage, hname, ⟨hfields, hmethods⟩, -⟩ := hnames
  refine ⟨hpackage, hname, ⟨hfields, hmethods⟩, fun r hr => ?_⟩
  obtain ⟨i, hi, -, rfl⟩ := mem_matching_iff.1 hr
  have hi := hinterfaces i hi
  simp only [Entity.names, allUnquoted_cons] at hi
  exact allUnquoted_cons.2 ⟨hi.1, allUnquoted_cons.2 ⟨hi.2.1, allUnquoted_nil⟩⟩

theorem unquoted_classify_ofPackages {packages : List Package}
    (h : ∀ p ∈ packages, AllUnquoted p.names) : (ofPackages packages).classify.Unquoted :=
  (unquoted_ofPackages h).classify (reachable_ofPackages packages).filed

end Catalog

end GoUml
