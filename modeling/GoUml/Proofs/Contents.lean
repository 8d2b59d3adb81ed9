import GoUml.Proofs.Filing
import Mathlib.Data.Finset.Card

/-!
# What the catalog of a list of packages contains

A catalog is built by folding packages into six tables: the first package of a path counts, in a
package the last declaration of a name counts, methods are attached afterwards, and the entities are
then spread over one table for each kind. Here all of it is said at once through look-ups: what
stands at a path and name is what the first package of that path declares under that name, in the
table of its kind and in no other, and nothing else is there.
-/

namespace GoUml

namespace Package

def first? (packages : List Package) (path : String) : Option Package :=
  packages.find? (·.path = path)

def lastDeclaration? (p : Package) (name : String) : Option Declaration :=
  p.declarations.reverse.find? (·.name = name)

def methodsOf (p : Package) (name : String) : List Function :=
  (p.methods.filter (·.receiver = name)).map fun m => .ofSignature p.id m.name m.signature

/-- The name is declared, or it is the receiver of a method. -/
def Mentions (p : Package) (name : String) : Prop :=
  (∃ d ∈ p.declarations, d.name = name) ∨ ∃ m ∈ p.methods, m.receiver = name

/-- The entity that a package has under a name. -/
inductive Declares (p : Package) (name : String) : Entity → Prop
  | struct {d : Declaration} {fields : List StructField} (hlast : p.lastDeclaration? name = some d)
      (hshape : d.underlying = .struct fields) :
      Declares p name (.struct
        { name := name, package := p.id, fields := fields.map (Field.ofStructField p.id),
          methods := p.methodsOf name, implemented := [] })
  | interface {d : Declaration} {methods : List InterfaceMethod} {embeds : List GoType}
      (hlast : p.lastDeclaration? name = some d)
      (hshape : d.underlying = .interface methods embeds) :
      Declares p name (.interface
        { name := name, package := p.id,
          methods := methods.map fun m => .ofSignature p.id m.name m.signature,
          embedded := (embeds.filter embedsInterface).map p.id.view,
          typeSet := !embeds.all embedsInterface })
  | defined {d : Declaration} (hlast : p.lastDeclaration? name = some d)
      (hstruct : d.underlying.isStruct = false) (hinterface : d.underlying.isInterface = false)
      (halias : d.isAlias = false) :
      Declares p name (.defined
        { name := name, package := p.id, underlying := p.id.view d.underlying,
          methods := p.methodsOf name })
  | typeAlias {d : Declaration} (hlast : p.lastDeclaration? name = some d)
      (hstruct : d.underlying.isStruct = false) (hinterface : d.underlying.isInterface = false)
      (halias : d.isAlias = true) :
      Declares p name (.typeAlias
        { name := name, package := p.id, underlying := p.id.view d.underlying })
  | receiver (hnone : ∀ d ∈ p.declarations, d.name ≠ name) {m : MethodDecl} (hm : m ∈ p.methods)
      (hreceiver : m.receiver = name) :
      Declares p name (.struct
        { name := name, package := p.id, fields := [], methods := p.methodsOf name,
          implemented := [] })

end Package

def Entity.addMethods (e : Entity) (fs : List Function) : Entity :=
  fs.foldl (fun e f => e.addMethod f) e

namespace Entity

theorem addMethods_struct (s : Struct) (fs : List Function) :
    (Entity.struct s).addMethods fs = .struct { s with methods := s.methods ++ fs } := by
  induction fs generalizing s with
  | nil => simp [addMethods]
  | cons f rest ih =>
    have hstep := ih { s with methods := s.methods ++ [f] }
    simpa [addMethods, addMethod] using hstep

theorem addMethods_defined (d : DefinedType) (fs : List Function) :
    (Entity.defined d).addMethods fs = .defined { d with methods := d.methods ++ fs } := by
  induction fs generalizing d with
  | nil => simp [addMethods]
  | cons f rest ih =>
    have hstep := ih { d with methods := d.methods ++ [f] }
    simpa [addMethods, addMethod] using hstep

theorem addMethods_interface (i : Interface) (fs : List Function) :
    (Entity.interface i).addMethods fs = .interface i := by
  induction fs with
  | nil => rfl
  | cons f rest ih => exact ih

theorem addMethods_typeAlias (a : TypeAlias) (fs : List Function) :
    (Entity.typeAlias a).addMethods fs = .typeAlias a := by
  induction fs with
  | nil => rfl
  | cons f rest ih => exact ih

end Entity

theorem find?_foldl_attachMethod (viewer : PackageId) (methods : List MethodDecl)
    (entities : Table Entity) (name : String) :
    (methods.foldl (attachMethod viewer) entities).find? name =
      if methods.any (·.receiver = name) then
        some (((entities.find? name).getD (.struct (.empty name viewer))).addMethods
          ((methods.filter (·.receiver = name)).map fun m =>
            .ofSignature viewer m.name m.signature))
      else entities.find? name := by
  induction methods generalizing entities with
  | nil => rfl
  | cons m rest ih =>
    rw [List.foldl_cons, ih, attachMethod, Table.find?_alter]
    by_cases hm : m.receiver = name
    · subst hm
      by_cases hrest : rest.any (·.receiver = m.receiver)
      · simp [hrest, Entity.addMethods]
      · have hfilter : rest.filter (·.receiver = m.receiver) = [] := by
          rw [List.filter_eq_nil_iff]
          intro q hq hreceiver
          exact hrest (List.any_eq_true.2 ⟨q, hq, hreceiver⟩)
        simp [hrest, hfilter, Entity.addMethods]
    · simp [hm, Ne.symm hm]

theorem Declaration.entity_of_other {viewer : PackageId} {d : Declaration}
    (hstruct : d.underlying.isStruct = false) (hinterface : d.underlying.isInterface = false) :
    d.entity viewer =
      if d.isAlias then .typeAlias ⟨d.name, viewer, viewer.view d.underlying⟩
      else .defined ⟨d.name, viewer, viewer.view d.underlying, []⟩ := by
  rw [Declaration.entity]
  split
  · next fields hshape => rw [hshape, GoType.isStruct] at hstruct; cases hstruct
  · next methods embeds hshape => rw [hshape, GoType.isInterface] at hinterface; cases hinterface
  · rfl

namespace Package

theorem find?_declared (p : Package) (name : String) :
    p.declared.find? name = (p.lastDeclaration? name).map (·.entity p.id) := by
  rw [declared, Table.find?_ofList, ← List.map_reverse, List.find?_map, Option.map_map,
    lastDeclaration?]
  rfl

theorem find?_entities (p : Package) (name : String) :
    p.entities.find? name =
      if p.methods.any (·.receiver = name) then
        some ((((p.lastDeclaration? name).map fun d => d.entity p.id).getD
          (Entity.struct (.empty name p.id))).addMethods (p.methodsOf name))
      else (p.lastDeclaration? name).map (·.entity p.id) := by
  rw [entities, find?_foldl_attachMethod, find?_declared]
  rfl

theorem lastDeclaration?_eq_none_iff {p : Package} {name : String} :
    p.lastDeclaration? name = none ↔ ∀ d ∈ p.declarations, d.name ≠ name := by
  simp [lastDeclaration?]

theorem name_of_lastDeclaration? {p : Package} {name : String} {d : Declaration}
    (h : p.lastDeclaration? name = some d) : d.name = name := by
  simpa using List.find?_some h

theorem methodsOf_eq_nil {p : Package} {name : String}
    (h : ¬ p.methods.any (·.receiver = name) = true) : p.methodsOf name = [] := by
  rw [methodsOf, List.map_eq_nil_iff, List.filter_eq_nil_iff]
  intro m hm hreceiver
  exact h (List.any_eq_true.2 ⟨m, hm, hreceiver⟩)

/-- A declared name has its declared entity with the methods of the name, if it takes any. -/
theorem find?_entities_of_declared {p : Package} {name : String} {d : Declaration}
    (h : p.lastDeclaration? name = some d) :
    p.entities.find? name = some ((d.entity p.id).addMethods (p.methodsOf name)) := by
  rw [find?_entities, h]
  split
  · rfl
  · next hnone =>
    rw [methodsOf_eq_nil hnone]
    rfl

theorem declares_of_declared {p : Package} {name : String} {d : Declaration}
    (h : p.lastDeclaration? name = some d) :
    p.Declares name ((d.entity p.id).addMethods (p.methodsOf name)) := by
  have hname : d.name = name := name_of_lastDeclaration? h
  rw [Declaration.entity]
  split
  · next fields hshape =>
    rw [Entity.addMethods_struct, hname]
    exact .struct h hshape
  · next methods embeds hshape =>
    rw [Entity.addMethods_interface, hname]
    exact .interface h hshape
  · next hnotStruct hnotInterface =>
    have hstruct : d.underlying.isStruct = false := by
      cases hu : d.underlying with
      | struct fields => exact absurd hu (hnotStruct fields)
      | _ => rfl
    have hinterface : d.underlying.isInterface = false := by
      cases hu : d.underlying with
      | interface methods embeds => exact absurd hu (hnotInterface methods embeds)
      | _ => rfl
    split
    · next halias =>
      rw [Entity.addMethods_typeAlias, hname]
      exact .typeAlias h hstruct hinterface halias
    · next halias =>
      rw [Entity.addMethods_defined, hname]
      exact .defined h hstruct hinterface (Bool.eq_false_iff.2 halias)

theorem find?_entities_of_declares {p : Package} {name : String} {e : Entity}
    (h : p.Declares name e) : p.entities.find? name = some e := by
  cases h with
  | struct hlast hshape =>
    rw [find?_entities_of_declared hlast, Declaration.entity, hshape, Entity.addMethods_struct,
      name_of_lastDeclaration? hlast]
    rfl
  | interface hlast hshape =>
    rw [find?_entities_of_declared hlast, Declaration.entity, hshape, Entity.addMethods_interface,
      name_of_lastDeclaration? hlast]
  | defined hlast hstruct hinterface halias =>
    rw [find?_entities_of_declared hlast, Declaration.entity_of_other hstruct hinterface, halias,
      if_neg Bool.false_ne_true, Entity.addMethods_defined, name_of_lastDeclaration? hlast]
    rfl
  | typeAlias hlast hstruct hinterface halias =>
    rw [find?_entities_of_declared hlast, Declaration.entity_of_other hstruct hinterface, halias,
      if_pos rfl, Entity.addMethods_typeAlias, name_of_lastDeclaration? hlast]
  | receiver hnone hm hreceiver =>
    have hany : p.methods.any (·.receiver = name) = true :=
      List.any_eq_true.2 ⟨_, hm, decide_eq_true hreceiver⟩
    rw [find?_entities, if_pos hany, lastDeclaration?_eq_none_iff.2 hnone, Option.map_none,
      Option.getD_none, Entity.addMethods_struct]
    rfl

/-- The table of a package's entities holds what the package declares. -/
theorem find?_entities_eq_some_iff {p : Package} {name : String} {e : Entity} :
    p.entities.find? name = some e ↔ p.Declares name e := by
  refine ⟨fun h => ?_, find?_entities_of_declares⟩
  cases hlast : p.lastDeclaration? name with
  | some d =>
    rw [find?_entities_of_declared hlast, Option.some.injEq] at h
    exact h ▸ declares_of_declared hlast
  | none =>
    rw [find?_entities, hlast] at h
    split at h
    · next hany =>
      obtain ⟨m, hm, hreceiver⟩ := List.any_eq_true.1 hany
      rw [Option.map_none, Option.getD_none, Entity.addMethods_struct, Option.some.injEq] at h
      exact h ▸ .receiver (lastDeclaration?_eq_none_iff.1 hlast) hm (of_decide_eq_true hreceiver)
    · cases h

theorem exists_declares_iff {p : Package} {name : String} :
    (∃ e, p.Declares name e) ↔ p.Mentions name := by
  constructor
  · rintro ⟨e, h⟩
    cases h with
    | struct hlast _ | interface hlast _ | defined hlast _ _ _ | typeAlias hlast _ _ _ =>
      refine .inl ⟨_, ?_, name_of_lastDeclaration? hlast⟩
      exact List.mem_reverse.1 (List.mem_of_find?_eq_some hlast)
    | receiver _ hm hreceiver => exact .inr ⟨_, hm, hreceiver⟩
  · intro h
    cases hlast : p.lastDeclaration? name with
    | some d => exact ⟨_, declares_of_declared hlast⟩
    | none =>
      have hnone := lastDeclaration?_eq_none_iff.1 hlast
      rcases h with ⟨d, hd, hname⟩ | ⟨m, hm, hreceiver⟩
      · exact absurd hname (hnone d hd)
      · exact ⟨_, .receiver hnone hm hreceiver⟩

end Package

/-! ### The tables of a catalog -/

namespace PackageTable

variable {α : Type}

def putSome (t : PackageTable α) (path name : String) : Option α → PackageTable α
  | some value => t.put path name value
  | none => t

theorem get?_putSome (t : PackageTable α) (path name p n : String) (value : Option α) :
    (t.putSome path name value).get? p n =
      if p = path ∧ n = name then value.or (t.get? p n) else t.get? p n := by
  cases value with
  | none => rw [putSome, Option.none_or, ite_self]
  | some value => rw [putSome, get?_put, Option.some_or]

/-- Putting what `pick` takes from a list of entries with ascending names. -/
theorem get?_foldl_putSome {β : Type} (pick : β → Option α) (path p n : String)
    {entries : List (String × β)} (h : entries.Pairwise fun a b => a.1 < b.1)
    (t : PackageTable α) :
    (entries.foldl (fun t e => t.putSome path e.1 (pick e.2)) t).get? p n =
      if p = path then ((Table.entryAt? n entries).bind pick).or (t.get? p n) else t.get? p n := by
  induction entries generalizing t with
  | nil => rw [List.foldl_nil, Table.entryAt?, Option.bind_none, Option.none_or, ite_self]
  | cons e rest ih =>
    obtain ⟨hhead, hrest⟩ := List.pairwise_cons.1 h
    rw [List.foldl_cons, ih hrest, get?_putSome, Table.entryAt?]
    by_cases hp : p = path
    · by_cases hn : n = e.1
      · subst hn
        rw [Table.entryAt?_eq_none_of_forall_lt hhead]
        simp [hp]
      · simp [hp, hn]
    · simp [hp]

/-- Every path that the table knows has a value. -/
def Peopled (t : PackageTable α) : Prop :=
  ∀ path, (t.find? path).isSome = true → ∃ name, (t.get? path name).isSome = true

theorem Peopled.putSome {t : PackageTable α} (h : t.Peopled) (path name : String)
    (value : Option α) : (t.putSome path name value).Peopled := by
  cases value with
  | none => exact h
  | some value =>
    intro p hp
    rw [PackageTable.putSome, put, Table.find?_alter] at hp
    by_cases hpath : p = path
    · exact ⟨name, by rw [PackageTable.putSome, get?_put, if_pos ⟨hpath, rfl⟩, Option.isSome_some]⟩
    · rw [if_neg hpath] at hp
      obtain ⟨n, hn⟩ := h p hp
      exact ⟨n, by rwa [PackageTable.putSome, get?_put, if_neg fun h => hpath h.1]⟩

def entityKeys (t : PackageTable α) : List EntityKey :=
  t.entries.flatMap fun e => e.2.entries.map fun f => (e.1, f.1)

theorem length_entityKeys (t : PackageTable α) : t.entityKeys.length = t.all.length := by
  simp only [entityKeys, all, Table.values, List.flatMap_map, List.length_flatMap, List.length_map]

theorem mem_entityKeys_iff {t : PackageTable α} {key : EntityKey} :
    key ∈ t.entityKeys ↔ ∃ value, t.get? key.1 key.2 = some value := by
  obtain ⟨path, name⟩ := key
  simp only [entityKeys, List.mem_flatMap, List.mem_map, get?, Option.bind_eq_some_iff]
  constructor
  · rintro ⟨⟨_, names⟩, he, ⟨_, value⟩, hf, rfl, rfl⟩
    exact ⟨value, names, Table.mem_entries_iff.1 he, Table.mem_entries_iff.1 hf⟩
  · rintro ⟨value, names, he, hf⟩
    exact ⟨(path, names), Table.mem_entries_iff.2 he, (name, value), Table.mem_entries_iff.2 hf,
      rfl⟩

theorem nodup_entityKeys (t : PackageTable α) : t.entityKeys.Nodup := by
  rw [List.Nodup, entityKeys, List.pairwise_flatMap]
  constructor
  · intro e _
    rw [List.pairwise_map]
    apply e.2.ascending.imp
    intro a b hlt hkey
    rw [Prod.mk.injEq] at hkey
    exact String.lt_irrefl _ (hkey.2 ▸ hlt)
  · apply t.ascending.imp
    rintro a b hlt x hx y hy rfl
    obtain ⟨f, -, rfl⟩ := List.mem_map.1 hx
    obtain ⟨g, -, hkey⟩ := List.mem_map.1 hy
    rw [Prod.mk.injEq] at hkey
    exact String.lt_irrefl _ (hkey.1 ▸ hlt)

theorem map_get?_entityKeys (t : PackageTable α) :
    t.entityKeys.map (fun key => t.get? key.1 key.2) = t.all.map some := by
  rw [entityKeys, all, Table.values, List.flatMap_map, List.map_flatMap, List.map_flatMap]
  apply List.flatMap_congr
  intro e he
  rw [Table.values, List.map_map, List.map_map]
  apply List.map_congr_left
  intro f hf
  simp only [Function.comp_apply, get?, Table.mem_entries_iff.1 he, Option.bind_some,
    Table.mem_entries_iff.1 hf]

/-- Values that `f` tells apart by path and name are listed once each. -/
theorem nodup_all_map_of_inj {β : Type} {t : PackageTable α} {f : α → β}
    (h : ∀ p n a p' n' a', t.get? p n = some a → t.get? p' n' = some a' → f a = f a' →
      p = p' ∧ n = n') : (t.all.map f).Nodup := by
  have hkeys : (t.entityKeys.map fun key => (t.get? key.1 key.2).map f).Nodup := by
    refine List.Nodup.map_on ?_ t.nodup_entityKeys
    intro key hkey key' hkey' heq
    obtain ⟨a, ha⟩ := mem_entityKeys_iff.1 hkey
    obtain ⟨a', ha'⟩ := mem_entityKeys_iff.1 hkey'
    rw [ha, ha', Option.map_some, Option.map_some, Option.some.injEq] at heq
    obtain ⟨hpath, hname⟩ := h _ _ _ _ _ _ ha ha' heq
    exact Prod.ext hpath hname
  have hall : (t.entityKeys.map fun key => (t.get? key.1 key.2).map f) =
      (t.all.map f).map some := by
    have hmap := congrArg (List.map (Option.map f)) t.map_get?_entityKeys
    rw [List.map_map, List.map_map] at hmap
    rw [List.map_map]
    exact hmap
  rw [hall] at hkeys
  exact hkeys.of_map some

end PackageTable

namespace Catalog

/-- One of the tables of a catalog with the entities that are filed there. -/
structure Shelf (α : Type) where
  table : Catalog → PackageTable α
  pick : Entity → Option α
  wrap : α → Entity
  pick_eq_some_iff : ∀ e a, pick e = some a ↔ e = wrap a
  table_addEntity : ∀ path c e, table (addEntity path c e) = (table c).putSome path e.1 (pick e.2)
  table_packages : ∀ c packages imports,
    table { c with packages := packages, imports := imports } = table c
  table_empty : table empty = Table.empty

namespace Shelf

def structs : Shelf Struct where
  table := Catalog.structs
  pick
    | .struct s => some s
    | _ => none
  wrap := .struct
  pick_eq_some_iff e _ := by cases e <;> simp
  table_addEntity := by rintro path c ⟨name, _ | _ | _ | _⟩ <;> rfl
  table_packages _ _ _ := rfl
  table_empty := rfl

def interfaces : Shelf Interface where
  table := Catalog.interfaces
  pick
    | .interface i => some i
    | _ => none
  wrap := .interface
  pick_eq_some_iff e _ := by cases e <;> simp
  table_addEntity := by rintro path c ⟨name, _ | _ | _ | _⟩ <;> rfl
  table_packages _ _ _ := rfl
  table_empty := rfl

def definedTypes : Shelf DefinedType where
  table := Catalog.definedTypes
  pick
    | .defined d => some d
    | _ => none
  wrap := .defined
  pick_eq_some_iff e _ := by cases e <;> simp
  table_addEntity := by rintro path c ⟨name, _ | _ | _ | _⟩ <;> rfl
  table_packages _ _ _ := rfl
  table_empty := rfl

def typeAliases : Shelf TypeAlias where
  table := Catalog.typeAliases
  pick
    | .typeAlias a => some a
    | _ => none
  wrap := .typeAlias
  pick_eq_some_iff e _ := by cases e <;> simp
  table_addEntity := by rintro path c ⟨name, _ | _ | _ | _⟩ <;> rfl
  table_packages _ _ _ := rfl
  table_empty := rfl

variable {α : Type} (shelf : Shelf α)

theorem table_foldl_addEntity (path : String) (entries : List (String × Entity)) (c : Catalog) :
    shelf.table (entries.foldl (addEntity path) c) =
      entries.foldl (fun t e => t.putSome path e.1 (shelf.pick e.2)) (shelf.table c) := by
  induction entries generalizing c with
  | nil => rfl
  | cons e rest ih => rw [List.foldl_cons, List.foldl_cons, ih, shelf.table_addEntity]

theorem get?_insert (c : Catalog) (p : Package) (path name : String) :
    (shelf.table (c.insert p)).get? path name =
      if path = p.path then
        ((p.entities.find? name).bind shelf.pick).or ((shelf.table c).get? path name)
      else (shelf.table c).get? path name := by
  rw [Catalog.insert, table_foldl_addEntity, shelf.table_packages,
    PackageTable.get?_foldl_putSome shelf.pick p.path path name p.entities.ascending]
  rfl

theorem peopled_insert {c : Catalog} (h : (shelf.table c).Peopled) (p : Package) :
    (shelf.table (c.insert p)).Peopled := by
  rw [Catalog.insert, table_foldl_addEntity, shelf.table_packages]
  refine List.foldlRecOn p.entities.entries _ h ?_
  intro t ht e _
  exact ht.putSome _ _ _

end Shelf

/-! ### Packages one after the other -/

theorem packages_foldl_addEntity (path : String) (entries : List (String × Entity)) (c : Catalog) :
    (entries.foldl (addEntity path) c).packages = c.packages ∧
      (entries.foldl (addEntity path) c).imports = c.imports := by
  induction entries generalizing c with
  | nil => exact ⟨rfl, rfl⟩
  | cons e rest ih =>
    obtain ⟨name, entity⟩ := e
    obtain ⟨hpackages, himports⟩ := ih (addEntity path c (name, entity))
    rw [List.foldl_cons, hpackages, himports]
    cases entity <;> exact ⟨rfl, rfl⟩

theorem find?_packages_insert (c : Catalog) (p : Package) (path : String) :
    (c.insert p).packages.find? path =
      if path = p.path then some p.id else c.packages.find? path := by
  rw [Catalog.insert, (packages_foldl_addEntity _ _ _).1, Table.find?_insert]

theorem find?_imports_insert (c : Catalog) (p : Package) (path : String) :
    (c.insert p).imports.find? path =
      if path = p.path then some p.importIds else c.imports.find? path := by
  rw [Catalog.insert, (packages_foldl_addEntity _ _ _).2, Table.find?_insert]

theorem path_of_first? {packages : List Package} {path : String} {p : Package}
    (h : Package.first? packages path = some p) : p.path = path := by
  simpa [Package.first?] using List.find?_some h

theorem first?_concat (packages : List Package) (p : Package) (path : String) :
    Package.first? (packages ++ [p]) path =
      (Package.first? packages path).or (if path = p.path then some p else none) := by
  rw [Package.first?, List.find?_append, Package.first?]
  by_cases hpath : p.path = path
  · simp [hpath]
  · simp [hpath, Ne.symm hpath]

theorem first?_concat_of_known {packages : List Package} {p : Package}
    (h : (Package.first? packages p.path).isSome = true) (path : String) :
    Package.first? (packages ++ [p]) path = Package.first? packages path := by
  rw [first?_concat]
  by_cases hpath : path = p.path
  · rw [hpath, Option.or_of_isSome h]
  · rw [if_neg hpath, Option.or_none]

theorem first?_concat_of_new {packages : List Package} {p : Package}
    (h : Package.first? packages p.path = none) (path : String) :
    Package.first? (packages ++ [p]) path =
      if path = p.path then some p else Package.first? packages path := by
  rw [first?_concat]
  by_cases hpath : path = p.path
  · rw [hpath, h, Option.none_or, if_pos rfl]
  · rw [if_neg hpath, if_neg hpath, Option.or_none]

theorem ofPackages_concat (packages : List Package) (p : Package) :
    ofPackages (packages ++ [p]) = (ofPackages packages).insertNew p := by
  rw [ofPackages, ofPackages, List.foldl_append]
  rfl

theorem find?_packages_ofPackages (packages : List Package) (path : String) :
    (ofPackages packages).packages.find? path =
      (Package.first? packages path).map Package.id := by
  induction packages using List.reverseRecOn generalizing path with
  | nil => rfl
  | append_singleton packages p ih =>
    rw [ofPackages_concat, insertNew, Table.contains, ih p.path, Option.isSome_map]
    cases hfirst : Package.first? packages p.path with
    | some q =>
      rw [first?_concat_of_known (by rw [hfirst]; rfl), Option.isSome_some, if_pos rfl, ih]
    | none =>
      rw [first?_concat_of_new hfirst, Option.isSome_none, if_neg Bool.false_ne_true,
        find?_packages_insert, ih]
      split <;> rfl

/-- The packages of a list come in one by one, each unless an earlier one has its path. This is the
induction that everything below rests on. -/
theorem ofPackages_induction {motive : List Package → Catalog → Prop} (nil : motive [] empty)
    (known : ∀ packages p c, (Package.first? packages p.path).isSome = true →
      motive packages c → motive (packages ++ [p]) c)
    (new : ∀ packages p c, Package.first? packages p.path = none →
      motive packages c → motive (packages ++ [p]) (c.insert p)) (packages : List Package) :
    motive packages (ofPackages packages) := by
  induction packages using List.reverseRecOn with
  | nil => exact nil
  | append_singleton packages p ih =>
    rw [ofPackages_concat, insertNew, Table.contains, find?_packages_ofPackages, Option.isSome_map]
    cases hfirst : Package.first? packages p.path with
    | some q =>
      rw [Option.isSome_some, if_pos rfl]
      exact known packages p _ (by rw [hfirst]; rfl) ih
    | none =>
      rw [Option.isSome_none, if_neg Bool.false_ne_true]
      exact new packages p _ hfirst ih

theorem reachable_ofPackages (packages : List Package) : (ofPackages packages).Reachable :=
  ofPackages_induction (motive := fun _ c => c.Reachable) .empty (fun _ _ _ _ h => h)
    (fun _ p _ _ h => .insert p h) packages

theorem find?_imports_ofPackages (packages : List Package) (path : String) :
    (ofPackages packages).imports.find? path =
      (Package.first? packages path).map Package.importIds := by
  refine ofPackages_induction
    (motive := fun packages c => c.imports.find? path =
      (Package.first? packages path).map Package.importIds) rfl ?_ ?_ packages
  · intro packages p c hknown ih
    rw [first?_concat_of_known hknown, ih]
  · intro packages p c hnew ih
    rw [first?_concat_of_new hnew, find?_imports_insert, ih]
    split <;> rfl

namespace Shelf

variable {α : Type} (shelf : Shelf α)

theorem peopled_ofPackages (packages : List Package) :
    (shelf.table (ofPackages packages)).Peopled := by
  refine ofPackages_induction (motive := fun _ c => (shelf.table c).Peopled) ?_
    (fun _ _ _ _ h => h) (fun _ p _ _ h => shelf.peopled_insert h p) packages
  intro path hpath
  rw [shelf.table_empty, Table.find?_empty] at hpath
  cases hpath

theorem get?_ofPackages (packages : List Package) (path name : String) :
    (shelf.table (ofPackages packages)).get? path name =
      ((Package.first? packages path).bind (·.entities.find? name)).bind shelf.pick := by
  refine ofPackages_induction
    (motive := fun packages c => (shelf.table c).get? path name =
      ((Package.first? packages path).bind (·.entities.find? name)).bind shelf.pick) ?_ ?_ ?_ packages
  · rw [shelf.table_empty]
    rfl
  · intro packages p c hknown ih
    rw [first?_concat_of_known hknown, ih]
  · intro packages p c hnew ih
    rw [first?_concat_of_new hnew, get?_insert, ih]
    by_cases hpath : path = p.path
    · rw [if_pos hpath, if_pos hpath, hpath, hnew, Option.bind_none, Option.bind_none,
        Option.or_none, Option.bind_some]
    · rw [if_neg hpath, if_neg hpath]

end Shelf

/-- The entity found at a path and name is the one that the first package of the path has. -/
theorem find?_ofPackages (packages : List Package) (path name : String) :
    (ofPackages packages).find? path name =
      (Package.first? packages path).bind (·.entities.find? name) := by
  have hstruct : (ofPackages packages).findStruct? path name = _ :=
    Shelf.structs.get?_ofPackages packages path name
  have hinterface : (ofPackages packages).findInterface? path name = _ :=
    Shelf.interfaces.get?_ofPackages packages path name
  have hdefined : (ofPackages packages).definedTypes.get? path name = _ :=
    Shelf.definedTypes.get?_ofPackages packages path name
  have halias : (ofPackages packages).typeAliases.get? path name = _ :=
    Shelf.typeAliases.get?_ofPackages packages path name
  rw [find?, hstruct, hinterface, hdefined, halias]
  cases (Package.first? packages path).bind (·.entities.find? name) with
  | none => rfl
  | some e => cases e <;> rfl

theorem Shelf.get?_eq_some_iff {α : Type} (shelf : Shelf α) {packages : List Package}
    {path name : String} {a : α} :
    (shelf.table (ofPackages packages)).get? path name = some a ↔
      (ofPackages packages).find? path name = some (shelf.wrap a) := by
  rw [shelf.get?_ofPackages, find?_ofPackages, Option.bind_eq_some_iff]
  constructor
  · rintro ⟨e, he, hpick⟩
    rw [he, (shelf.pick_eq_some_iff e a).1 hpick]
  · intro h
    exact ⟨_, h, (shelf.pick_eq_some_iff _ a).2 rfl⟩

theorem Shelf.disjoint_entityKeys {α β : Type} (shelf : Shelf α) (other : Shelf β)
    (h : ∀ a b, shelf.wrap a ≠ other.wrap b) (packages : List Package) :
    List.Disjoint (shelf.table (ofPackages packages)).entityKeys
      (other.table (ofPackages packages)).entityKeys := by
  intro key hkey hother
  obtain ⟨a, ha⟩ := PackageTable.mem_entityKeys_iff.1 hkey
  obtain ⟨b, hb⟩ := PackageTable.mem_entityKeys_iff.1 hother
  rw [shelf.get?_eq_some_iff] at ha
  rw [other.get?_eq_some_iff, ha, Option.some.injEq] at hb
  exact h a b hb

def entityKeys (c : Catalog) : List EntityKey :=
  c.structs.entityKeys ++ c.interfaces.entityKeys ++ c.definedTypes.entityKeys ++
    c.typeAliases.entityKeys

theorem length_entityKeys (c : Catalog) : c.entityKeys.length = c.entityCount := by
  simp only [entityKeys, List.length_append, PackageTable.length_entityKeys, entityCount]

theorem mem_entityKeys_iff {c : Catalog} {key : EntityKey} :
    key ∈ c.entityKeys ↔ ∃ e, c.find? key.1 key.2 = some e := by
  simp only [entityKeys, List.mem_append, PackageTable.mem_entityKeys_iff, find?, findStruct?,
    findInterface?]
  cases c.structs.get? key.1 key.2 <;> cases c.interfaces.get? key.1 key.2 <;>
    cases c.definedTypes.get? key.1 key.2 <;> cases c.typeAliases.get? key.1 key.2 <;> simp

theorem nodup_entityKeys (packages : List Package) : (ofPackages packages).entityKeys.Nodup := by
  have hsi := Shelf.structs.disjoint_entityKeys Shelf.interfaces (fun _ _ => nofun) packages
  have hsd := Shelf.structs.disjoint_entityKeys Shelf.definedTypes (fun _ _ => nofun) packages
  have hsa := Shelf.structs.disjoint_entityKeys Shelf.typeAliases (fun _ _ => nofun) packages
  have hid := Shelf.interfaces.disjoint_entityKeys Shelf.definedTypes (fun _ _ => nofun) packages
  have hia := Shelf.interfaces.disjoint_entityKeys Shelf.typeAliases (fun _ _ => nofun) packages
  have hda := Shelf.definedTypes.disjoint_entityKeys Shelf.typeAliases (fun _ _ => nofun) packages
  rw [entityKeys]
  refine List.Nodup.append (List.Nodup.append (List.Nodup.append ?_ ?_ hsi) ?_ ?_) ?_ ?_
  · exact PackageTable.nodup_entityKeys _
  · exact PackageTable.nodup_entityKeys _
  · exact PackageTable.nodup_entityKeys _
  · exact List.disjoint_append_left.2 ⟨hsd, hid⟩
  · exact PackageTable.nodup_entityKeys _
  · exact List.disjoint_append_left.2 ⟨List.disjoint_append_left.2 ⟨hsa, hia⟩, hda⟩

theorem find?_eq_some_iff {packages : List Package} {path name : String} {e : Entity} :
    (ofPackages packages).find? path name = some e ↔
      ∃ p, Package.first? packages path = some p ∧ p.Declares name e := by
  simp only [find?_ofPackages, Option.bind_eq_some_iff, Package.find?_entities_eq_some_iff]

theorem exists_find?_iff {packages : List Package} {path name : String} :
    (∃ e, (ofPackages packages).find? path name = some e) ↔
      ∃ p, Package.first? packages path = some p ∧ p.Mentions name := by
  simp only [find?_eq_some_iff, ← Package.exists_declares_iff]
  exact ⟨fun ⟨e, p, hp, he⟩ => ⟨p, hp, e, he⟩, fun ⟨p, hp, e, he⟩ => ⟨e, p, hp, he⟩⟩

/-- Building a catalog loses and invents nothing. Its packages are the first ones of their paths,
with their names and imports. What is found at a path and name is what the first package of the path
declares there, and there is something exactly when that package mentions the name. It stands in the
table of its kind and in no other one, and the number of entities is the number of paths and names
at which something is found. -/
theorem ofPackages_contents (packages : List Package) :
    (∀ path, (ofPackages packages).package? path = (Package.first? packages path).map Package.id ∧
      (ofPackages packages).imports.find? path = (Package.first? packages path).map fun p =>
        p.imports.map fun i => { name := i.name, path := i.path }) ∧
    (∀ path name e, (ofPackages packages).find? path name = some e ↔
      ∃ p, Package.first? packages path = some p ∧ p.Declares name e) ∧
    (∀ path name, (∃ e, (ofPackages packages).find? path name = some e) ↔
      ∃ p, Package.first? packages path = some p ∧ p.Mentions name) ∧
    (∀ path name,
      (∀ s, (ofPackages packages).structs.get? path name = some s ↔
        (ofPackages packages).find? path name = some (.struct s)) ∧
      (∀ i, (ofPackages packages).interfaces.get? path name = some i ↔
        (ofPackages packages).find? path name = some (.interface i)) ∧
      (∀ d, (ofPackages packages).definedTypes.get? path name = some d ↔
        (ofPackages packages).find? path name = some (.defined d)) ∧
      ∀ a, (ofPackages packages).typeAliases.get? path name = some a ↔
        (ofPackages packages).find? path name = some (.typeAlias a)) ∧
    ∃ keys : Finset EntityKey, (ofPackages packages).entityCount = keys.card ∧
      ∀ key, key ∈ keys ↔ ∃ p, Package.first? packages key.1 = some p ∧ p.Mentions key.2 := by
  refine ⟨?_, fun _ _ _ => find?_eq_some_iff, fun _ _ => exists_find?_iff, ?_, ?_⟩
  · intro path
    exact ⟨find?_packages_ofPackages packages path, find?_imports_ofPackages packages path⟩
  · intro path name
    exact ⟨fun _ => Shelf.structs.get?_eq_some_iff, fun _ => Shelf.interfaces.get?_eq_some_iff,
      fun _ => Shelf.definedTypes.get?_eq_some_iff, fun _ => Shelf.typeAliases.get?_eq_some_iff⟩
  · refine ⟨(ofPackages packages).entityKeys.toFinset, ?_, fun key => ?_⟩
    · rw [List.toFinset_card_of_nodup (nodup_entityKeys packages), length_entityKeys]
    · rw [List.mem_toFinset, mem_entityKeys_iff, exists_find?_iff]

end Catalog

end GoUml
