import GoUml.Implementation
import GoUml.Proofs.Table

/-!
# Entities are filed under their own path and name

A catalog grows by inserting packages and by classifying. The look-ups by path and name assume that
what is found at a path and name carries that path and name. Nothing in the type of a catalog says
so; it holds because extraction names every entity after its declaration, whether or not the path
was inserted before, and because classifying changes no name and no package.
-/

namespace GoUml

namespace Catalog

/-- The catalogs that come out of inserting packages and classifying, in any order. -/
inductive Reachable : Catalog → Prop
  | empty : Reachable Catalog.empty
  | insert {c : Catalog} (p : Package) (h : Reachable c) : Reachable (c.insert p)
  | classify {c : Catalog} (h : Reachable c) : Reachable c.classify

end Catalog

/-- Every value carries the path and name at which it is found. -/
def PackageTable.Filed {α : Type} (key : α → EntityKey) (t : PackageTable α) : Prop :=
  ∀ path name value, t.get? path name = some value → key value = (path, name)

theorem PackageTable.Filed.put {α : Type} {key : α → EntityKey} {t : PackageTable α}
    (h : t.Filed key) {path name : String} {value : α} (hvalue : key value = (path, name)) :
    (t.put path name value).Filed key := by
  intro p n found hfound
  rw [PackageTable.get?_put] at hfound
  split at hfound
  · next heq =>
    cases hfound
    rw [hvalue, heq.1, heq.2]
  · exact h p n found hfound

theorem PackageTable.Filed.modifyAt {α : Type} {key : α → EntityKey} {t : PackageTable α}
    (h : t.Filed key) (path name : String) {f : α → α} (hf : ∀ value, key (f value) = key value) :
    (t.modifyAt path name f).Filed key := by
  intro p n found hfound
  rw [PackageTable.get?_modifyAt] at hfound
  split at hfound
  · obtain ⟨value, hvalue, rfl⟩ := Option.map_eq_some_iff.1 hfound
    rw [hf]
    exact h p n value hvalue
  · exact h p n found hfound

namespace Entity

@[simp] theorem name_addMethod (f : Function) (e : Entity) : (e.addMethod f).name = e.name := by
  cases e <;> rfl

@[simp] theorem package_addMethod (f : Function) (e : Entity) :
    (e.addMethod f).package = e.package := by
  cases e <;> rfl

end Entity

theorem Declaration.name_entity (viewer : PackageId) (d : Declaration) :
    (d.entity viewer).name = d.name := by
  rw [Declaration.entity]
  split
  · rfl
  · rfl
  · split <;> rfl

theorem Declaration.package_entity (viewer : PackageId) (d : Declaration) :
    (d.entity viewer).package = viewer := by
  rw [Declaration.entity]
  split
  · rfl
  · rfl
  · split <;> rfl

/-- Every entity of the table has the name at which it is found and belongs to `owner`. -/
def OwnedBy (owner : PackageId) (entities : Table Entity) : Prop :=
  ∀ name e, entities.find? name = some e → e.name = name ∧ e.package = owner

theorem OwnedBy.insert {owner : PackageId} {entities : Table Entity} (h : OwnedBy owner entities)
    {name : String} {e : Entity} (hname : e.name = name) (hpackage : e.package = owner) :
    OwnedBy owner (entities.insert name e) := by
  intro n found hfound
  rw [Table.find?_insert] at hfound
  split at hfound
  · next hn =>
    cases hfound
    exact ⟨hname.trans hn.symm, hpackage⟩
  · exact h n found hfound

theorem OwnedBy.attachMethod {owner : PackageId} {entities : Table Entity}
    (h : OwnedBy owner entities) (m : MethodDecl) :
    OwnedBy owner (attachMethod owner entities m) := by
  intro n found hfound
  rw [GoUml.attachMethod, Table.find?_alter] at hfound
  split at hfound
  · next hn =>
    cases hfound
    rw [Entity.name_addMethod, Entity.package_addMethod]
    cases hold : entities.find? m.receiver with
    | none => exact ⟨hn.symm, rfl⟩
    | some e =>
      rw [hn]
      exact h m.receiver e hold
  · exact h n found hfound

theorem Package.ownedBy_declared (p : Package) : OwnedBy p.id p.declared := by
  rw [Package.declared, Table.ofList, List.foldl_map]
  refine List.foldlRecOn p.declarations _ ?_ ?_
  · intro name e hfound
    cases hfound
  · intro entities howned d _
    exact howned.insert (d.name_entity p.id) (d.package_entity p.id)

theorem Package.ownedBy_entities (p : Package) : OwnedBy p.id p.entities := by
  rw [Package.entities]
  refine List.foldlRecOn p.methods _ p.ownedBy_declared ?_
  intro entities howned m _
  exact howned.attachMethod m

/-! ### Reachable catalogs -/

namespace Catalog

/-- Structs and interfaces are found under their own path and name. -/
structure Filed (c : Catalog) : Prop where
  structs : c.structs.Filed Struct.entityKey
  interfaces : c.interfaces.Filed Interface.entityKey

theorem Filed.addEntity {c : Catalog} (h : c.Filed) {path : String} {e : String × Entity}
    (hname : e.2.name = e.1) (hpath : e.2.package.path = path) : (addEntity path c e).Filed := by
  obtain ⟨name, entity⟩ := e
  cases entity with
  | struct s => exact ⟨h.structs.put (Prod.ext hpath hname), h.interfaces⟩
  | interface i => exact ⟨h.structs, h.interfaces.put (Prod.ext hpath hname)⟩
  | defined d => exact ⟨h.structs, h.interfaces⟩
  | typeAlias a => exact ⟨h.structs, h.interfaces⟩

theorem Filed.insert {c : Catalog} (h : c.Filed) (p : Package) : (c.insert p).Filed := by
  rw [Catalog.insert]
  refine List.foldlRecOn p.entities.entries _ ⟨h.structs, h.interfaces⟩ ?_
  intro c' hc' e he
  obtain ⟨hname, hpackage⟩ := p.ownedBy_entities e.1 e.2 (Table.mem_entries_iff.1 he)
  exact hc'.addEntity hname (by rw [hpackage]; rfl)

theorem Filed.classify {c : Catalog} (h : c.Filed) : c.classify.Filed := by
  refine ⟨?_, h.interfaces⟩
  rw [Catalog.classify]
  refine List.foldlRecOn _ record h.structs ?_
  intro structs hstructs found _
  exact hstructs.modifyAt _ _ fun _ => rfl

theorem Reachable.filed {c : Catalog} (h : c.Reachable) : c.Filed := by
  induction h with
  | empty =>
    constructor
    · intro path name s hfound
      cases hfound
    · intro path name i hfound
      cases hfound
  | insert p _ ih => exact ih.insert p
  | classify _ ih => exact ih.classify

end Catalog

end GoUml
