import GoUml.MethodSet

/-!
# Which struct implements which interface

Implementation is structural and holds across packages. An interface that requires no method is
implemented by none.
-/

namespace GoUml.Catalog

/-- The methods that an implementation must have, when there is at least one. -/
def demanded? (c : Catalog) (i : Interface) : Option MethodSet :=
  match c.requiredMethods? i with
  | some required => if required.isEmpty then none else some required
  | none => none

/-- Whether the struct implements the interface. -/
def implements (c : Catalog) (s : Struct) (i : Interface) : Bool :=
  match c.demanded? i with
  | some required => (c.methodSet s).satisfies required
  | none => false

/-- The interfaces that can be implemented, with what they demand. -/
def demands (c : Catalog) : List (InterfaceRef × MethodSet) :=
  c.interfaces.all.filterMap fun i => (c.demanded? i).map fun required => (i.reference, required)

/-- The interfaces among `demands` that the struct implements, in order of reference. -/
def matching (c : Catalog) (demands : List (InterfaceRef × MethodSet)) (s : Struct) :
    List InterfaceRef :=
  let methods := c.methodSet s
  Text.sortOnRow InterfaceRef.row
    ((demands.filter fun d => methods.satisfies d.2).map (·.1))

/-- Files the interfaces found for a struct under its own path and name. -/
def record (structs : PackageTable Struct) (found : Struct × List InterfaceRef) :
    PackageTable Struct :=
  structs.modifyAt found.1.package.path found.1.name fun s => { s with implemented := found.2 }

/-- The catalog in which every struct lists the interfaces it implements. What the interfaces
demand is worked out once, and all structs are matched before the first one is changed. -/
def classify (c : Catalog) : Catalog :=
  let demands := c.demands
  let structs := c.structs.all
  let implemented := structs.map (c.matching demands)
  { c with structs := (structs.zip implemented).foldl record c.structs }

end GoUml.Catalog
