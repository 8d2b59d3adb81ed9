import GoUml.Proofs.Ambiguity
import GoUml.Proofs.Correspondence
import GoUml.Proofs.Implementation

/-!
# The order of embedded types

The embedded fields of a struct and the embedded elements of an interface can be written in any
order, and the searches for methods follow that order. It decides which of several competing
declarations is found first, and how much is found before an interface that is not loaded. Where
there is no such choice, two lists of packages that differ in these orders only are shown to agree
on who implements what: both catalogs have the same items at each depth and the same interfaces
within reach, whatever the order in which a search would come across them.
-/

namespace GoUml

/-- The same type with the embedded fields or elements of its body in another order. -/
inductive GoType.EmbedsReordered : GoType → GoType → Prop
  | struct {fields others : List StructField}
      (hnamed : fields.filter (!·.embedded) = others.filter (!·.embedded))
      (hembedded : (fields.filter (·.embedded)).Perm (others.filter (·.embedded))) :
      EmbedsReordered (.struct fields) (.struct others)
  | interface (methods : List InterfaceMethod) {embeds others : List GoType}
      (hembeds : embeds.Perm others) :
      EmbedsReordered (.interface methods embeds) (.interface methods others)
  | refl (t : GoType) : EmbedsReordered t t

theorem GoType.EmbedsReordered.eq_of_other {t u : GoType} (h : t.EmbedsReordered u)
    (hstruct : t.isStruct = false) (hinterface : t.isInterface = false) : t = u := by
  cases h with
  | struct _ _ => cases hstruct
  | interface _ _ => cases hinterface
  | refl => rfl

structure Declaration.EmbedsReordered (d e : Declaration) : Prop where
  name : d.name = e.name
  isAlias : d.isAlias = e.isAlias
  underlying : d.underlying.EmbedsReordered e.underlying

structure Package.EmbedsReordered (p q : Package) : Prop where
  name : p.name = q.name
  path : p.path = q.path
  imports : p.imports = q.imports
  methods : p.methods = q.methods
  declarations : List.Forall₂ Declaration.EmbedsReordered p.declarations q.declarations

structure Struct.EmbedsReordered (s t : Struct) : Prop where
  name : s.name = t.name
  package : s.package = t.package
  methods : s.methods = t.methods
  embeddedFields : s.embeddedFields.Perm t.embeddedFields

structure Interface.EmbedsReordered (i j : Interface) : Prop where
  name : i.name = j.name
  package : i.package = j.package
  methods : i.methods = j.methods
  embedded : i.embedded.Perm j.embedded
  typeSet : i.typeSet = j.typeSet

inductive Entity.EmbedsReordered : Entity → Entity → Prop
  | struct {s t : Struct} (h : s.EmbedsReordered t) : EmbedsReordered (.struct s) (.struct t)
  | interface {i j : Interface} (h : i.EmbedsReordered j) :
      EmbedsReordered (.interface i) (.interface j)
  | defined (d : DefinedType) : EmbedsReordered (.defined d) (.defined d)
  | typeAlias (a : TypeAlias) : EmbedsReordered (.typeAlias a) (.typeAlias a)

theorem Struct.EmbedsReordered.symm {s t : Struct} (h : s.EmbedsReordered t) :
    t.EmbedsReordered s :=
  ⟨h.name.symm, h.package.symm, h.methods.symm, h.embeddedFields.symm⟩

theorem Interface.EmbedsReordered.symm {i j : Interface} (h : i.EmbedsReordered j) :
    j.EmbedsReordered i :=
  ⟨h.name.symm, h.package.symm, h.methods.symm, h.embedded.symm, h.typeSet.symm⟩

theorem Entity.EmbedsReordered.symm {e e' : Entity} (h : e.EmbedsReordered e') :
    e'.EmbedsReordered e := by
  cases h with
  | struct h => exact .struct h.symm
  | interface h => exact .interface h.symm
  | defined d => exact .defined d
  | typeAlias a => exact .typeAlias a

namespace Package

variable {p q : Package}

theorem EmbedsReordered.id_eq (h : p.EmbedsReordered q) : p.id = q.id := by
  rw [id, id, h.name, h.path]

theorem EmbedsReordered.rel_lastDeclaration? (h : p.EmbedsReordered q) (name : String) :
    Option.Rel Declaration.EmbedsReordered (p.lastDeclaration? name) (q.lastDeclaration? name) :=
  rel_find?_of_forall₂ (List.rel_reverse h.declarations) fun d e hde => by rw [hde.name]

theorem EmbedsReordered.methodsOf_eq (h : p.EmbedsReordered q) (name : String) :
    p.methodsOf name = q.methodsOf name := by
  rw [methodsOf, methodsOf, h.methods, h.id_eq]

theorem struct_embedsReordered (viewer : PackageId) (name : String) (methods : List Function)
    {fields others : List StructField}
    (hembedded : (fields.filter (·.embedded)).Perm (others.filter (·.embedded))) :
    Struct.EmbedsReordered ⟨name, viewer, fields.map (Field.ofStructField viewer), methods, []⟩
      ⟨name, viewer, others.map (Field.ofStructField viewer), methods, []⟩ := by
  refine ⟨rfl, rfl, rfl, ?_⟩
  rw [Struct.embeddedFields, Struct.embeddedFields, List.filter_map, List.filter_map]
  exact hembedded.map _

theorem interface_embedsReordered (viewer : PackageId) (name : String)
    (methods : List InterfaceMethod) {embeds others : List GoType} (hembeds : embeds.Perm others) :
    Interface.EmbedsReordered
      ⟨name, viewer, methods.map fun m => .ofSignature viewer m.name m.signature,
        (embeds.filter embedsInterface).map viewer.view, !embeds.all embedsInterface⟩
      ⟨name, viewer, methods.map fun m => .ofSignature viewer m.name m.signature,
        (others.filter embedsInterface).map viewer.view, !others.all embedsInterface⟩ := by
  refine ⟨rfl, rfl, rfl, (hembeds.filter _).map _, ?_⟩
  dsimp only
  rw [hembeds.all_eq]

theorem EmbedsReordered.declares (h : p.EmbedsReordered q) {name : String} {e : Entity}
    (he : p.Declares name e) : ∃ e', q.Declares name e' ∧ e.EmbedsReordered e' := by
  have hid := h.id_eq
  have hmethods := h.methodsOf_eq name
  cases he with
  | @struct d fields hlast hshape =>
    obtain ⟨d', hlast', hde⟩ := exists_of_rel (h.rel_lastDeclaration? name) hlast
    have hunderlying := hde.underlying
    rw [hshape] at hunderlying
    rw [hid, hmethods]
    generalize hshape' : d'.underlying = shape at hunderlying
    cases hunderlying with
    | struct _ hembedded =>
      exact ⟨_, .struct hlast' hshape', .struct (struct_embedsReordered _ _ _ hembedded)⟩
    | refl =>
      exact ⟨_, .struct hlast' hshape', .struct (struct_embedsReordered _ _ _ (.refl _))⟩
  | @interface d methods embeds hlast hshape =>
    obtain ⟨d', hlast', hde⟩ := exists_of_rel (h.rel_lastDeclaration? name) hlast
    have hunderlying := hde.underlying
    rw [hshape] at hunderlying
    rw [hid]
    generalize hshape' : d'.underlying = shape at hunderlying
    cases hunderlying with
    | interface _ hembeds =>
      exact ⟨_, .interface hlast' hshape', .interface (interface_embedsReordered _ _ _ hembeds)⟩
    | refl =>
      exact ⟨_, .interface hlast' hshape', .interface (interface_embedsReordered _ _ _ (.refl _))⟩
  | @defined d hlast hstruct hinterface halias =>
    obtain ⟨d', hlast', hde⟩ := exists_of_rel (h.rel_lastDeclaration? name) hlast
    have hsame : d.underlying = d'.underlying := hde.underlying.eq_of_other hstruct hinterface
    rw [hsame] at hstruct hinterface ⊢
    rw [hde.isAlias] at halias
    rw [hid, hmethods]
    exact ⟨_, .defined hlast' hstruct hinterface halias, .defined _⟩
  | @typeAlias d hlast hstruct hinterface halias =>
    obtain ⟨d', hlast', hde⟩ := exists_of_rel (h.rel_lastDeclaration? name) hlast
    have hsame : d.underlying = d'.underlying := hde.underlying.eq_of_other hstruct hinterface
    rw [hsame] at hstruct hinterface ⊢
    rw [hde.isAlias] at halias
    rw [hid]
    exact ⟨_, .typeAlias hlast' hstruct hinterface halias, .typeAlias _⟩
  | receiver hnone hm hreceiver =>
    have hnone' := eq_none_of_rel (h.rel_lastDeclaration? name)
      (lastDeclaration?_eq_none_iff.2 hnone)
    rw [h.methods] at hm
    rw [hid, hmethods]
    exact ⟨_, .receiver (lastDeclaration?_eq_none_iff.1 hnone') hm hreceiver,
      .struct ⟨rfl, rfl, rfl, .refl _⟩⟩

theorem EmbedsReordered.mentions (h : p.EmbedsReordered q) {name : String}
    (hname : q.Mentions name) : p.Mentions name := by
  rcases hname with hdeclared | hreceiver
  · by_contra hnot
    have hnone : p.lastDeclaration? name = none :=
      lastDeclaration?_eq_none_iff.2 fun d hd hname => hnot (.inl ⟨d, hd, hname⟩)
    have hnone' := eq_none_of_rel (h.rel_lastDeclaration? name) hnone
    obtain ⟨d, hd, hname⟩ := hdeclared
    exact lastDeclaration?_eq_none_iff.1 hnone' d hd hname
  · rw [← h.methods] at hreceiver
    exact .inr hreceiver

end Package

namespace Catalog

/-- The same entities everywhere, with embedded types in another order. -/
structure EmbedsReordered (c d : Catalog) : Prop where
  entities : ∀ path name,
    Option.Rel Entity.EmbedsReordered (c.find? path name) (d.find? path name)
  structs : ∀ path name,
    Option.Rel Struct.EmbedsReordered (c.findStruct? path name) (d.findStruct? path name)
  interfaces : ∀ path name,
    Option.Rel Interface.EmbedsReordered (c.findInterface? path name) (d.findInterface? path name)

theorem matched_embedsReordered {packages others : List Package}
    (h : List.Forall₂ Package.EmbedsReordered packages others) :
    Matched Entity.EmbedsReordered packages others := by
  intro path
  have hfirst : Option.Rel Package.EmbedsReordered (Package.first? packages path)
      (Package.first? others path) :=
    rel_find?_of_forall₂ h fun p q hpq => by rw [hpq.path]
  obtain ⟨hp, hq⟩ | ⟨p, q, hp, hq, hpq⟩ := rel_cases hfirst
  · rw [hp, hq]
    exact .none
  · rw [hp, hq]
    refine .some ⟨hpq.id_eq, ?_, fun name => ?_⟩
    · rw [Package.importIds, Package.importIds, hpq.imports]
    · exact Package.rel_find?_entities (fun e he => hpq.declares he) hpq.mentions

theorem embedsReordered_ofPackages {packages others : List Package}
    (h : List.Forall₂ Package.EmbedsReordered packages others) :
    (ofPackages packages).EmbedsReordered (ofPackages others) := by
  have hmatched := matched_embedsReordered h
  have hstructs := hmatched.related Shelf.structs fun _ _ hrel => by cases hrel <;> rfl
  have hinterfaces := hmatched.related Shelf.interfaces fun _ _ hrel => by cases hrel <;> rfl
  refine ⟨hmatched.rel_find?, ?_, ?_⟩
  · exact (hstructs.imp fun _ _ hrel => by cases hrel; assumption).rel_get?
  · exact (hinterfaces.imp fun _ _ hrel => by cases hrel; assumption).rel_get?

variable {c d : Catalog}

theorem EmbedsReordered.symm (h : c.EmbedsReordered d) : d.EmbedsReordered c where
  entities path name := rel_flip (h.entities path name) fun _ _ hrel => hrel.symm
  structs path name := rel_flip (h.structs path name) fun _ _ hrel => hrel.symm
  interfaces path name := rel_flip (h.interfaces path name) fun _ _ hrel => hrel.symm

section Interfaces

variable {i j : Interface} {name key : String}

theorem EmbedsReordered.dangles (h : c.EmbedsReordered d) {e : TypeView} (he : c.Dangles e) :
    d.Dangles e := by
  obtain ⟨package, hpackage, hnone⟩ := he
  exact ⟨package, hpackage, eq_none_of_rel (h.interfaces package.path e.goName) hnone⟩

theorem EmbedsReordered.exists_embeds (h : c.EmbedsReordered d) {i' : Interface}
    (hi : i.EmbedsReordered i') (hembeds : c.Embeds i j) :
    ∃ j', d.Embeds i' j' ∧ j.EmbedsReordered j' := by
  obtain ⟨e, he, package, hpackage, hfind⟩ := hembeds
  obtain ⟨j', hfind', hj⟩ := exists_of_rel (h.interfaces package.path e.goName) hfind
  exact ⟨j', ⟨e, hi.embedded.mem_iff.1 he, package, hpackage, hfind'⟩, hj⟩

theorem EmbedsReordered.exists_reaches (h : c.EmbedsReordered d) {i' : Interface}
    (hi : i.EmbedsReordered i') (hreaches : c.Reaches i j) :
    ∃ j', d.Reaches i' j' ∧ j.EmbedsReordered j' := by
  induction hreaches with
  | refl => exact ⟨i', .refl, hi⟩
  | tail _ hembeds ih =>
    obtain ⟨middle, hmiddle, hrel⟩ := ih
    obtain ⟨j', hembeds', hj⟩ := h.exists_embeds hrel hembeds
    exact ⟨j', hmiddle.tail hembeds', hj⟩

theorem asks_of_embedsReordered (h : i.EmbedsReordered j)
    (hasks : i.Asks name key) : j.Asks name key := by
  rcases hasks with hmethod | ⟨⟨e, he, herror⟩, hkey⟩
  · rw [h.methods] at hmethod
    exact .inl hmethod
  · exact .inr ⟨⟨e, h.embedded.mem_iff.1 he, herror⟩, hkey⟩

theorem EmbedsReordered.blocked (h : c.EmbedsReordered d) (hi : i.EmbedsReordered j)
    (hblocked : c.Blocked i) : d.Blocked j := by
  rcases hblocked with htypeSet | ⟨e, he, hdangles⟩
  · exact .inl (hi.typeSet ▸ htypeSet)
  · exact .inr ⟨e, hi.embedded.mem_iff.1 he, h.dangles hdangles⟩

theorem EmbedsReordered.whole (h : c.EmbedsReordered d) (hi : i.EmbedsReordered j)
    (hwhole : c.Whole i) : d.Whole j := by
  intro k hreaches hblocked
  obtain ⟨k', hreaches', hk⟩ := h.symm.exists_reaches hi.symm hreaches
  exact hwhole k' hreaches' (h.symm.blocked hk hblocked)

theorem EmbedsReordered.requires (h : c.EmbedsReordered d) (hi : i.EmbedsReordered j)
    (hrequires : c.Requires i name key) : d.Requires j name key := by
  rw [Requires, Interface.declared?, hi.methods] at hrequires
  rcases hrequires with hdeclared | ⟨hnone, k, hreaches, hasks⟩
  · exact .inl hdeclared
  · obtain ⟨k', hreaches', hk⟩ := h.exists_reaches hi hreaches
    exact .inr ⟨hnone, k', hreaches', asks_of_embedsReordered hk hasks⟩

end Interfaces

inductive Promoted.EmbedsReordered : Promoted → Promoted → Prop
  | struct {s t : Struct} (h : s.EmbedsReordered t) : EmbedsReordered (.struct s) (.struct t)
  | interface {i j : Interface} (h : i.EmbedsReordered j) :
      EmbedsReordered (.interface i) (.interface j)
  | methods (fs : List Function) : EmbedsReordered (.methods fs) (.methods fs)

section Structs

variable {s t : Struct} {depth : Nat} {name key : String}

theorem EmbedsReordered.exists_promoted? (h : c.EmbedsReordered d) {path name : String}
    {item : Promoted} (hitem : c.promoted? path name = some item) :
    ∃ item', d.promoted? path name = some item' ∧ item.EmbedsReordered item' := by
  rw [promoted?] at hitem
  obtain ⟨hc, -⟩ | ⟨e, e', hc, hd, hrel⟩ := rel_cases (h.entities path name)
  · rw [hc] at hitem
    cases hitem
  · rw [hc] at hitem
    rw [promoted?, hd]
    cases hrel with
    | struct hst => cases hitem; exact ⟨_, rfl, .struct hst⟩
    | interface hij => cases hitem; exact ⟨_, rfl, .interface hij⟩
    | defined e => cases hitem; exact ⟨_, rfl, .methods _⟩
    | typeAlias a => cases hitem

/-- Both structs have the same items at each depth, up to the order of what is embedded. -/
theorem EmbedsReordered.exists_mem_layer (h : c.EmbedsReordered d) (hst : s.EmbedsReordered t)
    {item : Promoted} (hitem : item ∈ c.layer s depth) :
    ∃ item' ∈ d.layer t depth, item.EmbedsReordered item' := by
  induction depth generalizing item with
  | zero =>
    cases List.mem_singleton.1 hitem
    exact ⟨_, List.mem_singleton.2 rfl, .struct hst⟩
  | succ depth ih =>
    rw [layer, List.mem_flatMap] at hitem
    obtain ⟨above, habove, hbrings⟩ := hitem
    obtain ⟨above', habove', hrel⟩ := ih habove
    cases hrel with
    | @struct u u' hu =>
      rw [brings, List.mem_filterMap] at hbrings
      obtain ⟨f, hf, hfield⟩ := hbrings
      obtain ⟨package, hpackage, hpromoted⟩ := Option.bind_eq_some_iff.1 hfield
      obtain ⟨item', hpromoted', hitem⟩ := h.exists_promoted? hpromoted
      have hfield' : d.fieldItem? f = some item' :=
        Option.bind_eq_some_iff.2 ⟨package, hpackage, hpromoted'⟩
      have hbrings' : item' ∈ d.brings (.struct u') :=
        List.mem_filterMap.2 ⟨f, hu.embeddedFields.mem_iff.1 hf, hfield'⟩
      exact ⟨item', List.mem_flatMap.2 ⟨_, habove', hbrings'⟩, hitem⟩
    | interface _ => cases hbrings
    | methods _ => cases hbrings

theorem ownMethods_eq_of_embedsReordered (h : s.EmbedsReordered t) :
    s.ownMethods = t.ownMethods := by
  rw [Struct.ownMethods, Struct.ownMethods, h.methods, h.embeddedFields.any_eq]

theorem EmbedsReordered.gives (h : c.EmbedsReordered d) {item item' : Promoted}
    (hrel : item.EmbedsReordered item') (hgives : c.Gives item name key) :
    d.Gives item' name key := by
  cases hrel with
  | struct hst =>
    rw [Gives, ownMethods_eq_of_embedsReordered hst] at hgives
    exact hgives
  | interface hij => exact ⟨hij.typeSet ▸ hgives.1, h.requires hij hgives.2⟩
  | methods fs => exact hgives

theorem EmbedsReordered.unshadowed (h : c.EmbedsReordered d) (hst : s.EmbedsReordered t)
    (hdepth : c.Unshadowed s depth name) : d.Unshadowed t depth name := by
  intro e he item hitem key hgives
  obtain ⟨item', hitem', hrel⟩ := h.symm.exists_mem_layer hst.symm hitem
  exact hdepth e he item' hitem' key (h.symm.gives hrel hgives)

theorem EmbedsReordered.promotes (h : c.EmbedsReordered d) (hst : s.EmbedsReordered t)
    (hpromotes : c.Promotes s name key) : d.Promotes t name key := by
  obtain ⟨depth, hdepth, item, hitem, hgives⟩ := hpromotes
  obtain ⟨item', hitem', hrel⟩ := h.exists_mem_layer hst hitem
  exact ⟨depth, h.unshadowed hst hdepth, item', hitem', h.gives hrel hgives⟩

theorem EmbedsReordered.uncontested (h : c.EmbedsReordered d) (hst : s.EmbedsReordered t)
    (hs : c.Uncontested s name key) : d.Uncontested t name key := by
  constructor
  · intro key' hkey hkey'
    exact hs.key_eq key' (h.symm.promotes hst.symm hkey) (h.symm.promotes hst.symm hkey')
  · intro depth j key' hdepth hj hgives hdeclared
    obtain ⟨item, hitem, hrel⟩ := h.symm.exists_mem_layer hst.symm hj
    have hgives' := h.symm.gives hrel hgives
    cases hrel with
    | interface hji =>
      rw [Interface.declared?, hji.methods] at hdeclared
      have hwhole := hs.whole depth _ key' (h.symm.unshadowed hst.symm hdepth) hitem hgives'
        hdeclared
      exact h.whole hji.symm hwhole

end Structs

/-! ### Classification -/

theorem EmbedsReordered.unambiguous (h : c.EmbedsReordered d) {s t : Struct}
    (hst : s.EmbedsReordered t) {i j : Interface} (hij : i.EmbedsReordered j)
    (hclear : c.Unambiguous s i) : d.Unambiguous t j := by
  constructor
  · intro name key key' hkey hkey'
    exact hclear.required name key key' (h.symm.requires hij.symm hkey)
      (h.symm.requires hij.symm hkey')
  · intro name key hkey
    exact h.uncontested hst (hclear.promoted name key (h.symm.requires hij.symm hkey))

theorem EmbedsReordered.implements_of (h : c.EmbedsReordered d) (hc : c.Filed) (hd : d.Filed)
    {s t : Struct} (hs : c.Loaded s) (ht : d.Loaded t) (hst : s.EmbedsReordered t)
    {i j : Interface} (hi : i ∈ c.interfaces.all) (hj : j ∈ d.interfaces.all)
    (hij : i.EmbedsReordered j) (hclear : c.Whole i → c.Unambiguous s i)
    (himplements : c.implements s i = true) : d.implements t j = true := by
  have hclear' : d.Whole j → d.Unambiguous t j :=
    fun hwhole => h.unambiguous hst hij (hclear (h.symm.whole hij.symm hwhole))
  rw [implements_iff_promotes hc hs hi hclear] at himplements
  rw [implements_iff_promotes hd ht hj hclear']
  obtain ⟨hwhole, ⟨name, key, hkey⟩, hpromotes⟩ := himplements
  refine ⟨h.whole hij hwhole, ⟨name, key, h.requires hij hkey⟩, fun name key hkey => ?_⟩
  exact h.promotes hst (hpromotes name key (h.symm.requires hij.symm hkey))

theorem findStruct?_classify (hfiled : c.Filed) {path name : String} {s : Struct}
    (hs : c.findStruct? path name = some s) :
    c.classify.findStruct? path name = some { s with implemented := c.matching c.demands s } := by
  rw [classify_eq_listing hfiled, findStruct?, listing, PackageTable.get?_mapValues]
  exact congrArg (Option.map _) hs

theorem reference_mem_matching_iff (hfiled : c.Filed) {s : Struct} {i : Interface}
    (hi : i ∈ c.interfaces.all) :
    i.reference ∈ c.matching c.demands s ↔ c.implements s i = true := by
  rw [mem_matching_iff]
  constructor
  · rintro ⟨j, hj, himplements, hreference⟩
    have hji : j = i := List.inj_on_of_nodup_map (nodup_references hfiled) hj hi hreference
    exact hji ▸ himplements
  · intro himplements
    exact ⟨i, hi, himplements, rfl⟩

def implementedBy (packages : List Package) (path name : String) : Option (List InterfaceRef) :=
  ((ofPackages packages).classify.findStruct? path name).map Struct.implemented

theorem implementedBy_eq {packages : List Package} {path name : String} {s : Struct}
    (hs : (ofPackages packages).findStruct? path name = some s) :
    implementedBy packages path name =
      some ((ofPackages packages).matching (ofPackages packages).demands s) := by
  rw [implementedBy, findStruct?_classify (reachable_ofPackages packages).filed hs]
  rfl

/-- Two lists of packages that differ only in the order of the embedded fields of structs and of the
embedded elements of interfaces agree on whether a struct lists an interface, when no choice between
declarations decides it. An interface that cannot be collected to the end is never listed. -/
theorem implementedBy_iff_of_embedsReordered {packages others : List Package}
    (h : List.Forall₂ Package.EmbedsReordered packages others) {path name : String} {s : Struct}
    (hs : (ofPackages packages).findStruct? path name = some s) {i : Interface}
    (hi : i ∈ (ofPackages packages).interfaces.all)
    (hclear : (ofPackages packages).Whole i → (ofPackages packages).Unambiguous s i) :
    ∃ listed listed', implementedBy packages path name = some listed ∧
      implementedBy others path name = some listed' ∧
      (i.reference ∈ listed ↔ i.reference ∈ listed') := by
  have hrel := embedsReordered_ofPackages h
  have hc : (ofPackages packages).Filed := (reachable_ofPackages packages).filed
  have hd : (ofPackages others).Filed := (reachable_ofPackages others).filed
  obtain ⟨s', hs', hss⟩ := exists_of_rel (hrel.structs path name) hs
  obtain ⟨ipath, iname, hfind⟩ := PackageTable.mem_all_iff.1 hi
  obtain ⟨j, hfind', hij⟩ := exists_of_rel (hrel.interfaces ipath iname) hfind
  have hj : j ∈ (ofPackages others).interfaces.all :=
    PackageTable.mem_all_iff.2 ⟨ipath, iname, hfind'⟩
  have hreference : i.reference = j.reference := by
    rw [Interface.reference, Interface.reference, hij.package, hij.name]
  have hloaded := loaded_of_findStruct? hc hs
  have hloaded' := loaded_of_findStruct? hd hs'
  refine ⟨_, _, implementedBy_eq hs, implementedBy_eq hs', ?_⟩
  rw [reference_mem_matching_iff hc hi, hreference, reference_mem_matching_iff hd hj]
  constructor
  · exact hrel.implements_of hc hd hloaded hloaded' hss hi hj hij hclear
  · exact hrel.symm.implements_of hd hc hloaded' hloaded hss.symm hj hi hij.symm
      fun hwhole => hrel.unambiguous hss hij (hclear (hrel.symm.whole hij.symm hwhole))

/-! ### Packages in which the order does and does not matter -/

section Drive

def driveId : PackageId := ⟨"drive", "example.com/drive"⟩

def driveType (name : String) : GoType := .named name (some driveId)

def driveField (name : String) : StructField := ⟨name, driveType name, true⟩

def drive (declarations : List Declaration) (methods : List MethodDecl) : Package :=
  ⟨driveId.name, driveId.path, [], declarations, methods⟩

def takesInt : Signature := ⟨[⟨"", .basic "int"⟩], []⟩

theorem drive_embedsReordered (name : String) {t u : GoType} (h : t.EmbedsReordered u)
    (rest : List Declaration) (methods : List MethodDecl) :
    List.Forall₂ Package.EmbedsReordered [drive (⟨name, false, t⟩ :: rest) methods]
      [drive (⟨name, false, u⟩ :: rest) methods] := by
  refine .cons ⟨rfl, rfl, rfl, rfl, .cons ⟨rfl, rfl, h⟩ ?_⟩ .nil
  exact List.forall₂_same.2 fun d _ => ⟨rfl, rfl, .refl d.underlying⟩

theorem struct_swap (a b : String) :
    (GoType.struct [driveField a, driveField b]).EmbedsReordered
      (.struct [driveField b, driveField a]) :=
  .struct rfl (.swap _ _ _)

/-- A car with an engine to start and a radio to stop, and an interface that asks for both. -/
def workshop (fields : List StructField) (embeds : List GoType) : Package :=
  drive [⟨"Car", false, .struct fields⟩, ⟨"Machine", false, .interface [] embeds⟩,
      ⟨"Engine", false, .struct []⟩, ⟨"Radio", false, .struct []⟩,
      ⟨"Starter", false, .interface [⟨"Start", takesInt⟩] []⟩,
      ⟨"Stopper", false, .interface [⟨"Stop", ⟨[], []⟩⟩] []⟩]
    [⟨"Engine", false, "Start", takesInt⟩, ⟨"Radio", false, "Stop", ⟨[], []⟩⟩]

def tidyWorkshop : Package :=
  workshop [driveField "Engine", driveField "Radio"] [driveType "Starter", driveType "Stopper"]

def car : Struct :=
  ⟨"Car", driveId, [driveField "Engine", driveField "Radio"].map (Field.ofStructField driveId), [],
    []⟩

def machine : Interface :=
  ⟨"Machine", driveId, [], [driveType "Starter", driveType "Stopper"].map driveId.view, false⟩

def workshopKey (name : String) : String := if name = "Start" then "(int)()" else "()()"

theorem workshopKey_of_requires {j : Interface} {name key : String}
    (hj : j ∈ (ofPackages [tidyWorkshop]).interfaces.all)
    (h : (ofPackages [tidyWorkshop]).Requires j name key) : key = workshopKey name := by
  have hcheck : ((ofPackages [tidyWorkshop]).interfaces.all.all fun j =>
      j.methods.all (fun m => m.signatureKey == workshopKey m.name) &&
        j.embedded.all fun e => e.goName != "error") = true := by
    decide +kernel
  obtain ⟨k, hreaches, hasks⟩ := asks_of_requires h
  have hk := List.all_eq_true.1 hcheck k (mem_all_of_reaches hj hreaches)
  rw [Bool.and_eq_true, List.all_eq_true, List.all_eq_true] at hk
  rcases hasks with ⟨m, hm, rfl, rfl⟩ | ⟨⟨e, he, -, herror⟩, -⟩
  · exact beq_iff_eq.1 (hk.1 m hm)
  · have hne := hk.2 e he
    rw [herror] at hne
    cases hne

def isWorkshopStruct : Promoted → Bool
  | .struct s => s.ownMethods.entries.all fun entry => entry.2 == workshopKey entry.1
  | _ => false

theorem isWorkshopStruct_of_mem_layer (depth : Nat) :
    ((ofPackages [tidyWorkshop]).layer car depth).all isWorkshopStruct = true := by
  have hnil : ∀ depth, ((ofPackages [tidyWorkshop]).layer car (depth + 2)).isEmpty = true := by
    intro depth
    induction depth with
    | zero => decide +kernel
    | succ depth ih => rw [layer, List.isEmpty_iff.1 ih]; rfl
  rcases depth with _ | _ | depth
  · decide +kernel
  · decide +kernel
  · rw [List.isEmpty_iff.1 (hnil depth)]
    rfl

theorem unambiguous_workshop : (ofPackages [tidyWorkshop]).Unambiguous car machine := by
  have hmachine : machine ∈ (ofPackages [tidyWorkshop]).interfaces.all := by decide +kernel
  have hstructs : ∀ depth item, item ∈ (ofPackages [tidyWorkshop]).layer car depth →
      isWorkshopStruct item = true :=
    fun depth => List.all_eq_true.1 (isWorkshopStruct_of_mem_layer depth)
  have hpromotes : ∀ name key, (ofPackages [tidyWorkshop]).Promotes car name key →
      key = workshopKey name := by
    rintro name key ⟨depth, -, item, hitem, hgives⟩
    have hitem := hstructs depth item hitem
    cases item with
    | struct t =>
      exact beq_iff_eq.1 (List.all_eq_true.1 hitem (name, key) (Table.mem_entries_iff.2 hgives))
    | interface j => cases hitem
    | methods fs => cases hitem
  constructor
  · intro name key key' hkey hkey'
    rw [workshopKey_of_requires hmachine hkey, workshopKey_of_requires hmachine hkey']
  · intro name key hkey
    rw [workshopKey_of_requires hmachine hkey]
    refine ⟨fun key' _ hkey' => hpromotes name key' hkey', ?_⟩
    intro depth j key' _ hj
    cases hstructs depth _ hj

/-- With both orders turned round the car still lists the interface. -/
theorem implementedBy_iff_workshop :
    ∃ listed listed',
      implementedBy [tidyWorkshop] "example.com/drive" "Car" = some listed ∧
      implementedBy [workshop [driveField "Radio", driveField "Engine"]
        [driveType "Stopper", driveType "Starter"]] "example.com/drive" "Car" = some listed' ∧
      machine.reference ∈ listed ∧ machine.reference ∈ listed' := by
  have hreordered : List.Forall₂ Package.EmbedsReordered [tidyWorkshop]
      [workshop [driveField "Radio", driveField "Engine"]
        [driveType "Stopper", driveType "Starter"]] := by
    refine .cons ⟨rfl, rfl, rfl, rfl, .cons ⟨rfl, rfl, struct_swap _ _⟩ (.cons ⟨rfl, rfl, ?_⟩ ?_)⟩ .nil
    · exact .interface _ (.swap _ _ _)
    · exact List.forall₂_same.2 fun d _ => ⟨rfl, rfl, .refl d.underlying⟩
  have hcar : (ofPackages [tidyWorkshop]).findStruct? "example.com/drive" "Car" = some car := by
    decide +kernel
  have hmachine : machine ∈ (ofPackages [tidyWorkshop]).interfaces.all := by decide +kernel
  obtain ⟨listed, listed', hlisted, hlisted', hiff⟩ :=
    implementedBy_iff_of_embedsReordered hreordered hcar hmachine fun _ => unambiguous_workshop
  have hmem : machine.reference ∈ listed := by
    have hmatching := (implementedBy_eq hcar).symm.trans hlisted
    cases hmatching
    rw [reference_mem_matching_iff (reachable_ofPackages _).filed hmachine]
    decide +kernel
  exact ⟨listed, listed', hlisted, hlisted', hmem, hiff.1 hmem⟩

/-- A car with an engine and a radio, and both have a method to start. -/
def rivals (fields : List StructField) : Package :=
  drive [⟨"Car", false, .struct fields⟩, ⟨"Engine", false, .struct []⟩, ⟨"Radio", false, .struct []⟩,
      ⟨"Starter", false, .interface [⟨"Start", takesInt⟩] []⟩]
    [⟨"Engine", false, "Start", ⟨[], []⟩⟩, ⟨"Radio", false, "Start", takesInt⟩]

/-- A car with an embedded interface, which embeds one that is loaded and one that is not. -/
def halfLoaded (embeds : List GoType) : Package :=
  drive [⟨"Machine", false, .interface [] embeds⟩, ⟨"Car", false, .struct [driveField "Machine"]⟩,
      ⟨"Starter", false, .interface [⟨"Start", ⟨[], []⟩⟩] []⟩] []

/-- An interface that asks for two methods called `Error` with different keys. -/
def clash (embeds : List GoType) : Package :=
  drive [⟨"Failure", false, .interface [] embeds⟩, ⟨"Car", false, .struct []⟩,
      ⟨"Coded", false, .interface [⟨"Error", ⟨[], [⟨"", .basic "int"⟩]⟩⟩] []⟩]
    [⟨"Car", false, "Error", ⟨[], [⟨"", .basic "string"⟩]⟩⟩]

/-- Where declarations compete, the one that is written first decides; and what an interface adds
before it meets one that is not loaded depends on which stands first. -/
theorem implementedBy_depends_on_order :
    (List.Forall₂ Package.EmbedsReordered [rivals [driveField "Engine", driveField "Radio"]]
        [rivals [driveField "Radio", driveField "Engine"]] ∧
      implementedBy [rivals [driveField "Engine", driveField "Radio"]] "example.com/drive" "Car" =
        some [] ∧
      implementedBy [rivals [driveField "Radio", driveField "Engine"]] "example.com/drive" "Car" =
        some [⟨driveId, "Starter"⟩]) ∧
    (List.Forall₂ Package.EmbedsReordered
        [halfLoaded [.named "Missing" (some ⟨"ext", "example.com/ext"⟩), driveType "Starter"]]
        [halfLoaded [driveType "Starter", .named "Missing" (some ⟨"ext", "example.com/ext"⟩)]] ∧
      implementedBy [halfLoaded [.named "Missing" (some ⟨"ext", "example.com/ext"⟩),
        driveType "Starter"]] "example.com/drive" "Car" = some [] ∧
      implementedBy [halfLoaded [driveType "Starter",
        .named "Missing" (some ⟨"ext", "example.com/ext"⟩)]] "example.com/drive" "Car" =
          some [⟨driveId, "Starter"⟩]) ∧
    (List.Forall₂ Package.EmbedsReordered [clash [.basic "error", driveType "Coded"]]
        [clash [driveType "Coded", .basic "error"]] ∧
      implementedBy [clash [.basic "error", driveType "Coded"]] "example.com/drive" "Car" =
        some [⟨driveId, "Failure"⟩] ∧
      implementedBy [clash [driveType "Coded", .basic "error"]] "example.com/drive" "Car" =
        some []) := by
  refine ⟨⟨?_, by decide +kernel, by decide +kernel⟩, ⟨?_, by decide +kernel, by decide +kernel⟩,
    ⟨?_, by decide +kernel, by decide +kernel⟩⟩
  · exact drive_embedsReordered _ (struct_swap _ _) _ _
  · exact drive_embedsReordered _ (.interface _ (.swap _ _ _)) _ _
  · exact drive_embedsReordered _ (.interface _ (.swap _ _ _)) _ _

end Drive

end Catalog

end GoUml
