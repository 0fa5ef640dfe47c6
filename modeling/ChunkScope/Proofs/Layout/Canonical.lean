import ChunkScope.Proofs.Layout.Fitting
import ChunkScope.Proofs.Node.Messages
import ChunkScope.Proofs.Node.Reading
import ChunkScope.Proofs.Node.Runs
import ChunkScope.Proofs.Text.Encodings

/-!
# Registries are canonical

What a registry is hangs on the layouts that were registered, and of those of one name on the last
one only. Their names are in the order of their bytes, and that is the order in which a node reports
them. So two nodes that know the same layouts report the same, in whatever order they were told.

Everything comes from two facts: `get?_eq_getLast?` says what is found under a name, and
`eq_of_get?_eq` that a registry is what is found in it.
-/

namespace ChunkScope

/-! ## What is found in a registry -/

namespace Registry

/-- The layouts of a name, in the order that they have in a list. -/
def named (name : String) (layouts : List Layout) : List Layout :=
  layouts.filter fun layout => layout.name = name

/-- Registering some layouts and then more is registering all of them. -/
theorem ofLayouts_append (layouts more : List Layout) : ofLayouts (layouts ++ more) =
    more.foldl (fun registry layout => registry.register layout) (ofLayouts layouts) :=
  List.foldl_append

/-- Under a name there is the last layout of that name. -/
theorem get?_eq_getLast? (layouts : List Layout) (name : String) :
    (ofLayouts layouts).get? name = (named name layouts).getLast? := by
  have hname : (fun layout : Layout => decide (name = layout.name)) =
      fun layout => decide (layout.name = name) :=
    funext fun layout => decide_eq_decide.mpr eq_comm
  rw [get?_ofLayouts, hname, named, List.getLast?_eq_head?_reverse, ← List.filter_reverse,
    List.head?_filter]

/-- Registries in which the same is found are the same. -/
theorem eq_of_get?_eq {layouts others : List Layout}
    (h : ∀ name, (ofLayouts layouts).get? name = (ofLayouts others).get? name) :
    ofLayouts layouts = ofLayouts others :=
  congrArg mk (Keyed.eq_of_find?_eq String.lt_asymm (entries_ofLayouts layouts).1
    (entries_ofLayouts others).1 h)

variable {layouts : List Layout} {name : String} {layout : Layout}

/-- Under a name there is the layout of its entry. -/
theorem get?_eq_some_iff_mem :
    (ofLayouts layouts).get? name = some layout ↔ (name, layout) ∈ (ofLayouts layouts).entries :=
  Keyed.find?_text_eq_some_iff_mem (entries_ofLayouts layouts).1

/-- The names of a registry are those of the layouts. -/
theorem mem_names_iff :
    name ∈ (ofLayouts layouts).names ↔ ∃ layout ∈ layouts, layout.name = name := by
  have hmem : name ∈ (ofLayouts layouts).names ↔
      ∃ layout, (ofLayouts layouts).get? name = some layout := by
    simp [names, get?_eq_some_iff_mem]
  rw [hmem]
  simp only [get?_eq_getLast?, ← Option.isSome_iff_exists, List.getLast?_isSome, named]
  simp

/-- What is found is one of the layouts in the registry, and of the name it is found under. -/
theorem mem_layouts_of_get? (h : (ofLayouts layouts).get? name = some layout) :
    layout ∈ (ofLayouts layouts).layouts ∧ layout.name = name :=
  ⟨List.mem_map_of_mem (get?_eq_some_iff_mem.mp h), name_of_get?_ofLayouts h⟩

/-- The layouts of a registry make the same registry again. -/
theorem ofLayouts_layouts (layouts : List Layout) :
    ofLayouts (ofLayouts layouts).layouts = ofLayouts layouts := by
  refine eq_of_get?_eq fun name => Option.ext fun layout => ?_
  have hlayout {other : Layout} (hother : other ∈ (ofLayouts layouts).layouts) :
      (ofLayouts layouts).get? other.name = some other := get?_of_mem_layouts hother
  -- there is one layout of a name in the registry, so the last one is the only one
  have hnamed : ∀ other ∈ named name (ofLayouts layouts).layouts,
      (ofLayouts layouts).get? name = some other := by
    intro other hother
    obtain ⟨hmem, hname⟩ := List.mem_filter.mp hother
    rw [← of_decide_eq_true hname]
    exact hlayout hmem
  rw [get?_eq_getLast? (ofLayouts layouts).layouts]
  constructor
  · exact fun h => hnamed layout (List.mem_of_getLast? h)
  · intro h
    obtain ⟨hmem, hname⟩ := mem_layouts_of_get? h
    have hne : named name (ofLayouts layouts).layouts ≠ [] :=
      List.ne_nil_of_mem (List.mem_filter.mpr ⟨hmem, decide_eq_true hname⟩)
    have hlast := hnamed _ (List.getLast_mem hne)
    rw [h] at hlast
    rw [List.getLast?_eq_some_getLast hne, hlast]

/-- The layouts come in the order of the names. -/
theorem map_some_layouts (layouts : List Layout) : (ofLayouts layouts).layouts.map some =
    (ofLayouts layouts).names.map (ofLayouts layouts).get? := by
  rw [Registry.layouts, names, List.map_map, List.map_map]
  exact List.map_congr_left fun entry hentry => (get?_eq_some_iff_mem.mpr hentry).symm

/-- The names come in the order of their bytes. -/
theorem pairwise_names (layouts : List Layout) :
    (ofLayouts layouts).names.Pairwise fun name later => Utf8.encode name < Utf8.encode later :=
  List.pairwise_map.mpr ((entries_ofLayouts layouts).1.imp Utf8.encode_lt_encode)

end Registry

/-! ## What a node reports -/

namespace Node.Api

open Http Message

/-- A response that carries a message: it tells of success, and the message is read from it. -/
def Tells {α : Type} (reader : Json.Reader α) (answer : α) (response : Response) : Prop :=
  response.status = 200 ∧ reader.run response.body = .ok answer

variable {request : Request} (hmethod : request.method = .get)
include hmethod

/-- A node that is asked for its status tells it. -/
theorem tells_status (hpath : Route.path request.target = "/api/status".toList) (store : Store) :
    Tells StatusAnswer.read (status store) (respond request store).1 := by
  have hroute : Route.ofTarget? request.target = some .status := by
    rw [Route.ofTarget?, hpath]
    decide
  rw [respond_of_get hmethod, hroute, Option.elim_some, onRoute, hmethod]
  exact ⟨rfl, StatusAnswer.run_read_toJson (status store)⟩

/-- A node that is asked for its types tells the layouts that it knows. -/
theorem tells_types (hpath : Route.path request.target = "/api/types".toList) (store : Store) :
    Tells TypesAnswer.read ⟨store.types.layouts⟩ (respond request store).1 := by
  have hroute : Route.ofTarget? request.target = some .types := by
    rw [Route.ofTarget?, hpath]
    decide
  rw [respond_of_get hmethod, hroute, Option.elim_some, onRoute, hmethod]
  exact ⟨rfl, TypesAnswer.run_read_toJson _⟩

end Node.Api

/-! ## Canonical registries -/

namespace Registry

open Http Message Node Node.Api

/-- What a registry is when some layouts have been registered in it, one after the other. Its names
are those of the layouts, in the order of their bytes and each of them once, and under a name there
is the last layout of that name; these are the layouts that it lists. Listed and registered again,
they make the same registry, and so does every list with the same layouts of each name in the same
order: the lists that come from this one when only layouts of different names change places. A node
that has the registry reports the names when it is asked for its status, and the layouts when it is
asked for its types, whatever has been done to its chunks. -/
structure Canonical (layouts : List Layout) (registry : Registry) : Prop where
  ascending : registry.names.Pairwise fun name later => Utf8.encode name < Utf8.encode later
  names : ∀ name, name ∈ registry.names ↔ ∃ layout ∈ layouts, layout.name = name
  found : ∀ name, registry.get? name = (named name layouts).getLast?
  listed : registry.layouts.map some = registry.names.map registry.get?
  again : ofLayouts registry.layouts = registry
  reordered : ∀ others, (∀ name, named name others = named name layouts) →
    ofLayouts others = registry
  reportsNames : ∀ node ops request, request.method = .get →
    Route.path request.target = "/api/status".toList →
      ∃ answer, Tells StatusAnswer.read answer
        (respond request (Store.perform ops (.empty node registry))).1 ∧
          answer.types = registry.names
  reportsLayouts : ∀ node ops request, request.method = .get →
    Route.path request.target = "/api/types".toList →
      Tells TypesAnswer.read ⟨registry.layouts⟩
        (respond request (Store.perform ops (.empty node registry))).1

/-- A registry is what its layouts make it. -/
theorem canonical_ofLayouts (layouts : List Layout) : Canonical layouts (ofLayouts layouts) where
  ascending := pairwise_names layouts
  names _ := mem_names_iff
  found := get?_eq_getLast? layouts
  listed := map_some_layouts layouts
  again := ofLayouts_layouts layouts
  reordered others hnamed := by
    refine eq_of_get?_eq fun name => ?_
    rw [get?_eq_getLast?, get?_eq_getLast?, hnamed]
  reportsNames node ops request hmethod hpath :=
    ⟨_, tells_status hmethod hpath _, congrArg Registry.names (Store.perform_types ops _)⟩
  reportsLayouts node ops request hmethod hpath := by
    have htells := tells_types hmethod hpath (Store.perform ops (.empty node (ofLayouts layouts)))
    rw [Store.perform_types] at htells
    exact htells

/-- Whatever layouts a registry is made of, and whatever is registered in it later, it is the
canonical registry of all of them. -/
theorem canonical_register (layouts more : List Layout) : Canonical (layouts ++ more)
    (more.foldl (fun registry layout => registry.register layout) (ofLayouts layouts)) := by
  rw [← ofLayouts_append]
  exact canonical_ofLayouts (layouts ++ more)

end Registry

end ChunkScope
