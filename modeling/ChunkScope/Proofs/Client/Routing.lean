import ChunkScope.Proofs.Client.Reading
import ChunkScope.Proofs.Layout.Fitting
import ChunkScope.Proofs.Node.Runs

/-!
# Routing

A client gives a request to the node whose URL its configuration has for the node that hosts the
chunk. Any number of slashes may stand at the end of such a URL. The name of a structure may change
on the way to the node.
-/

namespace ChunkScope

open Http Url

/-! ## Where requests go -/

/-- The URL of the node that answers for another one's chunks: its last entry in the cluster, or
else the default. -/
def Config.urlOf (config : Config) (node : NodeId) : String :=
  ((config.cluster.filter fun endpoint => endpoint.node = node).getLast?.map Endpoint.url).getD
    config.client.url

namespace Client

/-- Slashes behind a host do not count. -/
theorem trimSlashes_ofHost {host : List Char} {authority : Authority} (h : IsHost host authority)
    (slashes : Nat) : trimSlashes (ofHost host slashes) = ofHost host 0 := by
  obtain ⟨last, front, hreverse⟩ :=
    List.exists_cons_of_ne_nil (List.reverse_ne_nil_iff.mpr h.ne_nil)
  have hlast : (last == '/') = false := by
    have hends := (h.plain last (by rw [← List.mem_reverse, hreverse]; simp)).1
    rw [endsPlace, Bool.or_eq_false_iff, Bool.or_eq_false_iff, isSlash,
      Bool.or_eq_false_iff] at hends
    exact hends.1.1.1
  -- seen from its end, the URL is slashes up to the last character of the host
  have hslashes : ∀ c ∈ List.replicate slashes '/', (c == '/') = true := by
    intro c hc
    rw [List.eq_of_mem_replicate hc]
    rfl
  rw [← String.toList_inj, trimSlashes, String.toList_ofList, toList_ofHost, toList_ofHost,
    List.reverse_append, List.reverse_append, List.reverse_replicate, List.append_assoc,
    List.dropWhile_append_of_pos hslashes, hreverse, List.cons_append,
    List.dropWhile_cons_of_neg (by simp [hlast]), ← List.cons_append, ← hreverse,
    List.reverse_append, List.reverse_reverse, List.reverse_reverse]
  exact congrArg _ (List.append_nil host).symm

/-- The address of the API is the URL of the node without the slashes at its end, and the name of
the API. -/
theorem baseFor_ofConfig (config : Config) (node : NodeId) :
    (ofConfig config).baseFor node = trimSlashes (config.urlOf node) ++ "/api" := by
  have hcluster : (ofConfig config).cluster = config.cluster := rfl
  rw [baseFor, hcluster, Config.urlOf, List.getLast?_eq_head?_reverse, ← List.filter_reverse,
    List.head?_filter]
  cases config.cluster.reverse.find? fun endpoint => endpoint.node = node <;> rfl

/-- A client reaches the node that its configuration names. -/
theorem reaches_ofConfig (config : Config) {network : Network} {node : NodeId} {store : Store}
    (h : network.Names (config.urlOf node) store) :
    (ofConfig config).Reaches network node store := by
  obtain ⟨host, slashes, authority, hurl, hhost, hlookup⟩ := h
  refine ⟨host, authority, ?_, hhost, hlookup⟩
  rw [baseFor_ofConfig, hurl, trimSlashes_ofHost hhost]

/-- A client of one URL reaches the node there, whatever the node is. -/
theorem reaches_ofUrl {url : String} {network : Network} {store : Store}
    (h : network.Names url store) (node : NodeId) : (ofUrl url).Reaches network node store :=
  reaches_ofConfig { client := { url } } h

end Client

/-! ## Places -/

/-- A text that writes a URL of a place on the network, with a path of some names. What follows the
path does not count. -/
def Http.Url.LeadsTo (text : String) (names : List String) (place : String) : Prop :=
  ∃ authority query fragment,
    parse? text = some ⟨"http", some authority, .named names, query, fragment⟩ ∧
      authority.place = place

/-- A URL of a place: `http://` and a host that comes to the place, with any number of slashes
behind. -/
def Http.Url.IsAt (url place : String) : Prop :=
  ∃ host slashes authority, url = ofHost host slashes ∧ IsHost host authority ∧
    authority.place = place

namespace Network

/-- A URL that is at a place names the node that is there. -/
theorem names_of_isAt {network : Network} {url place : String} (h : IsAt url place) {store : Store}
    (hstore : network.hosts.lookup place = some store) : network.Names url store := by
  obtain ⟨host, slashes, authority, hurl, hhost, rfl⟩ := h
  exact ⟨host, slashes, authority, hurl, hhost, hstore⟩

/-- The place where clients look for a node by default. -/
theorem isAt_default : IsAt "http://127.0.0.1:9101" "127.0.0.1:9101" := by
  refine ⟨"127.0.0.1:9101".toList, 0, ⟨none, "127.0.0.1", some 9101⟩, by decide, ⟨?_, ?_⟩, ?_⟩
  · simp [endsPlace, isSlash]
  · decide +kernel
  · decide +kernel

/-! ## A network of one node -/

/-- The network on which a node is where clients look for one by default. -/
def ofStore (store : Store) : Network :=
  ⟨true, 0, [], [("127.0.0.1:9101", store)], []⟩

theorem isLive_ofStore (store : Store) : (ofStore store).IsLive :=
  ⟨rfl, rfl, rfl⟩

theorem names_ofStore (store : Store) : (ofStore store).Names "http://127.0.0.1:9101" store :=
  names_of_isAt isAt_default List.lookup_cons_self

end Network

/-- The node 1 with one chunk of one byte, which may be read as a vertex. -/
def Store.vertex : Store :=
  ((empty ⟨1⟩ (.ofLayouts [⟨"Vertex", [⟨"id", .number .byte⟩]⟩])).create [7]).2

/-! ## Names of structures on their way

A client puts the name of a structure into the path of its request. Most names arrive as they were
sent. Those that hold a tab, a line feed or a carriage return arrive without them and may so become
the name of another structure, and the names that a path has no place for do not arrive at all. -/

namespace Client

/-- The client reads a chunk as a structure of a name exactly when the node itself does, and what it
reads is of that name. -/
def ReadsByName (client : Client) (network : Network) (store : Store) (id : ChunkId)
    (typeName : String) : Prop :=
  ∃ found, ((client.typed Network.transport id typeName).run network).1 = .ok found ∧
    (found.isSome ↔ (store.typed? id typeName).isSome) ∧
      ∀ object, found = some object → object.typeName = typeName

/-- A plain name is read by its name. Any other name is so only if there is nothing to be read:
neither on the node, nor by the client under the name as it arrives. -/
theorem readsByName_ofUrl_iff {network : Network} (hlive : network.IsLive) {url : String}
    {store : Store} (hnames : network.Names url store) {layouts : List Layout}
    (htypes : store.types = .ofLayouts layouts) (id : ChunkId) (typeName : String) :
    (ofUrl url).ReadsByName network store id typeName ↔
      IsPlainName typeName ∨ store.typed? id typeName = none ∧
        (IsSpecialName (stripped typeName) ∨ store.typed? id (stripped typeName) = none) := by
  have htyped := typed_run hlive id typeName (reaches_ofUrl hnames id.node)
  constructor
  · rintro ⟨found, hfound, hsome, hname⟩
    have hfound : (if IsSpecialName (stripped typeName) then none
        else store.typed? id (stripped typeName)) = found :=
      Except.ok.inj (htyped.symm.trans hfound)
    by_cases hplain : IsPlainName typeName
    · exact .inl hplain
    -- what is found under another name would say that it is of the name as it arrives
    have hnone : found = none := by
      rw [Option.eq_none_iff_forall_ne_some]
      intro object hobject
      rw [hobject] at hfound
      split at hfound
      · cases hfound
      · next hspecial =>
        have hstripped : stripped typeName = typeName :=
          (Store.typeName_of_typed? htypes hfound).symm.trans (hname object hobject)
        rw [hstripped] at hspecial
        exact hplain (isPlainName_iff.mpr ⟨hspecial, hstripped⟩)
    refine .inr ⟨?_, ?_⟩
    · rw [hnone] at hsome
      simpa using hsome
    · rw [hnone] at hfound
      split at hfound
      · next hspecial => exact .inl hspecial
      · exact .inr hfound
  · rintro (hplain | ⟨hnone, harrived⟩)
    · obtain ⟨hspecial, hstripped⟩ := isPlainName_iff.mp hplain
      rw [hstripped, if_neg hspecial] at htyped
      exact ⟨_, htyped, Iff.rfl, fun object hobject => Store.typeName_of_typed? htypes hobject⟩
    · refine ⟨none, ?_, by rw [hnone], nofun⟩
      rw [htyped]
      rcases harrived with hspecial | hstripped
      · rw [if_pos hspecial]
      · rw [hstripped, ite_self]

end Client

/-- The store of the node 1 with an empty chunk and a structure without fields to read it as. -/
def Store.bare (typeName : String) : Store :=
  ((empty ⟨1⟩ (.ofLayouts [⟨typeName, []⟩])).create []).2

private theorem Store.typed?_bare (typeName : String) :
    (bare typeName).typed? ⟨0x0001000000000001⟩ typeName = some ⟨typeName, 0, .object []⟩ := by
  have hid : (⟨0x0001000000000001⟩ : ChunkId) = ChunkId.pack ⟨1⟩ ⟨1⟩ := by decide
  refine typed?_eq_some_iff.mpr ⟨[], ⟨typeName, []⟩, ?_, ?_, rfl⟩
  · rw [bare, get?_create]
    exact if_pos hid
  · show (Registry.ofLayouts [⟨typeName, []⟩]).get? typeName = _
    rw [Registry.get?_ofLayouts]
    simp

namespace Client

/-- The names under which chunks are read for what they are, whatever the chunk and the layouts of
its node, are the plain ones. -/
theorem forall_readsByName_iff_isPlainName (typeName : String) :
    (∀ (network : Network) (url : String) (store : Store) (layouts : List Layout) (id : ChunkId),
      network.IsLive → network.Names url store → store.types = .ofLayouts layouts →
        (ofUrl url).ReadsByName network store id typeName) ↔ IsPlainName typeName := by
  constructor
  · intro h
    -- the name is that of a structure which the node has, so there is something to be read
    have hbare := h _ _ _ _ ⟨0x0001000000000001⟩ (Network.isLive_ofStore (.bare typeName))
      (Network.names_ofStore _) rfl
    rw [readsByName_ofUrl_iff (Network.isLive_ofStore _) (Network.names_ofStore _) rfl,
      Store.typed?_bare] at hbare
    rcases hbare with hplain | ⟨hnone, -⟩
    · exact hplain
    · cases hnone
  · intro hplain network url store layouts id hlive hnames htypes
    exact (readsByName_ofUrl_iff hlive hnames htypes id typeName).mpr (.inl hplain)

/-- A name with a tab in it is taken for the name without it. -/
theorem typed_tab :
    ((typed (ofUrl "http://127.0.0.1:9101") Network.transport ⟨0x0001000000000001⟩
        "Ver\ttex").run (.ofStore .vertex)).1 =
      .ok (some ⟨"Vertex", 1, .object [("id", .int 7)]⟩) ∧
    ¬ (ofUrl "http://127.0.0.1:9101").ReadsByName (.ofStore .vertex) .vertex
      ⟨0x0001000000000001⟩ "Ver\ttex" := by
  have hfound : ((typed (ofUrl "http://127.0.0.1:9101") Network.transport ⟨0x0001000000000001⟩
      "Ver\ttex").run (.ofStore .vertex)).1 =
        .ok (some ⟨"Vertex", 1, .object [("id", .int 7)]⟩) := by
    have hreaches := reaches_ofUrl (Network.names_ofStore .vertex) ⟨1⟩
    have hstripped : stripped "Ver\ttex" = "Vertex" := by decide
    rw [typed_run (Network.isLive_ofStore .vertex) _ _ hreaches, hstripped, if_neg (by decide)]
    rfl
  refine ⟨hfound, ?_⟩
  rintro ⟨found, hread, -, hname⟩
  obtain rfl : some _ = found := Except.ok.inj (hfound.symm.trans hread)
  exact absurd (hname _ rfl) (by decide)

end Client

end ChunkScope
