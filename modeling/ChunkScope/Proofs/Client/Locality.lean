import ChunkScope.Proofs.Client.Reading
import ChunkScope.Proofs.Node.Writing

/-!
# Chunks that a client reads

Wherever the URL of a node leads, a client that asks there for a chunk is told of this chunk or of
none: the path of its request ends with the text of the id, and the only resource of a node whose
path does is the chunk. So what comes of it hangs on what the nodes have under the id, and on
nothing else.
-/

namespace ChunkScope

open Http Url Node

/-! ## Paths that end with a chunk id -/

/-- The path that a node sees is that of the URL, whatever follows it. -/
theorem Node.Route.path_target (scheme : String) (authority : Option Authority)
    {names : List String} (query fragment : Option String)
    (h : ∀ name ∈ names, StaysInPath name) :
    Route.path (target ⟨scheme, authority, .named names, query, fragment⟩) =
      names.flatMap fun name => '/' :: name.toList := by
  have hall : ∀ c ∈ names.flatMap (fun name => '/' :: name.toList),
      (c ≠ '?' && c ≠ '#') = true := by
    intro c hc
    obtain ⟨name, hname, hc⟩ := List.mem_flatMap.mp hc
    rcases List.mem_cons.mp hc with rfl | hc
    · rfl
    · obtain ⟨hquestion, hhash⟩ := h name hname c hc
      simp [hquestion, hhash]
  -- a query begins with the question mark that ends the path
  have hquery : ((query.map ("?" ++ ·)).getD "").toList.takeWhile
      (fun c => c ≠ '?' && c ≠ '#') = [] := by
    cases query with
    | none => rfl
    | some query =>
      rw [Option.map_some, Option.getD_some, String.toList_append]
      rfl
  rw [Route.path, target, String.toList_append, toList_text_named,
    List.takeWhile_append_of_pos hall, hquery, List.append_nil]

/-- The only resource whose path ends with `chunks` and the text of a chunk id is the chunk. -/
theorem Node.Route.eq_chunk_of_path {target : String} {route : Route} {front : List String}
    {id : ChunkId} (h : Route.ofTarget? target = some route)
    (hpath : Route.path target =
      (front ++ ["chunks", id.text]).flatMap fun name => '/' :: name.toList) :
    route = .chunk id.text.toList := by
  have hsegments := (Route.segments_of_ofSegments? h).1
  rw [hpath, List.flatMap_append, List.flatMap_cons, List.flatMap_cons, List.flatMap_nil,
    List.append_nil, List.cons_append, List.splitOn_append_cons_self,
    List.splitOn_append_cons_self_of_not_mem (by decide),
    List.splitOn_eq_singleton id.slash_not_mem_text] at hsegments
  -- seen from the end, the names begin with the id and `chunks`
  have hnames := congrArg List.reverse hsegments
  rw [List.reverse_append] at hnames
  have hid {name : String} (hname : name.toList.head? ≠ some '0') :
      id.text.toList ≠ name.toList := fun heq =>
    Client.text_ne hname (String.toList_inj.mp heq)
  cases route with
  | status => exact absurd (List.cons.inj hnames).1 (hid (by decide))
  | types => exact absurd (List.cons.inj hnames).1 (hid (by decide))
  | chunks => exact absurd (List.cons.inj hnames).1 (hid (by decide))
  | chunk name => rw [(List.cons.inj hnames).1]
  | typed name typeName =>
    exact absurd (List.cons.inj (List.cons.inj hnames).2).1 (by decide)

/-! ## What is read there -/

/-- A node answers a request for a chunk alike whenever it has the same under the id. -/
theorem Node.Api.respond_congr {target : String} {id : ChunkId} {store other : Store}
    (hroute : ∀ route, Route.ofTarget? target = some route → route = .chunk id.text.toList)
    (hget : store.get? id = other.get? id) :
    (respond (getRequest target) store).1 = (respond (getRequest target) other).1 := by
  cases htarget : Route.ofTarget? target with
  | none => rw [respond_of_not_route htarget, respond_of_not_route htarget]
  | some route =>
    rw [hroute route htarget] at htarget
    have hdecode := ChunkId.decode?_text id
    rw [respond_chunk htarget hdecode, respond_chunk htarget hdecode, getChunk, getChunk, hget]

namespace Client

/-- The names of a chunk stay in the path. -/
theorem staysInPath_chunk (id : ChunkId) :
    ∀ name ∈ ["chunks", id.text], StaysInPath name := by
  have hchunks : ∀ c ∈ "chunks".toList, c ≠ '?' ∧ c ≠ '#' := by simp
  exact List.forall_mem_cons.mpr ⟨hchunks, List.forall_mem_singleton.mpr
    (ChunkId.forall_mem_text (by decide) (by decide) id)⟩

/-- Below any path of names a chunk goes to the end, and an empty name that stands alone makes way
for it. -/
theorem foldl_push_chunk_any (isSpecial : Bool) (names : List String) (id : ChunkId) :
    ["chunks", id.text].foldl (push isSpecial) names =
      (if names = [""] then [] else names) ++ ["chunks", id.text] := by
  have hchunks : nameText isSpecial "chunks" = "chunks" := by cases isSpecial <;> rfl
  generalize hfront : (if names = [""] then [] else names) = front
  have hne : front ++ ["chunks"] ≠ [""] := by
    intro heq
    obtain ⟨-, hlast⟩ := List.append_inj' (heq.trans (List.nil_append [""]).symm) rfl
    exact absurd hlast (by decide)
  rw [List.foldl_cons, push_of_nameText_eq names hchunks (by decide) (by decide), hfront,
    List.foldl_cons, push_eq_append hne (nameText_text isSpecial id) (text_ne (by decide))
      (text_ne (by decide)), List.append_assoc]
  rfl

/-- The URL for a chunk, wherever its node is said to be, has a path that ends with the id. -/
theorem eq_chunk_of_urlFor {client : Client} {node : NodeId} {id : ChunkId} {url : Url}
    (h : client.urlFor node ["chunks", id.text] = .ok url) :
    ∀ route, Route.ofTarget? url.target = some route → route = .chunk id.text.toList := by
  rw [urlFor] at h
  split at h
  · cases h
  · next base hbase =>
    split at h
    · cases h
    · next below hbelow =>
      cases h
      obtain ⟨scheme, authority, path, query, fragment⟩ := base
      cases path with
      | opaqueText text => cases hbelow
      | named names =>
        have hnames := staysInPath_of_parse? hbase rfl
        have hfront : ∀ name ∈ if names = [""] then [] else names, StaysInPath name := by
          split
          · exact List.forall_mem_nil _
          · exact hnames
        have hall := List.forall_mem_append.mpr ⟨hfront, staysInPath_chunk id⟩
        have hurl : url = ⟨scheme, authority,
            .named ((if names = [""] then [] else names) ++ ["chunks", id.text]), query,
            fragment⟩ := by
          rw [← foldl_push_chunk_any (isSpecialScheme scheme)]
          exact (Option.some.inj hbelow).symm
        intro route hroute
        rw [hurl] at hroute
        exact Route.eq_chunk_of_path hroute (Route.path_target scheme authority query fragment hall)

/-- Two networks whose nodes have the same under an id, at every place. -/
def AgreeOn (id : ChunkId) (network other : Network) : Prop :=
  ∀ place, (network.hosts.lookup place).map (·.get? id) =
    (other.hosts.lookup place).map (·.get? id)

variable {client : Client} {network other : Network} {id : ChunkId}

/-- What a network brings back of a chunk hangs on what its nodes have under the id. -/
private theorem send_congr (hlive : network.IsLive) (hother : other.IsLive)
    (hagree : AgreeOn id network other) {url : Url}
    (hroute : ∀ route, Route.ofTarget? url.target = some route → route = .chunk id.text.toList) :
    (network.send client.patience ⟨.get, url, none⟩).1 =
      (other.send client.patience ⟨.get, url, none⟩).1 := by
  cases hauthority : url.authority with
  | none =>
    rw [Network.send_of_prompt hlive.isPrompt, Network.send_of_prompt hother.isPrompt,
      Network.deliver, if_pos hlive.isUp, Network.deliver, if_pos hother.isUp]
    simp only [hlive.replies, hother.replies, hauthority]
  | some authority =>
    rw [Network.send_eq hlive client.patience hauthority,
      Network.send_eq hother client.patience hauthority]
    dsimp only
    have hplace := hagree authority.place
    rw [Network.ask, Network.ask]
    cases hstore : network.hosts.lookup authority.place with
    | none =>
      rw [hstore, Option.map_none] at hplace
      rw [Option.map_eq_none_iff.mp hplace.symm]
    | some store =>
      rw [hstore, Option.map_some] at hplace
      obtain ⟨store', hstore', hget⟩ := Option.map_eq_some_iff.mp hplace.symm
      have hresponse := Api.respond_congr hroute hget.symm
      rw [hstore']
      exact congrArg some (congrArg (fun response : Response =>
        Network.arriving response.status (Utf8.encode response.body)) hresponse)

/-- What a client reads of a chunk hangs on what the nodes have under the id. -/
theorem fetch_congr (hlive : network.IsLive) (hother : other.IsLive)
    (hagree : AgreeOn id network other) :
    ((client.fetch Network.transport [id]).run network).1 =
      ((client.fetch Network.transport [id]).run other).1 := by
  have hget : ((client.get Network.transport id.node ["chunks", id.text]).run network).1 =
      ((client.get Network.transport id.node ["chunks", id.text]).run other).1 := by
    rw [get]
    cases hurl : client.urlFor id.node ["chunks", id.text] with
    | error failure => rfl
    | ok url =>
      dsimp only
      by_cases hhttp : url.IsHttp
      · rw [send_run client hhttp, send_run client hhttp]
        dsimp only
        rw [send_congr hlive hother hagree (eq_chunk_of_urlFor hurl)]
      · rw [send, if_neg hhttp]
        rfl
  rw [fetch_singleton, fetch_singleton, fetchOne, bind_pure_run_fst, bind_pure_run_fst, hget]

end Client

end ChunkScope
