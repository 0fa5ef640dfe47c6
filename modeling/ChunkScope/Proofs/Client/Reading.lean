import ChunkScope.Proofs.Http.Addresses
import ChunkScope.Proofs.Layout.Fitting
import ChunkScope.Proofs.Node.Messages
import ChunkScope.Proofs.Node.Reading
import ChunkScope.World

/-!
# Reading through a client

What a client reads of a node is what the node has: the chunk with all of its bytes, and the
structure with all of its fields. Only the name of a structure may change on the way.
-/

namespace ChunkScope

open Http Message Url

/-! ## Networks -/

/-- A network whose nodes answer every request themselves, and without delay. -/
structure Network.IsLive (network : Network) : Prop where
  isUp : network.isUp = true
  isPrompt : network.delay = 0
  replies : network.replies = []

/-- A URL that names a node of a network: `http://` and a host under which the node is found, with
any number of slashes behind. -/
def Network.Names (network : Network) (url : String) (store : Store) : Prop :=
  ∃ host slashes authority, url = ofHost host slashes ∧ IsHost host authority ∧
    network.hosts.lookup authority.place = some store

/-- A reply that takes no time is in time for every client. -/
theorem Network.send_of_prompt {network : Network} (hprompt : network.delay = 0)
    (patience : Client.Patience) (sent : Network.Sent) :
    network.send patience sent = network.deliver sent := by
  rw [Network.send, hprompt]
  rcases network.deliver sent with ⟨reply, behind⟩
  exact congrArg (·, behind) (if_pos (Nat.zero_le _))

/-- On a network whose nodes answer, a request goes to the place that its URL names. -/
theorem Network.send_eq {network : Network} (hlive : network.IsLive) (patience : Client.Patience)
    {sent : Network.Sent} {authority : Authority}
    (hauthority : sent.url.authority = some authority) :
    network.send patience sent =
      ((Network.ask authority.place sent network.hosts).1,
        { network with
          hosts := (Network.ask authority.place sent network.hosts).2
          log := network.log ++ [sent] }) := by
  rw [Network.send_of_prompt hlive.isPrompt, Network.deliver, if_pos hlive.isUp]
  simp only [hlive.replies, hauthority]

/-- A node that is found answers what it is sent. -/
theorem Network.send_fst {network : Network} (hlive : network.IsLive) (patience : Client.Patience)
    {sent : Network.Sent} {authority : Authority}
    (hauthority : sent.url.authority = some authority) {store : Store}
    (hlookup : network.hosts.lookup authority.place = some store) :
    (network.send patience sent).1 =
      some (Network.arriving (Node.Api.respond (Network.request sent) store).1.status
        (Utf8.encode (Node.Api.respond (Network.request sent) store).1.body)) := by
  rw [Network.send_eq hlive patience hauthority, Network.ask, hlookup]

namespace Client

/-- A client that looks for the API of a node where a network has it. -/
def Reaches (client : Client) (network : Network) (node : NodeId) (store : Store) : Prop :=
  ∃ host authority, client.baseFor node = ofHost host 0 ++ "/api" ∧ IsHost host authority ∧
    network.hosts.lookup authority.place = some store

/-! ## Replies -/

/-- The reply that carries an answer. -/
def Reply.ofAnswer (answer : Node.Answer) : Reply :=
  Network.arriving answer.status (Utf8.encode answer.body)

private theorem ofAnswer_done (body : Json) :
    Reply.ofAnswer (.done body) = ⟨200, Utf8.encode body.compact⟩ :=
  rfl

private theorem ofAnswer_notFound (message : String) :
    Reply.ofAnswer (.refused 404 message) = ⟨404, Utf8.encode message⟩ :=
  rfl

/-- What was asked for is read from the reply that carries it. -/
theorem message_done {α : Type} {reader : Json.Reader α} {body : Json} {a : α}
    (h : reader.run body.compact = .ok a) :
    Reply.message reader (.ofAnswer (.done body)) = .ok a := by
  rw [ofAnswer_done, Reply.message, if_pos (by rfl), Json.Reader.runBytes_encode, h]

/-- The answer for a chunk is read as the chunk. -/
theorem chunk_ofAnswer (id : ChunkId) (store : Store) :
    Reply.chunk id (.ofAnswer (Node.Api.getChunk id store)) =
      .ok ((store.get? id).map (Chunk.mk id)) := by
  rw [Node.Api.getChunk]
  cases store.get? id with
  | none =>
    rw [Node.Api.notFound, ofAnswer_notFound]
    rfl
  | some data =>
    -- the message holds the bytes as digits, and the digits give the bytes
    have hmessage := message_done (ChunkAnswer.run_read_toJson
      ⟨id.text, UInt64.ofNat data.length, Hex.encode data⟩)
    rw [ofAnswer_done] at hmessage ⊢
    rw [Reply.chunk, if_neg (by simp), hmessage]
    dsimp only
    rw [Hex.decode?_encode]
    rfl

/-- The answer for a structure is read as the structure. -/
theorem typed_ofAnswer (id : ChunkId) (typeName : String) (store : Store) :
    Reply.typed (.ofAnswer (Node.Api.getTyped id typeName store)) =
      .ok (store.typed? id typeName) := by
  rw [Node.Api.getTyped]
  split
  · next hnone =>
    -- a structure that the node does not know is none at all
    have hread : ∀ data, (store.types.read typeName data).toOption = none := by
      intro data
      rw [Registry.read, Option.isNone_iff_eq_none.mp hnone]
      rfl
    have htyped : store.typed? id typeName = none := by
      rw [Store.typed?]
      cases store.get? id with
      | none => rfl
      | some data => exact hread data
    rw [ofAnswer_notFound, htyped]
    rfl
  · cases htyped : store.typed? id typeName with
    | none =>
      dsimp only
      rw [Node.Api.notFound, ofAnswer_notFound]
      rfl
    | some object =>
      have hkept := Store.kept_of_typed? htyped 125
      have hmessage := message_done (TypedAnswer.run_read_toJson
        ⟨id.text, object.typeName, object.size, object.value⟩ hkept)
      dsimp only
      rw [ofAnswer_done] at hmessage ⊢
      rw [Reply.typed, if_neg (by simp), hmessage]

/-! ## Paths -/

/-- The text of a chunk id stands for itself in a path. -/
theorem isKept_text (isSpecial : Bool) (id : ChunkId) :
    ∀ c ∈ id.text.toList, c.toNat < 128 ∧ isKept (nameEscapes isSpecial) (Utf8.byte c) := by
  cases isSpecial
  all_goals exact ChunkId.forall_mem_text (by decide) (by decide) id

/-- The text of a chunk id is written as it is. -/
theorem nameText_text (isSpecial : Bool) (id : ChunkId) : nameText isSpecial id.text = id.text :=
  nameText_eq_self (isKept_text isSpecial id)

/-- The text of a chunk id begins with a zero. -/
theorem text_ne {id : ChunkId} {text : String} (h : text.toList.head? ≠ some '0') :
    id.text ≠ text := by
  rintro rfl
  rw [ChunkId.toList_text] at h
  exact h rfl

private theorem push_chunks : push true ["api"] "chunks" = ["api", "chunks"] :=
  push_eq_append (by simp) rfl (by simp) (by simp)

private theorem push_text (id : ChunkId) :
    push true ["api", "chunks"] id.text = ["api", "chunks", id.text] :=
  push_eq_append (by simp) (nameText_text true id) (text_ne (by simp)) (text_ne (by simp))

/-- The names below the API of a node that a chunk has. -/
theorem foldl_push_chunk (id : ChunkId) :
    ["chunks", id.text].foldl (push true) ["api"] = ["api", "chunks", id.text] := by
  rw [List.foldl_cons, List.foldl_cons, List.foldl_nil, push_chunks, push_text]

/-- The names below the API of a node that a chunk as a structure has, up to the structure. -/
theorem foldl_push_typed (id : ChunkId) (typeName : String) :
    ["chunks", id.text, "typed", typeName].foldl (push true) ["api"] =
      push true ["api", "chunks", id.text, "typed"] typeName := by
  have htyped : push true ["api", "chunks", id.text] "typed" =
      ["api", "chunks", id.text, "typed"] :=
    push_eq_append (by simp) rfl (by simp) (by simp)
  rw [List.foldl_cons, List.foldl_cons, List.foldl_cons, List.foldl_cons, List.foldl_nil,
    push_chunks, push_text, htyped]

private theorem isPathName_text (id : ChunkId) : Node.Route.IsPathName id.text :=
  ChunkId.forall_mem_text (by decide) (by decide) id

private theorem isPathName_nameText (typeName : String) :
    Node.Route.IsPathName (nameText true typeName) := by
  intro c hc
  refine ⟨?_, ?_, ?_⟩
  all_goals
    rintro rfl
    exact not_mem_nameText (by decide) (by decide) (by decide) hc

private theorem isPathName_front (id : ChunkId) :
    ∀ name ∈ ["api", "chunks", id.text], Node.Route.IsPathName name :=
  List.forall_mem_cons.mpr ⟨by decide, List.forall_mem_cons.mpr ⟨by decide,
    List.forall_mem_cons.mpr ⟨isPathName_text id, nofun⟩⟩⟩

/-! ## Requests -/

variable {client : Client} {network : Network} {node : NodeId} {store : Store}

/-- What a network brings back is what a client gets. -/
theorem send_run (client : Client) {method : Method} {url : Url} (hhttp : url.IsHttp)
    (shown : String) (body : Option String) (network : Network) :
    (client.send Network.transport method url shown body).run network =
      ((network.send client.patience ⟨method, url, body⟩).1.elim (.error (.unreachable shown)) .ok,
        (network.send client.patience ⟨method, url, body⟩).2) := by
  rcases hsent : network.send client.patience ⟨method, url, body⟩ with ⟨reply, behind⟩
  have htransport : (Network.transport.send client.patience method url body).run network =
      (reply, behind) := hsent
  rw [send, if_pos hhttp, StateT.run_bind, htransport]
  cases reply <;> rfl

/-- A client is answered by the node that the URL of its request leads to. -/
theorem get_run_of_url (hlive : network.IsLive) {added : List String} {url : Url}
    (hurl : client.urlFor node added = .ok url) (hhttp : url.IsHttp)
    {authority : Authority} (hauthority : url.authority = some authority)
    (hlookup : network.hosts.lookup authority.place = some store) {answer : Node.Answer}
    (hanswer : (Node.Api.respond (Node.Api.getRequest url.target) store).1 =
      answer.response .get) :
    ((client.get Network.transport node added).run network).1 = .ok (.ofAnswer answer) := by
  have hrequest : Network.request ⟨.get, url, none⟩ = Node.Api.getRequest url.target := rfl
  have hsend : (network.send client.patience ⟨.get, url, none⟩).1 = some (.ofAnswer answer) := by
    rw [Network.send_fst hlive client.patience hauthority hlookup, hrequest, hanswer]
    rfl
  rw [get, hurl]
  dsimp only
  rw [send_run client hhttp, hsend]
  rfl

/-- A client that reaches a node is answered by it. -/
theorem get_run (hlive : network.IsLive) (hreaches : client.Reaches network node store)
    {added names : List String} (hnames : added.foldl (push true) ["api"] = names)
    {target : String} (htarget : target.toList = names.flatMap fun name => '/' :: name.toList)
    {answer : Node.Answer}
    (hanswer : (Node.Api.respond (Node.Api.getRequest target) store).1 = answer.response .get) :
    ((client.get Network.transport node added).run network).1 = .ok (.ofAnswer answer) := by
  obtain ⟨host, authority, hbase, hhost, hlookup⟩ := hreaches
  -- the names are put below the API of the host, and what arrives there is their path
  have hurl : client.urlFor node added =
      .ok ⟨"http", some authority, .named names, none, none⟩ := by
    have hbelow : (Url.mk "http" (some authority) (.named ["api"]) none none).below? added =
        some ⟨"http", some authority, .named names, none, none⟩ := by
      rw [← hnames]
      rfl
    rw [urlFor, hbase, parse?_ofHost hhost]
    dsimp only
    rw [hbelow]
  have htarget' : (Url.mk "http" (some authority) (.named names) none none).target = target := by
    rw [← String.toList_inj, toList_target, htarget]
  rw [← htarget'] at hanswer
  exact get_run_of_url hlive hurl (.inl rfl) rfl hlookup hanswer

/-- What is made of the result of a stateful step. -/
theorem bind_pure_run_fst {σ α β : Type} (x : StateM σ α) (f : α → β) (s : σ) :
    ((x >>= fun a => pure (f a)).run s).1 = f (x.run s).1 :=
  rfl

/-- Names with slashes before them are some text. -/
private theorem exists_target (names : List String) :
    ∃ target : String, target.toList = names.flatMap fun name => '/' :: name.toList :=
  ⟨String.ofList _, String.toList_ofList⟩

/-- What comes of asking for one chunk hangs on what comes of the one request. -/
theorem fetch_singleton (client : Client) (network : Network) (id : ChunkId) :
    ((client.fetch Network.transport [id]).run network).1 =
      ((client.fetchOne Network.transport id).run network).1.map fun chunk =>
        .ofChunks chunk.toList := by
  rcases hrun : (client.fetchOne Network.transport id).run network with ⟨chunk, behind⟩
  have hall : ((client.fetchAll Network.transport [id]).run network).1 =
      chunk.map Option.toList := by
    rw [fetchAll, StateT.run_bind, hrun]
    cases chunk with
    | error failure => rfl
    | ok chunk =>
      show Except.ok (chunk.toList ++ []) = _
      rw [List.append_nil]
      rfl
  rw [fetch, bind_pure_run_fst, hall]
  cases chunk <;> rfl

/-- The answer of a node for one chunk is read as what the node would give. -/
theorem fetch_of_get {id : ChunkId}
    (hget : ((client.get Network.transport id.node ["chunks", id.text]).run network).1 =
      .ok (.ofAnswer (Node.Api.getChunk id store))) :
    ((client.fetch Network.transport [id]).run network).1 = .ok (store.fetch [id]) := by
  have hone : ((client.fetchOne Network.transport id).run network).1 =
      .ok ((store.get? id).map (Chunk.mk id)) := by
    rw [fetchOne, bind_pure_run_fst, hget]
    exact chunk_ofAnswer id store
  have hfetch : store.fetch [id] = .ofChunks ((store.get? id).map (Chunk.mk id)).toList := by
    rw [Store.fetch, List.filterMap_cons]
    cases store.get? id <;> rfl
  rw [fetch_singleton, hone, hfetch]
  rfl

/-- A client that asks for one chunk gets what its node would give. -/
theorem fetch_run (hlive : network.IsLive) (id : ChunkId)
    (hreaches : client.Reaches network id.node store) :
    ((client.fetch Network.transport [id]).run network).1 = .ok (store.fetch [id]) := by
  obtain ⟨target, htarget⟩ := exists_target ["api", "chunks", id.text]
  have hroute : Node.Route.ofTarget? target = some (.chunk id.text.toList) := by
    rw [Node.Route.ofTarget?_eq htarget (isPathName_front id)]
    exact Node.Route.ofSegments?_chunk (text_ne (by simp))
  exact fetch_of_get (get_run hlive hreaches (foldl_push_chunk id) htarget
    (Node.Api.respond_chunk hroute (ChunkId.decode?_text id) store))

/-- A path with one name behind the chunk names nothing. -/
private theorem ofTarget?_three {id : ChunkId} {last target : String}
    (hlast : Node.Route.IsPathName last)
    (htarget : target.toList = ["api", "chunks", id.text, last].flatMap fun name =>
      '/' :: name.toList) : Node.Route.ofTarget? target = none := by
  have hnames : ∀ name ∈ ["api", "chunks", id.text] ++ [last], Node.Route.IsPathName name :=
    List.forall_mem_append.mpr ⟨isPathName_front id, List.forall_mem_singleton.mpr hlast⟩
  rw [Node.Route.ofTarget?_eq htarget hnames]
  rfl

/-- The path of a structure is that of its resource, unless the name of the structure is empty. -/
private theorem ofTarget?_four {id : ChunkId} {last target : String}
    (hlast : Node.Route.IsPathName last)
    (htarget : target.toList = ["api", "chunks", id.text, "typed", last].flatMap fun name =>
      '/' :: name.toList) :
    Node.Route.ofTarget? target =
      if last = "" then none else some (.typed id.text.toList last.toList) := by
  have hnames : ∀ name ∈ ["api", "chunks", id.text] ++ ["typed", last],
      Node.Route.IsPathName name :=
    List.forall_mem_append.mpr ⟨isPathName_front id,
      List.forall_mem_cons.mpr ⟨by decide, List.forall_mem_singleton.mpr hlast⟩⟩
  rw [Node.Route.ofTarget?_eq htarget hnames]
  exact Node.Route.ofSegments?_typed (text_ne (by simp))

/-- The path to a structure leads there unless the name is one that a path has no place for. -/
private theorem ofTarget?_typed {id : ChunkId} {typeName : String} {target : String}
    (htarget : target.toList =
      (push true ["api", "chunks", id.text, "typed"] typeName).flatMap fun name =>
        '/' :: name.toList) :
    Node.Route.ofTarget? target =
      if IsSpecialName (stripped typeName) then none
      else some (.typed id.text.toList (nameText true typeName).toList) := by
  -- the four ways in which a name can be put below a path; only the last one leads to a structure
  rw [push_eq true (by simp)] at htarget
  split at htarget
  · next hdot =>
    have hspecial : IsSpecialName (stripped typeName) := by
      rcases hdot with rfl | rfl <;> decide
    rw [if_pos hspecial]
    exact ofTarget?_three (by decide) htarget
  split at htarget
  · next hdouble =>
    rw [if_pos (.inr (.inr hdouble))]
    exact ofTarget?_three (by decide) htarget
  split at htarget
  · next hsingle =>
    rw [if_pos (.inr (.inl hsingle))]
    exact ofTarget?_four (by decide) htarget
  · next hdouble hsingle =>
    have hspecial : IsSpecialName (stripped typeName) ↔ nameText true typeName = "" := by
      rw [nameText_eq_empty_iff, IsSpecialName]
      simp [hdouble, hsingle]
    simp only [ofTarget?_four (isPathName_nameText typeName) htarget, hspecial]

/-- A client reads the structure that the node has under the name as it arrives, unless that is a
name that a path has no place for. -/
theorem typed_run (hlive : network.IsLive) (id : ChunkId) (typeName : String)
    (hreaches : client.Reaches network id.node store) :
    ((client.typed Network.transport id typeName).run network).1 =
      .ok (if IsSpecialName (stripped typeName) then none
        else store.typed? id (stripped typeName)) := by
  obtain ⟨target, htarget⟩ :=
    exists_target (push true ["api", "chunks", id.text, "typed"] typeName)
  have hroute := ofTarget?_typed htarget
  rw [typed, bind_pure_run_fst]
  split at hroute
  · next hspecial =>
    have hget := get_run hlive hreaches (foldl_push_typed id typeName) htarget
      (Node.Api.respond_of_not_route hroute store)
    rw [hget, if_pos hspecial]
    rfl
  · next hplain =>
    have hget := get_run hlive hreaches (foldl_push_typed id typeName) htarget
      (Node.Api.respond_typed hroute (ChunkId.decode?_text id) (decode?_nameText true typeName)
        store)
    rw [hget, if_neg hplain]
    exact typed_ofAnswer id (stripped typeName) store

end Client

end ChunkScope
