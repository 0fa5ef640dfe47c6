import ChunkScope.Proofs.Client.Inspection
import ChunkScope.Proofs.Config.Loading
import ChunkScope.Terminal
import ChunkScope.World

/-!
# Requests of commands

Every command sends its requests to one node: to the default one, or to the node of the chunk that
its words name. What it does is related on two machines when the requests are that it may send, and
the files that its words may name.
-/

namespace ChunkScope

open Http Inspect

/-! ## Steps of clients

The same client on two transports, perhaps with another patience on the second one: what it does is
related when the requests are that it sends. A request to the default node is sent to a text of its
own; one for a chunk is sent below the API of the node of the chunk. -/

/-- A client that waits for replies in another way. -/
def Client.waiting (client : Client) (patience : Client.Patience) : Client :=
  { client with patience }

/-- The names below a chunk that a call asks for. -/
def Inspect.Call.names : Call → List String
  | structured _ typeName => ["typed", typeName]
  | kindFirst _ _ | rangeFirst _ _ => []

namespace StepRelation

variable {m n : Type → Type} [Monad m] [Monad n] (T : StepRelation m n)
  {transport : Client.Transport m} {other : Client.Transport n} {client : Client}
  {patience : Client.Patience}

/-- Sending a request is related on two transports when it is related to have them carry it. -/
private theorem holds_send {method : Method} {url : Url} {body : Option String}
    (h : T.Holds (transport.send client.patience method url body)
      (other.send patience method url body)) (shown : String) :
    T.Holds (client.send transport method url shown body)
      ((client.waiting patience).send other method url shown body) := by
  unfold Client.send
  split
  · refine T.bind h fun reply => ?_
    cases reply
    all_goals exact T.pure _
  · exact T.pure _

/-- Requests to a text are related when those to its URL are, if it is one. -/
private theorem holds_sendText {method : Method} {text : String} {body : Option String}
    (h : ∀ url, Url.parse? text = some url →
      T.Holds (transport.send client.patience method url body)
        (other.send patience method url body)) :
    T.Holds (client.sendText transport method text body)
      ((client.waiting patience).sendText other method text body) := by
  unfold Client.sendText
  split
  · next url hurl => exact T.holds_send (h url hurl) text
  · exact T.pure _

/-- Storing is related when the request to store is. -/
theorem holds_create (h : ∀ url body, Url.parse? (client.defaultBase ++ "/chunks") = some url →
      T.Holds (transport.send client.patience .post url (some body))
        (other.send patience .post url (some body)))
    (data : Bytes) (slot : Option LocalId) :
    T.Holds (client.create transport data slot)
      ((client.waiting patience).create other data slot) :=
  T.bind (T.holds_sendText fun url hurl => h url _ hurl) fun _ => T.pure _

/-- Asking for the status is related when the request is. -/
theorem holds_status (h : ∀ url, Url.parse? (client.defaultBase ++ "/status") = some url →
      T.Holds (transport.send client.patience .get url none)
        (other.send patience .get url none)) :
    T.Holds (client.status transport) ((client.waiting patience).status other) :=
  T.bind (T.holds_sendText h) fun _ => T.pure _

/-- Asking for the types is related when the request is. -/
theorem holds_types (h : ∀ url, Url.parse? (client.defaultBase ++ "/types") = some url →
      T.Holds (transport.send client.patience .get url none)
        (other.send patience .get url none)) :
    T.Holds (client.types transport) ((client.waiting patience).types other) :=
  T.bind (T.holds_sendText h) fun _ => T.pure _

/-- Asking below the API of a node is related when the request is. -/
private theorem holds_get {node : NodeId} {names : List String}
    (h : ∀ url, client.urlFor node names = .ok url →
      T.Holds (transport.send client.patience .get url none)
        (other.send patience .get url none)) :
    T.Holds (client.get transport node names) ((client.waiting patience).get other node names) := by
  have hsame : (client.waiting patience).urlFor node names = client.urlFor node names := rfl
  rw [Client.get, Client.get, hsame]
  split
  · exact T.pure _
  · next url hurl => exact T.holds_send (h url hurl) _

/-- Fetching one chunk is related when the request for it is. -/
private theorem holds_fetch {id : ChunkId}
    (h : ∀ url, client.urlFor id.node ["chunks", id.text] = .ok url →
      T.Holds (transport.send client.patience .get url none)
        (other.send patience .get url none)) :
    T.Holds (client.fetch transport [id]) ((client.waiting patience).fetch other [id]) := by
  have hone : T.Holds (client.fetchOne transport id)
      ((client.waiting patience).fetchOne other id) :=
    T.bind (T.holds_get h) fun _ => T.pure _
  -- behind the only chunk there is nothing left to fetch
  have hall : T.Holds (client.fetchAll transport [id])
      ((client.waiting patience).fetchAll other [id]) := by
    refine T.bind hone fun chunk => ?_
    cases chunk with
    | error failure => exact T.pure _
    | ok chunk =>
      refine T.bind (T.pure _) fun chunks => ?_
      cases chunks
      all_goals exact T.pure _
  exact T.bind hall fun _ => T.pure _

/-- Asking for a structure is related when the request is. -/
private theorem holds_typed {id : ChunkId} {typeName : String}
    (h : ∀ url, client.urlFor id.node ["chunks", id.text, "typed", typeName] = .ok url →
      T.Holds (transport.send client.patience .get url none)
        (other.send patience .get url none)) :
    T.Holds (client.typed transport id typeName)
      ((client.waiting patience).typed other id typeName) :=
  T.bind (T.holds_get h) fun _ => T.pure _

variable (transport other client patience) in
/-- Settling on a chunk takes no step, and gives the chunk that the target stands for. -/
private theorem exists_resolve_eq [LawfulMonad m] [LawfulMonad n] (target : Inspect.Target) :
    ∃ resolved, Inspect.resolve (client.source transport) target = pure resolved ∧
      Inspect.resolve ((client.waiting patience).source other) target = pure resolved ∧
        ∀ id, resolved = .ok id → target.id? = some id := by
  rcases target with (_ | id) | ⟨_ | node, _ | slot⟩
  case chunk.some => exact ⟨.ok id, rfl, rfl, fun _ hid => congrArg some (Except.ok.inj hid)⟩
  case split.some.some =>
    refine ⟨.ok (.pack node slot), map_pure .., map_pure .., ?_⟩
    exact fun _ hid => congrArg some (Except.ok.inj hid)
  all_goals exact ⟨_, rfl, rfl, nofun⟩

/-- An inspection sends its requests below the API of the node of the chunk that it is about. -/
theorem holds_inspect [LawfulMonad m] [LawfulMonad n] {arguments : List Inspect.Argument}
    (h : ∀ call id url, Inspect.Call.parse arguments = .ok call → call.target.id? = some id →
      client.urlFor id.node ("chunks" :: id.text :: call.names) = .ok url →
        T.Holds (transport.send client.patience .get url none)
          (other.send patience .get url none)) :
    T.Holds (Inspect.run (client.source transport) arguments)
      (Inspect.run ((client.waiting patience).source other) arguments) := by
  refine T.holds_run fun call hparse => ?_
  obtain ⟨resolved, hresolve, hother, hid⟩ :=
    exists_resolve_eq transport other client patience call.target
  rw [Inspect.answer, Inspect.answer, hresolve, hother, pure_bind, pure_bind]
  cases resolved with
  | error failure => exact T.pure _
  | ok id =>
    have hsend := fun url => h call id url hparse (hid id rfl)
    cases call with
    | structured target typeName => exact T.holds_readAs (T.holds_typed hsend)
    | kindFirst target options => exact T.holds_readBytes (T.holds_fetch hsend) options
    | rangeFirst target options => exact T.holds_readBytes (T.holds_fetch hsend) options

end StepRelation

/-! ## Where a command sends its requests -/

namespace Terminal

/-- The requests that a command may send on a client of some settings. -/
inductive Aimed (config : Config) : List String → Network.Sent → Prop where
  | status {words : List String} {url : Url} (hwords : words = [] ∨ words = ["status"])
    (hurl : Url.parse? (Client.trimSlashes config.client.url ++ "/api/status") = some url) :
    Aimed config words ⟨.get, url, none⟩
  | types {url : Url}
    (hurl : Url.parse? (Client.trimSlashes config.client.url ++ "/api/types") = some url) :
    Aimed config ["types"] ⟨.get, url, none⟩
  | put (words : List String) {url : Url} (body : String)
    (hurl : Url.parse? (Client.trimSlashes config.client.url ++ "/api/chunks") = some url) :
    Aimed config ("put" :: words) ⟨.post, url, some body⟩
  | get {words : List String} {call : Call} {id : ChunkId} {api url : Url}
    (hcall : Call.parse (words.map Argument.classify) = .ok call)
    (hid : call.target.id? = some id)
    (hapi : Url.parse? (Client.trimSlashes (config.urlOf id.node) ++ "/api") = some api)
    (hurl : api.below? ("chunks" :: id.text :: call.names) = some url) :
    Aimed config ("get" :: words) ⟨.get, url, none⟩

/-- The chunk that the words of a command name. -/
def namedChunk? : List String → Option ChunkId
  | "get" :: words => (Call.parse (words.map Argument.classify)).toOption.bind (·.target.id?)
  | _ => none

/-- The URL of the node that a command is for: that of the chunk, if the words name one, and the
default one otherwise. -/
def nodeUrl (config : Config) (words : List String) : String :=
  (namedChunk? words).elim config.client.url fun id => config.urlOf id.node

/-- A URL leads to the place that another one is at. -/
def LeadsWhere (base : String) (url : Url) : Prop :=
  ∀ place, Url.IsAt base place → url.scheme = "http" ∧
    ∃ authority, url.authority = some authority ∧ authority.place = place

/-- The three texts below the API of the default node lead to its place. -/
private theorem leadsWhere_of_text {base path : String} {url : Url} {inner : List Char}
    {last : Char} (hpath : path.toList = '/' :: (inner ++ [last])) (hlast : 0x20 < last.toNat)
    (hplain : ∀ c ∈ path.toList, c ≠ '\t' ∧ c ≠ '\n' ∧ c ≠ '\r')
    (hurl : Url.parse? (Client.trimSlashes base ++ path) = some url) : LeadsWhere base url := by
  rintro place ⟨host, slashes, authority, rfl, hhost, rfl⟩
  rw [Client.trimSlashes_ofHost hhost, Url.parse?_ofHost_append hhost hpath hlast hplain] at hurl
  cases hurl
  exact ⟨rfl, authority, rfl, rfl⟩

/-- Names below a path lead to where the path does. -/
private theorem leadsWhere_of_below {base : String} {api url : Url} {names : List String}
    (h : LeadsWhere base api) (hurl : api.below? names = some url) : LeadsWhere base url := by
  intro place hplace
  rw [Url.below?] at hurl
  split at hurl
  · cases hurl
  · cases hurl
    exact h place hplace

/-- Every request of a command goes to the node that the command is for. -/
theorem Aimed.leadsWhere {config : Config} {words : List String} {sent : Network.Sent}
    (h : Aimed config words sent) : LeadsWhere (nodeUrl config words) sent.url := by
  cases h with
  | @status words url hwords hurl =>
    have hpath : "/api/status".toList = '/' :: ("api/statu".toList ++ ['s']) := rfl
    have hleads := leadsWhere_of_text hpath (by decide) (by simp) hurl
    rcases hwords with rfl | rfl
    all_goals exact hleads
  | types hurl =>
    have hpath : "/api/types".toList = '/' :: ("api/type".toList ++ ['s']) := rfl
    exact leadsWhere_of_text hpath (by decide) (by simp) hurl
  | put words body hurl =>
    have hpath : "/api/chunks".toList = '/' :: ("api/chunk".toList ++ ['s']) := rfl
    exact leadsWhere_of_text hpath (by decide) (by simp) hurl
  | @get words call id api url hcall hid hapi hurl =>
    have hpath : "/api".toList = '/' :: ("ap".toList ++ ['i']) := rfl
    have hnode : nodeUrl config ("get" :: words) = config.urlOf id.node := by
      rw [nodeUrl, namedChunk?, hcall]
      simp [Except.toOption, hid]
    rw [hnode]
    exact leadsWhere_of_below (leadsWhere_of_text hpath (by decide) (by simp) hapi) hurl

end Terminal

/-! ## Steps of a command -/

namespace StepRelation

open Terminal

variable {m n : Type → Type} [Monad m] [Monad n] (T : StepRelation m n)
  {files : Files.Access m} {others : Files.Access n}

/-- Taking the words of a put is related when reading the files is that they may name. -/
private theorem holds_takeAll {words : List String}
    (hread : ∀ word ∈ words, T.Holds (files.read word) (others.read word)) (put : Put) :
    T.Holds (put.takeAll files words) (put.takeAll others words) := by
  match words with
  | [] | [_] => exact T.pure _
  | flag :: value :: rest =>
    have htake : T.Holds (put.take files flag value) (put.take others flag value) := by
      unfold Put.take
      split
      · exact T.pure _
      split
      · split
        all_goals exact T.pure _
      split
      · refine T.bind (hread value (by simp)) fun contents => ?_
        cases contents
        all_goals exact T.pure _
      · exact T.pure _
    refine T.bind htake fun taken => ?_
    cases taken with
    | error message => exact T.pure _
    | ok put => exact holds_takeAll (fun word hword => hread word (by simp [hword])) put

/-- So is the whole reading of a put. -/
private theorem holds_parse {words : List String}
    (hread : ∀ word ∈ words, T.Holds (files.read word) (others.read word)) :
    T.Holds (Put.parse files words) (Put.parse others words) := by
  refine T.bind (T.holds_takeAll hread ⟨none, none⟩) fun taken => ?_
  rcases taken with message | ⟨slot, _ | data⟩
  all_goals exact T.pure _

variable {transport : Client.Transport m} {other : Client.Transport n}
  {patience : Client.Patience}

/-- What a client asks for lies below the API of the node. -/
private theorem urlFor_ofConfig {config : Config} {node : NodeId} {names : List String} {url : Url}
    (h : (Client.ofConfig config).urlFor node names = .ok url) :
    ∃ api, Url.parse? (Client.trimSlashes (config.urlOf node) ++ "/api") = some api ∧
      api.below? names = some url := by
  rw [Client.urlFor, Client.baseFor_ofConfig] at h
  split at h
  · cases h
  · next api hapi =>
    split at h
    · cases h
    · next hurl =>
      cases h
      exact ⟨api, hapi, hurl⟩

/-- A command on two machines that answer alike to what it may ask of them, perhaps with another
patience on the second one. -/
theorem holds_command [LawfulMonad m] [LawfulMonad n] {config : Config} {words : List String}
    (hread : ∀ word ∈ words, T.Holds (files.read word) (others.read word))
    (hsend : ∀ method url body, Aimed config words ⟨method, url, body⟩ →
      T.Holds (transport.send (Client.ofConfig config).patience method url body)
        (other.send patience method url body)) :
    T.Holds (command files transport (Client.ofConfig config) words)
      (command others other ((Client.ofConfig config).waiting patience) words) := by
  have hbase {path full : String} {url : Url} (hpath : "/api" ++ path = full)
      (hurl : Url.parse? ((Client.ofConfig config).defaultBase ++ path) = some url) :
      Url.parse? (Client.trimSlashes config.client.url ++ full) = some url := by
    rw [← hpath, ← String.append_assoc]
    exact hurl
  unfold command
  split
  case h_1 rest =>
    refine T.bind (T.holds_inspect fun call id url hcall hid hurl => ?_) fun _ => T.pure _
    obtain ⟨api, hapi, hurl⟩ := urlFor_ofConfig hurl
    exact hsend .get url none (.get hcall hid hapi hurl)
  case h_2 rest =>
    refine T.bind (T.holds_parse fun word hword => hread word (by simp [hword])) fun parsed => ?_
    rcases parsed with message | ⟨data, slot⟩
    · exact T.pure _
    · refine T.bind (T.holds_create (fun url body hurl => ?_) data slot) fun _ => T.pure _
      exact hsend .post url (some body) (.put rest body (hbase rfl hurl))
  case h_3 | h_4 =>
    refine T.bind (T.holds_status fun url hurl => ?_) fun _ => T.pure _
    exact hsend .get url none (.status (by simp) (hbase rfl hurl))
  case h_5 =>
    refine T.bind (T.holds_types fun url hurl => ?_) fun _ => T.pure _
    exact hsend .get url none (.types (hbase rfl hurl))
  all_goals exact T.pure _

end StepRelation

end ChunkScope

/-! ## Runs in worlds

Loading the settings changes nothing in a world. Two relations go along with what comes after it:
that of two worlds with different files, as long as the same is read in both, and that of the
requests that are sent. -/

namespace ChunkScope.Terminal.World

open Http

variable {α : Type}

/-- What is done with the network of a world changes nothing else. -/
private theorem onNetwork_run (action : StateM Network α) (world : World) :
    (onNetwork action).run world =
      ((action.run world.network).1, { world with network := (action.run world.network).2 }) :=
  rfl

/-- A request changes nothing but the network. -/
theorem send_run (patience : Client.Patience) (method : Method) (url : Url) (body : Option String)
    (world : World) :
    (transport.send patience method url body).run world =
      ((world.network.send patience ⟨method, url, body⟩).1,
        { world with network := (world.network.send patience ⟨method, url, body⟩).2 }) :=
  onNetwork_run (Network.transport.send patience method url body) world

/-- A request that goes over a network is kept in its log, and beside that only the replies that are
left and the nodes may change. On a network that is down nothing changes. -/
private theorem exists_send_eq (patience : Client.Patience) (sent : Network.Sent)
    (network : Network) :
    ∃ replies hosts, (network.send patience sent).2 =
      if network.isUp then { network with replies, hosts, log := network.log ++ [sent] }
      else network := by
  show ∃ replies hosts, (network.deliver sent).2 = _
  rw [Network.deliver]
  split
  · dsimp only
    split
    · exact ⟨_, _, rfl⟩
    · split
      all_goals exact ⟨_, _, rfl⟩
  · exact ⟨[], [], rfl⟩

/-- What is sent does not change how long replies take. -/
private theorem delay_send (patience : Client.Patience) (sent : Network.Sent) (network : Network) :
    (network.send patience sent).2.delay = network.delay := by
  obtain ⟨replies, hosts, hsend⟩ := exists_send_eq patience sent network
  rw [hsend]
  split <;> rfl

/-- A request that is sent is the only one that is added to the log, if it is added. -/
private theorem log_send (patience : Client.Patience) (sent : Network.Sent) (network : Network) :
    (network.send patience sent).2.log = network.log ++ [sent] ∨
      (network.send patience sent).2.log = network.log := by
  obtain ⟨replies, hosts, hsend⟩ := exists_send_eq patience sent network
  rw [hsend]
  split
  · exact .inl rfl
  · exact .inr rfl

/-! ### Files -/

/-- The settings are those of the files and the environment, and the world stays as it is. -/
theorem load_run (environment : Environment) (world : World) :
    (Config.load access environment).run world =
      (Config.ofTree world.files environment, world) := by
  have hthere (path : String) : (access.isThere path).run world =
      (world.files.isThere path, world) := rfl
  have hread : (Config.readFile access (Config.path environment)).run world =
      (if world.files.isThere (Config.path environment) then
        Config.ofFile (Config.path environment) (world.files.read (Config.path environment))
      else .ok {}, world) := by
    rw [Config.readFile, StateT.run_bind, hthere]
    cases world.files.isThere (Config.path environment) <;> rfl
  rw [Config.load, StateT.run_bind, hread]
  rfl

/-- Steps in two worlds with different files and the same network, on which replies take some time:
they give the same, leave the files alone and do the same on the network. -/
def besides (tree other : Files.Tree) (delay : Nat) :
    StepRelation (StateM World) (StateM World) where
  Holds x y := ∀ network, network.delay = delay → ∃ a behind, behind.delay = delay ∧
    x.run ⟨tree, network⟩ = (a, ⟨tree, behind⟩) ∧ y.run ⟨other, network⟩ = (a, ⟨other, behind⟩)
  pure a network hdelay := ⟨a, network, hdelay, rfl, rfl⟩
  bind {α β x y f g} h hf network hdelay := by
    obtain ⟨a, between, hbetween, hx, hy⟩ := h network hdelay
    obtain ⟨b, behind, hbehind, hf, hg⟩ := hf a between hbetween
    refine ⟨b, behind, hbehind, ?_, ?_⟩
    · rw [StateT.run_bind, hx]
      exact hf
    · rw [StateT.run_bind, hy]
      exact hg

/-- Two clients get the same reply when it is in time for both of them or for neither. -/
private theorem send_congr {patience other : Client.Patience} {network : Network}
    (h : network.delay ≤ patience.seconds ↔ network.delay ≤ other.seconds) (sent : Network.Sent) :
    network.send patience sent = network.send other sent := by
  rw [Network.send, Network.send]
  simp only [h]

/-- A command does the same in two worlds with the same network when the files that its words may
name are the same, and replies are in time with the patience in both of them or in neither. -/
theorem command_besides {tree other : Files.Tree} {words : List String}
    (h : ∀ word ∈ words, tree.read word = other.read word) (config : Config)
    {patience : Client.Patience} {delay : Nat}
    (hdelay : delay ≤ (Client.ofConfig config).patience.seconds ↔ delay ≤ patience.seconds) :
    (besides tree other delay).Holds (command access transport (Client.ofConfig config) words)
      (command access transport ((Client.ofConfig config).waiting patience) words) := by
  refine StepRelation.holds_command _ ?_ ?_
  · intro word hword network hnetwork
    refine ⟨tree.read word, network, hnetwork, rfl, ?_⟩
    rw [h word hword]
    rfl
  · intro method url body _ network hnetwork
    have hsend := send_congr (hnetwork.symm ▸ hdelay) ⟨method, url, body⟩
    refine ⟨_, _, ?_, send_run _ method url body ⟨tree, network⟩, ?_⟩
    · exact (delay_send _ _ network).trans hnetwork
    · rw [hsend]
      exact send_run patience method url body ⟨other, network⟩

/-! ### Requests -/

/-- Steps that send only requests of some kind. -/
def sending (P : Network.Sent → Prop) : StepRelation (StateM World) (StateM World) where
  Holds x _ := ∀ world, ∃ sent, (x.run world).2.network.log = world.network.log ++ sent ∧
    ∀ request ∈ sent, P request
  pure a world := ⟨[], (List.append_nil _).symm, List.forall_mem_nil _⟩
  bind {α β x y f g} h hf world := by
    obtain ⟨front, hlog, hfront⟩ := h world
    obtain ⟨back, hlog', hback⟩ := hf (x.run world).1 (x.run world).2
    refine ⟨front ++ back, ?_, List.forall_mem_append.mpr ⟨hfront, hback⟩⟩
    rw [StateT.run_bind, ← List.append_assoc, ← hlog]
    exact hlog'

/-- A command sends only the requests that it may send. -/
theorem command_sending (config : Config) (words : List String) (world : World) :
    ∃ sent, ((command access transport (Client.ofConfig config) words).run
      world).2.network.log = world.network.log ++ sent ∧
        ∀ request ∈ sent, Aimed config words request := by
  have hcommand : (sending (Aimed config words)).Holds
      (command access transport (Client.ofConfig config) words)
      (command access transport
        ((Client.ofConfig config).waiting (Client.ofConfig config).patience) words) := by
    refine StepRelation.holds_command _ ?_ ?_
    · exact fun word _ world => ⟨[], (List.append_nil _).symm, List.forall_mem_nil _⟩
    · intro method url body haimed world
      rw [send_run]
      obtain hlog | hlog :=
        log_send (Client.ofConfig config).patience ⟨method, url, body⟩ world.network
      · exact ⟨_, hlog, List.forall_mem_singleton.mpr haimed⟩
      · exact ⟨[], hlog.trans (List.append_nil _).symm, List.forall_mem_nil _⟩
  exact hcommand world

end ChunkScope.Terminal.World
