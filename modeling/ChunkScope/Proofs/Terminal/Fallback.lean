import ChunkScope.Proofs.Terminal.Directing

/-!
# Settings that cannot be used

A file that is there but cannot be read or understood takes the variables of the environment down
with it: the run goes on with the built-in settings, where without the file it would have gone on
with those variables. The two agree when neither the default URL nor the timeout comes from a
variable, and where no reply is slow enough for the timeout to matter, when the URL does not.
-/

namespace ChunkScope.Terminal

open Http

/-- The built-in timeout, in seconds. -/
def builtinTimeout : UInt64 := 10

/-- The timeout of an environment, or else the built-in one. -/
def timeoutOf (environment : Environment) : UInt64 :=
  ((environment "PEEK_CLIENT__TIMEOUT_SECS").bind Numeral.word64?).getD builtinTimeout

/-- A run with a file that cannot be used does what it does without the file, and only says a
warning first. -/
def Unmasked (tree absent : Files.Tree) (environment : Environment) (failure : Config.Failure)
    (words : List String) (network : Network) : Prop :=
  ∃ output behind,
    (run World.access World.transport environment words).run ⟨absent, network⟩ =
        (output, ⟨absent, behind⟩) ∧
      (run World.access World.transport environment words).run ⟨tree, network⟩ =
        (output.warned (warning failure), ⟨tree, behind⟩)

section Fallback

variable {tree absent : Files.Tree} {environment : Environment} {failure : Config.Failure}
  (hload : Config.ofTree tree environment = .error failure)
  (habsent : absent.isThere (Config.path environment) = false)

include hload in
/-- Without usable settings a run goes on with the built-in ones. -/
private theorem run_of_failure {network : Network} {words : List String} {output : Output}
    {behind : World} (h : (withConfig World.access World.transport {} words).run ⟨tree, network⟩ =
      (output, behind)) :
    (run World.access World.transport environment words).run ⟨tree, network⟩ =
      (output.warned (warning failure), behind) := by
  rw [run, StateT.run_bind, World.load_run, hload]
  show ((withConfig World.access World.transport {} words >>= fun output =>
    pure (output.warned (warning failure)) : StateM World Output)).run ⟨tree, network⟩ = _
  rw [StateT.run_bind, h]
  rfl

include habsent in
/-- Without a file a run goes on with the variables of the environment. -/
private theorem run_of_absent (network : Network) (words : List String) :
    (run World.access World.transport environment words).run ⟨absent, network⟩ =
      (withConfig World.access World.transport (Config.override environment {}) words).run
        ⟨absent, network⟩ :=
  run_of_loaded (Config.ofTree_of_absent habsent) network words

include hload habsent in
/-- The file is not missed when the words lead to the same default node with the built-in URL and
with the one of the environment, and replies are in time with both timeouts or with neither. -/
private theorem unmasked_of_url {words : List String} (network : Network)
    (hread : ∀ word ∈ words, tree.read word = absent.read word)
    (hurl : ∀ rest urls, Scanned words rest urls →
      Client.trimSlashes (urls.getLast?.getD Config.builtinUrl) =
        Client.trimSlashes (urls.getLast?.getD
          ((environment "PEEK_CLIENT__DEFAULT_URL").getD Config.builtinUrl)))
    (htime : network.delay ≤ (Client.ofConfig {}).patience.seconds ↔
      network.delay ≤ (Client.ofConfig (Config.override environment {})).patience.seconds) :
    Unmasked tree absent environment failure words network := by
  rcases dangling_or_scanned words with hdangling | ⟨rest, urls, hscan⟩
  · refine ⟨.failure "--url requires a value", network, ?_, run_of_failure hload ?_⟩
    · rw [run_of_absent habsent, withConfig, splitUrl_of_dangling hdangling]
      rfl
    · rw [withConfig, splitUrl_of_dangling hdangling]
      rfl
  · have hclient : (Client.ofConfig (redirected {} (urls.getLast?.getD Config.builtinUrl))).waiting
          (Client.ofConfig (Config.override environment {})).patience =
        Client.ofConfig (redirected (Config.override environment {}) (urls.getLast?.getD
          ((environment "PEEK_CLIENT__DEFAULT_URL").getD Config.builtinUrl))) :=
      congrArg (Client.mk · [] _) (hurl rest urls hscan)
    obtain ⟨output, behind, -, htree, habs⟩ := World.command_besides
      (fun word hword => hread word (hscan.subset hword))
      (redirected {} (urls.getLast?.getD Config.builtinUrl)) htime network rfl
    refine ⟨output, behind, ?_, run_of_failure hload ?_⟩
    · rw [hclient] at habs
      rw [run_of_absent habsent, withConfig_of_scanned _ hscan]
      exact habs
    · rw [withConfig_of_scanned _ hscan]
      exact htree

/-! ## Networks that tell runs apart -/

/-- On a network that is down every request fails, and nothing changes. -/
private theorem sendText_of_down (client : Client) {world : World}
    (hdown : world.network.isUp = false) (method : Method) (text : String) (body : Option String) :
    (client.sendText World.transport method text body).run world =
      (.error (.unreachable text), world) := by
  rw [Client.sendText]
  split
  · next url _ =>
    rw [Client.send]
    split
    · have hsend : world.network.send client.patience ⟨method, url, body⟩ =
          (none, world.network) := by
        rw [Network.send, Network.deliver, if_neg (by simp [hdown])]
        exact congrArg (·, world.network) (ite_self none)
      rw [StateT.run_bind, World.send_run, hsend]
      rfl
    · rfl
  · rfl

/-- Without words, a run on a network that is down says where it looked for the default node. -/
private theorem withConfig_of_down {world : World} (hdown : world.network.isUp = false)
    (config : Config) :
    (withConfig World.access World.transport config []).run world =
      (.failure (Client.Failure.unreachable
        (Client.trimSlashes config.client.url ++ "/api" ++ "/status")).message, world) := by
  have hstatus : ((Client.ofConfig config).status World.transport).run world =
      (.error (.unreachable (Client.trimSlashes config.client.url ++ "/api" ++ "/status")),
        world) := by
    rw [Client.status, StateT.run_bind, sendText_of_down _ hdown]
    rfl
  show ((Client.ofConfig config).status World.transport >>= fun status =>
    pure (answerOutput statusLines status)).run world = _
  rw [StateT.run_bind, hstatus]
  rfl

/-- What a node says about itself that has nothing. -/
private def nothing : Message.StatusAnswer := ⟨1, 0, 0, []⟩

/-- A network with one reply, in which a node says that it has nothing. -/
private def answering (delay : Nat) : Network :=
  ⟨true, delay, [⟨200, Utf8.encode nothing.toJson.compact⟩], [], []⟩

/-- The reply of this network, which comes for any request. -/
private theorem send_answering (delay : Nat) (patience : Client.Patience) (sent : Network.Sent) :
    ((answering delay).send patience sent).1 =
      if delay ≤ patience.seconds then some ⟨200, Utf8.encode nothing.toJson.compact⟩ else none :=
  rfl

/-- What comes of asking the default node for what it says about itself. -/
private theorem status_run_fst {client : Client} {url : Url}
    (hparse : Url.parse? (client.defaultBase ++ "/status") = some url) (hhttp : url.IsHttp)
    (world : World) :
    ((client.status World.transport).run world).1 =
      Except.bind ((world.network.send client.patience ⟨.get, url, none⟩).1.elim
        (Except.error (.unreachable (client.defaultBase ++ "/status"))) Except.ok)
          (Client.Reply.message Message.StatusAnswer.read) := by
  rw [Client.status, Client.bind_pure_run_fst, Client.sendText, hparse]
  dsimp only
  rw [Client.send, if_pos hhttp, StateT.run_bind, World.send_run]
  cases (world.network.send client.patience ⟨.get, url, none⟩).1 <;> rfl

/-- Without words, a run ends well on this network exactly when it waits for the reply. -/
private theorem exit_answering (config : Config)
    (hurl : Client.trimSlashes config.client.url = Config.builtinUrl) (tree : Files.Tree)
    (delay : Nat) :
    ((withConfig World.access World.transport config []).run ⟨tree, answering delay⟩).1.exit = 0 ↔
      delay ≤ (Client.ofConfig config).patience.seconds := by
  have hbuiltin : Url.parse? (Config.builtinUrl ++ "/api" ++ "/status") =
      some ⟨"http", some ⟨none, "127.0.0.1", some 9101⟩, .named ["api", "status"], none, none⟩ := by
    decide +kernel
  have hbase : (Client.ofConfig config).defaultBase = Config.builtinUrl ++ "/api" :=
    congrArg (· ++ "/api") hurl
  rw [← hbase] at hbuiltin
  have hrun : withConfig World.access World.transport config [] =
      ((Client.ofConfig config).status World.transport >>= fun status =>
        pure (answerOutput statusLines status)) := rfl
  rw [hrun, Client.bind_pure_run_fst, status_run_fst hbuiltin (.inl rfl), send_answering]
  by_cases hdelay : delay ≤ (Client.ofConfig config).patience.seconds
  · have hmessage : Client.Reply.message Message.StatusAnswer.read
        ⟨200, Utf8.encode nothing.toJson.compact⟩ = .ok nothing :=
      Client.message_done (Message.StatusAnswer.run_read_toJson nothing)
    rw [if_pos hdelay, Option.elim_some, Except.bind, hmessage]
    exact iff_of_true rfl hdelay
  · rw [if_neg hdelay]
    exact iff_of_false (by decide : (1 : UInt8) ≠ 0) hdelay

/-- Two requests that reached nobody fail alike only if they were sent to the same API. -/
private theorem unreachable_inj {base other : String}
    (h : (Output.failure (Client.Failure.unreachable (base ++ "/api" ++ "/status")).message).err =
      (Output.failure (Client.Failure.unreachable (other ++ "/api" ++ "/status")).message).err) :
    base = other := by
  have hshown (url : String) : (Output.failure (Client.Failure.unreachable url).message).err =
      "Error: " ++ ("failed to connect to peekd at " ++ url ++ " — is it running?") ++ "\n" := rfl
  rw [hshown, hshown, String.append_left_inj, String.append_right_inj, String.append_left_inj,
    String.append_right_inj, String.append_left_inj, String.append_left_inj] at h
  exact h

/-- The seconds of a timeout: a timeout of zero is none, and then the usual ones are waited for. -/
private theorem seconds_ofConfig (config : Config) :
    (Client.ofConfig config).patience.seconds =
      if config.client.timeout = 0 then 30 else config.client.timeout.toNat := by
  rw [Client.ofConfig]
  dsimp only
  split <;> rfl

/-! ## When a file is missed -/

/-- An environment that names no other default node than the built-in one. -/
def NamesBuiltin (environment : Environment) : Prop :=
  Client.trimSlashes ((environment "PEEK_CLIENT__DEFAULT_URL").getD Config.builtinUrl) =
    Config.builtinUrl

instance : DecidablePred NamesBuiltin := fun environment =>
  inferInstanceAs (Decidable (Client.trimSlashes
    ((environment "PEEK_CLIENT__DEFAULT_URL").getD Config.builtinUrl) = Config.builtinUrl))

private theorem trimSlashes_builtinUrl :
    Client.trimSlashes Config.builtinUrl = Config.builtinUrl := by
  decide +kernel

/-- Replies are in time for both runs or for neither when they take no time, or the timeouts are the
same. -/
private theorem inTime_iff {network : Network}
    (h : network.delay = 0 ∨ timeoutOf environment = builtinTimeout) :
    network.delay ≤ (Client.ofConfig {}).patience.seconds ↔
      network.delay ≤ (Client.ofConfig (Config.override environment {})).patience.seconds := by
  rcases h with hprompt | htimeout
  · rw [hprompt]
    exact iff_of_true (Nat.zero_le _) (Nat.zero_le _)
  · have hsame : (Config.override environment {}).client.timeout = builtinTimeout := htimeout
    rw [seconds_ofConfig, seconds_ofConfig, hsame]
    exact Iff.rfl

include hload habsent

/-- The file is not missed when the environment names no other default node, and the timeout does
not matter. -/
private theorem unmasked_of_builtin (hbuiltin : NamesBuiltin environment) {words : List String}
    {network : Network} (h : network.delay = 0 ∨ timeoutOf environment = builtinTimeout)
    (hread : ∀ word ∈ words, tree.read word = absent.read word) :
    Unmasked tree absent environment failure words network := by
  refine unmasked_of_url hload habsent network hread (fun rest urls _ => ?_) (inTime_iff h)
  cases urls.getLast? with
  | none => exact trimSlashes_builtinUrl.trans hbuiltin.symm
  | some url => rfl

/-- On a network that is down, the file is missed when the environment names another node. -/
private theorem namesBuiltin_of_unmasked
    (h : Unmasked tree absent environment failure [] ⟨false, 0, [], [], []⟩) :
    NamesBuiltin environment := by
  -- the run without words names the node that it did not reach, so both look for the same one
  obtain ⟨output, behind, habs, htree⟩ := h
  rw [run_of_absent habsent, withConfig_of_down rfl] at habs
  rw [run_of_failure hload (withConfig_of_down rfl {})] at htree
  obtain rfl : output = .failure _ := (congrArg Prod.fst habs).symm
  have hwarned := congrArg (fun result => result.1.err) htree
  exact (unreachable_inj ((String.append_right_inj _).mp hwarned)).symm.trans
    trimSlashes_builtinUrl

/-- On a network with a reply that only the longer one of two timeouts waits for, the file is missed
when the environment names another timeout. -/
private theorem timeoutOf_eq_of_unmasked (hbuiltin : NamesBuiltin environment)
    (h : ∀ network, Unmasked tree absent environment failure [] network) :
    timeoutOf environment = builtinTimeout := by
  generalize hseconds : (Client.ofConfig (Config.override environment {})).patience.seconds = n
  obtain ⟨output, behind, habs, htree⟩ := h (answering (max n 10))
  have hwaits : output.exit = 0 ↔ max n 10 ≤ n := by
    have hexit := exit_answering (Config.override environment {}) hbuiltin absent (max n 10)
    rw [run_of_absent habsent] at habs
    rw [habs, hseconds] at hexit
    exact hexit
  have hwaits' : output.exit = 0 ↔ max n 10 ≤ 10 := by
    have hexit := exit_answering {} trimSlashes_builtinUrl tree (max n 10)
    rcases hrun : (withConfig World.access World.transport {} []).run
      ⟨tree, answering (max n 10)⟩ with ⟨output', behind'⟩
    rw [run_of_failure hload hrun] at htree
    rw [hrun] at hexit
    rw [← show output'.exit = output.exit from congrArg (fun result => result.1.exit) htree]
    exact hexit
  -- both wait for the reply or neither does, so the timeouts are the same
  have hboth : max n 10 ≤ n ↔ max n 10 ≤ 10 := hwaits.symm.trans hwaits'
  have hten : n = 10 := by omega
  rw [hten, seconds_ofConfig] at hseconds
  split at hseconds
  · cases hseconds
  · exact UInt64.toNat_inj.mp hseconds

end Fallback

/-- A file that cannot be used is never missed exactly when the environment names no other default
node than the built-in one, and no other timeout. Where replies take no time, the timeout does not
matter, and where the words name a default node themselves, that of the environment does not. The
words must not name a file that is not the same without it. -/
theorem unmasked_iff {tree absent : Files.Tree} {environment : Environment}
    {failure : Config.Failure} (hload : Config.ofTree tree environment = .error failure)
    (habsent : absent.isThere (Config.path environment) = false) :
    ((∀ words network, (∀ word ∈ words, tree.read word = absent.read word) →
        Unmasked tree absent environment failure words network) ↔
      NamesBuiltin environment ∧ timeoutOf environment = builtinTimeout) ∧
    ((∀ words network, network.delay = 0 → (∀ word ∈ words, tree.read word = absent.read word) →
        Unmasked tree absent environment failure words network) ↔
      NamesBuiltin environment) ∧
    ∀ words network, "--url" ∈ words →
      (network.delay = 0 ∨ timeoutOf environment = builtinTimeout) →
        (∀ word ∈ words, tree.read word = absent.read word) →
          Unmasked tree absent environment failure words network := by
  refine ⟨⟨fun h => ?_, fun h words network => ?_⟩, ⟨fun h => ?_, fun h words network hdelay => ?_⟩,
    fun words network hmem h hread => ?_⟩
  · have hbuiltin := namesBuiltin_of_unmasked hload habsent (h [] _ (List.forall_mem_nil _))
    exact ⟨hbuiltin, timeoutOf_eq_of_unmasked hload habsent hbuiltin fun network =>
      h [] network (List.forall_mem_nil _)⟩
  · exact unmasked_of_builtin hload habsent h.1 (.inr h.2)
  · exact namesBuiltin_of_unmasked hload habsent (h [] _ rfl (List.forall_mem_nil _))
  · exact unmasked_of_builtin hload habsent h (.inl hdelay)
  · refine unmasked_of_url hload habsent network hread (fun rest urls hscan => ?_) (inTime_iff h)
    rw [List.getLast?_eq_some_getLast (hscan.urls_ne_nil hmem)]
    rfl

/-! ## A directory in place of the file -/

/-- Files with a directory where the settings are looked for. -/
def blocked : Files.Tree := ⟨[(["config.toml"], .directory)]⟩

/-- An environment that names the file and another default node than the built-in one. -/
def elsewhere : Environment := fun name =>
  if name = "PEEK_CONFIG" then some "config.toml"
  else if name = "PEEK_CLIENT__DEFAULT_URL" then some "http://10.0.0.2:9101"
  else none

private theorem ofTree_blocked :
    Config.ofTree blocked elsewhere = .error (.unreadable "config.toml" .isDirectory) := by
  rfl

private theorem isThere_elsewhere :
    Files.Tree.empty.isThere (Config.path elsewhere) = false := by
  decide +kernel

/-- Where the environment names another default node, some run misses the file. -/
theorem unmasked_iff_blocked :
    Config.ofTree blocked elsewhere = .error (.unreadable "config.toml" .isDirectory) ∧
      Files.Tree.empty.isThere (Config.path elsewhere) = false ∧
      ¬ ∀ words network, (∀ word ∈ words, blocked.read word = Files.Tree.empty.read word) →
        Unmasked blocked .empty elsewhere (.unreadable "config.toml" .isDirectory) words
          network := by
  refine ⟨ofTree_blocked, isThere_elsewhere, ?_⟩
  rw [(unmasked_iff ofTree_blocked isThere_elsewhere).1]
  decide +kernel

/-- A chunk goes to the node that the environment names as long as there is no file, and to the
built-in node when a directory is in its place. -/
theorem put_blocked_strays :
    ((run World.access World.transport elsewhere ["put", "--hex", "07"]).run
        ⟨.empty, ⟨true, 0, [], [], []⟩⟩).2.network.log.map (·.url.text) =
          ["http://10.0.0.2:9101/api/chunks"] ∧
      ((run World.access World.transport elsewhere ["put", "--hex", "07"]).run
        ⟨blocked, ⟨true, 0, [], [], []⟩⟩).2.network.log.map (·.url.text) =
          ["http://127.0.0.1:9101/api/chunks"] := by
  constructor
  all_goals decide +kernel

end ChunkScope.Terminal
