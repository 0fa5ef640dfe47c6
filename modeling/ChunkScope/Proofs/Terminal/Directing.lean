import ChunkScope.Proofs.Terminal.Commands

/-!
# Where a run sends its requests

The words of a run may name the default node at any place among them. What is left of them is the
command, and it goes by the last URL that was named, then by the variable, then by the file, then by
the built-in URL; only for a chunk whose node has an entry in the cluster does it go by that entry.
-/

namespace ChunkScope.Terminal

open Http

/-! ## Words that name the default node -/

/-- Words that were scanned from left to right: each `--url` takes the next word, whatever it is, as
its value, and all other words are left. -/
inductive Scanned : List String → List String → List String → Prop where
  | nil : Scanned [] [] []
  | url (value : String) {words rest urls : List String} (h : Scanned words rest urls) :
    Scanned ("--url" :: value :: words) rest (value :: urls)
  | word {word : String} (hword : word ≠ "--url") {words rest urls : List String}
    (h : Scanned words rest urls) : Scanned (word :: words) (word :: rest) urls

/-- Words whose scan ends in a `--url` without a value. -/
inductive Dangling : List String → Prop where
  | last : Dangling ["--url"]
  | url (value : String) {words : List String} (h : Dangling words) :
    Dangling ("--url" :: value :: words)
  | word {word : String} (hword : word ≠ "--url") {words : List String} (h : Dangling words) :
    Dangling (word :: words)

/-- Every scan ends in one of the two ways. -/
theorem dangling_or_scanned (words : List String) :
    Dangling words ∨ ∃ rest urls, Scanned words rest urls := by
  induction words using splitUrl.induct with
  | case1 => exact .inr ⟨[], [], .nil⟩
  | case2 => exact .inl .last
  | case3 value words ih =>
    rcases ih with h | ⟨rest, urls, h⟩
    · exact .inl (.url value h)
    · exact .inr ⟨rest, value :: urls, .url value h⟩
  | case4 word words hlast hurl ih =>
    have hword : word ≠ "--url" := by
      rintro rfl
      cases words with
      | nil => exact hlast rfl rfl
      | cons value words => exact hurl value words rfl rfl
    rcases ih with h | ⟨rest, urls, h⟩
    · exact .inl (.word hword h)
    · exact .inr ⟨word :: rest, urls, .word hword h⟩

/-- A word that is no flag stays with the words. -/
private theorem splitUrl_word {word : String} (hword : word ≠ "--url") (words : List String) :
    splitUrl (word :: words) =
      (splitUrl words).map fun (words, url) => (word :: words, url) := by
  rw [splitUrl]
  · exact fun h _ => hword h
  · exact fun _ _ h _ => hword h

/-- A flag without a value is an error. -/
theorem splitUrl_of_dangling {words : List String} (h : Dangling words) :
    splitUrl words = .error "--url requires a value" := by
  induction h with
  | last => rfl
  | url value h ih =>
    rw [splitUrl, ih]
    rfl
  | word hword h ih =>
    rw [splitUrl_word hword, ih]
    rfl

/-- What is left of the words, and the last URL that they name. -/
theorem splitUrl_of_scanned {words rest urls : List String} (h : Scanned words rest urls) :
    splitUrl words = .ok (rest, urls.getLast?) := by
  induction h with
  | nil => rfl
  | url value h ih =>
    rw [splitUrl, ih, List.getLast?_cons]
    rfl
  | word hword h ih =>
    rw [splitUrl_word hword, ih]
    rfl

/-- What is left of the words is among them. -/
theorem Scanned.subset {words rest urls : List String} (h : Scanned words rest urls) :
    rest ⊆ words := by
  induction h with
  | nil => exact List.Subset.refl []
  | url value h ih => exact fun word hword => .tail _ (.tail _ (ih hword))
  | word hword h ih => exact List.cons_subset_cons _ ih

/-- Words that hold `--url` anywhere name a URL. -/
theorem Scanned.urls_ne_nil {words rest urls : List String} (h : Scanned words rest urls)
    (hmem : "--url" ∈ words) : urls ≠ [] := by
  induction h with
  | nil => cases hmem
  | url value h ih => exact List.cons_ne_nil _ _
  | word hword h ih =>
    rcases List.mem_cons.mp hmem with heq | hmem
    · exact absurd heq.symm hword
    · exact ih hmem

/-- What is left of the words names no URL. -/
theorem Scanned.rest {words rest urls : List String} (h : Scanned words rest urls) :
    Scanned rest rest [] := by
  induction h with
  | nil => exact .nil
  | url value h ih => exact ih
  | word hword h ih => exact .word hword ih

/-! ## Settings that a run goes by -/

/-- The URL of the default node: the last one that the words name, or else the variable, or else the
entry in the file, or else the built-in one. -/
def defaultUrl (tree : Files.Tree) (environment : Environment) (urls : List String) : String :=
  (urls.getLast?.or ((environment "PEEK_CLIENT__DEFAULT_URL").or
    (Config.fileUrl? tree environment))).getD Config.builtinUrl

/-- Settings with another URL for the default node. -/
def redirected (config : Config) (url : String) : Config :=
  { config with client := { config.client with url } }

/-- An environment in which a URL that was named takes the place of the variable. -/
def naming (url : Option String) (environment : Environment) : Environment := fun name =>
  if name = "PEEK_CLIENT__DEFAULT_URL" then url.or (environment name) else environment name

/-- A run on settings that were loaded goes where its words, its environment and its file say. The
scan of the words ends in one of two ways. If a `--url` has no value, the run fails and nothing is
sent or changed. Otherwise it is the run of the command that is left, with the URL that comes first,
and also that of the words that are left, when the variable has the last URL named. Every request is
one of the command, and goes to the node that the command is for. -/
structure Directed (tree : Files.Tree) (environment : Environment) (config : Config)
    (network : Network) (words : List String) : Prop where
  scan : Dangling words ∨ ∃ rest urls, Scanned words rest urls
  dangling : Dangling words →
    (run World.access World.transport environment words).run ⟨tree, network⟩ =
      (.failure "--url requires a value", ⟨tree, network⟩)
  command : ∀ rest urls, Scanned words rest urls →
    (run World.access World.transport environment words).run ⟨tree, network⟩ =
      (Terminal.command World.access World.transport (Client.ofConfig
        (redirected config (defaultUrl tree environment urls))) rest).run ⟨tree, network⟩
  deleted : ∀ rest urls, Scanned words rest urls →
    (run World.access World.transport environment words).run ⟨tree, network⟩ =
      (run World.access World.transport (naming urls.getLast? environment) rest).run
        ⟨tree, network⟩
  requests : ∀ rest urls, Scanned words rest urls →
    ∃ sent, ((run World.access World.transport environment words).run
      ⟨tree, network⟩).2.network.log = network.log ++ sent ∧
        ∀ request ∈ sent,
          Aimed (redirected config (defaultUrl tree environment urls)) rest request ∧
            LeadsWhere (nodeUrl (redirected config (defaultUrl tree environment urls)) rest)
              request.url

/-- A run on settings that were loaded goes on with them. -/
theorem run_of_loaded {tree : Files.Tree} {environment : Environment} {config : Config}
    (h : Config.ofTree tree environment = .ok config) (network : Network) (words : List String) :
    (run World.access World.transport environment words).run ⟨tree, network⟩ =
      (withConfig World.access World.transport config words).run ⟨tree, network⟩ := by
  rw [run, StateT.run_bind, World.load_run, h]
  rfl

/-- A URL that is named goes before the one that was loaded. -/
private theorem redirected_of_loaded {tree : Files.Tree} {environment : Environment}
    {config : Config} (h : Config.ofTree tree environment = .ok config) (urls : List String) :
    redirected config (urls.getLast?.getD config.client.url) =
      redirected config (defaultUrl tree environment urls) := by
  rw [Config.url_of_ofTree h, defaultUrl]
  cases urls.getLast? <;> rfl

/-- Words that are scanned are the command that is left, for the URL that was named last. -/
theorem withConfig_of_scanned (config : Config) {words rest urls : List String}
    (h : Scanned words rest urls) :
    withConfig World.access World.transport config words =
      command World.access World.transport (Client.ofConfig
        (redirected config (urls.getLast?.getD config.client.url))) rest := by
  rw [withConfig, splitUrl_of_scanned h]
  rfl

/-- The variable changes nothing but the URL of the default node. -/
private theorem ofTree_naming {tree : Files.Tree} {environment : Environment} {config : Config}
    (h : Config.ofTree tree environment = .ok config) (url : Option String) :
    Config.ofTree tree (naming url environment) =
      .ok (redirected config (url.getD config.client.url)) := by
  have hother {name : String} (hname : name ≠ "PEEK_CLIENT__DEFAULT_URL") :
      naming url environment name = environment name :=
    if_neg hname
  have hpath : Config.path (naming url environment) = Config.path environment := by
    rw [Config.path, Config.directory, Config.home, hother (by decide), hother (by decide),
      hother (by decide)]
    rfl
  have hoverride (file : Config) : file.override (naming url environment) =
      redirected (file.override environment)
        (url.getD (file.override environment).client.url) := by
    have hurl : naming url environment "PEEK_CLIENT__DEFAULT_URL" =
        url.or (environment "PEEK_CLIENT__DEFAULT_URL") :=
      if_pos rfl
    rw [Config.override, hurl, hother (by decide), hother (by decide), hother (by decide)]
    cases url <;> rfl
  rw [Config.ofTree] at h ⊢
  rw [hpath]
  generalize (if tree.isThere (Config.path environment) then _ else _ :
    Except Config.Failure Config) = file at h ⊢
  cases file with
  | error failure => cases h
  | ok file =>
    cases h
    exact congrArg Except.ok (hoverride file)

/-- Every run whose settings can be loaded goes where its words, its environment and its file
say. -/
theorem run_directed {tree : Files.Tree} {environment : Environment} {config : Config}
    (h : Config.ofTree tree environment = .ok config) (network : Network) (words : List String) :
    Directed tree environment config network words := by
  have hcommand (rest urls : List String) (hscan : Scanned words rest urls) :
      (run World.access World.transport environment words).run ⟨tree, network⟩ =
        (command World.access World.transport (Client.ofConfig (redirected config
          (defaultUrl tree environment urls))) rest).run ⟨tree, network⟩ := by
    rw [run_of_loaded h, withConfig_of_scanned config hscan, redirected_of_loaded h]
  refine ⟨dangling_or_scanned words, ?_, hcommand, ?_, ?_⟩
  · intro hdangling
    rw [run_of_loaded h, withConfig, splitUrl_of_dangling hdangling]
    rfl
  · intro rest urls hscan
    rw [run_of_loaded h, withConfig_of_scanned config hscan, run_of_loaded (ofTree_naming h _),
      withConfig_of_scanned _ hscan.rest]
    rfl
  · intro rest urls hscan
    rw [hcommand rest urls hscan]
    obtain ⟨sent, hlog, haimed⟩ := World.command_sending
      (redirected config (defaultUrl tree environment urls)) rest ⟨tree, network⟩
    exact ⟨sent, hlog, fun request hrequest =>
      ⟨haimed request hrequest, (haimed request hrequest).leadsWhere⟩⟩

/-- Without a file and without variables, a URL behind the command directs the run. -/
theorem run_directed_behind :
    Config.ofTree .empty (fun _ => none) = .ok {} ∧
      Directed .empty (fun _ => none) {} (.ofStore .vertex)
        ["status", "--url", "http://10.0.0.2:9101/"] := by
  have hload : Config.ofTree .empty (fun _ => none) = .ok {} :=
    Config.ofTree_of_absent (by decide +kernel)
  exact ⟨hload, run_directed hload _ _⟩

end ChunkScope.Terminal
