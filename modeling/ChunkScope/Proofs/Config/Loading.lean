import ChunkScope.Config
import ChunkScope.Files

/-!
# Settings that are loaded

Which settings a tree of files and an environment come to, and which of them is the default URL of
a client: the variable, then the entry in the file, then the built-in one.
-/

namespace ChunkScope

/-! ## Records in a document -/

namespace Toml.Decoder

variable {α β : Type} {name : String} {decoder : Decoder β} {set : β → α → α}
  {fields : List (RecordField Decoder α)} {start record : α}

/-- The entry of a field that may be left out is either decoded or not there. -/
theorem ofEntries_optional {entries : Entries}
    (h : ofEntries entries (.optional name decoder set :: fields) start = some record) :
    (Keyed.find? name entries = none ∧ ofEntries entries fields start = some record) ∨
      ∃ v b, Keyed.find? name entries = some v ∧ decoder v = some b ∧
        ofEntries entries fields (set b start) = some record := by
  rw [ofEntries] at h
  split at h
  · next v hv =>
    obtain ⟨update, hupdate, hrest⟩ := Option.bind_eq_some_iff.mp h
    obtain ⟨b, hb, rfl⟩ := Option.map_eq_some_iff.mp hupdate
    exact .inr ⟨v, b, hv, hb, hrest⟩
  · next hnone => exact .inl ⟨hnone, h⟩

/-- An item of an array is decoded as its field. -/
theorem ofItems_optional {v : Toml} {items : List Toml}
    (h : ofItems (v :: items) (.optional name decoder set :: fields) start = some record) :
    ∃ b, decoder v = some b ∧ ofItems items fields (set b start) = some record := by
  rw [ofItems] at h
  obtain ⟨update, hupdate, hrest⟩ := Option.bind_eq_some_iff.mp h
  obtain ⟨b, hb, rfl⟩ := Option.map_eq_some_iff.mp hupdate
  exact ⟨b, hb, hrest⟩

end Toml.Decoder

/-! ## The URL in a file -/

namespace Config

open Toml Toml.Decoder

/-- The built-in URL of the default node. -/
def builtinUrl : String := "http://127.0.0.1:9101"

/-- The text that a value is. -/
def text? : Toml → Option String
  | .string s => some s
  | _ => none

/-- The default URL in the section of a client, which is a table or an array that begins with it. -/
def sectionUrl? : Toml → Option String
  | .table _ entries => (Keyed.find? "default_url" entries).bind text?
  | .array _ (v :: _) => text? v
  | _ => none

/-- The default URL in a document. -/
def documentUrl? : Toml → Option String
  | .table _ entries => (Keyed.find? "client" entries).bind sectionUrl?
  | _ => none

/-- A text that is decoded is a TOML string. -/
private theorem text?_of_text {v : Toml} {s : String} (h : Decoder.text v = some s) :
    text? v = some s := by
  cases v <;> cases h
  rfl

/-- The default URL of a client section is its entry, or the built-in one. -/
private theorem url_of_entries {entries : Entries} {client : Client}
    (h : ofEntries entries [.optional "default_url" Decoder.text fun url client =>
        { client with url }, .optional "timeout_secs" Decoding.word64 fun timeout client =>
        { client with timeout }] {} = some client) :
    client.url = ((Keyed.find? "default_url" entries).bind text?).getD builtinUrl := by
  have htimeout {start : Client} (h : ofEntries entries [.optional "timeout_secs" Decoding.word64
      fun timeout client => { client with timeout }] start = some client) :
      client.url = start.url := by
    rcases ofEntries_optional h with ⟨-, h⟩ | ⟨v, n, -, -, h⟩
    all_goals
      cases h
      rfl
  rcases ofEntries_optional h with ⟨hnone, h⟩ | ⟨v, url, hv, hurl, h⟩
  · rw [htimeout h, hnone]
    rfl
  · rw [htimeout h, hv, Option.bind_some, text?_of_text hurl]
    rfl

/-- The URL of a section that is decoded is the one in it, or else the built-in one. -/
theorem url_of_decode_client {v : Toml} {client : Client}
    (h : (Client.decode : Decoder Client) v = some client) :
    client.url = (sectionUrl? v).getD builtinUrl := by
  match v with
  | .table _ entries => exact url_of_entries h
  | .moment =>
    have hnone : ofEntries [] _ {} = some client := h
    exact url_of_entries hnone
  | .array _ [] =>
    cases h
    rfl
  | .array _ (v :: items) =>
    obtain ⟨url, hurl, h⟩ := ofItems_optional h
    have hclient : client.url = url := by
      cases items with
      | nil =>
        cases h
        rfl
      | cons w items =>
        obtain ⟨n, -, h⟩ := ofItems_optional h
        rw [ofItems] at h
        cases h
        rfl
    rw [hclient, sectionUrl?, text?_of_text hurl]
    rfl
  | .string _ | .integer _ | .boolean _ | .float => cases h

/-- The URL of settings that are decoded is the one in the document, or else the built-in one. -/
theorem url_of_decode {origin : Origin} {entries : Entries} {config : Config}
    (h : (Config.decode : Decoder Config) (.table origin entries) = some config) :
    config.client.url = (documentUrl? (.table origin entries)).getD builtinUrl := by
  -- the sections before and behind that of the client leave it alone
  have hbehind {start : Config} (h : ofEntries entries [.optional "cluster" decodeCluster
      fun cluster config => { config with cluster }, .optional "types" (Decoding.list Layout.decode)
      fun types config => { config with types }] start = some config) :
      config.client = start.client := by
    rcases ofEntries_optional h with ⟨-, h⟩ | ⟨_, _, -, -, h⟩
    all_goals
      rcases ofEntries_optional h with ⟨-, h⟩ | ⟨_, _, -, -, h⟩
      all_goals
        cases h
        rfl
  have hclient {start : Config} (hstart : start.client = {}) (h : ofEntries entries (.optional
      "client" Client.decode (fun client config => { config with client }) ::
      [.optional "cluster" decodeCluster fun cluster config => { config with cluster },
        .optional "types" (Decoding.list Layout.decode) fun types config => { config with types }])
      start = some config) :
      config.client.url = (documentUrl? (.table origin entries)).getD builtinUrl := by
    rw [documentUrl?]
    rcases ofEntries_optional h with ⟨hnone, h⟩ | ⟨v, client, hv, hsection, h⟩
    · rw [hbehind h, hstart, hnone]
      rfl
    · rw [hbehind h, hv, Option.bind_some]
      exact url_of_decode_client hsection
  rcases ofEntries_optional h with ⟨-, h⟩ | ⟨_, _, -, -, h⟩
  all_goals exact hclient rfl h

/-! ## Settings of a tree of files -/

/-- The settings that a tree of files and an environment come to. -/
def ofTree (tree : Files.Tree) (environment : Environment) : Except Failure Config :=
  let file :=
    if tree.isThere (path environment) then
      ofFile (path environment) (tree.read (path environment))
    else .ok {}
  file.map (override environment)

/-- The default URL in the file of the settings, if there is one. -/
def fileUrl? (tree : Files.Tree) (environment : Environment) : Option String :=
  if tree.isThere (path environment) then do
    let data ← (tree.read (path environment)).toOption
    let text ← Utf8.decode? data
    let document ← Toml.parse? text
    documentUrl? document
  else none

/-- The default URL of a file that is understood is the one in its document, or the built-in one. -/
private theorem url_of_ofFile {path : String} {contents : Except Files.Fault Bytes}
    {config : Config} (h : ofFile path contents = .ok config) :
    ∃ data text document, contents = .ok data ∧ Utf8.decode? data = some text ∧
      Toml.parse? text = some document ∧
        config.client.url = (documentUrl? document).getD builtinUrl := by
  rw [ofFile.eq_def] at h
  split at h
  · cases h
  · next data =>
    split at h
    · cases h
    · next text htext =>
      split at h
      · cases h
      · next hdecode =>
        cases h
        obtain ⟨document, hparse, hdecode⟩ := Option.bind_eq_some_iff.mp hdecode
        refine ⟨data, text, document, rfl, htext, hparse, ?_⟩
        -- a text stands for a table, whatever is in it
        obtain ⟨statements, -, hparse⟩ := Option.bind_eq_some_iff.mp hparse
        obtain ⟨draft, -, hparse⟩ := Option.bind_eq_some_iff.mp hparse
        cases hparse
        exact url_of_decode hdecode

/-- The default URL that is loaded is the variable, or else the entry in the file, or else the
built-in one. -/
theorem url_of_ofTree {tree : Files.Tree} {environment : Environment} {config : Config}
    (h : ofTree tree environment = .ok config) :
    config.client.url =
      ((environment "PEEK_CLIENT__DEFAULT_URL").or (fileUrl? tree environment)).getD
        builtinUrl := by
  have hfile {file : Config}
      (hurl : file.client.url = (fileUrl? tree environment).getD builtinUrl)
      (h : (Except.ok file : Except Failure Config).map (override environment) = .ok config) :
      config.client.url =
        ((environment "PEEK_CLIENT__DEFAULT_URL").or (fileUrl? tree environment)).getD
          builtinUrl := by
    cases h
    show (environment "PEEK_CLIENT__DEFAULT_URL").getD file.client.url = _
    rw [hurl]
    cases environment "PEEK_CLIENT__DEFAULT_URL" <;> rfl
  rw [ofTree] at h
  by_cases hthere : tree.isThere (path environment) = true
  · rw [if_pos hthere] at h
    cases hload : ofFile (path environment) (tree.read (path environment)) with
    | error failure =>
      rw [hload] at h
      cases h
    | ok file =>
      rw [hload] at h
      obtain ⟨data, text, document, hread, htext, hparse, hurl⟩ := url_of_ofFile hload
      refine hfile ?_ h
      rw [hurl, fileUrl?, if_pos hthere, hread]
      simp [Except.toOption, htext, hparse]
  · rw [if_neg hthere] at h
    refine hfile ?_ h
    rw [fileUrl?, if_neg hthere]
    rfl

/-- Without a file the settings are the defaults with those that the environment has. -/
theorem ofTree_of_absent {tree : Files.Tree} {environment : Environment}
    (h : tree.isThere (path environment) = false) :
    ofTree tree environment = .ok (override environment {}) := by
  rw [ofTree, if_neg (by simp [h])]
  rfl

end Config

end ChunkScope
