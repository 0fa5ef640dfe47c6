import ChunkScope.Config
import ChunkScope.Layout
import ChunkScope.Proofs.Json.Values

/-!
# Layouts and configurations that are read back

All settings come back from the JSON that is written for them. Every section is written, with all of
its settings, so none of them falls back to its default; only layouts are left out when there are
none, and none is what their default is.
-/

/-! ## Layouts

A layout comes back from the JSON that is written for it: each kind has a name of its own, and the
fields stay in their order. -/

namespace ChunkScope

open Json Json.Reader

/-- A kind is found by its name. -/
theorem ElementKind.ofName?_name (kind : ElementKind) : ofName? kind.name = some kind := by
  match kind with
  | .number .byte | .number .short | .number .int | .number .long | .text => rfl

namespace Layout

/-- The fields of a field of a layout. -/
private def Field.fields : List (RecordField Reader Field) :=
  [.required "name" Reader.text fun name field => { field with name },
    .required "kind" (Reader.choice ElementKind.ofName?) fun kind field => { field with kind }]

/-- A field of a layout is read back. -/
theorem Field.reads_decode (depth : Nat) (field : Field) :
    Reads ((Field.decode : Reader Field) (depth + 1)) field.toJson field := by
  have hkind := reads_choice depth field.kind.ofName?_name
  have htakes : Takes (takeMember Field.fields depth) (default, [])
      [("name", .string field.name), ("kind", .string field.kind.name)]
      (field, ["kind", "name"]) :=
    .cons (fun cs => takeMember_required rfl (reads_text depth field.name) (by decide) default) <|
    .cons (fun cs => takeMember_required rfl hkind (by decide) _) <|
    .nil _
  exact reads_record htakes (by decide)

/-- The fields of a layout, as a record. -/
private def recordFields : List (RecordField Reader Layout) :=
  [.required "name" Reader.text fun name layout => { layout with name },
    .required "fields" (Reader.list Field.decode) fun fields layout => { layout with fields }]

/-- A layout is read back. -/
theorem reads_decode (depth : Nat) (layout : Layout) :
    Reads ((Layout.decode : Reader Layout) (depth + 3)) layout.toJson layout := by
  have hfields := reads_list Field.toJson (fun field _ => Field.reads_decode depth field)
    (fun field (_ : field ∈ layout.fields) => opens_compactChars nofun)
  have htakes : Takes (takeMember recordFields (depth + 2)) (default, [])
      [("name", .string layout.name), ("fields", .array (layout.fields.map Field.toJson))]
      (layout, ["fields", "name"]) :=
    .cons (fun cs => takeMember_required rfl (reads_text _ layout.name) (by decide) default) <|
    .cons (fun cs => takeMember_required rfl hfields (by decide) _) <|
    .nil _
  exact reads_record htakes (by decide)

/-- Layouts are read back from an array of them. -/
theorem reads_list_decode (depth : Nat) (layouts : List Layout) :
    Reads ((Reader.list Layout.decode : Reader (List Layout)) (depth + 4))
      (.array (layouts.map Layout.toJson)) layouts :=
  reads_list Layout.toJson (fun layout _ => reads_decode depth layout)
    (fun _ _ => opens_compactChars nofun)

end Layout

/-! ## Settings -/

/-- The fields of an entry of the cluster. -/
private def Endpoint.fields : List (RecordField Reader Endpoint) :=
  [.required "node_id" Decoding.word16 fun id endpoint => { endpoint with node := ⟨id⟩ },
    .required "url" Reader.text fun url endpoint => { endpoint with url }]

/-- An entry of the cluster is read back. -/
theorem Endpoint.reads_decode (depth : Nat) (endpoint : Endpoint) :
    Reads ((Endpoint.decode : Reader Endpoint) (depth + 1)) endpoint.toJson endpoint := by
  have hnode := reads_word16 depth endpoint.node.value
  have htakes : Takes (takeMember Endpoint.fields depth) (default, [])
      [("node_id", .int endpoint.node.value.toNat), ("url", .string endpoint.url)]
      (endpoint, ["url", "node_id"]) :=
    .cons (fun cs => takeMember_required rfl hnode (by decide) default) <|
    .cons (fun cs => takeMember_required rfl (reads_text depth endpoint.url) (by decide) _) <|
    .nil _
  exact reads_record htakes (by decide)

namespace Config

/-- The fields of the section of a node. -/
private def Node.fields : List (RecordField Reader Config.Node) :=
  [.optional "node_id" Decoding.word16 fun id node => { node with id := ⟨id⟩ },
    .optional "api_port" Decoding.word16 fun port node => { node with port }]

/-- The settings of a node are read back. -/
theorem Node.reads_decode (depth : Nat) (node : Config.Node) :
    Reads ((Node.decode : Reader Config.Node) (depth + 1))
      (.object [("node_id", .int node.id.value.toNat), ("api_port", .int node.port.toNat)])
      node := by
  have htakes : Takes (takeMember Node.fields depth) ({}, [])
      [("node_id", .int node.id.value.toNat), ("api_port", .int node.port.toNat)]
      (node, ["api_port", "node_id"]) :=
    .cons (fun cs => takeMember_optional rfl (reads_word16 depth node.id.value) (by decide) _) <|
    .cons (fun cs => takeMember_optional rfl (reads_word16 depth node.port) (by decide) _) <|
    .nil _
  exact reads_record htakes (by decide)

/-- The fields of the section of a client. -/
private def Client.fields : List (RecordField Reader Config.Client) :=
  [.optional "default_url" Reader.text fun url client => { client with url },
    .optional "timeout_secs" Decoding.word64 fun timeout client => { client with timeout }]

/-- The settings of a client are read back. -/
theorem Client.reads_decode (depth : Nat) (client : Config.Client) :
    Reads ((Client.decode : Reader Config.Client) (depth + 1))
      (.object [("default_url", .string client.url), ("timeout_secs", .int client.timeout.toNat)])
      client := by
  have htakes : Takes (takeMember Client.fields depth) ({}, [])
      [("default_url", .string client.url), ("timeout_secs", .int client.timeout.toNat)]
      (client, ["timeout_secs", "default_url"]) :=
    .cons (fun cs => takeMember_optional rfl (reads_text depth client.url) (by decide) _) <|
    .cons (fun cs => takeMember_optional rfl (reads_word64 depth client.timeout) (by decide) _) <|
    .nil _
  exact reads_record htakes (by decide)

/-- The only field of the section of the cluster. -/
private def clusterFields : List (RecordField Reader (List Endpoint)) :=
  [.optional "nodes" (Reader.list Endpoint.decode) fun nodes _ => nodes]

/-- The entries of the cluster are read back. -/
theorem reads_decodeCluster (depth : Nat) (cluster : List Endpoint) :
    Reads ((decodeCluster : Reader (List Endpoint)) (depth + 3))
      (.object [("nodes", .array (cluster.map Endpoint.toJson))]) cluster := by
  have hnodes := reads_list Endpoint.toJson
    (fun endpoint _ => Endpoint.reads_decode depth endpoint)
    (fun endpoint (_ : endpoint ∈ cluster) => opens_compactChars nofun)
  have htakes : Takes (takeMember clusterFields (depth + 2)) ([], [])
      [("nodes", .array (cluster.map Endpoint.toJson))] (cluster, ["nodes"]) :=
    .cons (fun cs => takeMember_optional rfl hnodes (by decide) _) (.nil _)
  exact reads_record htakes (by decide)

/-- The fields of all settings. -/
private def sections : List (RecordField Reader Config) :=
  [.optional "node" Node.decode fun node config => { config with node },
    .optional "client" Client.decode fun client config => { config with client },
    .optional "cluster" decodeCluster fun cluster config => { config with cluster },
    .optional "types" (Reader.list Layout.decode) fun types config => { config with types }]

/-- All settings are read back. -/
theorem reads_decode (depth : Nat) (config : Config) :
    Reads ((Config.decode : Reader Config) (depth + 5)) config.toJson config := by
  obtain ⟨node, client, cluster, types⟩ := config
  have hcluster := reads_decodeCluster (depth + 1) cluster
  -- the three sections that are always written, in front of the layouts, which may be left out
  have hsections {ms : List (String × Json)} {last : Draft Config}
      (htakes : Takes (takeMember sections (depth + 4))
        (⟨node, client, cluster, []⟩, ["cluster", "client", "node"]) ms last) :
      Takes (takeMember sections (depth + 4)) ({}, [])
        (("node", .object [("node_id", .int node.id.value.toNat),
            ("api_port", .int node.port.toNat)]) ::
          ("client", .object [("default_url", .string client.url),
            ("timeout_secs", .int client.timeout.toNat)]) ::
          ("cluster", .object [("nodes", .array (cluster.map Endpoint.toJson))]) :: ms) last :=
    .cons (fun cs => takeMember_optional rfl (Node.reads_decode _ node) (by decide) _) <|
    .cons (fun cs => takeMember_optional rfl (Client.reads_decode _ client) (by decide) _) <|
    .cons (fun cs => takeMember_optional rfl hcluster (by decide) _) htakes
  cases types with
  | nil => exact reads_record (hsections (.nil _)) (by decide)
  | cons layout layouts =>
    have htypes := Layout.reads_list_decode depth (layout :: layouts)
    exact reads_record (hsections <| .cons (fun cs =>
      takeMember_optional rfl htypes (by decide) _) (.nil _)) (by decide)

end Config

end ChunkScope
