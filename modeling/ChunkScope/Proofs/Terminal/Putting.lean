import ChunkScope.Files
import ChunkScope.Proofs.Client.Batches
import ChunkScope.Proofs.Client.Writing
import ChunkScope.Proofs.Text.Spellings
import ChunkScope.Terminal

/-!
# Puts from the command line

The words of a put are pairs of a flag and a value, and all of them are looked at before anything is
sent. Only when each pair says something, and one of them says which bytes, a request goes out, and
it is one request with what the last pairs say. Every other list of words is refused, and nothing is
sent.

What words say is told by `Wants`, without reading them one by one: `take_run` and `foldl_set` bring
the two together, and `allOrNothing_command` says what becomes of the whole command.
-/

namespace ChunkScope

open Http Message

/-! ## What words say -/

namespace Terminal.Put

/-- What a flag and its value say: under which local id to store, or what to store. -/
inductive Setting where
  | slot (slot : LocalId)
  | data (data : Bytes)

/-- The local id, where a setting says one. -/
def Setting.slot? : Setting → Option LocalId
  | .slot l => some l
  | .data _ => none

/-- The bytes, where a setting says some. -/
def Setting.data? : Setting → Option Bytes
  | .slot _ => none
  | .data bytes => some bytes

/-- What a flag and a value say: a local id in one of its spellings, bytes as pairs of digits, or
the bytes of a file. -/
inductive Says (contents : String → Except Files.Fault Bytes) : String → String → Setting → Prop
    where
  | slot {value : String} {l : LocalId} (h : Numeral.SpellsAddress value.toList l.value.toNat) :
    Says contents "--local" value (.slot l)
  | hex {value : String} {bytes : Bytes} (hpairs : Hex.IsPairs value.toList)
    (hbytes : Hex.encode bytes = value.map Char.toLower) : Says contents "--hex" value (.data bytes)
  | file {path : String} {bytes : Bytes} (h : contents path = .ok bytes) :
    Says contents "--file" path (.data bytes)

/-- Words that are flags with values, and what they say one after the other. -/
inductive Settings (contents : String → Except Files.Fault Bytes) :
    List String → List Setting → Prop where
  | nil : Settings contents [] []
  | cons {flag value : String} {setting : Setting} {words : List String} {settings : List Setting}
    (h : Says contents flag value setting) (hrest : Settings contents words settings) :
    Settings contents (flag :: value :: words) (setting :: settings)

/-- Words that want some bytes stored: those that they say last, and under the local id that they
say last, if they say one. -/
def Wants (contents : String → Except Files.Fault Bytes) (words : List String) (bytes : Bytes)
    (slot : Option LocalId) : Prop :=
  ∃ settings, Settings contents words settings ∧
    (settings.filterMap Setting.data?).getLast? = some bytes ∧
    (settings.filterMap Setting.slot?).getLast? = slot

/-- What is known behind one more setting. -/
def set (put : Put) : Setting → Put
  | .slot l => { put with slot := some l }
  | .data bytes => { put with data := some bytes }

/-- The last setting of each kind counts. -/
theorem foldl_set (put : Put) (settings : List Setting) : settings.foldl set put =
    ⟨(settings.filterMap Setting.slot?).getLast?.or put.slot,
      (settings.filterMap Setting.data?).getLast?.or put.data⟩ := by
  induction settings generalizing put with
  | nil => rfl
  | cons setting settings ih =>
    rw [List.foldl_cons, ih]
    cases setting with
    | slot l =>
      have hslot : Setting.slot? (.slot l) = some l := rfl
      rw [List.filterMap_cons_some hslot, List.filterMap_cons_none rfl, List.getLast?_cons]
      cases (settings.filterMap Setting.slot?).getLast? <;> rfl
    | data bytes =>
      have hdata : Setting.data? (.data bytes) = some bytes := rfl
      rw [List.filterMap_cons_none rfl, List.filterMap_cons_some hdata, List.getLast?_cons]
      cases (settings.filterMap Setting.data?).getLast? <;> rfl

/-! ## What becomes of words -/

section Words

-- Files are read without any effect, so the state stays as it is while words are looked at.
variable {σ : Type} {files : Files.Access (StateM σ)}
  {contents : String → Except Files.Fault Bytes} {s : σ}
  (hread : ∀ path, (files.read path).run s = (contents path, s))

include hread

/-- A pair that says something is taken, and changes nothing. -/
theorem take_run {flag value : String} {setting : Setting} (h : Says contents flag value setting)
    (put : Put) : (put.take files flag value).run s = (.ok (put.set setting), s) := by
  cases h with
  | @slot _ l h =>
    have hslot : slot? value = .ok l := by
      rw [slot?, Numeral.address?_eq_some_iff.mpr h]
    rw [take, if_pos rfl, hslot]
    rfl
  | hex hpairs hbytes =>
    rw [take, if_neg (by decide), if_pos rfl, Hex.decode?_eq_some_iff.mpr ⟨hpairs, hbytes⟩]
    rfl
  | file h =>
    rw [take, if_neg (by decide), if_neg (by decide), if_pos rfl, StateT.run_bind, hread, h]
    rfl

/-- A pair that says nothing is refused, and changes nothing. -/
theorem take_run_of_not_says {flag value : String}
    (h : ∀ setting, ¬ Says contents flag value setting) (put : Put) :
    ∃ message, (put.take files flag value).run s = (.error message, s) := by
  unfold take
  split
  · next hflag =>
    subst hflag
    have hnone : Numeral.address? value.toList = none :=
      Option.eq_none_iff_forall_ne_some.mpr fun l hl =>
        h (.slot ⟨l⟩) (.slot (Numeral.address?_eq_some_iff.mp hl))
    rw [slot?, hnone]
    exact ⟨_, rfl⟩
  split
  · next hflag =>
    subst hflag
    have hnone : Hex.decode? value = none := by
      refine Option.eq_none_iff_forall_ne_some.mpr fun bytes hbytes => ?_
      obtain ⟨hpairs, hencode⟩ := Hex.decode?_eq_some_iff.mp hbytes
      exact h (.data bytes) (.hex hpairs hencode)
    rw [hnone]
    exact ⟨_, rfl⟩
  split
  · next hflag =>
    subst hflag
    rw [StateT.run_bind, hread]
    cases hfile : contents value with
    | ok bytes => exact absurd (.file hfile) (h (.data bytes))
    | error fault => exact ⟨_, rfl⟩
  · exact ⟨_, rfl⟩

/-- Words that are flags with values are taken one pair after the other. -/
theorem takeAll_run {words : List String} {settings : List Setting}
    (h : Settings contents words settings) (put : Put) :
    (put.takeAll files words).run s = (.ok (settings.foldl set put), s) := by
  induction h generalizing put with
  | nil => rfl
  | cons h _ ih =>
    rw [takeAll, StateT.run_bind, take_run hread h]
    exact ih _

/-- All other words are refused, at the first pair that says nothing or at a flag without a
value. -/
theorem takeAll_run_of_not_settings {words : List String}
    (h : ∀ settings, ¬ Settings contents words settings) (put : Put) :
    ∃ message, (put.takeAll files words).run s = (.error message, s) := by
  match words with
  | [] => exact absurd .nil (h [])
  | [flag] => exact ⟨_, rfl⟩
  | flag :: value :: rest =>
    rw [takeAll, StateT.run_bind]
    by_cases hsays : ∃ setting, Says contents flag value setting
    · obtain ⟨setting, hsetting⟩ := hsays
      have hrest : ∀ settings, ¬ Settings contents rest settings :=
        fun _ hsettings => h _ (.cons hsetting hsettings)
      rw [take_run hread hsetting]
      exact takeAll_run_of_not_settings hrest _
    · obtain ⟨message, hmessage⟩ := take_run_of_not_says hread (not_exists.mp hsays) put
      rw [hmessage]
      exact ⟨message, rfl⟩

/-- Words that want some bytes stored are read as what they want. -/
theorem parse_run {words : List String} {bytes : Bytes} {slot : Option LocalId}
    (h : Wants contents words bytes slot) :
    (parse files words).run s = (.ok (bytes, slot), s) := by
  obtain ⟨settings, hsettings, hbytes, hslot⟩ := h
  rw [parse, StateT.run_bind, takeAll_run hread hsettings, foldl_set, hbytes, hslot, Option.or_none]
  rfl

/-- Other words are refused, and nothing is changed. -/
theorem parse_run_of_not_wants {words : List String}
    (h : ¬ ∃ bytes slot, Wants contents words bytes slot) :
    ∃ message, (parse files words).run s = (.error message, s) := by
  rw [parse, StateT.run_bind]
  by_cases hsettings : ∃ settings, Settings contents words settings
  · obtain ⟨settings, hsettings⟩ := hsettings
    have hbytes : (settings.filterMap Setting.data?).getLast? = none :=
      Option.eq_none_iff_forall_ne_some.mpr fun bytes hbytes =>
        h ⟨bytes, _, settings, hsettings, hbytes, rfl⟩
    rw [takeAll_run hread hsettings, foldl_set, hbytes]
    exact ⟨_, rfl⟩
  · obtain ⟨message, hmessage⟩ :=
      takeAll_run_of_not_settings hread (not_exists.mp hsettings) ⟨none, none⟩
    rw [hmessage]
    exact ⟨message, rfl⟩

end Words

end Terminal.Put

/-! ## The request -/

namespace Client

/-- A client whose default node has a URL that can be spoken to, in HTTP: this is the URL of the
chunks there. -/
structure PostsTo (client : Client) (url : Url) : Prop where
  parses : Url.parse? (client.defaultBase ++ "/chunks") = some url
  isHttp : url.IsHttp

/-- The request to store some bytes: their digits in lower case, and the local id if there is
one. -/
def storing (url : Url) (bytes : Bytes) (slot : Option LocalId) : Network.Sent :=
  ⟨.post, url, some (wish bytes slot).toJson.compact⟩

/-- A reply of a node that tells the id of a chunk: it tells of success, and its body is the message
of a chunk whose id can be read. -/
def Reply.TellsId (reply : Reply) : Prop :=
  (200 ≤ reply.status ∧ reply.status < 300) ∧
    ∃ answer id, ChunkAnswer.read.runBytes reply.body = .ok answer ∧
      ChunkId.parse? answer.chunkId = some id

/-- A client is told an id just when the reply tells one. -/
theorem exists_created_iff {reply : Reply} : (∃ id, reply.created = .ok id) ↔ reply.TellsId := by
  rw [Reply.created]
  constructor
  · rintro ⟨id, hid⟩
    split at hid
    · cases hid
    · next answer hanswer =>
      obtain ⟨hstatus, hbody⟩ := message_eq_ok_iff.mp hanswer
      split at hid
      · next read hread => exact ⟨hstatus, answer, read, hbody, hread⟩
      · cases hid
  · rintro ⟨hstatus, answer, id, hbody, hread⟩
    rw [message_eq_ok_iff.mpr ⟨hstatus, hbody⟩]
    exact ⟨id, by simp only [hread]⟩

/-- What a node has stored is told by the reply that was laid down for the request. -/
theorem create_scripted {client : Client} {url : Url} (hurl : client.PostsTo url)
    (replies : Nat → Option Reply) (bytes : Bytes) (slot : Option LocalId)
    (log : List Network.Sent) :
    (client.create (scripted replies) bytes slot).run log =
      ((replies log.length).elim (.error (.unreachable (client.defaultBase ++ "/chunks")))
        Reply.created, log ++ [storing url bytes slot]) := by
  rw [create, sendText, hurl.parses]
  dsimp only
  rw [StateT.run_bind, send_scripted client hurl.isHttp]
  cases replies log.length <;> rfl

end Client

/-! ## Puts -/

/-- A tree as a file system to which nothing is written. -/
def Files.Tree.readOnly {m : Type → Type} [Monad m] (tree : Files.Tree) : Files.Access m where
  isThere path := pure (tree.isThere path)
  read path := pure (tree.read path)
  write _ _ := pure (.error (.other "Read-only file system (os error 30)"))
  createDirectories _ := pure (.error (.other "Read-only file system (os error 30)"))

namespace Terminal

/-- What becomes of a put, by its words and by what comes back for its request: the output and the
requests that have been sent behind it. Something is sent exactly when the words want some bytes
stored. It is one request with what they want, and the command ends well exactly when the reply to
it tells the id of a chunk. Other words end with an error. -/
structure AllOrNothing (contents : String → Except Files.Fault Bytes) (url : Url)
    (words : List String) (reply : Option Client.Reply) (log : List Network.Sent)
    (result : Output × List Network.Sent) : Prop where
  sends_iff : result.2 ≠ log ↔ ∃ bytes slot, Put.Wants contents words bytes slot
  sent : ∀ bytes slot, Put.Wants contents words bytes slot →
    result.2 = log ++ [Client.storing url bytes slot] ∧
      (result.1.exit = 0 ↔ ∃ r, reply = some r ∧ r.TellsId)
  unsent : (¬ ∃ bytes slot, Put.Wants contents words bytes slot) →
    result.2 = log ∧ result.1.exit ≠ 0

section Runs

variable {client : Client} {url : Url} {files : Files.Access (StateM (List Network.Sent))}
  {contents : String → Except Files.Fault Bytes} {log : List Network.Sent} {words : List String}

/-- When the words want some bytes stored, the command is the request for it. -/
private theorem command_run_of_wants (hurl : client.PostsTo url)
    (hread : ∀ path, (files.read path).run log = (contents path, log)) {bytes : Bytes}
    {slot : Option LocalId} (h : Put.Wants contents words bytes slot)
    (replies : Nat → Option Client.Reply) : ∃ lines : ChunkId → List String,
    (command files (Client.scripted replies) client ("put" :: words)).run log =
      (answerOutput lines ((replies log.length).elim
          (.error (.unreachable (client.defaultBase ++ "/chunks"))) Client.Reply.created),
        log ++ [Client.storing url bytes slot]) := by
  refine ⟨fun id => ["Created chunk " ++ id.text ++ " (" ++ Numeral.decimal bytes.length ++
    " bytes)"], ?_⟩
  show (put files (Client.scripted replies) client words).run log = _
  rw [put, StateT.run_bind, Put.parse_run hread h]
  refine (StateT.run_bind _ _ _).trans ?_
  rw [Client.create_scripted hurl]
  rfl

/-- When they do not, the command ends with an error before anything is sent. -/
private theorem command_run_of_not_wants
    (hread : ∀ path, (files.read path).run log = (contents path, log))
    (h : ¬ ∃ bytes slot, Put.Wants contents words bytes slot)
    (transport : Client.Transport (StateM (List Network.Sent))) : ∃ message,
    (command files transport client ("put" :: words)).run log = (.failure message, log) := by
  obtain ⟨message, hmessage⟩ := Put.parse_run_of_not_wants hread h
  refine ⟨message, ?_⟩
  show (put files transport client words).run log = _
  rw [put, StateT.run_bind, hmessage]
  rfl

/-- A command whose request was answered ends well, and no other one does. -/
private theorem exit_answerOutput_iff {α : Type} {lines : α → List String}
    {answer : Except Client.Failure α} :
    (answerOutput lines answer).exit = 0 ↔ ∃ a, answer = .ok a := by
  cases answer with
  | ok a => exact iff_of_true rfl ⟨a, rfl⟩
  | error failure => exact iff_of_false (by decide : (1 : UInt8) ≠ 0) nofun

/-- Whatever words follow, and whatever files there are, a put sends one request or none at all. -/
theorem allOrNothing_command (hurl : client.PostsTo url)
    (hread : ∀ path, (files.read path).run log = (contents path, log))
    (replies : Nat → Option Client.Reply) (words : List String) :
    AllOrNothing contents url words (replies log.length) log
      ((command files (Client.scripted replies) client ("put" :: words)).run log) := by
  by_cases hwants : ∃ bytes slot, Put.Wants contents words bytes slot
  · refine ⟨iff_of_true ?_ hwants, fun bytes slot h => ?_, fun hnone => absurd hwants hnone⟩
    · obtain ⟨bytes, slot, h⟩ := hwants
      obtain ⟨lines, hrun⟩ := command_run_of_wants hurl hread h replies
      rw [hrun]
      exact fun hlog => List.cons_ne_nil _ _ (List.append_right_eq_self.mp hlog)
    · obtain ⟨lines, hrun⟩ := command_run_of_wants hurl hread h replies
      rw [hrun]
      refine ⟨rfl, exit_answerOutput_iff.trans ?_⟩
      cases replies log.length with
      | none => exact iff_of_false nofun nofun
      | some reply => simpa using Client.exists_created_iff
  · obtain ⟨message, hrun⟩ := command_run_of_not_wants hread hwants (Client.scripted replies)
    rw [hrun]
    refine ⟨iff_of_false (fun hlog => hlog rfl) hwants, fun bytes slot h => ?_, fun _ => ?_⟩
    · exact absurd ⟨bytes, slot, h⟩ hwants
    · exact ⟨rfl, (by decide : (1 : UInt8) ≠ 0)⟩

/-- Of two values for the bytes the later one is sent, and the node says under which id it has
stored it. -/
theorem allOrNothing_cafe :
    let client := Client.ofConfig {}
    let url : Url := { Url.defaultApi with path := .named ["api", "chunks"] }
    let files : Files.Access (StateM (List Network.Sent)) := Files.Tree.empty.readOnly
    let answer : ChunkAnswer := ⟨(ChunkId.pack ⟨1⟩ ⟨7⟩).text, 2, "cafe"⟩
    let reply : Client.Reply := ⟨200, Utf8.encode answer.toJson.compact⟩
    let ran := (command files (Client.scripted fun _ => some reply) client
      ["put", "--hex", "00", "--local", "0x7", "--hex", "CAFE"]).run []
    client.PostsTo url ∧ (∀ path, (files.read path).run [] = (Files.Tree.empty.read path, [])) ∧
      ran.2 = [Client.storing url [0xCA, 0xFE] (some ⟨7⟩)] ∧ ran.1.exit = 0 := by
  intro client url files answer reply ran
  have hurl : client.PostsTo url := ⟨by decide +kernel, .inl rfl⟩
  have hread : ∀ path, (files.read path).run [] = (Files.Tree.empty.read path, []) := fun _ => rfl
  have hhex {value : String} {bytes : Bytes} (h : Hex.decode? value = some bytes) :
      Put.Says Files.Tree.empty.read "--hex" value (.data bytes) :=
    .hex (Hex.decode?_eq_some_iff.mp h).1 (Hex.decode?_eq_some_iff.mp h).2
  have hlocal : Put.Says Files.Tree.empty.read "--local" "0x7" (.slot ⟨7⟩) :=
    .slot (Numeral.address?_eq_some_iff.mp (by decide +kernel))
  have hsettings := Put.Settings.cons (hhex (by decide +kernel : Hex.decode? "00" = some [0]))
    (.cons hlocal (.cons (hhex (by decide +kernel : Hex.decode? "CAFE" = some [0xCA, 0xFE])) .nil))
  have hall : AllOrNothing Files.Tree.empty.read url
      ["--hex", "00", "--local", "0x7", "--hex", "CAFE"] (some reply) [] ran :=
    allOrNothing_command hurl hread (fun _ => some reply) _
  obtain ⟨hlog, hexit⟩ := hall.sent [0xCA, 0xFE] (some ⟨7⟩) ⟨_, hsettings, rfl, rfl⟩
  have hbody : ChunkAnswer.read.runBytes reply.body = .ok answer :=
    (Json.Reader.runBytes_encode _ _).trans (ChunkAnswer.run_read_toJson answer)
  have htells : reply.TellsId :=
    ⟨by decide, answer, .pack ⟨1⟩ ⟨7⟩, hbody, ChunkId.parse?_text _⟩
  exact ⟨hurl, hread, hlog.trans (List.nil_append _), hexit.mpr ⟨_, rfl, htells⟩⟩

end Runs

end Terminal

end ChunkScope
