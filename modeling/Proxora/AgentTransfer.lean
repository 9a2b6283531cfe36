import Proxora.GuestAgentFiles

/-!
# Files written and read by way of the guest agent

Proxmox decides what becomes of a request from its parameters: `file-write` stores the parameter
`content` as it is, since `encode` is not sent, and `file-read` gives the file's content as a text.
`agent_transfer_exact` says which files pass unchanged.
-/

namespace Proxora

open Ecma Dialogues

/-! ## The other side -/

/-- The parameters of the form body of a call. -/
def bodyParams (call : HttpCall) : Params :=
  Params.parse (((request rootBase call).body).getD [])

/-- The parameters of the query of a call. -/
def queryParams (call : HttpCall) : Params := Params.parse ((toSearch call.query).drop 1)

/-- Bytes of ASCII as a text. -/
def asciiText (bytes : List UInt8) : Text := bytes.map fun b => Char.ofNat b.toNat

/-- The part of Proxmox that talks to the agent of a guest, with the guest's files as its state. -/
structure GuestAgent where
  State : Type
  content : State → Text → Option (List UInt8)
  write : State → Params → Except AgentError AgentData × State
  read : State → Params → Except AgentError AgentData × State
  other : State → VmApi → Except AgentError AgentData × State
  /-- How much of a file `file-read` gives at most. -/
  readLimit : Nat
  stores : ∀ s params file text, params.getAll "file" = [file] →
    params.getAll "content" = [text] →
      (∃ data, (write s params).1 = .ok data) ∧
        content (write s params).2 file = some (utf8Encode text)
  required : ∀ s params, params.getAll "content" = [] → ∃ error, write s params = (.error error, s)
  reads : ∀ s params file bytes, params.getAll "file" = [file] → content s file = some bytes →
    (∀ b ∈ bytes, b.toNat < 0x80) →
      ∃ data, read s params = (.ok data, s) ∧
        agentField (unwrapAgent data) "content" = some (.str (asciiText (bytes.take readLimit))) ∧
        Json.truthy (agentField (unwrapAgent data) "truncated") = decide (readLimit < bytes.length)

namespace GuestAgent

variable (agent : GuestAgent)

def serve (s : agent.State) : ∀ method : VmApi, AgentAnswer method × agent.State
  | .agentFileWrite node vmid file content =>
      agent.write s (bodyParams (VmApi.agentFileWrite node vmid file content).call.http)
  | .agentFileRead node vmid file =>
      agent.read s (queryParams (VmApi.agentFileRead node vmid file).call.http)
  | method => agent.other s method

end GuestAgent

/-- The bytes that a request uploads. -/
def GuestFileRequest.uploaded (request : GuestFileRequest) : List UInt8 :=
  base64Decode (removeSpaces (request.contentBase64.getD []))

/-- A write succeeds and leaves the file with the bytes of the request. -/
def WritesExactly (agent : GuestAgent) (compare : Text → Text → Int) (s : agent.State)
    (request : GuestFileRequest) (file : Text) : Prop :=
  ∃ result after, (guestAgentFiles compare request).against agent.serve s = (.ok result, after) ∧
    agent.content after file = some request.uploaded

/-- A read succeeds and gives the bytes. -/
def ReadsExactly (agent : GuestAgent) (compare : Text → Text → Int) (s : agent.State)
    (request : GuestFileRequest) (bytes : List UInt8) : Prop :=
  ∃ result after, (guestAgentFiles compare request).against agent.serve s = (.ok result, after) ∧
    result.contentBase64 = some (base64Encode bytes)

/-! ## What Proxmox gets -/

/-- The parameters of a write: an empty content is left out. -/
theorem bodyParams_agentFileWrite (node : Text) (vmid : Nat) {file content : Text}
    (given : file ≠ []) :
    bodyParams (VmApi.agentFileWrite node vmid file content).call.http =
      if content = [] then [(("file" : Text), file)]
      else [(("file" : Text), file), (("content" : Text), content)] := by
  obtain ⟨c, rest, rfl⟩ := List.exists_cons_of_ne_nil given
  have body : (request rootBase (VmApi.agentFileWrite node vmid (c :: rest) content).call.http).body =
      some (Params.serialize (if content = [] then [(("file" : Text), c :: rest)]
        else [(("file" : Text), c :: rest), (("content" : Text), content)])) := by
    cases content with
    | nil => rfl
    | cons d more => rfl
  rw [bodyParams, body, Option.getD_some, Params.parse_serialize]

theorem queryParams_agentFileRead (node : Text) (vmid : Nat) (file : Text) :
    queryParams (VmApi.agentFileRead node vmid file).call.http = [(("file" : Text), file)] := by
  have search : toSearch (VmApi.agentFileRead node vmid file).call.http.query =
      '?' :: Params.serialize [(("file" : Text), file)] := rfl
  rw [queryParams, search, List.drop_one, List.tail_cons, Params.parse_serialize]

theorem getAll_file (file : Text) :
    Params.getAll [(("file" : Text), file)] "file" = [file] ∧
      Params.getAll [(("file" : Text), file)] "content" = [] :=
  ⟨rfl, rfl⟩

theorem getAll_content (file content : Text) :
    Params.getAll [(("file" : Text), file), (("content" : Text), content)] "file" = [file] ∧
      Params.getAll [(("file" : Text), file), (("content" : Text), content)] "content" =
        [content] :=
  ⟨rfl, rfl⟩

/-! ## The two operations -/

variable {agent : GuestAgent} {compare : Text → Text → Int} {s : agent.State}
  {request : GuestFileRequest} {file node : Text}

/-- A request for a path of a guest, which is the file `file`. -/
structure Asks (request : GuestFileRequest) (file : Text) : Prop where
  path : resolveGuestPath (if request.path = [] then "/" else request.path) [] = .ok file
  node : trim (request.node.getD []) ≠ []

/-- Base64 without white space is decoded within the limit. -/
theorem decodeGuestFileContent_eq (content : Text) (max : Nat) :
    decodeGuestFileContent content max =
      if (base64Decode (removeSpaces content)).length > max then .error "File too large"
      else .ok (base64Decode (removeSpaces content)) := by
  rw [decodeGuestFileContent]
  dsimp only
  split
  · next nothing =>
      rw [nothing]
      rfl
  · rfl

/-- A resolved path has a name. -/
theorem Asks.name (asks : Asks request file) : ∃ name, guestFileName file = .ok name := by
  rw [guestFileName, resolveGuestPath_resolved asks.path]
  exact ⟨_, rfl⟩

/-- The operation is held and its errors are told in other words. -/
theorem guestAgentFiles_against (asks : Asks request file) :
    (guestAgentFiles compare request).against agent.serve s =
      match (agentOperation compare request (trim (request.node.getD [])) file).against
        agent.serve s with
      | (.ok result, after) => (.ok result, after)
      | (.error error, after) => (.error (agentError error), after) := by
  rw [guestAgentFiles, asks.path]
  dsimp only
  rw [if_neg asks.node, Dialogue.against_rescue]
  rcases (agentOperation compare request (trim (request.node.getD [])) file).against agent.serve s
    with ⟨outcome, after⟩
  cases outcome with
  | ok result => rfl
  | error error => rfl

/-- A write puts one question. -/
theorem agentOperation_write (named : guestFileName file = .ok node) {via : Text}
    (op : request.op = .write) (small : request.uploaded.length ≤ agentFileMaxBytes) :
    (agentOperation compare request via file).against agent.serve s =
      match agent.write s (bodyParams (VmApi.agentFileWrite via request.vmid file
        (base64Encode request.uploaded)).call.http) with
      | (.ok _, after) =>
          (.ok { path := file, name := some node, size := some request.uploaded.length }, after)
      | (.error error, after) => (.error error, after) := by
  have decoded : decodeGuestFileContent (request.contentBase64.getD []) agentFileMaxBytes =
      .ok request.uploaded := by
    rw [decodeGuestFileContent_eq]
    exact if_neg (Nat.not_lt_of_le small)
  rcases written : agent.write s (bodyParams (VmApi.agentFileWrite via request.vmid file
    (base64Encode request.uploaded)).call.http) with ⟨answer, after⟩
  have served : agent.serve s (.agentFileWrite via request.vmid file
      (base64Encode request.uploaded)) = (answer, after) := written
  rw [agentOperation, op]
  dsimp only
  rw [decoded, named]
  change Dialogue.against _ (Dialogue.andThen (writeFile via request.vmid file request.uploaded) _) _
    = _
  rw [writeFile, if_neg (Nat.not_lt_of_le small)]
  change Dialogue.against agent.serve (.ask _ _) s = _
  rw [Dialogue.against, served]
  cases answer with
  | ok data => rfl
  | error error => rfl

/-- A read puts one question, and decodes the text that comes back. -/
theorem agentOperation_read (named : guestFileName file = .ok node) {via : Text}
    (op : request.op = .read) {data : AgentData} {content : Text}
    (answered : agent.read s (queryParams (VmApi.agentFileRead via request.vmid file).call.http) =
      (.ok data, s))
    (given : agentField (unwrapAgent data) "content" = some (.str content)) :
    (agentOperation compare request via file).against agent.serve s =
      if Json.truthy (agentField (unwrapAgent data) "truncated") then (.error fileTooLarge, s)
      else
        match decodeGuestFileContent content agentFileMaxBytes with
        | .ok buf =>
            (.ok { path := file, name := some node, size := some buf.length,
                   contentBase64 := some (base64Encode buf) }, s)
        | .error message => (.error (.other message.toList), s) := by
  have served : agent.serve s (.agentFileRead via request.vmid file) = (.ok data, s) := answered
  rw [agentOperation, op]
  dsimp only
  rw [named]
  change Dialogue.against agent.serve (.ask _ _) s = _
  rw [Dialogue.against, served]
  change Dialogue.against agent.serve (Dialogue.andThen (Dialogue.andThen
    (textOrEmpty (agentField (unwrapAgent data) "content")) _) _) s = _
  rw [given]
  change Dialogue.against agent.serve (Dialogue.andThen (if _ then _ else _) _) s = _
  split
  · rfl
  · cases decodeGuestFileContent content agentFileMaxBytes with
    | ok buf => rfl
    | error message => rfl

/-! ## Which files pass unchanged -/

theorem base64Encode_injective : Function.Injective base64Encode :=
  Function.LeftInverse.injective base64Decode_base64Encode

/-- The file of a request starts with a slash. -/
theorem Asks.file_ne_nil (asks : Asks request file) : file ≠ [] := by
  obtain ⟨parts, -, rfl, -⟩ := resolveGuestPath_segments asks.path
  exact List.cons_ne_nil _ _

/-- No upload leaves the file with its bytes. -/
theorem not_writesExactly (asks : Asks request file) (op : request.op = .write)
    (small : request.uploaded.length ≤ agentFileMaxBytes) :
    ¬WritesExactly agent compare s request file := by
  rintro ⟨result, after, outcome, held⟩
  obtain ⟨name, named⟩ := asks.name
  rw [guestAgentFiles_against asks, agentOperation_write named op small,
    bodyParams_agentFileWrite _ _ asks.file_ne_nil] at outcome
  by_cases empty : base64Encode request.uploaded = []
  · obtain ⟨error, refused⟩ := agent.required s [(("file" : Text), file)] (getAll_file file).2
    rw [if_pos empty, refused] at outcome
    cases outcome
  · have params := getAll_content file (base64Encode request.uploaded)
    obtain ⟨⟨data, answered⟩, stored⟩ := agent.stores s _ file _ params.1 params.2
    rw [if_neg empty] at outcome
    rcases written : agent.write s [(("file" : Text), file),
      (("content" : Text), base64Encode request.uploaded)] with ⟨answer, later⟩
    rw [written] at answered stored outcome
    rw [show answer = .ok data from answered] at outcome
    obtain ⟨-, rfl⟩ := Prod.mk.inj outcome
    rw [held, Option.some.injEq] at stored
    have longer := length_le_utf8Encode (base64Encode request.uploaded)
    rw [← stored, length_base64Encode] at longer
    have given : request.uploaded ≠ [] := by
      intro nothing
      rw [nothing] at empty
      exact empty rfl
    have positive := List.length_pos_of_ne_nil given
    omega

theorem length_asciiText (bytes : List UInt8) : (asciiText bytes).length = bytes.length :=
  List.length_map _

/-- The content of a file is decoded to something shorter, unless it is empty. -/
theorem base64Decode_asciiText_ne {bytes : List UInt8} (some : bytes ≠ []) :
    base64Decode (removeSpaces (asciiText bytes)) ≠ bytes := by
  intro same
  have shorter := length_base64Decode (removeSpaces (asciiText bytes))
  have cut : (removeSpaces (asciiText bytes)).length ≤ (asciiText bytes).length :=
    List.length_filter_le _ _
  rw [same] at shorter
  rw [length_asciiText] at cut
  have positive := List.length_pos_of_ne_nil some
  omega

/-- Of the files of ASCII only the empty one is read as it is. -/
theorem readsExactly_iff (asks : Asks request file) (op : request.op = .read) {bytes : List UInt8}
    (there : agent.content s file = some bytes) (ascii : ∀ b ∈ bytes, b.toNat < 0x80) :
    ReadsExactly agent compare s request bytes ↔ bytes = [] := by
  obtain ⟨name, named⟩ := asks.name
  obtain ⟨data, answered, given, cut⟩ :=
    agent.reads s [(("file" : Text), file)] file bytes (getAll_file file).1 there ascii
  have query := queryParams_agentFileRead (trim (request.node.getD [])) request.vmid file
  rw [← query] at answered
  rw [ReadsExactly, guestAgentFiles_against asks, agentOperation_read named op answered given, cut]
  constructor
  · rintro ⟨result, after, outcome, content⟩
    by_contra some
    split at outcome
    · next ok =>
        by_cases long : agent.readLimit < bytes.length
        · rw [if_pos (decide_eq_true long)] at ok
          cases ok
        · rw [if_neg (by simpa using long), List.take_of_length_le (Nat.le_of_not_lt long),
            decodeGuestFileContent_eq] at ok
          split at ok
          · next buf decoded =>
              split at decoded
              · cases decoded
              · cases ok
                cases outcome
                have same := base64Encode_injective (Option.some.inj content)
                rw [← Except.ok.inj decoded] at same
                exact base64Decode_asciiText_ne some same
          · cases ok
    · cases outcome
  · rintro rfl
    rw [if_neg (by simp), List.take_nil]
    exact ⟨_, s, rfl, rfl⟩

/-- No upload leaves its bytes in the file, and of the files of ASCII only the empty one is read
as it is. -/
theorem agent_transfer_exact (agent : GuestAgent) (compare : Text → Text → Int) (s : agent.State)
    (request : GuestFileRequest) (file : Text) (asks : Asks request file) :
    (request.op = .write → request.uploaded.length ≤ agentFileMaxBytes →
      ¬WritesExactly agent compare s request file) ∧
    (request.op = .read → ∀ bytes, agent.content s file = some bytes →
      (∀ b ∈ bytes, b.toNat < 0x80) → (ReadsExactly agent compare s request bytes ↔ bytes = [])) :=
  ⟨not_writesExactly asks, fun op _ there ascii => readsExactly_iff asks op there ascii⟩

/-- A guest with a list of files, the latest one first. -/
def memoryAgent : GuestAgent where
  State := List (Text × List UInt8)
  content files file := files.lookup file
  write files params :=
    match params.getAll "file", params.getAll "content" with
    | [file], [text] => (.ok .null, (file, utf8Encode text) :: files)
    | _, _ => (.error (.proxmox "Parameter verification failed."), files)
  read files params :=
    match params.getAll "file" with
    | [file] =>
        match files.lookup file with
        | some bytes =>
            (.ok (.obj [(("content" : Text), .str (asciiText (bytes.take 16777216))),
              (("truncated" : Text), .bool (decide (16777216 < bytes.length)))]), files)
        | none => (.error (.proxmox "can't open file"), files)
    | _ => (.error (.proxmox "Parameter verification failed."), files)
  other files _ := (.error (.proxmox "not here"), files)
  readLimit := 16777216
  stores files params file text named given := by
    rw [named, given]
    exact ⟨⟨_, rfl⟩, by simp⟩
  required files params missing := by
    rw [missing]
    split
    · next second => cases second
    · exact ⟨_, rfl⟩
  reads files params file bytes named there ascii := by
    rw [named]
    dsimp only
    rw [there]
    exact ⟨_, rfl, rfl, rfl⟩

def noteRequest (op : GuestFileOp) : GuestFileRequest where
  node := some "pve"
  vmid := 100
  op := op
  path := "/note"
  toPath := none
  contentBase64 := some "aGk="

theorem asks_noteRequest (op : GuestFileOp) : Asks (noteRequest op) "/note" :=
  ⟨note.resolved, (by decide : trim ("pve" : Text) ≠ [])⟩

/-- The empty file is read as it is. -/
theorem agent_transfer_exact_of_note :
    ReadsExactly memoryAgent (fun _ _ => 0) [(("/note" : Text), [])] (noteRequest .read) [] :=
  ((agent_transfer_exact memoryAgent (fun _ _ => 0) [(("/note" : Text), [])] (noteRequest .read)
    "/note" (asks_noteRequest .read)).2 rfl [] rfl nofun).mpr rfl

/-- `aGk=` are the bytes of `hi`, and the file gets the four characters. -/
theorem note_not_written :
    ¬WritesExactly memoryAgent (fun _ _ => 0) [] (noteRequest .write) "/note" :=
  not_writesExactly (asks_noteRequest .write) rfl (by decide)

end Proxora
