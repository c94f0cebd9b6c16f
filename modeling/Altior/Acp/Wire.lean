import Altior.Domain.Json

/-!
# Messages on the agent's stream

JSON-RPC 2.0 over lines (`altior-acp/src/wire.rs`), the typed errors of the
adapter (`altior-acp/src/error.rs`), the message shapes it maps
(`altior-acp/src/messages.rs`) and what a decoded message becomes in the
adapter's own vocabulary (`altior-acp/src/mapping.rs`).  How a text parses and
which values a derived shape accepts is up to the JSON library.
-/

namespace Altior.Acp

open Domain

/-- Failures of the adapter. -/
inductive AcpError
  | malformedMessage (diagnostic : String)
  | lineTooLarge (sizeBytes limitBytes : Nat)
  | lineNotUtf8
  | rpcError (code : Int64) (message : String)
  | processExited (status : String)
  | outOfOrder (attempted : String)
  | processSpawnFailed (program diagnostic : String)
  | ioError (diagnostic : String)
  | unexpectedEof (diagnostic : String)
  | unsupported (feature : String)
  | invalidConfig (diagnostic : String)
  | secretResolutionFailed (secretRef diagnostic : String)
  | cancelled
deriving DecidableEq, Repr

def AcpError.display : AcpError → String
  | malformedMessage diagnostic => "malformed ACP message: " ++ diagnostic
  | lineTooLarge sizeBytes limitBytes =>
    "ACP line of " ++ toString sizeBytes ++ " bytes exceeds " ++ toString limitBytes
  | lineNotUtf8 => "ACP line is not valid UTF-8"
  | rpcError code message => "agent RPC error " ++ toString code.toInt ++ ": " ++ message
  | processExited status => "agent process exited (" ++ status ++ ")"
  | outOfOrder attempted => "out-of-order adapter use: " ++ attempted
  | processSpawnFailed program diagnostic =>
    "failed to spawn ACP process '" ++ program ++ "': " ++ diagnostic
  | ioError diagnostic => "ACP transport I/O error: " ++ diagnostic
  | unexpectedEof diagnostic => "unexpected EOF on ACP stream: " ++ diagnostic
  | unsupported feature => "unsupported ACP feature: " ++ feature
  | invalidConfig diagnostic => "invalid launch configuration: " ++ diagnostic
  | secretResolutionFailed secretRef diagnostic =>
    "failed to resolve secret reference '" ++ secretRef ++ "': " ++ diagnostic
  | cancelled => "ACP operation was cancelled"

/-! ## Messages -/

/-- A request id; ids of the agent are echoed back whatever their shape. -/
inductive RpcId
  | number (n : UInt64)
  | text (s : String)
deriving DecidableEq, Repr

/-- A JSON-RPC error object. -/
structure RpcError where
  code : Int64
  message : String
deriving DecidableEq, Repr

/-- One message on the stream. -/
inductive RpcMessage
  | request (id : RpcId) (method : String) (params : Json)
  | notification (method : String) (params : Json)
  | response (id : RpcId) (result : Json)
  | errorResponse (id : RpcId) (error : RpcError)

/-- Why a turn stopped. -/
inductive StopReason
  | endTurn
  | maxTokens
  | maxTurnRequests
  | refusal
  | cancelled
deriving DecidableEq, Repr

namespace StopReason

def isSuccess : StopReason → Bool
  | endTurn | cancelled => true
  | _ => false

def wireName : StopReason → String
  | endTurn => "end_turn"
  | maxTokens => "max_tokens"
  | maxTurnRequests => "max_turn_requests"
  | refusal => "refusal"
  | cancelled => "cancelled"

end StopReason

/-- Execution status of a tool call. -/
inductive ToolCallStatus
  | pending
  | inProgress
  | completed
  | failed
deriving DecidableEq, Repr

def ToolCallStatus.wireName : ToolCallStatus → String
  | pending => "pending"
  | inProgress => "in_progress"
  | completed => "completed"
  | failed => "failed"

/-- The part of a tool call the adapter maps. -/
structure ToolCallUpdate where
  toolCallId : String
  status : Option ToolCallStatus
deriving DecidableEq, Repr

/-- One content block. -/
inductive ContentBlock
  | text (text : String)
  | resourceLink (uri name : String)
  | image (data mimeType : String)
  | audio (data mimeType : String)
  | resource (resource : Json)

/-- The parsing side of the JSON library: texts, and the values its derived
decoders accept.  An error is the text the library reports. -/
class AcpSerde where
  /-- `serde_json::from_str::<Value>`. -/
  fromStr : String → Except String Json
  /-- `serde_json::to_string` of a value. -/
  toStr : Json → String
  /-- `from_value::<RpcError>`. -/
  rpcError : Json → Except String RpcError
  /-- `from_value::<NewSessionResult>`: the session id. -/
  newSessionResult : Json → Except String String
  /-- `from_value::<PromptResult>`: the stop reason. -/
  promptResult : Json → Except String StopReason
  /-- `from_value::<RequestPermissionParams>`: the tool call awaiting approval. -/
  requestPermissionParams : Json → Except String ToolCallUpdate
  /-- `from_value::<ContentChunk>`: its content. -/
  contentChunk : Json → Except String ContentBlock
  /-- `from_value::<ToolCallUpdate>`. -/
  toolCallUpdate : Json → Except String ToolCallUpdate

/-- A text value. -/
def str (s : String) : Json := .scalar (.string s)

def ContentBlock.toJson : ContentBlock → Json
  | text t => .object [("type", str "text"), ("text", str t)]
  | resourceLink uri name =>
    .object [("type", str "resource_link"), ("uri", str uri), ("name", str name)]
  | image data mimeType =>
    .object [("type", str "image"), ("data", str data), ("mimeType", str mimeType)]
  | audio data mimeType =>
    .object [("type", str "audio"), ("data", str data), ("mimeType", str mimeType)]
  | resource r => .object [("type", str "resource"), ("resource", r)]

/-- An id as it is written in a message. -/
def RpcId.toJson : RpcId → Json
  | number n => .scalar (.number (.posInt n))
  | text s => str s

/-- A signed number as the library keeps it. -/
def int (n : Int64) : Json :=
  if n.toInt < 0 then .scalar (.number (.negInt n))
  else .scalar (.number (.posInt n.toInt.toNat.toUInt64))

def RpcError.toJson (e : RpcError) : Json :=
  .object [("code", int e.code), ("message", str e.message)]

/-! ## Lines -/

/-- An error of the JSON library. -/
def serdeError {α : Type} : Except String α → Except AcpError α :=
  Except.mapError .malformedMessage

def malformed : AcpError :=
  .malformedMessage "message is neither request, notification, nor response"

def decodeId : Json → Except AcpError RpcId
  | .scalar (.number (.posInt n)) => .ok (.number n)
  | .scalar (.number _) => .error (.malformedMessage "request id is not an unsigned number")
  | .scalar (.string text) => .ok (.text text)
  | _ => .error (.malformedMessage "request id is neither number nor string")

/-- A method name. -/
def decodeMethod (method : Json) : Except AcpError String :=
  match method.asStr with
  | some name => .ok name
  | none => .error malformed

variable [AcpSerde]

namespace RpcMessage

/-- Classifies an object by the fields it carries. -/
def ofValue (value : Json) : Except AcpError RpcMessage := do
  if value.isObject = false then .error (.malformedMessage "stream line is not a JSON object")
  else if value.getStr "jsonrpc" ≠ some "2.0" then
    .error (.malformedMessage "message is not jsonrpc 2.0")
  else
    let id ← (value.get "id").mapM decodeId
    let params := (value.get "params").getD (.scalar .null)
    match value.get "method", id with
    | some method, some id => pure (.request id (← decodeMethod method) params)
    | some method, none => pure (.notification (← decodeMethod method) params)
    | none, some id =>
      match value.get "error" with
      | some error => pure (.errorResponse id (← serdeError (AcpSerde.rpcError error)))
      | none => pure (.response id ((value.get "result").getD (.scalar .null)))
    | none, none => .error malformed

/-- Decodes one stream line. -/
def decode (line : String) : Except AcpError RpcMessage := do
  ofValue (← serdeError (AcpSerde.fromStr line))

/-- The value a message is written as. -/
def toValue : RpcMessage → Json
  | request id method params =>
    .object [("jsonrpc", str "2.0"), ("id", id.toJson), ("method", str method),
      ("params", params)]
  | notification method params =>
    .object [("jsonrpc", str "2.0"), ("method", str method), ("params", params)]
  | response id result =>
    .object [("jsonrpc", str "2.0"), ("id", id.toJson), ("result", result)]
  | errorResponse id error =>
    .object [("jsonrpc", str "2.0"), ("id", id.toJson), ("error", error.toJson)]

/-- Encodes a message as one stream line; a value always serializes. -/
def encode (m : RpcMessage) : String := AcpSerde.toStr m.toValue

end RpcMessage

/-! ## The adapter's events -/

/-- What the wire said, in the adapter's vocabulary. -/
inductive AgentEvent
  | sessionCreated (sessionId : String)
  | sessionResumed (sessionId : String)
  | turnStarted
  | delta (text : String)
  | toolObserved (toolCallId : String) (status : Option String)
  | permissionRequested (requestId : String) (toolCallId : Option String)
  | turnCompleted (stopReason : StopReason)
  | turnFailed (diagnostic : String)
  | preserved (providerKind : String) (raw : Json)

/-- A wire fact and the event it became. -/
structure NormalizedEvent where
  wireKind : String
  event : AgentEvent

def idJson : RpcId → String
  | .number n => toString n.toNat
  | .text s => s

def mapStopReason (stopReason : StopReason) : AgentEvent :=
  if stopReason.isSuccess then .turnCompleted stopReason
  else .turnFailed ("turn stopped: " ++ stopReason.wireName)

/-- Results are told apart by their shape. -/
def mapResult (result : Json) : AgentEvent :=
  match AcpSerde.newSessionResult result with
  | .ok sessionId => .sessionCreated sessionId
  | .error _ =>
    match AcpSerde.promptResult result with
    | .ok stopReason => mapStopReason stopReason
    | .error _ => .preserved "acp.result.unmapped" result

/-- One update of a session. -/
inductive SessionUpdate
  | userMessageChunk (content : ContentBlock)
  | agentMessageChunk (content : ContentBlock)
  | agentThoughtChunk (content : ContentBlock)
  | toolCall (call : ToolCallUpdate)
  | toolCallUpdate (call : ToolCallUpdate)
  | preserved (kind : String) (raw : Json)

namespace SessionUpdate

def fromValue (update : Json) : Except AcpError SessionUpdate :=
  match update.getStr "sessionUpdate" with
  | none => .error (.malformedMessage "session/update carries no sessionUpdate kind")
  | some "user_message_chunk" =>
    userMessageChunk <$> serdeError (AcpSerde.contentChunk update)
  | some "agent_message_chunk" =>
    agentMessageChunk <$> serdeError (AcpSerde.contentChunk update)
  | some "agent_thought_chunk" =>
    agentThoughtChunk <$> serdeError (AcpSerde.contentChunk update)
  | some "tool_call" => toolCall <$> serdeError (AcpSerde.toolCallUpdate update)
  | some "tool_call_update" => toolCallUpdate <$> serdeError (AcpSerde.toolCallUpdate update)
  | some kind => .ok (preserved kind update)

def kindName : SessionUpdate → String
  | userMessageChunk _ => "user_message_chunk"
  | agentMessageChunk _ => "agent_message_chunk"
  | agentThoughtChunk _ => "agent_thought_chunk"
  | toolCall _ => "tool_call"
  | toolCallUpdate _ => "tool_call_update"
  | preserved kind _ => kind

end SessionUpdate

/-- A block that is no text is preserved. -/
def unmappedContent (content : ContentBlock) : AgentEvent :=
  .preserved "acp.content.unmapped" (.object [("content", content.toJson)])

def toolObserved (call : ToolCallUpdate) : AgentEvent :=
  .toolObserved call.toolCallId (call.status.map ToolCallStatus.wireName)

def mapUpdate : SessionUpdate → AgentEvent
  | .agentMessageChunk (.text text) => .delta text
  | .userMessageChunk (.text text) =>
    .preserved "acp.user_message" (.object [("text", str text)])
  | .agentMessageChunk content | .userMessageChunk content => unmappedContent content
  | .agentThoughtChunk content =>
    .preserved "acp.agent_thought" (.object [("content", content.toJson)])
  | .toolCall call | .toolCallUpdate call => toolObserved call
  | .preserved kind raw => .preserved ("acp.update." ++ kind) raw

/-- The method an agent asks for a permission with. -/
def requestPermission : String := "session/request_permission"

/-- A request of the agent. -/
def normalizeRequest (id : RpcId) (method : String) (params : Json) :
    Except AcpError (List NormalizedEvent) :=
  if method = requestPermission then do
    let call ← serdeError (AcpSerde.requestPermissionParams params)
    pure [⟨requestPermission, .permissionRequested (idJson id) (some call.toolCallId)⟩]
  else if method = "fs/read_text_file" ∨ method = "fs/write_text_file" then
    .ok [⟨method, .preserved "acp.fs.denied" (.object [("method", str method)])⟩]
  else
    .ok [⟨"request:" ++ method, .preserved "acp.request.unmapped"
      (.object [("method", str method), ("id", str (idJson id))])⟩]

/-- A notification of the agent. -/
def normalizeNotification (method : String) (params : Json) :
    Except AcpError (List NormalizedEvent) :=
  if method = "session/update" then
    match params.get "update" with
    | none => .error (.malformedMessage "session/update params carry no update object")
    | some update => do
        let update ← SessionUpdate.fromValue update
        pure [⟨"session/update:" ++ update.kindName, mapUpdate update⟩]
  else
    .ok [⟨"notification:" ++ method, .preserved "acp.notification.unmapped"
      (.object [("method", str method)])⟩]

/-- Maps a decoded message to the events it stands for. -/
def normalizeMessage : RpcMessage → Except AcpError (List NormalizedEvent)
  | .response _ result => .ok [⟨"response", mapResult result⟩]
  | .errorResponse id error => .ok [⟨"error_response", .preserved "acp.failure"
      (.object [("id", str (idJson id)), ("code", int error.code),
        ("message", str error.message)])⟩]
  | .request id method params => normalizeRequest id method params
  | .notification method params => normalizeNotification method params

end Altior.Acp
