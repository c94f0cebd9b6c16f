import Altior.Acp.Runtime

/-!
# An agent that follows a script

A transport and handlers whose answers are listed in advance, and a JSON library
for the few lines of the sample runs.
-/

namespace Altior.Acp

open Domain Lib

/-- The answers of the ports, in order.  When a list is used up, writes go
through, reads find nothing, the signal is not raised, events are accepted and
permissions denied. -/
structure Scripted where
  writes : List WriteOutcome
  reads : List (Except AcpError (Option (Option String)))
  signals : List Bool
  replies : List (Except AcpError Unit)
  decisions : List (Except AcpError (Option Json))

instance : PromptHandlers Scripted where
  writeLine a _ := (a.writes.headD .written, { a with writes := a.writes.tail })
  readLineTimeout a := (a.reads.headD (.ok none), { a with reads := a.reads.tail })
  terminate a := (.ok (), a)
  cancelSignal a := (a.signals.headD false, { a with signals := a.signals.tail })
  onEvent a _ := (a.replies.headD (.ok ()), { a with replies := a.replies.tail })
  onPermission a _ _ := (a.decisions.headD (.ok none), { a with decisions := a.decisions.tail })

/-- A session whose handshake and creation took the ids one and two. -/
def sampleRuntime : AcpRuntime := ⟨2, ∅, .ready, .notSent, some "s"⟩

/-- The agent asks for a permission. -/
def permissionLine : String :=
  "\x7b\"jsonrpc\":\"2.0\",\"id\":7,\"method\":\"session/request_permission\",\"params\":\x7b\"sessionId\":\"s\",\"options\":[],\"toolCall\":\x7b\"toolCallId\":\"t\"\x7d\x7d\x7d"

/-- The agent finishes the prompt with id three. -/
def resultLine : String :=
  "\x7b\"jsonrpc\":\"2.0\",\"id\":3,\"result\":\x7b\"stopReason\":\"end_turn\"\x7d\x7d"

/-- The agent refuses the prompt with id three. -/
def errorLine : String :=
  "\x7b\"jsonrpc\":\"2.0\",\"id\":3,\"error\":\x7b\"code\":7,\"message\":\"busy\"\x7d\x7d"

/-- The agent says something. -/
def deltaLine : String :=
  "\x7b\"jsonrpc\":\"2.0\",\"method\":\"session/update\",\"params\":\x7b\"update\":\x7b\"sessionUpdate\":\"agent_message_chunk\",\"content\":\x7b\"type\":\"text\",\"text\":\"hi\"\x7d\x7d\x7d\x7d"

/-- The values of the sample lines. -/
def plainFromStr (line : String) : Except String Json :=
  if line = permissionLine then
    .ok (.object [("jsonrpc", str "2.0"), ("id", .scalar (.number (.posInt 7))),
      ("method", str "session/request_permission"),
      ("params", .object [("sessionId", str "s"), ("options", .array []),
        ("toolCall", .object [("toolCallId", str "t")])])])
  else if line = resultLine then
    .ok (.object [("jsonrpc", str "2.0"), ("id", .scalar (.number (.posInt 3))),
      ("result", .object [("stopReason", str "end_turn")])])
  else if line = errorLine then
    .ok (.object [("jsonrpc", str "2.0"), ("id", .scalar (.number (.posInt 3))),
      ("error", .object [("code", .scalar (.number (.posInt 7))), ("message", str "busy")])])
  else if line = deltaLine then
    .ok (.object [("jsonrpc", str "2.0"), ("method", str "session/update"),
      ("params", .object [("update", .object [("sessionUpdate", str "agent_message_chunk"),
        ("content", .object [("type", str "text"), ("text", str "hi")])])])])
  else .error "expected value at line 1 column 1"

/-- A field of text. -/
def textField (key : String) (v : Json) : Except String String :=
  match v.getStr key with
  | some text => .ok text
  | none => .error ("missing field `" ++ key ++ "`")

/-- A tool call without a status. -/
def plainToolCall (v : Json) : Except String ToolCallUpdate :=
  (textField "toolCallId" v).map fun id => ⟨id, none⟩

mutual

/-- A value as text, without escapes. -/
def render : Json → String
  | .scalar .null => "null"
  | .scalar (.bool b) => toString b
  | .scalar (.number (.posInt n)) => toString n.toNat
  | .scalar (.number (.negInt n)) => toString n.toInt
  | .scalar (.number (.float bits)) => toString bits.toNat
  | .scalar (.string s) => "\"" ++ s ++ "\""
  | .array items => "[" ++ renderItems items ++ "]"
  | .object fields => "\x7b" ++ renderFields fields ++ "\x7d"

/-- The items of an array, separated by commas. -/
def renderItems : List Json → String
  | [] => ""
  | [v] => render v
  | v :: rest => render v ++ "," ++ renderItems rest

/-- The members of an object, separated by commas. -/
def renderFields : List (String × Json) → String
  | [] => ""
  | [(k, v)] => "\"" ++ k ++ "\":" ++ render v
  | (k, v) :: rest => "\"" ++ k ++ "\":" ++ render v ++ "," ++ renderFields rest

end

/-- The JSON library on the sample lines. -/
abbrev plainSerde : AcpSerde where
  fromStr := plainFromStr
  toStr := render
  rpcError v :=
    match v.getI64 "code", v.getStr "message" with
    | some code, some message => .ok ⟨Int64.ofInt code, message⟩
    | _, _ => .error "missing field `code`"
  newSessionResult := textField "sessionId"
  promptResult v :=
    match v.getStr "stopReason" with
    | some "end_turn" => .ok .endTurn
    | some "cancelled" => .ok .cancelled
    | some other => .error ("unknown variant `" ++ other ++ "`")
    | none => .error "missing field `stopReason`"
  requestPermissionParams v :=
    match v.get "toolCall" with
    | some call => plainToolCall call
    | none => .error "missing field `toolCall`"
  contentChunk v :=
    match v.get "content" with
    | some content => (textField "text" content).map .text
    | none => .error "missing field `content`"
  toolCallUpdate := plainToolCall

end Altior.Acp
