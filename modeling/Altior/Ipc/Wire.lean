import Altior.Application.Publish

/-!
# The envelope on the wire

How an envelope is written as JSON and read back (`altior-protocol/src/event.rs`,
`altior-protocol/src/bounded.rs`).  A known event and a preserved event of a provider
share one namespace of kinds.  The text itself is left to the JSON library; of an
object only its members matter.
-/

namespace Altior.Ipc

open Application Domain Lib Altior.Runtime

/-! ## Reading members -/

/-- Why a value is not read.  Of several reasons the reading below reports the first in
the order of declaration. -/
inductive DecodeError
  | malformed
  | missingField (name : String)
  | invalidType
  | unknownVariant (kind : String)
  | malformedEventKind (kind : String)
  | zeroSequence
  | protocol (source : ProtocolError)
  | id (source : IdParseError)
deriving DecidableEq, Repr

/-- A member that must be there. -/
def required {α : Type} (v : Json) (name : String) (read : Json → Except DecodeError α) :
    Except DecodeError α :=
  match v.get name with
  | none => .error (.missingField name)
  | some member => read member

/-- A member that may be missing or `null`. -/
def optional {α : Type} (v : Json) (name : String) (read : Json → Except DecodeError α) :
    Except DecodeError (Option α) :=
  match v.get name with
  | none | some (.scalar .null) => .ok none
  | some member => some <$> read member

def readString (v : Json) : Except DecodeError String :=
  match v.asStr with
  | none => .error .invalidType
  | some s => .ok s

def readBool (v : Json) : Except DecodeError Bool :=
  match v.asBool with
  | none => .error .invalidType
  | some b => .ok b

def readU64 (v : Json) : Except DecodeError UInt64 :=
  match v.asU64 with
  | none => .error .invalidType
  | some n => .ok n

def readU32 (v : Json) : Except DecodeError UInt32 := do
  let n ← readU64 v
  if n.toNat < UInt32.size then pure n.toUInt32 else .error .invalidType

/-- `BoundedText::deserialize`. -/
def readText (maxBytes : Nat) (v : Json) : Except DecodeError (BoundedText maxBytes) := do
  (BoundedText.tryFrom maxBytes (← readString v)).mapError .protocol

def readId (pre : String) (v : Json) : Except DecodeError (Id pre) := do
  (Id.parse pre (← readString v)).mapError .id

/-- `Sequence::deserialize`: sequences are one-based. -/
def readSequence (v : Json) : Except DecodeError UInt64 := do
  let n ← readU64 v
  if n = 0 then .error .zeroSequence else pure n

/-! ## Bodies -/

/-- Maximum length of an event kind name in bytes. -/
def maxKindLen : Nat := 64

/-- The known events of the protocol: those of the log, and those only a single client is
sent. -/
inductive WireEvent
  | logged (event : KnownEvent)
  | permissionDecided (decision : String)
  | runtimeStatus (status : String) (activeThreads : UInt32) (diagnostics : Option DiagnosticText)
  | commandResult (operationId : OperationId) (success : Bool) (data : Option Json)
  | commandError (operationId : OperationId) (code : String) (message : DiagnosticText)

/-- The body of an envelope, as it is written and read. -/
inductive WireBody
  | known (event : WireEvent)
  | unknown (providerKind : String) (diagnostic : DiagnosticText)

/-- The body of an envelope of the log. -/
def WireBody.ofEventBody : EventBody → WireBody
  | .known event => .known (.logged event)
  | .unknown providerKind diagnostic => .unknown providerKind diagnostic

/-- A number member. -/
def num (n : UInt64) : Scalar := .number (.posInt n)

def optText {maxBytes : Nat} (text : Option (BoundedText maxBytes)) : Scalar :=
  optString (text.map BoundedText.asStr)

def optId {pre : String} (id : Option (Id pre)) : Scalar := optString (id.map Id.asStr)

/-- The members of an event of the log. -/
def eventFields : KnownEvent → List (String × Scalar)
  | .turnStarted => [("kind", .string "turn.started")]
  | .messageDelta text => [("kind", .string "message.delta"), ("text", .string text.asStr)]
  | .permissionRequested permissionKind description =>
    [("kind", .string "permission.requested"), ("permission_kind", .string permissionKind),
      ("description", .string description.asStr)]
  | .toolCall toolCallId status =>
    [("kind", .string "tool.call"), ("tool_call_id", .string toolCallId),
      ("status", optString status)]
  | .turnCompleted => [("kind", .string "turn.completed")]
  | .turnFailed reason deliveryState =>
    [("kind", .string "turn.failed"), ("reason", .string reason.asStr),
      ("delivery_state", .string deliveryState)]
  | .turnCancelled reason => [("kind", .string "turn.cancelled"), ("reason", optText reason)]
  | .streamReplayed first last =>
    [("kind", .string "stream.replayed"), ("from", num first), ("through", num last)]
  | .streamGap first => [("kind", .string "stream.gap"), ("from", num first)]

/-- `KnownEvent::serialize`. -/
def WireEvent.toValue : WireEvent → Json
  | .logged event => .flat (eventFields event)
  | .permissionDecided decision =>
    .flat [("kind", .string "permission.decided"), ("decision", .string decision)]
  | .runtimeStatus status activeThreads diagnostics =>
    .flat [("kind", .string "runtime.status"), ("status", .string status),
      ("active_threads", num activeThreads.toUInt64), ("diagnostics", optText diagnostics)]
  | .commandResult operationId success data =>
    .object [("kind", .scalar (.string "command.result")),
      ("operation_id", .scalar (.string operationId.asStr)), ("success", .scalar (.bool success)),
      ("data", data.getD (.scalar .null))]
  | .commandError operationId code message =>
    .flat [("kind", .string "command.error"), ("operation_id", .string operationId.asStr),
      ("code", .string code), ("message", .string message.asStr)]

/-- The members of a preserved event. -/
def unknownFields (providerKind : String) (diagnostic : DiagnosticText) : List (String × Scalar) :=
  [("kind", .string providerKind), ("diagnostic", .string diagnostic.asStr)]

/-- `EventBody::serialize`. -/
def WireBody.toValue : WireBody → Json
  | .known event => event.toValue
  | .unknown providerKind diagnostic => .flat (unknownFields providerKind diagnostic)

/-- `KnownEvent::deserialize`: the event its kind names. -/
def WireEvent.ofValue (raw : Json) : Except DecodeError WireEvent := do
  let kind ← required raw "kind" readString
  match kind with
  | "turn.started" => pure (.logged .turnStarted)
  | "message.delta" =>
    pure (.logged (.messageDelta (← required raw "text" (readText messageTextBytes))))
  | "permission.requested" =>
    pure (.logged (.permissionRequested (← required raw "permission_kind" readString)
      (← required raw "description" (readText diagnosticTextBytes))))
  | "permission.decided" => pure (.permissionDecided (← required raw "decision" readString))
  | "tool.call" =>
    pure (.logged (.toolCall (← required raw "tool_call_id" readString)
      (← optional raw "status" readString)))
  | "turn.completed" => pure (.logged .turnCompleted)
  | "turn.failed" =>
    pure (.logged (.turnFailed (← required raw "reason" (readText diagnosticTextBytes))
      (← required raw "delivery_state" readString)))
  | "turn.cancelled" =>
    pure (.logged (.turnCancelled (← optional raw "reason" (readText diagnosticTextBytes))))
  | "runtime.status" =>
    pure (.runtimeStatus (← required raw "status" readString)
      (← required raw "active_threads" readU32)
      (← optional raw "diagnostics" (readText diagnosticTextBytes)))
  | "command.result" =>
    pure (.commandResult (← required raw "operation_id" (readId "op_"))
      (← required raw "success" readBool) (← optional raw "data" .ok))
  | "command.error" =>
    pure (.commandError (← required raw "operation_id" (readId "op_"))
      (← required raw "code" readString)
      (← required raw "message" (readText diagnosticTextBytes)))
  | "stream.gap" => pure (.logged (.streamGap (← required raw "from" readSequence)))
  | "stream.replayed" =>
    pure (.logged (.streamReplayed (← required raw "from" readSequence)
      (← required raw "through" readSequence)))
  | other => .error (.unknownVariant other)

/-- The known kinds with members. -/
def payloadKinds : List String :=
  ["message.delta", "permission.requested", "permission.decided", "tool.call", "turn.failed",
    "turn.cancelled", "runtime.status", "command.result", "command.error", "stream.gap",
    "stream.replayed"]

def validateKindName (kind : String) : Except DecodeError Unit :=
  if kind.isEmpty || maxKindLen < kind.utf8ByteSize then .error (.malformedEventKind kind)
  else .ok ()

/-- The diagnostic of an event that was preserved before: the text member of an object
that has no other but its kind. -/
def preservedDiagnostic (raw : Json) : Option String :=
  match raw.asObject with
  | some fields => if fields.length = 2 then raw.getStr "diagnostic" else none
  | none => none

section Codec

variable [SerdeJsonWriter]

/-- `EventBody::deserialize`. -/
def WireBody.ofValue (raw : Json) : Except DecodeError WireBody :=
  match raw.getStr "kind" with
  | none => .error (.missingField "kind")
  | some kind =>
    if kind = "turn.started" then .ok (.known (.logged .turnStarted))
    else if kind = "turn.completed" then .ok (.known (.logged .turnCompleted))
    else if kind ∈ payloadKinds then .known <$> WireEvent.ofValue raw
    else do
      validateKindName kind
      let diagnostic := (preservedDiagnostic raw).getD
        (SerdeJsonWriter.text (SerdeJsonWriter.toVec raw))
      let diagnostic ← (BoundedText.tryFrom diagnosticTextBytes diagnostic).mapError .protocol
      pure (.unknown kind diagnostic)

/-! ## Envelopes -/

/-- Members without parts. -/
def scalars (fields : List (String × Scalar)) : List (String × Json) :=
  fields.map fun (k, v) => (k, .scalar v)

/-- An envelope with the protocol version of the application that sends it. -/
structure WireEnvelope where
  protocolVersion : UInt32
  eventId : EventId
  operationId : Option OperationId
  threadId : Option ThreadId
  turnId : Option TurnId
  sequence : UInt64
  occurredAt : UInt64
  body : WireBody

/-- An envelope of the log on its way to a client. -/
def WireEnvelope.ofEventEnvelope (protocolVersion : UInt32) (e : EventEnvelope) : WireEnvelope :=
  ⟨protocolVersion, e.eventId, e.operationId, e.threadId, e.turnId, e.sequence, e.occurredAt,
    .ofEventBody e.body⟩

namespace WireEnvelope

/-- The members of an envelope but its body. -/
def fields (w : WireEnvelope) : List (String × Scalar) :=
  [("protocol_version", num w.protocolVersion.toUInt64), ("event_id", .string w.eventId.asStr),
    ("operation_id", optId w.operationId), ("thread_id", optId w.threadId),
    ("turn_id", optId w.turnId), ("sequence", num w.sequence), ("occurred_at", num w.occurredAt)]

def toValue (w : WireEnvelope) : Json :=
  .object (scalars w.fields ++ [("body", w.body.toValue)])

/-- Encodes the envelope. -/
def toJson (w : WireEnvelope) : SerdeJson.Bytes := SerdeJsonWriter.toVec w.toValue

def ofValue (v : Json) : Except DecodeError WireEnvelope :=
  match v.asObject with
  | none => .error .invalidType
  | some _ => do
      pure ⟨← required v "protocol_version" readU32, ← required v "event_id" (readId "evt_"),
        ← optional v "operation_id" (readId "op_"), ← optional v "thread_id" (readId "thr_"),
        ← optional v "turn_id" (readId "trn_"), ← required v "sequence" readSequence,
        ← required v "occurred_at" readU64, ← required v "body" WireBody.ofValue⟩

/-- Decodes an envelope. -/
def fromJson (input : SerdeJson.Bytes) : Except DecodeError WireEnvelope :=
  match SerdeJson.fromSlice input with
  | none => .error .malformed
  | some v => ofValue v

end WireEnvelope

end Codec

/-! ## The text -/

/-- A value that reads back as it was written; a float need not. -/
def isExact : Scalar → Bool
  | .number (.posInt _) => true
  | .number _ => false
  | _ => true

theorem isExact_string (s : String) : isExact (.string s) = true := rfl

theorem isExact_num (n : UInt64) : isExact (num n) = true := rfl

theorem isExact_optString (o : Option String) : isExact (optString o) = true := by
  cases o <;> rfl

/-- An object with one object among its members. -/
def nested (fields : List (String × Scalar)) (k : String) (body : List (String × Scalar)) : Json :=
  .object (scalars fields ++ [(k, .flat body)])

/-- What is relied on of the text of an envelope: an object in an object reads back with
the members both had, in whatever order. -/
class LawfulNestedWriter [SerdeJsonWriter] : Prop where
  fromSlice_nested : ∀ fields k body, (fields.map Prod.fst ++ [k]).Nodup →
    (body.map Prod.fst).Nodup → (∀ p ∈ fields ++ body, isExact p.2) →
    ∃ members body', body'.Perm body ∧
      members.Perm (scalars fields ++ [(k, .flat body')]) ∧
      SerdeJson.fromSlice (SerdeJsonWriter.toVec (nested fields k body)) = some (.object members)

/-! ## What was written reads back -/

theorem get_of_perm {members fields : List (String × Json)} (hperm : members.Perm fields)
    (hnodup : (fields.map Prod.fst).Nodup) {k : String} {v : Json} (hmem : (k, v) ∈ fields) :
    (Json.object members).get k = some v :=
  lookup_of_mem ((hperm.map Prod.fst).nodup_iff.2 hnodup) (hperm.mem_iff.2 hmem)

variable {fields : List (String × Scalar)}

theorem get_flat {fields' : List (String × Scalar)} (hperm : fields'.Perm fields)
    (hnodup : (fields.map Prod.fst).Nodup) {k : String} {v : Scalar} (hmem : (k, v) ∈ fields) :
    (Json.flat fields').get k = some (.scalar v) := by
  refine get_of_perm (hperm.map _) ?_ (List.mem_map.2 ⟨(k, v), hmem, rfl⟩)
  rw [List.map_map]
  exact hnodup

theorem required_of_get {α : Type} {v member : Json} {name : String}
    {read : Json → Except DecodeError α} (h : v.get name = some member) :
    required v name read = read member := by
  unfold required
  rw [h]

theorem optional_of_get {α : Type} {v : Json} {name : String} {read : Json → Except DecodeError α}
    {o : Option α} {text : α → String} (h : v.get name = some (.scalar (optString (o.map text))))
    (hread : ∀ a, read (.scalar (.string (text a))) = .ok a) : optional v name read = .ok o := by
  unfold optional
  rw [h]
  cases o with
  | none => rfl
  | some a => simp only [Option.map_some, optString, hread]; rfl

theorem readText_asStr {maxBytes : Nat} (text : BoundedText maxBytes) :
    readText maxBytes (.scalar (.string text.asStr)) = .ok text := by
  simp [readText, readString, Json.asStr, BoundedText.tryFrom, text.bounded, bind, Except.bind,
    Except.mapError]

theorem readId_asStr {pre : String} (id : Id pre) :
    readId pre (.scalar (.string id.asStr)) = .ok id := by
  simp [readId, readString, Json.asStr, bind, Except.bind, Except.mapError]

theorem readU32_num (n : UInt32) : readU32 (.scalar (num n.toUInt64)) = .ok n := by
  have hsize := n.toNat_lt_size
  simp [readU32, readU64, Json.asU64, num, bind, Except.bind, pure, Except.pure, hsize]

theorem readSequence_num {n : UInt64} (h : n ≠ 0) : readSequence (.scalar (num n)) = .ok n := by
  simp [readSequence, readU64, Json.asU64, num, bind, Except.bind, pure, Except.pure, h]

/-- The sequences an event carries are one-based. -/
def Numbered : KnownEvent → Prop
  | .streamReplayed first last => first ≠ 0 ∧ last ≠ 0
  | .streamGap first => first ≠ 0
  | _ => True

/-- The name an event of the log goes by. -/
def kindName : KnownEvent → String
  | .turnStarted => "turn.started"
  | .messageDelta _ => "message.delta"
  | .permissionRequested _ _ => "permission.requested"
  | .toolCall _ _ => "tool.call"
  | .turnCompleted => "turn.completed"
  | .turnFailed _ _ => "turn.failed"
  | .turnCancelled _ => "turn.cancelled"
  | .streamReplayed _ _ => "stream.replayed"
  | .streamGap _ => "stream.gap"

theorem mem_eventFields (event : KnownEvent) :
    ("kind", .string (kindName event)) ∈ eventFields event := by
  cases event <;> exact List.mem_cons_self

theorem eventFields_nodup (event : KnownEvent) : ((eventFields event).map Prod.fst).Nodup := by
  cases event <;> simp [eventFields]

theorem WireEvent.ofValue_eventFields {event : KnownEvent} (hnumbered : Numbered event)
    (hperm : fields.Perm (eventFields event)) :
    WireEvent.ofValue (.flat fields) = .ok (.logged event) := by
  have hget (k : String) (v : Scalar) (hmem : (k, v) ∈ eventFields event) :=
    get_flat hperm (eventFields_nodup event) hmem
  have hstring (s : String) : readString (.scalar (.string s)) = .ok s := rfl
  have hok {α β : Type} (a : α) (f : α → Except DecodeError β) : (Except.ok a >>= f) = f a := rfl
  unfold WireEvent.ofValue
  rw [required_of_get (hget _ _ (mem_eventFields event)), hstring, hok]
  cases event with
  | turnStarted | turnCompleted => rfl
  | messageDelta text =>
    have htext := hget "text" (.string text.asStr) (by simp [eventFields])
    simp only [kindName, required_of_get htext, readText_asStr, hok]
    rfl
  | permissionRequested permissionKind description =>
    have hkind := hget "permission_kind" (.string permissionKind) (by simp [eventFields])
    have hdescription := hget "description" (.string description.asStr) (by simp [eventFields])
    simp only [kindName, required_of_get hkind, required_of_get hdescription, readText_asStr,
      hstring, hok]
    rfl
  | toolCall toolCallId status =>
    have hcall := hget "tool_call_id" (.string toolCallId) (by simp [eventFields])
    have hstatus := hget "status" (optString (status.map id)) (by simp [eventFields])
    simp only [kindName, required_of_get hcall, optional_of_get hstatus hstring, hstring, hok]
    rfl
  | turnFailed reason deliveryState =>
    have hreason := hget "reason" (.string reason.asStr) (by simp [eventFields])
    have hdelivery := hget "delivery_state" (.string deliveryState) (by simp [eventFields])
    simp only [kindName, required_of_get hreason, required_of_get hdelivery, readText_asStr,
      hstring, hok]
    rfl
  | turnCancelled reason =>
    have hreason := hget "reason" (optText reason) (by simp [eventFields])
    simp only [kindName, optional_of_get hreason readText_asStr, hok]
    rfl
  | streamReplayed first last =>
    have hfirst := hget "from" (num first) (by simp [eventFields])
    have hlast := hget "through" (num last) (by simp [eventFields])
    simp only [kindName, required_of_get hfirst, required_of_get hlast,
      readSequence_num hnumbered.1, readSequence_num hnumbered.2, hok]
    rfl
  | streamGap first =>
    have hfirst := hget "from" (num first) (by simp [eventFields])
    simp only [kindName, required_of_get hfirst, readSequence_num hnumbered, hok]
    rfl

/-! ### Bodies -/

/-- The kinds that name a known event. -/
def knownKinds : List String := "turn.started" :: "turn.completed" :: payloadKinds

/-- A name under which a preserved event keeps its meaning: it is no known kind, and the
reader accepts it. -/
def FreeKind (kind : String) : Prop :=
  kind ∉ knownKinds ∧ kind ≠ "" ∧ kind.utf8ByteSize ≤ maxKindLen

instance (kind : String) : Decidable (FreeKind kind) :=
  inferInstanceAs (Decidable (_ ∧ _))

theorem validateKindName_of_free {kind : String} (h : FreeKind kind) :
    validateKindName kind = .ok () := by
  unfold validateKindName
  rw [if_neg]
  simp [h.2.1, Nat.not_lt.2 h.2.2]

theorem validateKindName_of_not_free {kind : String} (hfree : ¬ FreeKind kind)
    (hkind : kind ∉ knownKinds) : validateKindName kind = .error (.malformedEventKind kind) := by
  unfold validateKindName
  rw [if_pos]
  by_contra hvalid
  rw [Bool.or_eq_true, not_or, decide_eq_true_eq, Nat.not_lt] at hvalid
  exact hfree ⟨hkind, fun hempty => hvalid.1 (by rw [hempty]; rfl), hvalid.2⟩

/-- The members of the body of an envelope of the log. -/
def bodyFields : EventBody → List (String × Scalar)
  | .known event => eventFields event
  | .unknown providerKind diagnostic => unknownFields providerKind diagnostic

theorem WireEnvelope.fields_exact (w : WireEnvelope) : ∀ p ∈ w.fields, isExact p.2 = true := by
  simp [fields, optId, isExact_optString, isExact_num, isExact_string]

theorem WireEnvelope.keys_nodup (w : WireEnvelope) (body : Json) :
    ((scalars w.fields ++ [("body", body)]).map Prod.fst).Nodup := by
  simp [scalars, fields]

theorem toValue_ofEventBody (body : EventBody) :
    (WireBody.ofEventBody body).toValue = .flat (bodyFields body) := by
  cases body <;> rfl

theorem bodyFields_nodup (body : EventBody) : ((bodyFields body).map Prod.fst).Nodup := by
  cases body with
  | known event => exact eventFields_nodup event
  | unknown kind diagnostic => simp [bodyFields, unknownFields]

theorem bodyFields_exact (body : EventBody) : ∀ p ∈ bodyFields body, isExact p.2 = true := by
  cases body with
  | known event =>
    cases event <;>
      simp [bodyFields, eventFields, optText, isExact_optString, isExact_num, isExact_string]
  | unknown kind diagnostic => simp [bodyFields, unknownFields, isExact_string]

section Bodies

variable [SerdeJsonWriter]

theorem WireBody.ofValue_eventFields {event : KnownEvent} (hnumbered : Numbered event)
    (hperm : fields.Perm (eventFields event)) :
    WireBody.ofValue (.flat fields) = .ok (.known (.logged event)) := by
  have hkind : (Json.flat fields).getStr "kind" = some (kindName event) :=
    Json.getStr_flat hperm (eventFields_nodup event) (mem_eventFields event)
  unfold WireBody.ofValue
  rw [hkind]
  dsimp only
  by_cases hstarted : kindName event = "turn.started"
  · rw [if_pos hstarted]
    cases event <;> simp [kindName] at hstarted ⊢
  rw [if_neg hstarted]
  by_cases hcompleted : kindName event = "turn.completed"
  · rw [if_pos hcompleted]
    cases event <;> simp [kindName] at hcompleted ⊢
  have hpayload : kindName event ∈ payloadKinds := by
    cases event <;> simp [kindName, payloadKinds] at hstarted hcompleted ⊢
  rw [if_neg hcompleted, if_pos hpayload, WireEvent.ofValue_eventFields hnumbered hperm]
  rfl

/-- A preserved event reads back as itself when its kind is free, and as no preserved
event otherwise. -/
theorem WireBody.ofValue_unknownFields {kind : String} {diagnostic : DiagnosticText}
    (hperm : fields.Perm (unknownFields kind diagnostic)) :
    (FreeKind kind → WireBody.ofValue (.flat fields) = .ok (.unknown kind diagnostic)) ∧
      (¬ FreeKind kind → ∀ kind' diagnostic',
        WireBody.ofValue (.flat fields) ≠ .ok (.unknown kind' diagnostic')) := by
  have hnodup : ((unknownFields kind diagnostic).map Prod.fst).Nodup := by simp [unknownFields]
  have hkind : (Json.flat fields).getStr "kind" = some kind :=
    Json.getStr_flat hperm hnodup (by simp [unknownFields])
  have hdiagnostic : (Json.flat fields).getStr "diagnostic" = some diagnostic.asStr :=
    Json.getStr_flat hperm hnodup (by simp [unknownFields])
  have hpreserved : preservedDiagnostic (.flat fields) = some diagnostic.asStr := by
    have hlength : fields.length = 2 := hperm.length_eq
    simp [preservedDiagnostic, Json.asObject, Json.flat, hlength]
    exact hdiagnostic
  unfold WireBody.ofValue
  rw [hkind]
  dsimp only
  constructor
  · intro hfree
    have hunknown : kind ≠ "turn.started" ∧ kind ≠ "turn.completed" ∧ kind ∉ payloadKinds := by
      simpa [knownKinds] using hfree.1
    rw [if_neg hunknown.1, if_neg hunknown.2.1, if_neg hunknown.2.2, validateKindName_of_free hfree,
      hpreserved]
    have htext : BoundedText.tryFrom diagnosticTextBytes diagnostic.asStr = .ok diagnostic :=
      dif_pos diagnostic.bounded
    simp only [Option.getD_some, htext]
    rfl
  · intro hfree kind' diagnostic' hvalue
    split at hvalue
    · cases hvalue
    · split at hvalue
      · cases hvalue
      · split at hvalue
        · cases hevent : WireEvent.ofValue (.flat fields) <;> rw [hevent] at hvalue <;> cases hvalue
        · rename_i hstarted hcompleted hpayload
          rw [validateKindName_of_not_free hfree (by simp [knownKinds, *])] at hvalue
          cases hvalue

/-! ### Envelopes -/

/-- An envelope reads back with the body its members read back as. -/
theorem WireEnvelope.fromJson_toJson [LawfulNestedWriter] {w : WireEnvelope}
    (hsequence : w.sequence ≠ 0) (hbody : w.body.toValue = .flat fields)
    (hnodup : (fields.map Prod.fst).Nodup) (hexact : ∀ p ∈ fields, isExact p.2) :
    ∃ fields', fields'.Perm fields ∧
      fromJson w.toJson = (fun body => { w with body := body }) <$> WireBody.ofValue (.flat fields') := by
  have hnodup' : (w.fields.map Prod.fst ++ ["body"]).Nodup := by simp [WireEnvelope.fields]
  have hexact' : ∀ p ∈ w.fields ++ fields, isExact p.2 := by
    intro p hp
    obtain hp | hp := List.mem_append.1 hp
    · exact w.fields_exact p hp
    · exact hexact p hp
  obtain ⟨members, fields', hperm, hmembers, htext⟩ :=
    LawfulNestedWriter.fromSlice_nested w.fields "body" fields hnodup' hnodup hexact'
  refine ⟨fields', hperm, ?_⟩
  have hjson : w.toJson = SerdeJsonWriter.toVec (nested w.fields "body" fields) := by
    rw [toJson, toValue, hbody]
    rfl
  have hget (k : String) (v : Json) (hmem : (k, v) ∈ scalars w.fields ++ [("body", .flat fields')]) :=
    get_of_perm hmembers (w.keys_nodup _) hmem
  have hok {α β : Type} (a : α) (f : α → Except DecodeError β) : (Except.ok a >>= f) = f a := rfl
  rw [fromJson, hjson, htext]
  dsimp only
  unfold ofValue
  simp only [Json.asObject]
  rw [required_of_get (hget "protocol_version" (.scalar (num w.protocolVersion.toUInt64))
      (by simp [scalars, WireEnvelope.fields])), readU32_num, hok]
  rw [required_of_get (hget "event_id" (.scalar (.string w.eventId.asStr))
      (by simp [scalars, WireEnvelope.fields])), readId_asStr, hok]
  rw [optional_of_get (hget "operation_id" (.scalar (optId w.operationId))
      (by simp [scalars, WireEnvelope.fields])) readId_asStr, hok]
  rw [optional_of_get (hget "thread_id" (.scalar (optId w.threadId))
      (by simp [scalars, WireEnvelope.fields])) readId_asStr, hok]
  rw [optional_of_get (hget "turn_id" (.scalar (optId w.turnId))
      (by simp [scalars, WireEnvelope.fields])) readId_asStr, hok]
  rw [required_of_get (hget "sequence" (.scalar (num w.sequence))
      (by simp [scalars, WireEnvelope.fields])), readSequence_num hsequence, hok]
  rw [required_of_get (hget "occurred_at" (.scalar (num w.occurredAt))
      (by simp [scalars, WireEnvelope.fields]))]
  rw [required_of_get (hget "body" (.flat fields') (by simp))]
  rfl

/-- An envelope of the log reads back as itself exactly if an unknown body has a free
kind. -/
theorem fromJson_toJson_iff [LawfulNestedWriter] {e : EventEnvelope} (protocolVersion : UInt32)
    (hsequence : e.sequence ≠ 0) (hnumbered : ∀ event, e.body = .known event → Numbered event) :
    WireEnvelope.fromJson (WireEnvelope.ofEventEnvelope protocolVersion e).toJson =
        .ok (.ofEventEnvelope protocolVersion e) ↔
      ∀ kind diagnostic, e.body = .unknown kind diagnostic → FreeKind kind := by
  obtain ⟨fields, hperm, hread⟩ := WireEnvelope.fromJson_toJson
    (w := .ofEventEnvelope protocolVersion e) hsequence (toValue_ofEventBody e.body)
    (bodyFields_nodup e.body) (bodyFields_exact e.body)
  rw [hread]
  cases hbody : e.body with
  | known event =>
    rw [hbody] at hperm
    rw [WireBody.ofValue_eventFields (hnumbered event hbody) hperm]
    refine iff_of_true ?_ nofun
    rw [WireEnvelope.ofEventEnvelope, hbody]
    rfl
  | unknown kind diagnostic =>
    rw [hbody] at hperm
    have hunknown := WireBody.ofValue_unknownFields hperm
    constructor
    · intro hok kind' diagnostic' heq
      cases heq
      by_contra hfree
      cases hvalue : WireBody.ofValue (.flat fields) with
      | error err =>
        rw [hvalue] at hok
        cases hok
      | ok body =>
        rw [hvalue] at hok
        refine hunknown.2 hfree kind diagnostic ?_
        rw [hvalue]
        have hsame : body = WireBody.ofEventBody e.body :=
          congrArg WireEnvelope.body (Except.ok.inj hok)
        rw [hsame, hbody]
        rfl
    · intro hfree
      rw [hunknown.1 (hfree kind diagnostic rfl), WireEnvelope.ofEventEnvelope, hbody]
      rfl

/-- The known events without members that must be there. -/
def bareEvents : List KnownEvent := [.turnStarted, .turnCompleted, .turnCancelled none]

/-- A provider that names its event like one of these is read as having sent it. -/
theorem fromJson_bare [LawfulNestedWriter] {e : EventEnvelope} (protocolVersion : UInt32)
    (hsequence : e.sequence ≠ 0) {event : KnownEvent} (hevent : event ∈ bareEvents)
    {diagnostic : DiagnosticText} (hbody : e.body = .unknown (kindName event) diagnostic) :
    WireEnvelope.fromJson (WireEnvelope.ofEventEnvelope protocolVersion e).toJson =
      .ok (.ofEventEnvelope protocolVersion { e with body := .known event }) := by
  obtain ⟨fields, hperm, hread⟩ := WireEnvelope.fromJson_toJson
    (w := .ofEventEnvelope protocolVersion e) hsequence (toValue_ofEventBody e.body)
    (bodyFields_nodup e.body) (bodyFields_exact e.body)
  rw [hbody] at hperm
  have hkind : (Json.flat fields).getStr "kind" = some (kindName event) :=
    Json.getStr_flat hperm (bodyFields_nodup (.unknown _ _)) (List.mem_cons_self ..)
  have hvalue : WireBody.ofValue (.flat fields) = .ok (.known (.logged event)) := by
    unfold WireBody.ofValue
    rw [hkind]
    simp only [bareEvents, List.mem_cons, List.not_mem_nil, or_false] at hevent
    rcases hevent with rfl | rfl | rfl
    · rfl
    · rfl
    · have hmem := List.mem_cons_self (a := ("kind", Scalar.string "turn.cancelled"))
        (l := [("diagnostic", .string diagnostic.asStr)])
      have hget := get_flat hperm (bodyFields_nodup (.unknown _ _)) hmem
      have hreason : (Json.flat fields).get "reason" = none := by
        refine List.lookup_eq_none_iff.2 fun p hp => ?_
        obtain ⟨q, hq, rfl⟩ := List.mem_map.1 hp
        have hq := hperm.mem_iff.1 hq
        simp only [bodyFields, unknownFields, List.mem_cons, List.not_mem_nil, or_false] at hq
        rcases hq with rfl | rfl <;> simp
      change WireBody.known <$> WireEvent.ofValue (.flat fields) = _
      rw [WireEvent.ofValue, required_of_get hget]
      change WireBody.known <$> (do
        pure (WireEvent.logged (.turnCancelled
          (← optional (.flat fields) "reason" (readText diagnosticTextBytes))))) = _
      rw [optional, hreason]
      rfl
  rw [hread, hvalue]
  rfl

end Bodies

end Altior.Ipc
