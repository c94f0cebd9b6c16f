import Altior.Acp.Events
import Altior.Acp.Script
import Altior.Ipc.Wire

/-!
# What a published envelope is read as

Which of the envelopes published for runtime events the client reads as they were sent.
A harness gives its events names of its own choice, and the names of the known events are
among them.
-/

namespace Altior.Ipc

open Application Domain Lib Altior.Runtime

section

variable [SerdeJsonWriter] {H : Type}

/-- A runtime event whose name, if the harness gave it one of its own, is a free kind. -/
def FreelyNamed : RuntimeEvent → Prop
  | .unknown _ name _ => FreeKind name
  | _ => True

/-- What a runtime event maps to carries no sequence, and has the name of the event. -/
theorem mapRuntimeToEventBody_cases {event : RuntimeEvent} {body : EventBody}
    (h : mapRuntimeToEventBody event = .ok body) :
    (∀ known, body = .known known → Numbered known) ∧
      ((∀ kind diagnostic, body = .unknown kind diagnostic → FreeKind kind) ↔ FreelyNamed event) := by
  have hbounded {maxBytes : Nat} {text : String} {f : BoundedText maxBytes → EventBody}
      (h : (do pure (f (← boundedText maxBytes text)) : Except CoreAppError EventBody) = .ok body) :
      ∃ t, body = f t := by
    obtain ⟨t, -, heq⟩ := Storage.bind_eq_ok.1 h
    cases heq
    exact ⟨t, rfl⟩
  cases event with
  | turnStarted | turnCompleted | toolCall | turnCancelled =>
    cases h
    refine ⟨fun known hknown => ?_, iff_of_true nofun trivial⟩
    cases hknown
    trivial
  | messageDelta | permissionRequested | turnFailed =>
    obtain ⟨t, rfl⟩ := hbounded h
    refine ⟨fun known hknown => ?_, iff_of_true nofun trivial⟩
    cases hknown
    trivial
  | processExited threadId exitCode =>
    obtain ⟨t, rfl⟩ := hbounded h
    refine ⟨nofun, iff_of_true (fun kind diagnostic heq => ?_) trivial⟩
    cases heq
    decide
  | unknown threadId name summary =>
    obtain ⟨t, rfl⟩ := hbounded h
    refine ⟨nofun, fun hfree => hfree name t rfl, fun hfree kind diagnostic heq => ?_⟩
    cases heq
    exact hfree

/-- A published envelope is numbered and has the body its event maps to. -/
theorem published_body {s : CoreApplication H} {appended : List EventEnvelope}
    (hlog : Chronicled s.log appended) {event : RuntimeEvent} {operationId : Option OperationId}
    {turnId : Option TurnId} {now : UInt64} {withStore : Bool} {n : Option Nat} {e : EventEnvelope}
    (hpublished : (publishRuntimeEvent event operationId turnId now withStore s n).ending = .done e) :
    mapRuntimeToEventBody event = .ok e.body ∧ e.sequence ≠ 0 := by
  constructor
  · have hrun := body_publishRuntimeEvent event operationId turnId now withStore s n trivial
    revert hrun hpublished
    rcases publishRuntimeEvent event operationId turnId now withStore s n with ⟨ending, s', n'⟩
    rintro rfl
    exact And.left
  · have hgrown := publishes_publishRuntimeEvent event operationId turnId now withStore s n
    rw [hpublished] at hgrown
    obtain ⟨e₀, happend⟩ := hgrown
    obtain ⟨-, rfl, -, -⟩ := EventLog.append_cases happend
    intro hzero
    have hnext := hlog.next
    rw [show s.log.nextSequence = 0 from hzero] at hnext
    simp at hnext

/-- **Published envelopes on the wire.**  An envelope published for a runtime event is
decoded from its encoding exactly if the name a harness gave the event, if it gave one, is
not empty, has at most 64 bytes and names no known event. -/
theorem published_decodes_iff [LawfulNestedWriter] {s : CoreApplication H}
    {appended : List EventEnvelope} (hlog : Chronicled s.log appended) {event : RuntimeEvent}
    {operationId : Option OperationId} {turnId : Option TurnId} {now : UInt64} {withStore : Bool}
    {n : Option Nat} {e : EventEnvelope}
    (hpublished : (publishRuntimeEvent event operationId turnId now withStore s n).ending = .done e)
    (protocolVersion : UInt32) :
    WireEnvelope.fromJson (WireEnvelope.ofEventEnvelope protocolVersion e).toJson =
        .ok (.ofEventEnvelope protocolVersion e) ↔ FreelyNamed event := by
  obtain ⟨hbody, hsequence⟩ := published_body hlog hpublished
  obtain ⟨hnumbered, hnamed⟩ := mapRuntimeToEventBody_cases hbody
  exact (fromJson_toJson_iff protocolVersion hsequence hnumbered).trans hnamed

end

/-! ### Names the client reads otherwise -/

/-- A member without parts. -/
def scalarMember : String × Json → Option (String × Scalar)
  | (k, .scalar v) => some (k, v)
  | _ => none

/-- A member that is an object without nested parts. -/
def objectMember : String × Json → Option (String × List (String × Scalar))
  | (k, .object fields) => some (k, fields.filterMap scalarMember)
  | _ => none

/-- The JSON library on objects that have nothing but objects without parts in them. -/
abbrev nestedWriter : SerdeJsonWriter where
  Bytes := List (String × Scalar) × List (String × List (String × Scalar))
  decEq := inferInstance
  len p := flatObjects.len p.1 + p.2.foldr (fun (_, body) size => size + flatObjects.len body) 0
  isUtf8 _ := true
  fromSlice p := some (.object (scalars p.1 ++ p.2.map fun (k, body) => (k, .flat body)))
  toVec
    | .object members => (members.filterMap scalarMember, members.filterMap objectMember)
    | _ => ([], [])
  text p := String.join (p.1.map Prod.fst ++ p.2.map Prod.fst)

theorem nestedWriter_lawful : @LawfulNestedWriter nestedWriter := by
  let _ := nestedWriter
  refine ⟨fun fields k body _ _ _ => ⟨scalars fields ++ [(k, .flat body)], body, .refl _, .refl _, ?_⟩⟩
  have hscalars (fields : List (String × Scalar)) : (scalars fields).filterMap scalarMember = fields := by
    rw [scalars, List.filterMap_map]
    exact List.filterMap_some
  have hobjects : (scalars fields).filterMap objectMember = [] := by
    rw [scalars, List.filterMap_map]
    simp [Function.comp_def, objectMember]
  have htoVec : (SerdeJsonWriter.toVec (nested fields k body)) = (fields, [(k, body)]) := by
    change (List.filterMap scalarMember (scalars fields ++ [(k, .flat body)]),
      List.filterMap objectMember (scalars fields ++ [(k, .flat body)])) = _
    rw [List.filterMap_append, List.filterMap_append, hscalars, hobjects]
    have hbody : (k, Json.flat body) = (k, Json.object (scalars body)) := rfl
    rw [hbody]
    simp [scalarMember, objectMember, hscalars]
  rw [htoVec]
  rfl

attribute [local instance] nestedWriter nestedWriter_lawful Acp.plainSerde

/-- The thread of the sample events. -/
def wireThread : ThreadId := ⟨"thr_envelope00000001", by decide⟩

/-- The turn of the sample events. -/
def wireTurn : TurnId := ⟨"trn_envelope00000001", by decide⟩

/-- A kind of update of sixty letters. -/
def longKind : String := String.ofList (List.replicate 60 'x')

/-- What an agent is reported to have said with an update of a kind. -/
def updateOf (kind : String) : Option HarnessEvent :=
  Acp.harnessEvent wireTurn
    (Acp.mapUpdate (.preserved kind (.object [("sessionUpdate", Acp.str kind)])))

/-- The event under a name of the harness. -/
def namedEvent (name : String) : RuntimeEvent := .unknown wireThread name (.fromRaw "done")

/-- The first publication of an application. -/
def publishFirst (event : RuntimeEvent) : Outcome (CoreApplication Unit) CoreAppError EventEnvelope :=
  publishRuntimeEvent event none none 7 false (.new () .empty) none

theorem published_decodes_iff_named :
    ∃ e, (publishFirst (namedEvent "usage.updated")).ending = .done e ∧
      WireEnvelope.fromJson (WireEnvelope.ofEventEnvelope 1 e).toJson =
        .ok (.ofEventEnvelope 1 e) := by
  have hdone : (publishFirst (namedEvent "usage.updated")).ending.isDone = true := by decide +kernel
  obtain ⟨e, he⟩ := Ending.isDone_iff.1 hdone
  have hfree : FreeKind "usage.updated" := by decide
  exact ⟨e, he, (published_decodes_iff (chronicled_new _) he 1).2 hfree⟩

/-- An agent that sends an update of a kind of sixty letters is reported with a name the
client refuses, and a harness that names its event like the end of a turn is read as
having ended it. -/
theorem not_decoded :
    (∃ data e, updateOf longKind = some (.rawUnknown ("acp.update." ++ longKind) data) ∧
      (publishFirst (.unknown wireThread ("acp.update." ++ longKind) (.fromRaw data))).ending =
        .done e ∧
      WireEnvelope.fromJson (WireEnvelope.ofEventEnvelope 1 e).toJson ≠
        .ok (.ofEventEnvelope 1 e)) ∧
    ∃ e, (publishFirst (namedEvent "turn.completed")).ending = .done e ∧
      WireEnvelope.fromJson (WireEnvelope.ofEventEnvelope 1 e).toJson =
        .ok (.ofEventEnvelope 1 { e with body := .known .turnCompleted }) := by
  constructor
  · have hdone : (publishFirst (.unknown wireThread ("acp.update." ++ longKind) (.fromRaw
        (Acp.render (.object [("sessionUpdate", Acp.str longKind)]))))).ending.isDone = true := by
      decide +kernel
    obtain ⟨e, he⟩ := Ending.isDone_iff.1 hdone
    obtain ⟨hbody, hsequence⟩ := published_body (chronicled_new _) he
    obtain ⟨hnumbered, hnamed⟩ := mapRuntimeToEventBody_cases hbody
    refine ⟨_, e, rfl, he, fun hdecoded => ?_⟩
    have hfree : FreeKind ("acp.update." ++ longKind) :=
      hnamed.1 ((fromJson_toJson_iff 1 hsequence hnumbered).1 hdecoded)
    exact absurd hfree (by decide)
  · have hdone : (publishFirst (namedEvent "turn.completed")).ending.isDone = true := by
      decide +kernel
    obtain ⟨e, he⟩ := Ending.isDone_iff.1 hdone
    obtain ⟨hbody, hsequence⟩ := published_body (chronicled_new _) he
    obtain ⟨text, -, heq⟩ := Storage.bind_eq_ok.1 hbody
    have hname : e.body = .unknown (kindName .turnCompleted) text := (Except.ok.inj heq).symm
    exact ⟨e, he, fromJson_bare 1 hsequence (by simp [bareEvents]) hname⟩

end Altior.Ipc
