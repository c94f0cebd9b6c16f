import Altior.Ipc.Wire
import Altior.Storage.Readable

/-!
# The body of an event reads back

What is read as the body of an event is written so that it is read as the same body again
(`altior-protocol/src/event.rs`).  A body that has been read is in a normal form: a known
event has one-based sequences and no data that is `null`, and the kind of a preserved event
is free.  These are the bodies that read back as themselves.  A known kind with the members
it needs is always read as the known event.
-/

namespace Altior.Ipc

open Application Domain
open Storage (bind_eq_ok map_eq_ok exists_ok_bind exists_ok_pure)

/-! ## Kinds -/

/-- The name a known event goes by. -/
def WireEvent.kindName : WireEvent → String
  | .logged event => Ipc.kindName event
  | .permissionDecided _ => "permission.decided"
  | .runtimeStatus _ _ _ => "runtime.status"
  | .commandResult _ _ _ => "command.result"
  | .commandError _ _ _ => "command.error"

/-- `EventBody::kind_name`. -/
def WireBody.kindName : WireBody → String
  | .known event => event.kindName
  | .unknown providerKind _ => providerKind

theorem WireEvent.kindName_mem (event : WireEvent) : event.kindName ∈ knownKinds := by
  cases event with
  | logged event => cases event <;> simp [kindName, Ipc.kindName, knownKinds, payloadKinds]
  | permissionDecided | runtimeStatus | commandResult | commandError =>
    simp [kindName, knownKinds, payloadKinds]

/-! ## Known events -/

/-- A known event as it is read: its sequences are one-based, and its data is not `null`. -/
def WireEvent.Normal : WireEvent → Prop
  | .logged event => Numbered event
  | .commandResult _ _ data => data ≠ some (.scalar .null)
  | _ => True

theorem required_eq_ok {α : Type} {v : Json} {name : String} {read : Json → Except DecodeError α}
    {a : α} : required v name read = .ok a ↔ ∃ member, v.get name = some member ∧ read member = .ok a := by
  unfold required
  cases v.get name <;> simp

/-- A member that may be missing is read as nothing, or as what stands there. -/
theorem optional_eq_ok {α : Type} {v : Json} {name : String} {read : Json → Except DecodeError α}
    {o : Option α} (h : optional v name read = .ok o) :
    o = none ∨ ∃ member a, v.get name = some member ∧ member ≠ .scalar .null ∧ read member = .ok a ∧
      o = some a := by
  unfold optional at h
  split at h
  · cases h
    exact .inl rfl
  · cases h
    exact .inl rfl
  · rename_i member hnull hget
    obtain ⟨a, ha, rfl⟩ := map_eq_ok.1 h
    exact .inr ⟨member, a, hget, fun heq => hnull heq, ha, rfl⟩

theorem optional_of_some {α : Type} {v member : Json} {name : String}
    {read : Json → Except DecodeError α} (hget : v.get name = some member)
    (hne : member ≠ .scalar .null) : optional v name read = some <$> read member := by
  unfold optional
  rw [hget]
  split
  · rename_i heq
    cases heq
  · rename_i heq
    exact absurd (Option.some.inj heq) hne
  · rename_i heq
    cases heq
    rfl

theorem readSequence_ne_zero {v : Json} {n : UInt64} (h : readSequence v = .ok n) : n ≠ 0 := by
  obtain ⟨m, -, h⟩ := bind_eq_ok.1 h
  split at h
  · cases h
  · cases h
    assumption

theorem required_sequence_ne_zero {v : Json} {name : String} {n : UInt64}
    (h : required v name readSequence = .ok n) : n ≠ 0 := by
  obtain ⟨member, -, hread⟩ := required_eq_ok.1 h
  exact readSequence_ne_zero hread

/-- A text member that is read is the one that stands there. -/
theorem required_string_iff {v : Json} {name s : String} :
    required v name readString = .ok s ↔ v.getStr name = some s := by
  rw [required_eq_ok, Json.getStr, Option.bind_eq_some_iff]
  refine exists_congr fun member => and_congr_right fun _ => ?_
  unfold readString
  cases member.asStr <;> simp

/-- What is read as a known event is in normal form, and of the kind that was sent. -/
theorem WireEvent.normal_of_ofValue {raw : Json} {event : WireEvent}
    (h : WireEvent.ofValue raw = .ok event) :
    event.Normal ∧ raw.getStr "kind" = some event.kindName := by
  obtain ⟨kind, hkind, h⟩ := bind_eq_ok.1 h
  have hkind := required_string_iff.1 hkind
  rw [hkind]
  split at h
  · cases h
    exact ⟨trivial, rfl⟩
  · obtain ⟨text, -, h⟩ := bind_eq_ok.1 h
    cases h
    exact ⟨trivial, rfl⟩
  · obtain ⟨_, -, h⟩ := bind_eq_ok.1 h
    obtain ⟨_, -, h⟩ := bind_eq_ok.1 h
    cases h
    exact ⟨trivial, rfl⟩
  · obtain ⟨_, -, h⟩ := bind_eq_ok.1 h
    cases h
    exact ⟨trivial, rfl⟩
  · obtain ⟨_, -, h⟩ := bind_eq_ok.1 h
    obtain ⟨_, -, h⟩ := bind_eq_ok.1 h
    cases h
    exact ⟨trivial, rfl⟩
  · cases h
    exact ⟨trivial, rfl⟩
  · obtain ⟨_, -, h⟩ := bind_eq_ok.1 h
    obtain ⟨_, -, h⟩ := bind_eq_ok.1 h
    cases h
    exact ⟨trivial, rfl⟩
  · obtain ⟨_, -, h⟩ := bind_eq_ok.1 h
    cases h
    exact ⟨trivial, rfl⟩
  · obtain ⟨_, -, h⟩ := bind_eq_ok.1 h
    obtain ⟨_, -, h⟩ := bind_eq_ok.1 h
    obtain ⟨_, -, h⟩ := bind_eq_ok.1 h
    cases h
    exact ⟨trivial, rfl⟩
  · obtain ⟨_, -, h⟩ := bind_eq_ok.1 h
    obtain ⟨_, -, h⟩ := bind_eq_ok.1 h
    obtain ⟨data, hdata, h⟩ := bind_eq_ok.1 h
    cases h
    refine ⟨?_, rfl⟩
    rcases optional_eq_ok hdata with rfl | ⟨member, a, -, hne, hread, rfl⟩
    · exact nofun
    · cases hread
      exact fun heq => hne (Option.some.inj heq)
  · obtain ⟨_, -, h⟩ := bind_eq_ok.1 h
    obtain ⟨_, -, h⟩ := bind_eq_ok.1 h
    obtain ⟨_, -, h⟩ := bind_eq_ok.1 h
    cases h
    exact ⟨trivial, rfl⟩
  · obtain ⟨first, hfirst, h⟩ := bind_eq_ok.1 h
    cases h
    exact ⟨required_sequence_ne_zero hfirst, rfl⟩
  · obtain ⟨first, hfirst, h⟩ := bind_eq_ok.1 h
    obtain ⟨last, hlast, h⟩ := bind_eq_ok.1 h
    cases h
    exact ⟨⟨required_sequence_ne_zero hfirst, required_sequence_ne_zero hlast⟩, rfl⟩
  · cases h

/-- A known event in normal form reads back as itself. -/
theorem WireEvent.ofValue_toValue {event : WireEvent} (h : event.Normal) :
    WireEvent.ofValue event.toValue = .ok event := by
  have hok {α β : Type} (a : α) (f : α → Except DecodeError β) : (Except.ok a >>= f) = f a := rfl
  cases event with
  | logged event => exact WireEvent.ofValue_eventFields h (List.Perm.refl _)
  | permissionDecided decision => rfl
  | runtimeStatus status activeThreads diagnostics =>
    have hthreads : (toValue (.runtimeStatus status activeThreads diagnostics)).get "active_threads" =
        some (.scalar (num activeThreads.toUInt64)) := rfl
    have hdiagnostics : (toValue (.runtimeStatus status activeThreads diagnostics)).get "diagnostics" =
        some (.scalar (optText diagnostics)) := rfl
    change (do
      let activeThreads' ← required _ "active_threads" readU32
      let diagnostics' ← optional _ "diagnostics" (readText diagnosticTextBytes)
      pure (WireEvent.runtimeStatus status activeThreads' diagnostics')) = _
    rw [required_of_get hthreads, readU32_num, hok, optional_of_get hdiagnostics readText_asStr, hok]
    rfl
  | commandResult operationId success data =>
    have hid : (toValue (.commandResult operationId success data)).get "operation_id" =
        some (.scalar (.string operationId.asStr)) := rfl
    have hdata : optional (toValue (.commandResult operationId success data)) "data" .ok = .ok data := by
      have hget : (toValue (.commandResult operationId success data)).get "data" =
          some (data.getD (.scalar .null)) := rfl
      cases data with
      | none =>
        unfold optional
        rw [hget]
        rfl
      | some v => exact optional_of_some hget fun heq => h (congrArg some heq)
    change (do
      let operationId' ← required _ "operation_id" (readId "op_")
      let data' ← optional _ "data" .ok
      pure (WireEvent.commandResult operationId' success data')) = _
    rw [required_of_get hid, readId_asStr, hok, hdata, hok]
    rfl
  | commandError operationId code message =>
    have hid : (toValue (.commandError operationId code message)).get "operation_id" =
        some (.scalar (.string operationId.asStr)) := rfl
    have hmessage : (toValue (.commandError operationId code message)).get "message" =
        some (.scalar (.string message.asStr)) := rfl
    change (do
      let operationId' ← required _ "operation_id" (readId "op_")
      let message' ← required _ "message" (readText diagnosticTextBytes)
      pure (WireEvent.commandError operationId' code message')) = _
    rw [required_of_get hid, readId_asStr, hok, required_of_get hmessage, readText_asStr, hok]
    rfl

/-! ## Bodies -/

/-- A body as it is read: a known event in normal form, or a preserved event under a free
kind. -/
def WireBody.Normal : WireBody → Prop
  | .known event => event.Normal
  | .unknown providerKind _ => FreeKind providerKind

theorem freeKind_of_valid {kind : String} (hkind : kind ∉ knownKinds)
    (h : validateKindName kind = .ok ()) : FreeKind kind := by
  by_contra hfree
  rw [validateKindName_of_not_free hfree hkind] at h
  cases h

section Bodies

variable [SerdeJsonWriter]

/-- A body is read as a known event exactly if the event is read. -/
theorem WireBody.ofValue_eq_known_iff {raw : Json} {event : WireEvent} :
    WireBody.ofValue raw = .ok (.known event) ↔ WireEvent.ofValue raw = .ok event := by
  unfold WireBody.ofValue
  cases hkind : raw.getStr "kind" with
  | none =>
    refine iff_of_false nofun fun h => ?_
    rw [(WireEvent.normal_of_ofValue h).2] at hkind
    cases hkind
  | some kind =>
    have hevent {e : WireEvent} (h : WireEvent.ofValue raw = .ok e) : kind = e.kindName :=
      Option.some.inj (hkind.symm.trans (WireEvent.normal_of_ofValue h).2)
    dsimp only
    by_cases hstarted : kind = "turn.started"
    · have hread : WireEvent.ofValue raw = .ok (.logged .turnStarted) := by
        unfold WireEvent.ofValue
        rw [required_string_iff.2 hkind, hstarted]
        rfl
      rw [if_pos hstarted, hread]
      constructor <;> (intro h; cases h; rfl)
    by_cases hcompleted : kind = "turn.completed"
    · have hread : WireEvent.ofValue raw = .ok (.logged .turnCompleted) := by
        unfold WireEvent.ofValue
        rw [required_string_iff.2 hkind, hcompleted]
        rfl
      rw [if_neg hstarted, if_pos hcompleted, hread]
      constructor <;> (intro h; cases h; rfl)
    rw [if_neg hstarted, if_neg hcompleted]
    by_cases hpayload : kind ∈ payloadKinds
    · rw [if_pos hpayload]
      constructor
      · intro h
        obtain ⟨event', hevent', heq⟩ := map_eq_ok.1 h
        cases heq
        exact hevent'
      · exact fun h => map_eq_ok.2 ⟨event, h, rfl⟩
    · rw [if_neg hpayload]
      have hother : kind ∉ knownKinds := by simp [knownKinds, hstarted, hcompleted, hpayload]
      constructor
      · intro h
        obtain ⟨_, -, h⟩ := bind_eq_ok.1 h
        obtain ⟨_, -, h⟩ := bind_eq_ok.1 h
        cases h
      · intro h
        exact absurd (hevent h ▸ event.kindName_mem) hother

/-- What is read as a body is in normal form, and of the kind that was sent. -/
theorem WireBody.normal_of_ofValue {raw : Json} {body : WireBody}
    (h : WireBody.ofValue raw = .ok body) :
    body.Normal ∧ raw.getStr "kind" = some body.kindName := by
  cases body with
  | known event => exact WireEvent.normal_of_ofValue (WireBody.ofValue_eq_known_iff.1 h)
  | unknown providerKind diagnostic =>
    unfold WireBody.ofValue at h
    cases hkind : raw.getStr "kind" with
    | none =>
      rw [hkind] at h
      cases h
    | some kind =>
      rw [hkind] at h
      dsimp only at h
      split at h
      · cases h
      split at h
      · cases h
      split at h
      · obtain ⟨_, -, heq⟩ := map_eq_ok.1 h
        cases heq
      rename_i hstarted hcompleted hpayload
      obtain ⟨_, hvalid, h⟩ := bind_eq_ok.1 h
      obtain ⟨_, -, h⟩ := bind_eq_ok.1 h
      cases h
      exact ⟨freeKind_of_valid (by simp [knownKinds, *]) hvalid, rfl⟩

/-- A body reads back as itself exactly if it is in normal form. -/
theorem WireBody.ofValue_toValue_iff {body : WireBody} :
    WireBody.ofValue body.toValue = .ok body ↔ body.Normal := by
  refine ⟨fun h => (WireBody.normal_of_ofValue h).1, fun h => ?_⟩
  cases body with
  | known event => exact WireBody.ofValue_eq_known_iff.2 (WireEvent.ofValue_toValue h)
  | unknown providerKind diagnostic => exact (WireBody.ofValue_unknownFields (List.Perm.refl _)).1 h

end Bodies

/-! ## Well-formed events -/

/-- What a member of a known event has to be. -/
inductive Shape
  | string
  | text (maxBytes : Nat)
  | boolean
  | count
  | sequence
  | id (pre : String)
  | any

def Shape.Fits : Shape → Json → Prop
  | string, v => ∃ s, v.asStr = some s
  | text maxBytes, v => ∃ s, v.asStr = some s ∧ s.utf8ByteSize ≤ maxBytes
  | boolean, v => ∃ b, v.asBool = some b
  | count, v => ∃ n, v.asU64 = some n ∧ n.toNat < UInt32.size
  | sequence, v => ∃ n, v.asU64 = some n ∧ n ≠ 0
  | id pre, v => ∃ s, v.asStr = some s ∧ ∃ id, Id.parse pre s = .ok id
  | any, _ => True

/-- A member of a known event; one that may be missing may be `null` as well. -/
structure Member where
  name : String
  shape : Shape
  mayMiss : Bool

def Member.Fits (m : Member) (raw : Json) : Prop :=
  match raw.get m.name with
  | none => m.mayMiss = true
  | some v => m.mayMiss = true ∧ v = .scalar .null ∨ m.shape.Fits v

/-- The members of a known event of this kind. -/
def eventMembers : String → List Member
  | "turn.started" => []
  | "turn.completed" => []
  | "message.delta" => [⟨"text", .text messageTextBytes, false⟩]
  | "permission.requested" =>
    [⟨"permission_kind", .string, false⟩, ⟨"description", .text diagnosticTextBytes, false⟩]
  | "permission.decided" => [⟨"decision", .string, false⟩]
  | "tool.call" => [⟨"tool_call_id", .string, false⟩, ⟨"status", .string, true⟩]
  | "turn.failed" => [⟨"reason", .text diagnosticTextBytes, false⟩, ⟨"delivery_state", .string, false⟩]
  | "turn.cancelled" => [⟨"reason", .text diagnosticTextBytes, true⟩]
  | "runtime.status" =>
    [⟨"status", .string, false⟩, ⟨"active_threads", .count, false⟩,
      ⟨"diagnostics", .text diagnosticTextBytes, true⟩]
  | "command.result" =>
    [⟨"operation_id", .id "op_", false⟩, ⟨"success", .boolean, false⟩, ⟨"data", .any, true⟩]
  | "command.error" =>
    [⟨"operation_id", .id "op_", false⟩, ⟨"code", .string, false⟩,
      ⟨"message", .text diagnosticTextBytes, false⟩]
  | "stream.gap" => [⟨"from", .sequence, false⟩]
  | "stream.replayed" => [⟨"from", .sequence, false⟩, ⟨"through", .sequence, false⟩]
  | _ => []

/-- A well-formed event of a known kind: it has the members of the kind, and whatever else. -/
def WellFormed (raw : Json) (kind : String) : Prop :=
  raw.getStr "kind" = some kind ∧ kind ∈ knownKinds ∧ ∀ m ∈ eventMembers kind, m.Fits raw

section Members

/-- The values of this shape are those the reader takes. -/
def Shape.Reads {α : Type} (shape : Shape) (read : Json → Except DecodeError α) : Prop :=
  ∀ v, (∃ a, read v = .ok a) ↔ shape.Fits v

theorem reads_string : Shape.string.Reads readString := by
  intro v
  simp only [readString, Shape.Fits]
  cases v.asStr <;> simp

theorem reads_text (maxBytes : Nat) : (Shape.text maxBytes).Reads (readText maxBytes) := by
  intro v
  simp only [readText, readString, Shape.Fits, BoundedText.tryFrom]
  cases v.asStr with
  | none => simp [bind, Except.bind]
  | some s =>
    by_cases hle : s.utf8ByteSize ≤ maxBytes <;> simp [bind, Except.bind, Except.mapError, hle]

theorem reads_boolean : Shape.boolean.Reads readBool := by
  intro v
  simp only [readBool, Shape.Fits]
  cases v.asBool <;> simp

theorem reads_count : Shape.count.Reads readU32 := by
  intro v
  simp only [readU32, readU64, Shape.Fits]
  cases v.asU64 with
  | none => simp [bind, Except.bind]
  | some n =>
    by_cases hlt : n.toNat < UInt32.size <;> simp [bind, Except.bind, pure, Except.pure, hlt]

theorem reads_sequence : Shape.sequence.Reads readSequence := by
  intro v
  simp only [readSequence, readU64, Shape.Fits]
  cases v.asU64 with
  | none => simp [bind, Except.bind]
  | some n => by_cases hzero : n = 0 <;> simp [bind, Except.bind, pure, Except.pure, hzero]

theorem reads_id (pre : String) : (Shape.id pre).Reads (readId pre) := by
  intro v
  simp only [readId, readString, Shape.Fits]
  cases v.asStr with
  | none => simp [bind, Except.bind]
  | some s => cases hparse : Id.parse pre s <;> simp [bind, Except.bind, Except.mapError, hparse]

theorem reads_any : Shape.any.Reads .ok := fun v => iff_of_true ⟨v, rfl⟩ trivial

variable {α : Type} {raw : Json} {name : String} {read : Json → Except DecodeError α} {shape : Shape}

theorem exists_required (h : shape.Reads read) :
    (∃ a, required raw name read = .ok a) ↔ Member.Fits ⟨name, shape, false⟩ raw := by
  unfold required Member.Fits
  cases raw.get name with
  | none => simp
  | some v => simp [h v]

theorem exists_optional (h : shape.Reads read) :
    (∃ o, optional raw name read = .ok o) ↔ Member.Fits ⟨name, shape, true⟩ raw := by
  unfold Member.Fits
  cases hget : raw.get name with
  | none => simp [optional, hget]
  | some v =>
    by_cases hnull : v = .scalar .null
    · subst hnull
      simp [optional, hget]
    · have hread : (∃ o, some <$> read v = .ok o) ↔ ∃ a, read v = .ok a := by
        cases read v <;> simp [Functor.map, Except.map]
      rw [optional_of_some hget hnull, hread, h v]
      simp [hnull]

/-- **A known event is read** exactly if it has the members of its kind. -/
theorem exists_event_iff {kind : String} (hkind : raw.getStr "kind" = some kind)
    (hknown : kind ∈ knownKinds) :
    (∃ event, WireEvent.ofValue raw = .ok event) ↔ ∀ m ∈ eventMembers kind, m.Fits raw := by
  have hok {α β : Type} (a : α) (f : α → Except DecodeError β) : (Except.ok a >>= f) = f a := rfl
  unfold WireEvent.ofValue
  rw [required_string_iff.2 hkind]
  simp only [hok]
  split
  case h_14 => simp_all [knownKinds, payloadKinds]
  all_goals
    simp only [exists_ok_bind, exists_ok_pure, exists_and_right, and_true, exists_required reads_string,
      exists_required (reads_text _), exists_required reads_boolean, exists_required reads_count,
      exists_required reads_sequence, exists_required (reads_id _), exists_optional reads_string,
      exists_optional (reads_text _), exists_optional reads_any, eventMembers, List.forall_mem_cons,
      List.not_mem_nil, false_imp_iff, implies_true]

end Members

section Stable

variable [SerdeJsonWriter]

/-- What is read under a known kind is the known event of the kind, exactly if it is
well-formed. -/
theorem wellFormed_iff (raw : Json) (kind : String) :
    WellFormed raw kind ↔
      ∃ event : WireEvent, WireBody.ofValue raw = .ok (.known event) ∧ event.kindName = kind := by
  constructor
  · rintro ⟨hkind, hknown, hmembers⟩
    obtain ⟨event, hevent⟩ := (exists_event_iff hkind hknown).2 hmembers
    refine ⟨event, WireBody.ofValue_eq_known_iff.2 hevent, ?_⟩
    exact Option.some.inj ((WireEvent.normal_of_ofValue hevent).2.symm.trans hkind)
  · rintro ⟨event, hevent, rfl⟩
    have hevent := WireBody.ofValue_eq_known_iff.1 hevent
    have hkind := (WireEvent.normal_of_ofValue hevent).2
    exact ⟨hkind, event.kindName_mem, (exists_event_iff hkind event.kindName_mem).1 ⟨event, hevent⟩⟩

/-- **The body of an event is read stably**: whatever is read is written as what is read the
same, and exactly the well-formed events of a known kind are read as the known event of the
kind. -/
theorem eventBody_stable (raw : Json) :
    (∀ body, WireBody.ofValue raw = .ok body → WireBody.ofValue body.toValue = .ok body) ∧
      ∀ kind, WellFormed raw kind ↔
        ∃ event : WireEvent, WireBody.ofValue raw = .ok (.known event) ∧ event.kindName = kind :=
  ⟨fun _ h => WireBody.ofValue_toValue_iff.2 (WireBody.normal_of_ofValue h).1, wellFormed_iff raw⟩

end Stable

/-! ## A sample event -/

section Sample

attribute [local instance] flatWriter

/-- An event the protocol does not know. -/
def usageUpdated : Json := .flat [("kind", .string "usage.updated"), ("tokens", num 3)]

/-- An unknown event is preserved, and preserved as it is when it comes back. -/
theorem eventBody_stable_sample :
    ∃ kind diagnostic, WireBody.ofValue usageUpdated = .ok (.unknown kind diagnostic) ∧
      WireBody.ofValue (WireBody.unknown kind diagnostic).toValue = .ok (.unknown kind diagnostic) := by
  obtain ⟨kind, diagnostic, h⟩ : ∃ kind diagnostic,
      WireBody.ofValue usageUpdated = .ok (.unknown kind diagnostic) := ⟨_, _, rfl⟩
  exact ⟨kind, diagnostic, h, (eventBody_stable usageUpdated).1 _ h⟩

end Sample

end Altior.Ipc
