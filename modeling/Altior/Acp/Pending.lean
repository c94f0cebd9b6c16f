import Altior.Acp.Session

/-!
# Permission requests that wait for a decision

The map of a session that the worker adds its permission requests to and the
adapter takes them from (`altior-core/src/runtime/adapters/acp.rs`), with what was
sent to each request.  A request is known by the number of its channel.
-/

namespace Altior.Acp

open Domain Lib Altior.Runtime

/-- The pending requests of a session.  Every sender is the one end of its own
channel. -/
structure Pending where
  permissionTxs : Table EventId Nat
  /-- The number of the channel made last. -/
  channel : Nat
  /-- What was sent, and into which channel. -/
  sent : List (Nat × PermissionDecision)
  made : ∀ (eventId : EventId) c, permissionTxs[eventId]? = some c → c ≤ channel
  distinct : ∀ (a b : EventId) c, permissionTxs[a]? = some c → permissionTxs[b]? = some c → a = b

namespace Pending

/-- A session without requests. -/
def empty : Pending where
  permissionTxs := ∅
  channel := 0
  sent := []
  made _ _ h := by simp at h
  distinct _ _ _ h := by simp at h

@[ext] theorem ext {p q : Pending} (htxs : p.permissionTxs = q.permissionTxs)
    (hchannel : p.channel = q.channel) (hsent : p.sent = q.sent) : p = q := by
  cases p
  cases q
  cases htxs
  cases hchannel
  cases hsent
  rfl

/-- The worker registers a request under a channel of its own. -/
def request (p : Pending) (eventId : EventId) : Pending where
  permissionTxs := p.permissionTxs.insert eventId (p.channel + 1)
  channel := p.channel + 1
  sent := p.sent
  made a c h := by
    rw [Table.getElem?_insert_eq] at h
    split at h
    · cases h
      exact Nat.le_refl _
    · exact Nat.le_succ_of_le (p.made a c h)
  distinct a b c ha hb := by
    rw [Table.getElem?_insert_eq] at ha hb
    split at ha <;> rename_i heqa <;> split at hb <;> rename_i heqb
    · exact heqa.symm.trans heqb
    · cases ha
      exact absurd (p.made b _ hb) (Nat.not_succ_le_self _)
    · cases hb
      exact absurd (p.made a _ ha) (Nat.not_succ_le_self _)
    · exact p.distinct a b c ha hb

/-- Takes the request registered under the event out of the map and sends the
decision into a channel. -/
def take (p : Pending) (eventId : EventId) (channel : Nat) (decision : PermissionDecision) :
    Pending where
  permissionTxs := p.permissionTxs.erase eventId
  channel := p.channel
  sent := p.sent ++ [(channel, decision)]
  made a c h := by
    rw [Table.getElem?_erase_eq] at h
    split at h
    · cases h
    · exact p.made a c h
  distinct a b c ha hb := by
    rw [Table.getElem?_erase_eq] at ha hb
    split at ha
    · cases ha
    · split at hb
      · cases hb
      · exact p.distinct a b c ha hb

/-- `AcpHarnessAdapter::decide_permission` on the map of the session. -/
def decidePermission (p : Pending) (eventId : EventId) (decision : PermissionDecision) :
    Except HarnessError Unit × Pending :=
  match p.permissionTxs[eventId]? with
  | some c => (.ok (), p.take eventId c decision)
  | none =>
    match p.permissionTxs.toList with
    | [(first, c)] => (.ok (), p.take first c decision)
    | _ => (.error (.other ("pending permission " ++ eventId.asStr ++ " not found")), p)

/-- The decision reaches the request it names and no other; one that names no
pending request is refused and changes nothing. -/
structure Delivers (p : Pending) (eventId : EventId) (decision : PermissionDecision) : Prop where
  named : ∀ c, p.permissionTxs[eventId]? = some c →
    (p.decidePermission eventId decision).1 = .ok () ∧
    (p.decidePermission eventId decision).2.sent = p.sent ++ [(c, decision)] ∧
    (p.decidePermission eventId decision).2.permissionTxs[eventId]? = none ∧
    ∀ other, other ≠ eventId → p.permissionTxs[other]? ≠ some c ∧
      (p.decidePermission eventId decision).2.permissionTxs[other]? = p.permissionTxs[other]?
  unnamed : p.permissionTxs[eventId]? = none →
    (∃ e, (p.decidePermission eventId decision).1 = .error e) ∧
    (p.decidePermission eventId decision).2 = p

variable {p : Pending} {eventId : EventId} {decision : PermissionDecision}

theorem delivers_of_pending (h : eventId ∈ p.permissionTxs) : p.Delivers eventId decision := by
  obtain ⟨c, hc⟩ := Table.mem_iff.1 h
  have hdecide : p.decidePermission eventId decision = (.ok (), p.take eventId c decision) := by
    simp only [decidePermission, hc]
  constructor
  · intro c' hc'
    cases hc.symm.trans hc'
    rw [hdecide]
    refine ⟨rfl, rfl, ?_, fun other hother => ⟨fun hsame => ?_, ?_⟩⟩
    · exact (Table.getElem?_erase_eq _ _ _).trans (if_pos rfl)
    · exact hother (p.distinct other eventId c hsame hc)
    · exact (Table.getElem?_erase_eq _ _ _).trans (if_neg hother.symm)
  · intro hnone
    cases hc.symm.trans hnone

/-- A request that is not pending is refused unless another one is all there is. -/
theorem decidePermission_of_not_mem (h : p.permissionTxs[eventId]? = none) :
    p.decidePermission eventId decision = (.error (.other ("pending permission " ++ eventId.asStr
        ++ " not found")), p) ∧ p.permissionTxs.size ≠ 1 ∨
      (p.decidePermission eventId decision).1 = .ok () ∧ p.permissionTxs.size = 1 := by
  simp only [decidePermission, h, ← Std.ExtTreeMap.length_toList]
  split
  · rename_i hrows
    exact .inr ⟨rfl, by rw [hrows]; rfl⟩
  · rename_i hrows
    refine .inl ⟨rfl, fun hone => ?_⟩
    obtain ⟨⟨first, c⟩, hrow⟩ := List.length_eq_one_iff.1 hone
    exact hrows first c hrow

/-- **Decisions.** A decision reaches the request it names and no other iff that
request is pending, or there is not exactly one pending request. -/
theorem delivers_iff (p : Pending) (eventId : EventId) (decision : PermissionDecision) :
    p.Delivers eventId decision ↔ eventId ∈ p.permissionTxs ∨ p.permissionTxs.size ≠ 1 := by
  constructor
  · intro h
    by_contra hneither
    obtain ⟨habsent, hone⟩ := not_or.1 hneither
    rw [not_not] at hone
    have hnone := Table.not_mem_iff.1 habsent
    obtain ⟨⟨e, herror⟩, -⟩ := h.unnamed hnone
    rcases decidePermission_of_not_mem hnone with ⟨-, hmany⟩ | ⟨hok, -⟩
    · exact hmany hone
    · cases hok.symm.trans herror
  · rintro (hmem | hmany)
    · exact delivers_of_pending hmem
    · by_cases hmem : eventId ∈ p.permissionTxs
      · exact delivers_of_pending hmem
      · have hnone := Table.not_mem_iff.1 hmem
        constructor
        · intro c hc
          cases hc.symm.trans hnone
        · intro _
          rcases decidePermission_of_not_mem hnone with ⟨heq, -⟩ | ⟨-, hone⟩
          · rw [heq]
            exact ⟨⟨_, rfl⟩, rfl⟩
          · exact absurd hone hmany

/-- Two requests, of which the first was decided: a second decision on the first goes
to the other one. -/
theorem not_delivers_stale :
    ¬ ∀ (p : Pending) (eventId : EventId) (decision : PermissionDecision),
      p.Delivers eventId decision := by
  intro h
  let first : EventId := ⟨"evt_0000000000000001", by decide⟩
  let p := (((Pending.empty.request first).request ⟨"evt_0000000000000002", by decide⟩
    ).decidePermission first .denied).2
  have hstale := (h p first .approved).unnamed (by decide)
  exact absurd (congrArg Pending.sent hstale.2) (by decide)

/-- What happens to the map. -/
inductive Op
  | request (eventId : EventId)
  | decidePermission (eventId : EventId) (decision : PermissionDecision)

/-- The requests of a session as the worker adds them and decisions take them. -/
def machine : Machine Pending Op where
  init := .empty
  step p
    | .request eventId => p.request eventId
    | .decidePermission eventId decision => (p.decidePermission eventId decision).2

end Pending

/-! ## The map of a session -/

variable [SerdeJson] {σ : Type}

namespace Session

/-- The requests of the session are the given ones. -/
structure Shows (s : Session σ) (p : Pending) : Prop where
  permissionTxs : s.permissionTxs = p.permissionTxs
  channel : s.channel = p.channel

variable {s s' : Session σ} {p : Pending}

theorem shows_ackIfAwaiting (h : s.Shows p) : s.ackIfAwaiting.Shows p := by
  unfold ackIfAwaiting
  split
  · exact ⟨h.permissionTxs, h.channel⟩
  · exact h

theorem shows_pollEvent (h : s.Shows p) : s.pollEvent.2.Shows p := by
  have hack := shows_ackIfAwaiting h
  unfold pollEvent
  split
  · exact hack
  · exact ⟨hack.permissionTxs, hack.channel⟩

theorem shows_decide (h : s.Shows p) (channel : Nat) (decision : PermissionDecision) :
    (s.decide channel decision).Shows p := by
  unfold decide
  split
  · exact ⟨h.permissionTxs, h.channel⟩
  · exact h

/-- A decision on the session is one on its requests. -/
theorem shows_decidePermission (h : s.Shows p) (eventId : EventId)
    (decision : PermissionDecision) :
    (s.decidePermission eventId decision).1 = (p.decidePermission eventId decision).1 ∧
      (s.decidePermission eventId decision).2.Shows (p.decidePermission eventId decision).2 := by
  have htaken {txs : Table EventId Nat} {first : EventId} {c : Nat}
      (htxs : txs = p.permissionTxs.erase first) :
      ({ s with permissionTxs := txs }.decide c decision).Shows (p.take first c decision) :=
    shows_decide (s := { s with permissionTxs := txs }) (p := p.take first c decision)
      ⟨htxs, h.channel⟩ c decision
  simp only [decidePermission, Pending.decidePermission, h.permissionTxs]
  cases hc : p.permissionTxs[eventId]? with
  | some c => exact ⟨rfl, htaken rfl⟩
  | none =>
    rcases hrows : p.permissionTxs.toList with _ | ⟨⟨first, c⟩, _ | ⟨row, rows⟩⟩
    · exact ⟨rfl, h⟩
    · refine ⟨rfl, htaken (Std.ExtTreeMap.ext_getElem? fun a => ?_)⟩
      -- the only row is taken out
      rw [Table.getElem?_erase_eq, Std.ExtTreeMap.getElem?_empty]
      split
      · rfl
      · rename_i hne
        cases ha : p.permissionTxs[a]? with
        | none => rfl
        | some c' =>
          have hmem := Std.ExtTreeMap.mem_toList_iff_getElem?_eq_some.2 ha
          rw [hrows, List.mem_singleton] at hmem
          cases hmem
          exact absurd rfl hne
    · exact ⟨rfl, h⟩

/-- The worker leaves the requests as they are, or adds one. -/
def Adds (p : Pending) (s : Session σ) : Prop := s.Shows p ∨ ∃ eventId, s.Shows (p.request eventId)

theorem adds_perform {α : Type} {m : Proc (Turn σ) AcpError α} {k : α → Session σ → Session σ}
    (h : s.Shows p) (hk : ∀ a (s : Session σ), s.Shows p → Adds p (k a s)) :
    Adds p (s.perform m k) := by
  unfold perform
  split
  · exact hk _ _ ⟨h.permissionTxs, h.channel⟩
  · exact .inl ⟨h.permissionTxs, h.channel⟩
  · exact .inl ⟨h.permissionTxs, h.channel⟩

/-- Moving the worker on does nothing to the requests. -/
theorem adds_moved (h : s.Shows p) (next : WorkerAt) : Adds p { s with worker := next } :=
  .inl ⟨h.permissionTxs, h.channel⟩

theorem adds_emit (h : s.Shows p) (event : HarnessEvent) (next : WorkerAt) :
    Adds p (s.emit event next) := by
  unfold emit
  split
  · exact .inl ⟨h.permissionTxs, h.channel⟩
  · exact .inl h

variable [AcpSerde] [DefaultHasher] [ProcessTransport σ]

theorem adds_dispatch (h : s.Shows p) (r : Running) (m : RpcMessage) :
    Adds p (s.dispatch r m) := by
  refine adds_perform h fun a s h => ?_
  cases a with
  | settled stopReason => exact adds_moved h _
  | goOn => exact adds_moved h _
  | undecided id toolCallId =>
    refine .inr ⟨permissionEventIdForRpc id, ?_, ?_⟩
    · change s.permissionTxs.insert _ (s.channel + 1) = _
      rw [h.permissionTxs, h.channel]
      rfl
    · exact congrArg (· + 1) h.channel

theorem adds_deliver (h : s.Shows p) (r : Running) (m : RpcMessage)
    (events : List NormalizedEvent) : Adds p (s.deliver r m events) := by
  induction events with
  | nil => exact adds_dispatch h r m
  | cons event rest ih =>
    unfold deliver
    split
    · exact adds_moved h _
    · exact ih

theorem adds_workerStep (h : s.Shows p) : Adds p s.workerStep := by
  unfold workerStep
  split
  · unfold takeCommand
    split
    · exact .inl h
    · exact .inl ⟨h.permissionTxs, h.channel⟩
    · exact adds_perform ⟨h.permissionTxs, h.channel⟩ fun _ _ h => adds_moved h _
  · unfold checkSignal
    split
    · exact adds_perform h fun _ _ h => adds_moved h _
    · exact adds_moved h _
  · refine adds_perform h fun received s h => ?_
    cases received with
    | none => exact adds_moved h _
    | some m => exact adds_perform h fun events s h => adds_deliver h _ m events
  · exact adds_emit h _ _
  · split
    · exact adds_deliver (s := { s with ack := false }) ⟨h.permissionTxs, h.channel⟩ _ _ _
    · exact .inl h
  · exact adds_emit h _ _
  · split
    · exact .inl h
    · exact adds_perform ⟨h.permissionTxs, h.channel⟩ fun _ _ h => adds_moved h _
  · exact adds_moved h _
  · exact adds_emit h _ _
  · exact .inl h

/-- What happens to a session: the calls of the adapter, a step of its worker, and
what the agent does on its own. -/
inductive Input (σ : Type)
  | sendPrompt (request : HarnessPromptRequest)
  | cancelTurn
  | decidePermission (eventId : EventId) (decision : PermissionDecision)
  | pollEvent
  | worker
  | agent (f : σ → σ)

/-- One step of a session. -/
def step (s : Session σ) : Input σ → Session σ
  | .sendPrompt request => s.ackIfAwaiting.push (.prompt request)
  | .cancelTurn => s.cancelTurn
  | .decidePermission eventId decision => (s.decidePermission eventId decision).2
  | .pollEvent => s.pollEvent.2
  | .worker => s.workerStep
  | .agent f => { s with turn := { s.turn with peer := f s.turn.peer } }

/-- A session from its handshake on. -/
def machine (runtime : AcpRuntime) (peer : σ) : Machine (Session σ) (Input σ) :=
  ⟨opened runtime peer, step⟩

theorem shows_step (h : s.Shows p) (i : Input σ) :
    ∃ ops, (s.step i).Shows (Pending.machine.runFrom p ops) := by
  cases i with
  | sendPrompt request =>
    exact ⟨[], (shows_ackIfAwaiting h).permissionTxs, (shows_ackIfAwaiting h).channel⟩
  | cancelTurn => exact ⟨[], shows_ackIfAwaiting ⟨h.permissionTxs, h.channel⟩⟩
  | decidePermission eventId decision =>
    exact ⟨[.decidePermission eventId decision], (shows_decidePermission h eventId decision).2⟩
  | pollEvent => exact ⟨[], shows_pollEvent h⟩
  | worker =>
    rcases adds_workerStep h with h | ⟨eventId, h⟩
    · exact ⟨[], h⟩
    · exact ⟨[.request eventId], h⟩
  | agent f => exact ⟨[], h.permissionTxs, h.channel⟩

/-- **Refinement.** Whatever happens to a session, its requests are those of a run
of requests and decisions, and a decision is answered as after that run. -/
theorem exists_requests (runtime : AcpRuntime) (peer : σ) (inputs : List (Input σ)) :
    ∃ ops, ((machine runtime peer).run inputs).Shows (Pending.machine.run ops) ∧
      ∀ eventId decision, (((machine runtime peer).run inputs).decidePermission eventId decision).1 =
        ((Pending.machine.run ops).decidePermission eventId decision).1 := by
  suffices h : ∃ ops, ((machine runtime peer).run inputs).Shows (Pending.machine.run ops) by
    obtain ⟨ops, hops⟩ := h
    exact ⟨ops, hops, fun eventId decision => (shows_decidePermission hops eventId decision).1⟩
  refine (machine runtime peer).invariant (I := fun s => ∃ ops, s.Shows (Pending.machine.run ops))
    (fun s i ⟨ops, h⟩ => ?_) ⟨[], rfl, rfl⟩ inputs
  obtain ⟨more, hmore⟩ := shows_step h i
  exact ⟨ops ++ more, Pending.machine.run_append ops more ▸ hmore⟩

end Session

end Altior.Acp
