import Altior.Desktop.Bridge

/-!
# Every command is answered once

A command whose frame was sent is owed the contents of its reply, or an error once the
connection it was sent on is gone.  The bridge pays this debt as long as nobody waits
when a connection is lost or replaced, and every command is registered before its reply
is read.
-/

namespace Altior.Desktop

open Application Domain Ipc Lib

/-- Whether an answer is the one that is owed. -/
def Due.Allows : Due → Answer → Prop
  | .contents a, b => b = a
  | .error, b => ∃ e, b = .error e

namespace Bridge

/-- The worker is not done with the command. -/
def InHand (s : Bridge) (command : Nat) : Prop :=
  match s.worker with
  | .idle => False
  | .recorded k _ | .sent k _ => k = command

/-- What a command was answered. -/
def answersTo (s : Bridge) (command : Nat) : List Answer :=
  (s.answers.filter fun p => p.1 = command).map Prod.snd

/-- The command was answered as it is owed, or not at all if nothing is owed yet. -/
def Paid (s : Bridge) (command : Nat) : Option Due → Prop
  | none => s.answersTo command = []
  | some due => ∃ a, s.answersTo command = [a] ∧ due.Allows a

/-- Whatever was sent, but for a ping, is answered once when an answer is owed, and who
waits has a connection. -/
structure Answered (s : Bridge) : Prop where
  once : ∀ k i, s.issued[k]? = some i → i.connection.isSome → i.ping = false → ¬ s.InHand k →
    s.Paid k i.due
  live : ∀ (op : OperationId) (k : Nat), s.pending[op]? = some k →
    ∀ i : Issued, s.issued[k]? = some i →
    i.connection.isSome ∧ i.connection = s.channel ∧ s.gone = false

/-- No reply is read, and no connection lost, between the frame of a command and its
registration, and nobody waits when a connection is lost or replaced. -/
def Timely (s : Bridge) : Bridging → Prop
  | .register =>
    match s.worker with
    | .sent k _ => ∀ i ∈ s.issued[k]?, i.due.isNone
    | .idle | .recorded _ _ => True
  | .disconnect => s.pending.isEmpty
  | .reconnect _ _ =>
    match s.worker with
    | .idle => s.pending.isEmpty
    | .recorded _ _ | .sent _ _ => True
  | .handshake _ | .command _ | .send _ | .close | .read _ => True

/-! ## Answers and debts -/

section Answers

variable {s : Bridge} {k j : Nat} {a : Answer}

theorem answersTo_append (answers : List (Nat × Answer)) :
    { s with answers := s.answers ++ answers }.answersTo k =
      s.answersTo k ++ (answers.filter fun p => p.1 = k).map Prod.snd := by
  rw [answersTo, List.filter_append, List.map_append, answersTo]

theorem answersTo_answer_self : (s.answer k a).answersTo k = s.answersTo k ++ [a] := by
  rw [answer, answersTo_append, List.filter_cons_of_pos (by simp)]
  rfl

theorem answersTo_answer_of_ne (h : j ≠ k) : (s.answer j a).answersTo k = s.answersTo k := by
  rw [answer, answersTo_append, List.filter_cons_of_neg (by simpa using h)]
  exact List.append_nil _

/-- A command is owed something new, or is left as it was. -/
theorem getElem?_owe {due : Due} {owed : Issued → Bool} {issued : List Issued} {i : Issued}
    (h : (owe due owed issued)[k]? = some i) : ∃ i', issued[k]? = some i' ∧
      ((i'.connection.isSome ∧ i'.due = none ∧ owed i' ∧ i = { i' with due := some due }) ∨
        (¬ (i'.connection.isSome ∧ i'.due = none ∧ owed i') ∧ i = i')) := by
  rw [owe, List.getElem?_map] at h
  obtain ⟨i', hi', rfl⟩ := Option.map_eq_some_iff.1 h
  refine ⟨i', hi', ?_⟩
  simp only [Bool.and_eq_true, Option.isNone_iff_eq_none, and_assoc]
  split
  · rename_i howed
    exact .inl ⟨howed.1, howed.2.1, howed.2.2, rfl⟩
  · rename_i hnot
    exact .inr ⟨hnot, rfl⟩

theorem getElem?_owe_of {due : Due} {owed : Issued → Bool} {issued : List Issued} {i : Issued}
    (h : issued[k]? = some i) : (owe due owed issued)[k]? = some
      (if i.connection.isSome && i.due.isNone && owed i then { i with due := some due } else i) := by
  rw [owe, List.getElem?_map, h]
  rfl

theorem length_owe {due : Due} {owed : Issued → Bool} {issued : List Issued} :
    (owe due owed issued).length = issued.length := List.length_map _

theorem length_oweReply {frame : Frame} {c : Nat} {issued : List Issued} :
    (oweReply frame c issued).length = issued.length := by
  unfold oweReply
  split
  · rfl
  · exact length_owe

end Answers

/-! ## The invariant -/

/-- A command that is under way: it was not answered, nobody else waits for its
operation, and the ledger knows it. -/
def UnderWay (s : Bridge) (k : Nat) (op : OperationId) (i : Issued) : Prop :=
  s.issued[k]? = some i ∧ i.operationId = op ∧ s.answersTo k = [] ∧
    op ∈ s.session.ledger.recorded

/-- What the worker has in its hands. -/
def Holding (s : Bridge) : Prop :=
  match s.worker with
  | .idle => True
  | .recorded k envelope => envelope.operationId ∉ s.pending ∧
      (s.gone = false → s.status = .connected) ∧
      ∃ i, s.UnderWay k envelope.operationId i ∧ i.connection = none ∧
        i.ping = isPing envelope
  | .sent k op => op ∉ s.pending ∧
      ∃ i, s.UnderWay k op i ∧ i.connection.isSome ∧ i.connection = s.channel ∧ i.ping = false ∧
        (i.due = none → s.gone = false ∧ s.status = .connected)

/-- The invariant of the bridge.  Whoever waits was sent over the connection there is
and is owed nothing yet; whoever does not wait was paid. -/
structure Kept (s : Bridge) : Prop where
  numbered : ∀ p ∈ s.answers, p.1 < s.issued.length
  connected : s.status = .connected → s.handshake.isSome ∧ s.channel.isSome
  opened : ∀ c ∈ s.channel, c < s.opened
  reading : ∀ c c', s.reader = some c → s.channel = some c' → c = c'
  holding : s.Holding
  waiter : ∀ (op : OperationId) (k : Nat), s.pending[op]? = some k → ¬ s.InHand k ∧
    ∃ i, s.UnderWay k op i ∧ i.connection.isSome ∧ i.connection = s.channel ∧ i.ping = false ∧
      i.due = none
  alive : ∀ op ∈ s.pending, s.status = .connected ∧ s.gone = false
  settled : ∀ k i, s.issued[k]? = some i → i.connection.isSome → i.ping = false → ¬ s.InHand k →
    (i.due = none ∧ s.pending[i.operationId]? = some k) ∨
      ∃ due a, i.due = some due ∧ s.answersTo k = [a] ∧ due.Allows a

section Steps

variable {s : Bridge}

theorem Kept.answered (h : s.Kept) : s.Answered := by
  constructor
  · intro k i hi hsent hping hhand
    rcases h.settled k i hi hsent hping hhand with ⟨hdue, hwaits⟩ | ⟨due, a, hdue, ha, hallows⟩
    · obtain ⟨-, i', hway, -⟩ := h.waiter _ _ hwaits
      rw [hdue]
      exact hway.2.2.1
    · rw [hdue]
      exact ⟨a, ha, hallows⟩
  · intro op k hwaits i hi
    obtain ⟨-, i', hway, hsent, hchannel, -, -⟩ := h.waiter op k hwaits
    cases hway.1.symm.trans hi
    exact ⟨hsent, hchannel, (h.alive op (Table.mem_iff.2 ⟨k, hwaits⟩)).2⟩

theorem Kept.unanswered (h : s.Kept) {k : Nat} (hk : s.issued.length ≤ k) : s.answersTo k = [] := by
  rw [answersTo, List.filter_eq_nil_iff.2 fun p hp => ?_]
  · rfl
  · have := h.numbered p hp
    simp only [decide_eq_true_eq]
    omega

theorem getElem?_of_isEmpty {t : Table OperationId Nat} (h : t.isEmpty) (op : OperationId) :
    t[op]? = none := by
  rw [← Table.not_mem_iff]
  exact fun hmem => by simp_all [Std.ExtTreeMap.isEmpty_iff]

/-- A connection is lost while nobody waits: whoever is in the worker's hands is owed
an error, and nobody else was owed anything. -/
theorem Kept.lose (h : s.Kept) (hnobody : s.pending.isEmpty) : s.lose.Kept := by
  have hnone := getElem?_of_isEmpty hnobody
  refine ⟨fun p hp => ?_, h.connected, h.opened, h.reading, ?_, fun op k hwaits => ?_,
    fun op hop => ?_, fun k i hi hsent hping hhand => ?_⟩
  · exact (h.numbered p hp).trans_eq length_owe.symm
  · have hholding := h.holding
    unfold Holding at hholding ⊢
    simp only [Bridge.lose]
    split
    · trivial
    · rename_i k envelope hworker
      rw [hworker] at hholding
      obtain ⟨hfree, -, i, ⟨hi, hop, hanswers, hknown⟩, hconnection, hping⟩ := hholding
      refine ⟨hfree, nofun, i, ⟨?_, hop, hanswers, hknown⟩, hconnection, hping⟩
      rw [getElem?_owe_of hi, hconnection]
      rfl
    · rename_i k op hworker
      rw [hworker] at hholding
      obtain ⟨hfree, i, ⟨hi, hop, hanswers, hknown⟩, hsent, hchannel, hping, -⟩ := hholding
      refine ⟨hfree, _, ⟨getElem?_owe_of hi, ?_, hanswers, hknown⟩, ?_⟩
      · split <;> exact hop
      · split
        · exact ⟨hsent, hchannel, hping, nofun⟩
        · rename_i hdue
          refine ⟨hsent, hchannel, hping, fun hdue' => absurd ?_ hdue⟩
          rw [hsent, hdue']
          rfl
  · rw [show s.lose.pending = s.pending from rfl, hnone] at hwaits
    cases hwaits
  · rw [show s.lose.pending = s.pending from rfl, Table.mem_iff, hnone] at hop
    obtain ⟨_, hop⟩ := hop
    cases hop
  · obtain ⟨i', hi', ⟨-, hdue, -, rfl⟩ | ⟨-, rfl⟩⟩ := getElem?_owe hi
    · rcases h.settled k i' hi' hsent hping hhand with ⟨-, hwaits⟩ | ⟨due, a, hdue', -⟩
      · rw [hnone] at hwaits
        cases hwaits
      · cases hdue.symm.trans hdue'
    · exact h.settled k i hi' hsent hping hhand

/-- Between two messages, while nobody waits, the connection may be what it wants. -/
theorem Kept.rest (h : s.Kept) (hnobody : s.pending.isEmpty) (hidle : s.worker = .idle)
    {s' : Bridge} (hpending : s'.pending = s.pending) (hworker : s'.worker = s.worker)
    (hissued : s'.issued = s.issued) (hanswers : s'.answers = s.answers)
    (hconnected : s'.status = .connected → s'.handshake.isSome ∧ s'.channel.isSome)
    (hopened : ∀ c ∈ s'.channel, c < s'.opened)
    (hreading : ∀ c c', s'.reader = some c → s'.channel = some c' → c = c') : s'.Kept := by
  have hnone := getElem?_of_isEmpty hnobody
  have hhand (k : Nat) : s'.InHand k ↔ s.InHand k := by simp only [InHand, hworker]
  refine ⟨?_, hconnected, hopened, hreading, ?_, ?_, ?_, ?_⟩
  · rw [hanswers, hissued]
    exact h.numbered
  · simp only [Holding, hworker, hidle]
  · intro op k hwaits
    rw [hpending, hnone] at hwaits
    cases hwaits
  · intro op hop
    rw [hpending] at hop
    exact absurd hop (Table.not_mem_iff.2 (hnone op))
  · intro k i hi hsent hping hout
    rw [hissued] at hi
    rw [hpending, answersTo, hanswers]
    exact h.settled k i hi hsent hping (mt (hhand k).2 hout)

/-- An attempt to attach while nobody waits. -/
theorem Kept.attach (h : s.Kept) (hnobody : s.pending.isEmpty) (hidle : s.worker = .idle)
    {failed : TransportStatus} (hfailed : failed ≠ .connected) (outcome : AttachOutcome) :
    (s.attach failed outcome).Kept := by
  have hfail : { s with status := failed }.Kept :=
    h.rest hnobody hidle rfl rfl rfl rfl (fun hstatus => absurd hstatus hfailed) h.opened h.reading
  unfold Bridge.attach
  split
  · exact hfail
  · split
    · exact hfail
    · refine (h.lose hnobody).rest hnobody hidle rfl rfl rfl rfl (fun _ => ⟨rfl, rfl⟩) ?_ ?_
      · intro c hc
        cases hc
        exact Nat.lt_succ_self _
      · intro c c' hreader hchannel
        cases hchannel
        split at hreader <;> cases hreader
        rfl

/-- **Handshake.** When somebody waits there is a connection, and the handshake is
answered from memory. -/
theorem Kept.handshakeWith (h : s.Kept) (hidle : s.worker = .idle) (outcome : AttachOutcome) :
    (s.handshakeWith outcome).Kept := by
  unfold Bridge.handshakeWith
  split
  · exact h
  · rename_i hnew
    have hnobody : s.pending.isEmpty := by
      rw [Std.ExtTreeMap.isEmpty_iff, Std.ExtTreeMap.eq_empty_iff_forall_not_mem]
      intro op hop
      obtain ⟨hstatus, -⟩ := h.alive op hop
      exact hnew ⟨hstatus, (h.connected hstatus).1⟩
    have hconnecting : { s with status := .connecting }.Kept :=
      h.rest hnobody hidle rfl rfl rfl rfl nofun h.opened h.reading
    exact hconnecting.attach hnobody hidle (by decide) outcome

/-- **Reconnect** while nobody waits. -/
theorem Kept.reconnectWith (h : s.Kept) (hnobody : s.pending.isEmpty) (hidle : s.worker = .idle)
    (cursor : Option ReconnectCursor) (outcome : AttachOutcome) :
    (s.reconnectWith cursor outcome).Kept := by
  have hdetached : (s.detach cursor).Kept := by
    refine (h.lose hnobody).rest hnobody hidle rfl rfl rfl rfl ?_ ?_ ?_
    · intro hstatus
      cases hstatus
    · intro c hc
      cases hc
    · intro c c' hreader
      cases hreader
  exact hdetached.attach hnobody hidle (by decide) outcome

/-- **The connection drops** while nobody waits. -/
theorem Kept.disconnect (h : s.Kept) (hnobody : s.pending.isEmpty) : s.disconnect.Kept := by
  have hlost := h.lose hnobody
  have hnone := getElem?_of_isEmpty hnobody
  unfold Bridge.disconnect
  split
  · exact hlost
  · refine ⟨hlost.numbered, fun hstatus => ?_, h.opened, ?_, ?_, hlost.waiter, ?_, hlost.settled⟩
    · dsimp only at hstatus
      split at hstatus
      · exact h.connected hstatus
      · cases hstatus
    · intro c c' hreader
      cases hreader
    · have hholding := hlost.holding
      have hgone : s.lose.gone = true := rfl
      unfold Holding at hholding ⊢
      dsimp only at hholding ⊢
      split
      · trivial
      · rename_i k envelope hworker
        rw [hworker] at hholding
        refine ⟨hholding.1, fun hlive => ?_, hholding.2.2⟩
        cases hgone.symm.trans hlive
      · rename_i k op hworker
        rw [hworker] at hholding
        obtain ⟨hfree, i, hway, hsent, hchannel, hping, halive⟩ := hholding
        refine ⟨hfree, i, hway, hsent, hchannel, hping, fun hdue => ?_⟩
        cases hgone.symm.trans (halive hdue).1
    · intro op hop
      exact absurd hop (Table.not_mem_iff.2 (hnone op))

/-- A command that was not sent, or that is a ping, is answered by the worker. -/
theorem Kept.answer (h : s.Kept) (hidle : s.worker = .idle) {k : Nat} (hk : k < s.issued.length)
    (hfree : ∀ i, s.issued[k]? = some i → i.connection = none ∨ i.ping = true) (a : Answer) :
    (s.answer k a).Kept := by
  have hother {j : Nat} {i : Issued} (hi : s.issued[j]? = some i) (hsent : i.connection.isSome)
      (hping : i.ping = false) : (s.answer k a).answersTo j = s.answersTo j := by
    refine answersTo_answer_of_ne ?_
    rintro rfl
    rcases hfree i hi with hnone | htrue
    · rw [hnone] at hsent
      cases hsent
    · rw [hping] at htrue
      cases htrue
  refine ⟨?_, h.connected, h.opened, h.reading, ?_, ?_, h.alive, ?_⟩
  · intro p hp
    rcases List.mem_append.1 hp with hp | hp
    · exact h.numbered p hp
    · rw [List.mem_singleton.1 hp]
      exact hk
  · have hworker : (s.answer k a).worker = .idle := hidle
    simp only [Holding, hworker]
  · intro op j hwaits
    obtain ⟨hhand, i, ⟨hi, hop, hanswers, hknown⟩, hsent, hchannel, hping, hdue⟩ :=
      h.waiter op j hwaits
    exact ⟨hhand, i, ⟨hi, hop, (hother hi hsent hping).trans hanswers, hknown⟩, hsent, hchannel,
      hping, hdue⟩
  · intro j i hi hsent hping hhand
    rw [hother hi hsent hping]
    exact h.settled j i hi hsent hping hhand

/-- A command is taken that was not sent yet. -/
theorem Kept.issue (h : s.Kept) (hidle : s.worker = .idle) {i : Issued}
    (hnew : i.connection = none) : (s.issue i).Kept := by
  have hold {j : Nat} {i' : Issued} (hi : (s.issued ++ [i])[j]? = some i')
      (hsent : i'.connection.isSome) : s.issued[j]? = some i' := by
    rcases Nat.lt_or_ge j s.issued.length with hlt | hge
    · rwa [List.getElem?_append_left hlt] at hi
    · rw [List.getElem?_append_right hge, List.getElem?_singleton] at hi
      split at hi
      · cases hi
        rw [hnew] at hsent
        cases hsent
      · cases hi
  refine ⟨?_, h.connected, h.opened, h.reading, ?_, ?_, h.alive, ?_⟩
  · intro p hp
    have := h.numbered p hp
    simp only [Bridge.issue, List.length_append]
    omega
  · have hworker : (s.issue i).worker = .idle := hidle
    simp only [Holding, hworker]
  · intro op j hwaits
    obtain ⟨hhand, i', ⟨hi, hop, hanswers, hknown⟩, hrest⟩ := h.waiter op j hwaits
    have hlt := (List.getElem?_eq_some_iff.1 hi).1
    exact ⟨hhand, i', ⟨(List.getElem?_append_left hlt).trans hi, hop, hanswers, hknown⟩, hrest⟩
  · intro j i' hi hsent hping hhand
    exact h.settled j i' (hold hi hsent) hsent hping hhand

/-- **A command is taken.** -/
theorem Kept.takeCommand (h : s.Kept) (hidle : s.worker = .idle) (envelope : CommandEnvelope) :
    (s.takeCommand envelope).Kept := by
  have hlast (i : Issued) : (s.issue i).issued[s.issued.length]? = some i :=
    List.getElem?_concat_length
  have hrefuse (record : Option (Except BridgeError RecordOutcome)) (a : Answer) :
      ((s.issue (.taken envelope record)).answer s.issued.length a).Kept := by
    refine (h.issue hidle rfl).answer hidle (by simp [Bridge.issue]) (fun i hi => ?_) a
    cases (hlast _).symm.trans hi
    exact .inl rfl
  unfold Bridge.takeCommand
  dsimp only
  split
  · exact hrefuse _ _
  · split
    · exact hrefuse _ _
    · rename_i hconnected
      rcases s.session.recordCommand_cases envelope with ⟨-, hcase⟩ | ⟨-, -, hcase⟩ |
        ⟨hfresh, -, hcase⟩
      · rw [hcase]
        exact hrefuse _ _
      · rw [hcase]
        exact hrefuse _ _
      · rw [hcase]
        have hissued := h.issue hidle (i := .taken envelope (some (.ok .recorded))) rfl
        have hknown {op : OperationId} (hop : op ∈ s.session.ledger.recorded) :
            op ∈ s.session.ledger.recorded.insert envelope.operationId () :=
          Table.mem_insert_iff.2 (.inr hop)
        refine ⟨hissued.numbered, h.connected, h.opened, h.reading, ?_, ?_, h.alive, ?_⟩
        · refine ⟨fun hwaits => ?_, fun _ => not_not.1 hconnected, _,
            ⟨hlast _, rfl, h.unanswered (Nat.le_refl _), Table.mem_insert_iff.2 (.inl rfl)⟩, rfl, rfl⟩
          -- whoever waits for the operation is known to the ledger
          obtain ⟨k, hwaits⟩ := Table.mem_iff.1 hwaits
          obtain ⟨-, i, hway, -⟩ := h.waiter _ k hwaits
          exact hfresh hway.2.2.2
        · intro op k hwaits
          obtain ⟨-, i, ⟨hi, hop, hanswers, hop'⟩, hrest⟩ := hissued.waiter op k hwaits
          refine ⟨?_, i, ⟨hi, hop, hanswers, hknown hop'⟩, hrest⟩
          rintro rfl
          cases (hlast _).symm.trans hi
          cases hrest.1
        · intro k i hi hsent hping hhand
          refine hissued.settled k i hi hsent hping ?_
          have hworker : (s.issue (.taken envelope (some (.ok .recorded)))).worker = .idle := hidle
          simp only [InHand, hworker, not_false_eq_true]

/-- The worker lets go of a command that was not sent. -/
theorem Kept.letGo (h : s.Kept) {k : Nat} {envelope : CommandEnvelope}
    (hworker : s.worker = .recorded k envelope) :
    { s with worker := .idle }.Kept ∧ k < s.issued.length ∧
      ∀ i, s.issued[k]? = some i → i.connection = none := by
  have hholding := h.holding
  simp only [Holding, hworker] at hholding
  obtain ⟨-, -, i, ⟨hi, -⟩, hconnection, -⟩ := hholding
  refine ⟨⟨h.numbered, h.connected, h.opened, h.reading, trivial, ?_, h.alive, ?_⟩,
    (List.getElem?_eq_some_iff.1 hi).1, fun i' hi' => ?_⟩
  · intro op j hwaits
    obtain ⟨-, i', ⟨hi', hop, hanswers, hknown⟩, hrest⟩ := h.waiter op j hwaits
    exact ⟨id, i', ⟨hi', hop, hanswers, hknown⟩, hrest⟩
  · intro j i' hi' hsent hping _
    refine h.settled j i' hi' hsent hping ?_
    simp only [InHand, hworker]
    rintro rfl
    cases hi.symm.trans hi'
    rw [hconnection] at hsent
    cases hsent
  · cases hi.symm.trans hi'
    exact hconnection

/-- **A frame is sent**, or not. -/
theorem Kept.send (h : s.Kept) {k : Nat} {envelope : CommandEnvelope}
    (hworker : s.worker = .recorded k envelope) (outcome : SendOutcome) :
    (s.send k envelope outcome).Kept := by
  obtain ⟨hidle, hk, hunsent⟩ := h.letGo hworker
  have hfail (a : Answer) : ({ s with worker := .idle }.answer k a).Kept :=
    hidle.answer rfl hk (fun i hi => .inl (hunsent i hi)) a
  have hholding := h.holding
  simp only [Holding, hworker] at hholding
  obtain ⟨hfree, hstatus, i, ⟨hi, hop, hanswers, hknown⟩, -, hping⟩ := hholding
  unfold Bridge.send
  split
  · exact hfail _
  · rename_i c hchannel
    split
    · exact hfail _
    · -- the command with the connection its frame was sent on
      generalize hdue : (if s.gone then some Due.error else none) = due
      have hself : (s.issued.modify k fun i => { i with connection := some c, due := due })[k]? =
          some { i with connection := some c, due := due } := by
        rw [List.getElem?_modify, hi]
        simp
      have hother {j : Nat} (hne : k ≠ j) :
          (s.issued.modify k fun i => { i with connection := some c, due := due })[j]? =
            s.issued[j]? := by
        rw [List.getElem?_modify]
        simp [hne]
      have hwaiting (op : OperationId) (j : Nat) (hwaits : s.pending[op]? = some j) : k ≠ j := by
        obtain ⟨-, i', hway, hsent, -⟩ := h.waiter op j hwaits
        rintro rfl
        rw [hunsent i' hway.1] at hsent
        cases hsent
      have hsettled (j : Nat) (i' : Issued) (hne : k ≠ j)
          (hi' : (s.issued.modify k fun i => { i with connection := some c, due := due })[j]? =
            some i') := h.settled j i' ((hother hne).symm.trans hi')
      dsimp only
      split
      · rename_i hpings
        refine Kept.answer (s := { s with
            issued := s.issued.modify k fun i => { i with connection := some c, due := due }
            worker := .idle }) ⟨?_, h.connected, h.opened, h.reading, trivial, ?_, h.alive, ?_⟩ rfl
          (by simpa using hk) (fun i' hi' => ?_) _
        · simpa only [List.length_modify] using h.numbered
        · intro op j hwaits
          obtain ⟨-, i', ⟨hi', hop', hanswers', hknown'⟩, hrest⟩ := h.waiter op j hwaits
          exact ⟨id, i', ⟨(hother (hwaiting op j hwaits)).trans hi', hop', hanswers', hknown'⟩, hrest⟩
        · intro j i' hi' hsent hping' _
          rcases eq_or_ne k j with rfl | hne
          · cases hself.symm.trans hi'
            cases (hping.trans hpings).symm.trans hping'
          · refine hsettled j i' hne hi' hsent hping' ?_
            simpa only [InHand, hworker] using hne
        · cases hself.symm.trans hi'
          exact .inr (hping.trans hpings)
      · rename_i hpings
        refine ⟨?_, h.connected, h.opened, h.reading, ?_, ?_, h.alive, ?_⟩
        · simpa only [List.length_modify] using h.numbered
        · refine ⟨hfree, _, ⟨hself, hop, hanswers, hknown⟩, rfl, hchannel.symm,
            hping.trans (Bool.eq_false_iff.2 hpings), fun hnone => ?_⟩
          have hgone : s.gone = false := by
            cases hgone : s.gone with
            | false => rfl
            | true =>
              rw [hgone] at hdue
              cases hdue
              cases hnone
          exact ⟨hgone, hstatus hgone⟩
        · intro op j hwaits
          obtain ⟨-, i', ⟨hi', hop', hanswers', hknown'⟩, hrest⟩ := h.waiter op j hwaits
          exact ⟨hwaiting op j hwaits, i',
            ⟨(hother (hwaiting op j hwaits)).trans hi', hop', hanswers', hknown'⟩, hrest⟩
        · intro j i' hi' hsent hping' hhand
          refine hsettled j i' hhand hi' hsent hping' ?_
          simpa only [InHand, hworker] using hhand

/-- **A command is registered** before anything is owed. -/
theorem Kept.register (h : s.Kept) {k : Nat} {op : OperationId} (hworker : s.worker = .sent k op)
    (hdue : ∀ i ∈ s.issued[k]?, i.due.isNone) : (s.register k op).Kept := by
  have hholding := h.holding
  simp only [Holding, hworker] at hholding
  obtain ⟨hfree, i, ⟨hi, hop, hanswers, hknown⟩, hsent, hchannel, hping, halive⟩ := hholding
  have hnone : i.due = none := Option.isNone_iff_eq_none.1 (hdue i hi)
  obtain ⟨hgone, hstatus⟩ := halive hnone
  refine ⟨h.numbered, h.connected, h.opened, h.reading, trivial, ?_, ?_, ?_⟩
  · intro op' j hwaits
    refine ⟨id, ?_⟩
    rw [Bridge.register, Table.getElem?_insert_eq] at hwaits
    split at hwaits
    · rename_i heq
      cases hwaits
      exact ⟨i, ⟨hi, hop.trans heq, hanswers, heq ▸ hknown⟩, hsent, hchannel, hping, hnone⟩
    · obtain ⟨-, i', ⟨hi', hop', hanswers', hknown'⟩, hrest⟩ := h.waiter op' j hwaits
      exact ⟨i', ⟨hi', hop', hanswers', hknown'⟩, hrest⟩
  · intro op' hwaits
    rcases Table.mem_insert_iff.1 hwaits with rfl | hwaits
    · exact ⟨hstatus, hgone⟩
    · exact h.alive op' hwaits
  · intro j i' hi' hsent' hping' _
    rw [Bridge.register, Table.getElem?_insert_eq]
    rcases eq_or_ne k j with rfl | hne
    · cases hi.symm.trans hi'
      exact .inl ⟨hnone, if_pos hop.symm⟩
    · rcases h.settled j i' hi' hsent' hping' (by simpa only [InHand, hworker] using hne) with
        ⟨hdue', hwaits⟩ | hpaid
      · refine .inl ⟨hdue', ?_⟩
        rw [if_neg]
        · exact hwaits
        · rintro rfl
          exact hfree (Table.mem_iff.2 ⟨j, hwaits⟩)
      · exact .inr hpaid

theorem filter_eq_singleton {α : Type} [DecidableEq α] {p : α → Bool} {l : List α} {a : α}
    (hl : l.Nodup) (ha : a ∈ l) (h : ∀ x ∈ l, p x ↔ x = a) : l.filter p = [a] := by
  have hcongr : l.filter p = l.filter (· == a) := by
    refine List.filter_congr fun x hx => ?_
    rw [Bool.eq_iff_iff, h x hx, beq_iff_eq]
  rw [hcongr, List.filter_beq, List.count_eq_one_of_mem hl ha]
  rfl

/-- Nobody waits for two operations. -/
theorem Kept.waiter_unique (h : s.Kept) {op op' : OperationId} {k : Nat}
    (hwaits : s.pending[op]? = some k) (hwaits' : s.pending[op']? = some k) : op = op' := by
  obtain ⟨-, i, ⟨hi, hop, -⟩, -⟩ := h.waiter op k hwaits
  obtain ⟨-, i', ⟨hi', hop', -⟩, -⟩ := h.waiter op' k hwaits'
  cases hi.symm.trans hi'
  exact hop.symm.trans hop'

/-- **Close.** Whoever waits is told. -/
theorem Kept.close (h : s.Kept) (hidle : s.worker = .idle) : s.close.Kept := by
  have hanswers (k : Nat) : s.close.answersTo k = s.answersTo k ++
      ((s.pending.toList.filter fun p => p.2 = k).map fun _ => .error .connectionClosed) := by
    have hsplit : s.close.answersTo k = s.answersTo k ++ ((s.pending.toList.map fun p =>
        (p.2, (.error .connectionClosed : Answer))).filter fun p => p.1 = k).map Prod.snd :=
      answersTo_append _
    rw [hsplit, List.filter_map, List.map_map]
    rfl
  have htold (op : OperationId) (k : Nat) (hwaits : s.pending[op]? = some k) :
      s.close.answersTo k = s.answersTo k ++ [.error .connectionClosed] := by
    rw [hanswers, filter_eq_singleton (a := (op, k)) ?_ ?_ fun p hp => ?_]
    · rfl
    · refine s.pending.distinct_keys_toList.imp fun hne heq => hne ?_
      rw [heq]
      exact Std.ReflCmp.compare_self
    · exact Std.ExtTreeMap.mem_toList_iff_getElem?_eq_some.2 hwaits
    · rw [decide_eq_true_eq]
      constructor
      · rintro rfl
        have hwaits' := Std.ExtTreeMap.mem_toList_iff_getElem?_eq_some.1 hp
        exact Prod.ext (h.waiter_unique hwaits' hwaits) rfl
      · rintro rfl
        rfl
  have huntold (k : Nat) (hnone : ∀ op : OperationId, s.pending[op]? ≠ some k) :
      s.close.answersTo k = s.answersTo k := by
    rw [hanswers, List.filter_eq_nil_iff.2 fun p hp => ?_]
    · exact List.append_nil _
    · rw [decide_eq_true_eq]
      rintro rfl
      exact hnone p.1 (Std.ExtTreeMap.mem_toList_iff_getElem?_eq_some.1 hp)
  have hempty (op : OperationId) : s.close.pending[op]? = none := Std.ExtTreeMap.getElem?_empty
  refine ⟨fun p hp => ?_, nofun, nofun, nofun, ?_, fun op k hwaits => ?_, fun op hop => ?_,
    fun k i hi hsent hping _ => ?_⟩
  · have hlength : s.close.issued.length = s.issued.length := length_owe
    rw [hlength]
    rcases List.mem_append.1 hp with hp | hp
    · exact h.numbered p hp
    · obtain ⟨q, hq, rfl⟩ := List.mem_map.1 hp
      obtain ⟨-, i, ⟨hi, -⟩, -⟩ :=
        h.waiter q.1 q.2 (Std.ExtTreeMap.mem_toList_iff_getElem?_eq_some.1 hq)
      exact (List.getElem?_eq_some_iff.1 hi).1
  · have hworker : s.close.worker = .idle := hidle
    simp only [Holding, hworker]
  · rw [hempty] at hwaits
    cases hwaits
  · exact absurd hop (Table.not_mem_iff.2 (hempty op))
  · have hout : ¬ s.InHand k := by simp only [InHand, hidle, not_false_eq_true]
    right
    obtain ⟨i', hi', ⟨-, hdue, -, rfl⟩ | ⟨hpaid, rfl⟩⟩ := getElem?_owe hi
    · rcases h.settled k i' hi' hsent hping hout with ⟨-, hwaits⟩ | ⟨due, a, hdue', -⟩
      · obtain ⟨-, i'', ⟨-, -, hunanswered, -⟩, -⟩ := h.waiter _ k hwaits
        refine ⟨.error, .error .connectionClosed, rfl, ?_, ⟨_, rfl⟩⟩
        rw [htold _ k hwaits, hunanswered]
        rfl
      · cases hdue.symm.trans hdue'
    · rcases h.settled k i hi' hsent hping hout with ⟨hdue, -⟩ | ⟨due, a, hdue, ha, hallows⟩
      · exact absurd ⟨hsent, hdue, rfl⟩ hpaid
      · refine ⟨due, a, hdue, ?_, hallows⟩
        rw [huntold k fun op hwaits => ?_, ha]
        obtain ⟨-, i'', ⟨-, -, hunanswered, -⟩, -⟩ := h.waiter op k hwaits
        cases hunanswered.symm.trans ha

/-- A frame is read that names no waiter. -/
theorem Kept.oweReply_unnamed (h : s.Kept) {frame : Frame} (c : Nat)
    (hnone : ∀ op a, answerOf frame = some (op, a) → op ∉ s.pending) :
    { s with issued := oweReply frame c s.issued }.Kept := by
  cases hframe : answerOf frame with
  | none =>
    simp only [oweReply, hframe]
    exact h
  | some named =>
    obtain ⟨op, a⟩ := named
    have hfree := hnone op a hframe
    simp only [oweReply, hframe]
    -- whoever waits is owed nothing by this frame
    have hwaiting {op' : OperationId} {k : Nat} {i : Issued} (hwaits : s.pending[op']? = some k)
        (hi : s.issued[k]? = some i) (hop : i.operationId = op') :
        (owe (.contents a) (fun i => i.operationId = op && i.connection = some c) s.issued)[k]? =
          some i := by
      rw [getElem?_owe_of hi, if_neg]
      simp only [Bool.and_eq_true, decide_eq_true_eq, not_and]
      rintro - rfl
      exact absurd (Table.mem_iff.2 ⟨k, hop ▸ hwaits⟩) hfree
    refine ⟨fun p hp => ?_, h.connected, h.opened, h.reading, ?_, fun op' k hwaits => ?_, h.alive,
      fun k i hi hsent hping hout => ?_⟩
    · exact (h.numbered p hp).trans_eq length_owe.symm
    · have hholding := h.holding
      unfold Holding at hholding ⊢
      dsimp only
      split
      · trivial
      · rename_i k envelope hworker
        rw [hworker] at hholding
        obtain ⟨hfree', hstatus, i, ⟨hi, hrest⟩, hconnection, hping⟩ := hholding
        refine ⟨hfree', hstatus, i, ⟨?_, hrest⟩, hconnection, hping⟩
        rw [getElem?_owe_of hi, hconnection]
        rfl
      · rename_i k op' hworker
        rw [hworker] at hholding
        obtain ⟨hfree', i, ⟨hi, hop, hrest⟩, hsent, hchannel, hping, halive⟩ := hholding
        refine ⟨hfree', _, ⟨getElem?_owe_of hi, ?_, hrest⟩, ?_⟩
        · split <;> exact hop
        · split
          · exact ⟨hsent, hchannel, hping, nofun⟩
          · exact ⟨hsent, hchannel, hping, halive⟩
    · obtain ⟨hout, i, ⟨hi, hop, hrest⟩, hrest'⟩ := h.waiter op' k hwaits
      exact ⟨hout, i, ⟨hwaiting hwaits hi hop, hop, hrest⟩, hrest'⟩
    · obtain ⟨i', hi', ⟨-, hdue, -, rfl⟩ | ⟨-, rfl⟩⟩ := getElem?_owe hi
      · rcases h.settled k i' hi' hsent hping hout with ⟨-, hwaits⟩ | ⟨due, b, hdue', -⟩
        · have hsame := hi.symm.trans (hwaiting hwaits hi' rfl)
          rw [← Option.some.inj hsame] at hdue
          cases hdue
        · cases hdue.symm.trans hdue'
      · exact h.settled k i hi' hsent hping hout

/-- The waiter that a frame names is answered. -/
theorem Kept.complete_named (h : s.Kept) {frame : Frame} {c k : Nat} {op : OperationId} {a : Answer}
    (hreader : s.reader = some c) (hframe : answerOf frame = some (op, a))
    (hwaits : s.pending[op]? = some k) :
    (({ s with issued := oweReply frame c s.issued
               pending := s.pending.erase op } : Bridge).answer k a).Kept := by
  obtain ⟨hout, i, ⟨hi, hop, hunanswered, hknown⟩, hsent, hchannel, hping, hnone⟩ := h.waiter op k hwaits
  have hcurrent : i.connection = some c := by
    obtain ⟨c', hc'⟩ := Option.isSome_iff_exists.1 hsent
    rw [hc', h.reading c c' hreader (hchannel ▸ hc')]
  have hself : (oweReply frame c s.issued)[k]? = some { i with due := some (.contents a) } := by
    simp only [oweReply, hframe]
    rw [getElem?_owe_of hi, hop, hcurrent, hnone]
    simp
  -- nobody else is owed anything by this frame
  have hother {j : Nat} {i' : Issued} (hne : j ≠ k) (hi' : (oweReply frame c s.issued)[j]? = some i')
      (hsent : i'.connection.isSome) (hping : i'.ping = false) (hout : ¬ s.InHand j) :
      s.issued[j]? = some i' := by
    simp only [oweReply, hframe] at hi'
    obtain ⟨i₀, hi₀, ⟨-, hdue, howed, rfl⟩ | ⟨-, rfl⟩⟩ := getElem?_owe hi'
    · simp only [Bool.and_eq_true, decide_eq_true_eq] at howed
      rcases h.settled j i₀ hi₀ hsent hping hout with ⟨-, hwaits'⟩ | ⟨due, -, hdue', -⟩
      · rw [howed.1] at hwaits'
        cases hwaits.symm.trans hwaits'
        exact absurd rfl hne
      · cases hdue.symm.trans hdue'
    · exact hi₀
  refine ⟨fun p hp => ?_, h.connected, h.opened, h.reading, ?_, fun op' j hwaits' => ?_,
    fun op' hop' => ?_, fun j i' hi' hsent' hping' hout' => ?_⟩
  · refine Nat.lt_of_lt_of_eq ?_ length_oweReply.symm
    rcases List.mem_append.1 hp with hp | hp
    · exact h.numbered p hp
    · rw [List.mem_singleton.1 hp]
      exact (List.getElem?_eq_some_iff.1 hi).1
  · have hholding := h.holding
    unfold Holding at hholding ⊢
    dsimp only [Bridge.answer]
    split
    · trivial
    · rename_i k' envelope hworker
      rw [hworker] at hholding
      obtain ⟨hfree, hstatus, i', ⟨hi', hop', hunanswered', hknown'⟩, hconnection, hping'⟩ := hholding
      refine ⟨fun hmem => hfree (Std.ExtTreeMap.mem_of_mem_erase hmem), hstatus, i',
        ⟨?_, hop', ?_, hknown'⟩, hconnection, hping'⟩
      · simp only [oweReply, hframe]
        rw [getElem?_owe_of hi', hconnection]
        rfl
      · refine (answersTo_answer_of_ne ?_).trans hunanswered'
        rintro rfl
        exact hout (by simp only [InHand, hworker])
    · rename_i k' op' hworker
      rw [hworker] at hholding
      obtain ⟨hfree, i', ⟨hi', hop', hunanswered', hknown'⟩, hsent', hchannel', hping', halive⟩ :=
        hholding
      have hne : op' ≠ op := fun heq => hfree (heq ▸ Table.mem_iff.2 ⟨k, hwaits⟩)
      refine ⟨fun hmem => hfree (Std.ExtTreeMap.mem_of_mem_erase hmem), i',
        ⟨?_, hop', ?_, hknown'⟩, hsent', hchannel', hping', halive⟩
      · simp only [oweReply, hframe]
        rw [getElem?_owe_of hi', hop', if_neg (by simp [hne])]
      · refine (answersTo_answer_of_ne ?_).trans hunanswered'
        rintro rfl
        exact hout (by simp only [InHand, hworker])
  · rw [Bridge.answer, Table.getElem?_erase_eq] at hwaits'
    split at hwaits'
    · cases hwaits'
    · rename_i hne
      obtain ⟨hout', i', ⟨hi', hop', hunanswered', hknown'⟩, hrest⟩ := h.waiter op' j hwaits'
      refine ⟨hout', i', ⟨?_, hop', ?_, hknown'⟩, hrest⟩
      · simp only [Bridge.answer, oweReply, hframe]
        rw [getElem?_owe_of hi', hop', if_neg (by simp [Ne.symm hne])]
      · refine (answersTo_answer_of_ne ?_).trans hunanswered'
        rintro rfl
        exact hne (h.waiter_unique hwaits hwaits')
  · exact h.alive op' (Std.ExtTreeMap.mem_of_mem_erase hop')
  · rcases eq_or_ne j k with rfl | hne
    · cases hself.symm.trans hi'
      refine .inr ⟨.contents a, a, rfl, ?_, rfl⟩
      refine answersTo_answer_self.trans ?_
      rw [show ({ s with issued := oweReply frame c s.issued
                         pending := s.pending.erase op } : Bridge).answersTo j = s.answersTo j from rfl,
        hunanswered]
      rfl
    · rw [answersTo_answer_of_ne (Ne.symm hne)]
      rcases h.settled j i' (hother hne hi' hsent' hping' hout') hsent' hping' hout' with
        ⟨hdue, hwaits'⟩ | hpaid
      · refine .inl ⟨hdue, ?_⟩
        rw [Bridge.answer, Table.getElem?_erase_eq, if_neg]
        · exact hwaits'
        · rintro rfl
          cases hwaits.symm.trans hwaits'
          exact hne rfl
      · exact .inr hpaid

/-- **A frame is read.** -/
theorem Kept.read (h : s.Kept) (frame : Frame) : (s.read frame).Kept := by
  unfold Bridge.read
  split
  · exact h
  · rename_i c hreader
    have hcomplete : ({ s with issued := oweReply frame c s.issued }.complete frame).Kept := by
      unfold Bridge.complete
      split
      · rename_i hframe
        exact h.oweReply_unnamed c fun op a hnamed => nomatch hframe.symm.trans hnamed
      · rename_i op a hframe
        dsimp only
        split
        · rename_i hnone
          refine h.oweReply_unnamed c fun op' a' hnamed => ?_
          cases hframe.symm.trans hnamed
          exact Table.not_mem_iff.2 hnone
        · rename_i k hwaits
          exact h.complete_named hreader hframe hwaits
    have hreads : ∀ c', ({ s with issued := oweReply frame c s.issued }.complete frame).channel =
        some c' → c = c' := by
      have hchannel : ({ s with issued := oweReply frame c s.issued }.complete frame).channel =
          s.channel := by
        obtain ⟨_, _, heq⟩ := complete_frame { s with issued := oweReply frame c s.issued } frame
        rw [heq]
      intro c' hc'
      exact h.reading c c' hreader (hchannel ▸ hc')
    obtain ⟨inner, lastSequence, delivered, heq⟩ := dispatch_frame
      ({ s with issued := oweReply frame c s.issued }.complete frame) frame
    dsimp only
    rw [heq]
    refine ⟨hcomplete.numbered, hcomplete.connected, hcomplete.opened, fun c' c'' hc' hc'' => ?_,
      hcomplete.holding, hcomplete.waiter, hcomplete.alive, hcomplete.settled⟩
    dsimp only at hc'
    split at hc'
    · cases hc'
    · cases hc'
      exact hreads c'' hc''

/-- **One step.** -/
theorem Kept.step (h : s.Kept) (i : Bridging) (hok : s.Timely i) : (s.step i).Kept := by
  have hwhen {f : Bridge → Bridge} (hf : s.worker = .idle → (f s).Kept) : (s.whenIdle f).Kept := by
    unfold whenIdle
    split
    · exact hf ‹_›
    · exact h
    · exact h
  cases i with
  | handshake outcome => exact hwhen (f := (·.handshakeWith outcome)) (h.handshakeWith · outcome)
  | command envelope => exact hwhen (f := (·.takeCommand envelope)) (h.takeCommand · envelope)
  | send outcome =>
    simp only [Bridge.step]
    split
    · exact h.send ‹_› outcome
    · exact h
    · exact h
  | register =>
    simp only [Bridge.step, Timely] at hok ⊢
    split
    · rename_i hworker
      rw [hworker] at hok
      exact h.register hworker hok
    · exact h
    · exact h
  | reconnect cursor outcome =>
    refine hwhen (f := (·.reconnectWith cursor outcome)) fun hidle => ?_
    simp only [Timely, hidle] at hok
    exact h.reconnectWith hok hidle cursor outcome
  | close => exact hwhen h.close
  | read frame => exact h.read frame
  | disconnect => exact h.disconnect hok

theorem kept_new : new.Kept where
  numbered _ h := absurd h List.not_mem_nil
  connected h := absurd h (by decide)
  opened _ h := absurd h (by simp [new])
  reading _ _ h := absurd h (by simp [new])
  holding := trivial
  waiter _ _ h := absurd (Table.mem_iff.2 ⟨_, h⟩) Std.ExtTreeMap.not_mem_empty
  alive _ h := absurd h Std.ExtTreeMap.not_mem_empty
  settled _ _ h := absurd h (by simp [new])

/-! ## When somebody is forgotten -/

/-- The commands are known to be sent over the same connections. -/
def SameConnections (issued issued' : List Issued) : Prop :=
  ∀ (k : Nat) (i : Issued), issued[k]? = some i →
    ∃ i' : Issued, issued'[k]? = some i' ∧ i'.connection = i.connection

theorem SameConnections.trans {issued issued' issued'' : List Issued}
    (h : SameConnections issued issued') (h' : SameConnections issued' issued'') :
    SameConnections issued issued'' := by
  intro k i hi
  obtain ⟨i', hi', hsame⟩ := h k i hi
  obtain ⟨i'', hi'', hsame'⟩ := h' k i' hi'
  exact ⟨i'', hi'', hsame'.trans hsame⟩

/-- Whoever waits when the connection is lost is forgotten. -/
theorem Kept.nobody_of_live (h : s.Kept) {s' : Bridge} (hgood : s'.Answered)
    (hpending : s'.pending = s.pending)
    (hissued : SameConnections s.issued s'.issued)
    (hlost : s'.gone = true ∨ s'.channel ≠ s.channel) : s.pending.isEmpty := by
  rw [Std.ExtTreeMap.isEmpty_iff, Std.ExtTreeMap.eq_empty_iff_forall_not_mem]
  intro op hop
  obtain ⟨k, hwaits⟩ := Table.mem_iff.1 hop
  obtain ⟨-, i, ⟨hi, -⟩, -, hchannel, -⟩ := h.waiter op k hwaits
  obtain ⟨i', hi', hsame⟩ := hissued k i hi
  obtain ⟨-, hchannel', hgone⟩ := hgood.live op k (hpending ▸ hwaits) i' hi'
  rcases hlost with hlost | hne
  · cases hlost.symm.trans hgone
  · exact hne (hchannel'.symm.trans (hsame.trans hchannel))

theorem sameConnections_lose (s : Bridge) : SameConnections s.issued s.lose.issued := by
  intro k i hi
  refine ⟨_, getElem?_owe_of hi, ?_⟩
  split <;> rfl

/-- What an attempt to attach leaves of the waiters and of the commands. -/
theorem attach_frame (s : Bridge) (failed : TransportStatus) (outcome : AttachOutcome) :
    (s.attach failed outcome).pending = s.pending ∧
      ((s.attach failed outcome).channel = s.channel ∨
        (s.attach failed outcome).channel = some s.opened) ∧
      SameConnections s.issued (s.attach failed outcome).issued := by
  unfold Bridge.attach
  split
  · exact ⟨rfl, .inl rfl, fun k i hi => ⟨i, hi, rfl⟩⟩
  · split
    · exact ⟨rfl, .inl rfl, fun k i hi => ⟨i, hi, rfl⟩⟩
    · exact ⟨rfl, .inr rfl, s.sameConnections_lose⟩

/-- **The condition is needed.** -/
theorem Kept.timely (h : s.Kept) (i : Bridging) (hgood : (s.step i).Answered) : s.Timely i := by
  cases i with
  | register =>
    simp only [Timely]
    split
    · rename_i k op hworker
      have hholding := h.holding
      simp only [Holding, hworker] at hholding
      obtain ⟨-, i, ⟨hi, -, hunanswered, -⟩, hsent, -, hping, -⟩ := hholding
      simp only [Bridge.step, hworker] at hgood
      have hpaid := hgood.once k i hi hsent hping id
      intro i' hi'
      cases hi.symm.trans hi'
      cases hdue : i.due with
      | none => rfl
      | some due =>
        rw [hdue] at hpaid
        obtain ⟨a, ha, -⟩ := hpaid
        cases hunanswered.symm.trans ha
    · trivial
    · trivial
  | reconnect cursor outcome =>
    simp only [Timely]
    split
    · rename_i hidle
      simp only [Bridge.step, whenIdle, hidle] at hgood
      obtain ⟨hpending, hchannel, hissued⟩ :=
        attach_frame (s.detach cursor) .disconnected outcome
      -- the connection there was is not the one there is
      by_cases hnone : s.channel = none
      · rw [Std.ExtTreeMap.isEmpty_iff, Std.ExtTreeMap.eq_empty_iff_forall_not_mem]
        intro op hop
        obtain ⟨hstatus, -⟩ := h.alive op hop
        have := (h.connected hstatus).2
        rw [hnone] at this
        cases this
      · refine h.nobody_of_live hgood hpending (s.sameConnections_lose.trans hissued)
          (.inr fun heq => ?_)
        rcases hchannel with hchannel | hchannel
        · exact hnone (heq.symm.trans hchannel)
        · exact absurd (h.opened _ (heq.symm.trans hchannel)) (Nat.lt_irrefl _)
    · trivial
    · trivial
  | disconnect =>
    have hlost : s.disconnect.pending = s.pending ∧ s.disconnect.gone = true ∧
        s.disconnect.issued = s.lose.issued := by
      unfold Bridge.disconnect
      split <;> exact ⟨rfl, rfl, rfl⟩
    obtain ⟨hpending, hgone, hissued⟩ := hlost
    refine h.nobody_of_live hgood hpending ?_ (.inl hgone)
    rw [show (s.step .disconnect).issued = s.lose.issued from hissued]
    exact s.sameConnections_lose
  | handshake | command | send | close | read => trivial

end Steps

/-! ## Whole lives -/

/-- **Answers.** In every life of a bridge, every command that was sent is answered once
and nobody waits without a connection, if and only if no command is registered after its
reply was read or its connection lost, and nobody waits when a connection is lost or
replaced. -/
theorem answered_iff_timely (inputs : List Bridging) :
    (∀ done, done <+: inputs → (machine.run done).Answered) ↔
      machine.Meets Timely machine.init inputs :=
  machine.prefixes_iff_meets_of (I := Answered) (J := Kept)
    (fun _ i hkept _ => ⟨hkept.timely i, fun hok => (hkept.step i hok).answered⟩)
    (fun _ i hkept _ hok => hkept.step i hok) kept_new kept_new.answered

/-! ### A reply that is too fast -/

/-- The reply is read after the frame was sent, before the command is registered. -/
def fastReply : List Bridging :=
  [.handshake sampleAttach, .command ⟨sampleOperation, .runtimeStatus⟩, .send .sent,
    .read (.reply ⟨eventIdOf 0 0, sampleOperation, 0, .runtimeStatus "ready" 0⟩), .register]

/-- The command waits for an answer that was read already. -/
theorem not_answered : ¬ ∀ inputs, (machine.run inputs).Answered := by
  intro h
  have hgood := h fastReply
  generalize hs : machine.run fastReply = s at hgood
  have hlost : s.issued.map (fun i => (i.connection.isSome, i.ping, i.due.isSome)) =
      [(true, false, true)] ∧ s.answers.length = 0 ∧ (s.worker matches .idle) = true := by
    subst hs
    decide
  obtain ⟨hissued, hanswers, hworker⟩ := hlost
  obtain ⟨i, hi, hfields⟩ := List.map_eq_singleton_iff.1 hissued
  simp only [Prod.mk.injEq] at hfields
  obtain ⟨hsent, hping, hdue⟩ := hfields
  have hout : ¬ s.InHand 0 := by
    unfold InHand
    cases hw : s.worker <;> simp_all
  have hpaid := hgood.once 0 i (by rw [hi]; rfl) hsent hping hout
  obtain ⟨due, hdue⟩ := Option.isSome_iff_exists.1 hdue
  rw [hdue] at hpaid
  obtain ⟨a, ha, -⟩ := hpaid
  rw [answersTo, List.length_eq_zero_iff.1 hanswers] at ha
  cases ha

end Bridge

end Altior.Desktop
