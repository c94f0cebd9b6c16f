import Altior.Desktop.Turns

/-!
# What the recovery leaves of turns that ended

A recovery from a snapshot renews what is shown of a thread, and not the entries of the
turns that run (`apps/desktop/src/stores/applicationStore.ts`).  An entry goes when the
event that ends its turn is taken; when that event is lost it stays, and holds back
every further prompt of its thread.
-/

namespace Altior.Desktop

open Lib

/-- Whether an event is one of those by which a turn ends. -/
def StoreBody.Ends : StoreBody → Prop
  | turnCompleted | turnFailed _ | turnCancelled _ => True
  | turnStarted | messageDelta _ | permissionRequested _ _ | permissionDecided _ | streamGap
  | streamReplayed | streamReady | coreGreeting _ | coreRestarted _ | commandError _ _ | other _ =>
    False

instance : (body : StoreBody) → Decidable body.Ends
  | .turnCompleted | .turnFailed _ | .turnCancelled _ => isTrue trivial
  | .turnStarted | .messageDelta _ | .permissionRequested _ _ | .permissionDecided _ | .streamGap
  | .streamReplayed | .streamReady | .coreGreeting _ | .coreRestarted _ | .commandError _ _
  | .other _ => isFalse id

/-- A prompt that was not refused.  `answer` is the turn its answer names, once there is
an answer, and `ended` are the turns of its thread that ended since it was sent, as far
as the store took the events that say so. -/
structure PromptRecord where
  replyRow : String
  threadId : String
  answer : Option (Option String)
  ended : List (Option String)

namespace PromptRecord

/-- An answer came. -/
def told (replyRow : String) (turnId : Option String) (p : PromptRecord) : PromptRecord :=
  if p.replyRow = replyRow then { p with answer := some turnId } else p

/-- A turn of a thread ended. -/
def hear (threadId : String) (turnId : Option String) (p : PromptRecord) : PromptRecord :=
  if p.threadId = threadId then { p with ended := p.ended ++ [turnId] } else p

/-- The turn of the prompt is one a snapshot reports as active, or its end was heard of.
As long as it is not known which turn it is, the end of any will do. -/
def Accounted (snapshot : ThreadSnapshot) (p : PromptRecord) : Prop :=
  match p.answer with
  | some (some turnId) =>
    (∃ turn ∈ snapshot.turns, turn.id = turnId ∧ turn.state = "active") ∨
      some turnId ∈ p.ended ∨ none ∈ p.ended
  | some none | none => p.ended ≠ []

instance (snapshot : ThreadSnapshot) : (p : PromptRecord) → Decidable (p.Accounted snapshot)
  | ⟨_, _, some (some turnId), ended⟩ => inferInstanceAs (Decidable
      ((∃ turn ∈ snapshot.turns, turn.id = turnId ∧ turn.state = "active") ∨
        some turnId ∈ ended ∨ none ∈ ended))
  | ⟨_, _, some none, ended⟩ | ⟨_, _, none, ended⟩ => inferInstanceAs (Decidable (ended ≠ []))

end PromptRecord

/-- A store.  `sent` is history: the prompts that were sent and not refused. -/
structure Prompted where
  store : ApplicationStore
  sent : List PromptRecord

namespace Prompted

/-- What an input means for the prompts. -/
def follow (s : Prompted) : Storing → List PromptRecord
  | .sendPrompt text threadId =>
    -- a prompt that is held back makes no rows
    if (s.store.sendPrompt text threadId).rowCounter = s.store.rowCounter then s.sent
    else s.sent ++ [⟨ApplicationStore.replyRowId (s.store.rowCounter + 1),
      threadId.getD s.store.selectedThreadId, none, []⟩]
  | .answer replyRow answer _ =>
    match s.store.prompts.find? (fun p => p.1 = replyRow), answer with
    | none, _ => s.sent
    | some _, .admitted turnId => s.sent.map (.told replyRow turnId)
    | some _, .failed _ _ => s.sent.filter fun p => p.replyRow ≠ replyRow
  | .event event =>
    if event.body.Ends ∧ ¬ s.store.IsDuplicate event then
      s.sent.map (.hear (s.store.targetThreadId event) event.turnId)
    else s.sent
  | _ => s.sent

/-- A store with its prompts over its whole life. -/
def machine : Machine Prompted Storing where
  init := ⟨.new, []⟩
  step s i := ⟨s.store.step i, s.follow i⟩

/-- The thread and the snapshot with which a recovery comes to its end. -/
def recovered (s : Prompted) : Storing → Option (String × ThreadSnapshot)
  | .recover (.snapshot (some snapshot)) =>
    match s.store.recovery with
    | .snapshot threadId => some (threadId, snapshot)
    | _ => none
  | _ => none

/-- A recovery leaves no entry of the thread but of turns its snapshot reports as
active. -/
def LeavesActive (s : Prompted) (i : Storing) : Prop :=
  ∀ r ∈ s.recovered i, ∀ t ∈ (s.store.step i).activeTurns, t.threadId = r.1 →
    ∃ turn ∈ r.2.turns, t.turnId = some turn.id ∧ turn.state = "active"

/-- When a recovery ends, every prompt of the thread is accounted for. -/
def FindsAccounted (s : Prompted) (i : Storing) : Prop :=
  ∀ r ∈ s.recovered i, ∀ p ∈ s.sent, p.threadId = r.1 → p.Accounted r.2

instance (s : Prompted) (i : Storing) : Decidable (s.LeavesActive i) :=
  inferInstanceAs (Decidable (∀ r ∈ s.recovered i, ∀ t ∈ (s.store.step i).activeTurns,
    t.threadId = r.1 → ∃ turn ∈ r.2.turns, t.turnId = some turn.id ∧ turn.state = "active"))

instance (s : Prompted) (i : Storing) : Decidable (s.FindsAccounted i) :=
  inferInstanceAs (Decidable (∀ r ∈ s.recovered i, ∀ p ∈ s.sent, p.threadId = r.1 →
    p.Accounted r.2))

/-! ## What is known of an entry -/

/-- The end of a turn, as an event names it, is not taken for the end of the turn of an
entry. -/
def Apart (t : ActiveTurnState) (turnId : Option String) : Prop :=
  t.turnId ≠ none ∧ turnId ≠ none ∧ t.turnId ≠ turnId

/-- A thread has one entry at most, and every entry is one of a prompt that was sent,
since which no end was taken for that of its turn. -/
structure Followed (s : Prompted) : Prop where
  distinct : (s.store.activeTurns.map ActiveTurnState.threadId).Nodup
  made : ∀ t ∈ s.store.activeTurns, ∃ n ≤ s.store.rowCounter,
    t.replyRowId = ApplicationStore.replyRowId n
  waiting : ∀ q ∈ s.store.prompts, ∃ n ≤ s.store.rowCounter, q.1 = ApplicationStore.replyRowId n
  flight : ∀ q ∈ s.store.prompts, ∀ t ∈ s.store.activeTurns, t.replyRowId = q.1 →
    t.threadId = q.2 ∧ t.turnId = none
  record : ∀ t ∈ s.store.activeTurns, ∃ p ∈ s.sent, p.replyRow = t.replyRowId ∧
    p.threadId = t.threadId ∧ t.turnId = p.answer.getD none ∧ ∀ turnId ∈ p.ended, Apart t turnId

variable {s : Prompted} {store : ApplicationStore}

/-- An entry of a prompt that is accounted for is one the snapshot reports as active. -/
theorem Followed.active (h : s.Followed) {snapshot : ThreadSnapshot} {t : ActiveTurnState}
    (ht : t ∈ s.store.activeTurns)
    (haccounted : ∀ p ∈ s.sent, p.threadId = t.threadId → p.Accounted snapshot) :
    ∃ turn ∈ snapshot.turns, t.turnId = some turn.id ∧ turn.state = "active" := by
  obtain ⟨p, hp, -, hthread, hturn, hended⟩ := h.record t ht
  have hover := haccounted p hp hthread
  unfold PromptRecord.Accounted at hover
  -- no end was taken for that of an entry without a turn
  have hnone (hwaits : t.turnId = none) : p.ended = [] :=
    List.eq_nil_iff_forall_not_mem.2 fun turnId hmem => (hended turnId hmem).1 hwaits
  split at hover
  · rename_i turnId hanswer
    rw [hanswer] at hturn
    rcases hover with ⟨turn, hmem, hid, hactive⟩ | hmem | hmem
    · exact ⟨turn, hmem, by rw [hturn, hid]; rfl, hactive⟩
    · exact absurd hturn (hended _ hmem).2.2
    · exact absurd rfl (hended _ hmem).2.1
  · rename_i hanswer
    rw [hanswer] at hturn
    exact absurd (hnone hturn) hover
  · rename_i hanswer
    rw [hanswer] at hturn
    exact absurd (hnone hturn) hover

/-- Where no prompt is sent and no more is known of the prompts. -/
theorem Followed.quiet (h : s.Followed) (hquiet : s.store.Quiet store) :
    Followed ⟨store, s.sent⟩ where
  distinct := by
    have htags := hquiet.fewer.map Prod.fst
    rw [List.map_map, List.map_map] at htags
    exact htags.nodup h.distinct
  made t ht := by
    obtain ⟨t₀, ht₀, -, hrow, -⟩ := hquiet.fewer.exists ht
    obtain ⟨n, hn, heq⟩ := h.made t₀ ht₀
    exact ⟨n, hquiet.rowCounter ▸ hn, hrow.trans heq⟩
  waiting q hq := by
    obtain ⟨n, hn, heq⟩ := h.waiting q (hquiet.prompts.subset hq)
    exact ⟨n, hquiet.rowCounter ▸ hn, heq⟩
  flight q hq t ht hrow := by
    obtain ⟨t₀, ht₀, hthread₀, hrow₀, hturn₀⟩ := hquiet.fewer.exists ht
    rw [hthread₀, hturn₀]
    exact h.flight q (hquiet.prompts.subset hq) t₀ ht₀ (hrow₀ ▸ hrow)
  record t ht := by
    obtain ⟨t₀, ht₀, hthread₀, hrow₀, hturn₀⟩ := hquiet.fewer.exists ht
    obtain ⟨p, hp, hrow, hthread, hturn, hended⟩ := h.record t₀ ht₀
    refine ⟨p, hp, hrow.trans hrow₀.symm, hthread.trans hthread₀.symm, hturn₀.trans hturn,
      fun turnId hmem => ?_⟩
    unfold Apart
    rw [hturn₀]
    exact hended turnId hmem

/-- A prompt was sent. -/
theorem Followed.sent (h : s.Followed) {threadId text : String}
    (hsent : s.store.Sent store threadId text) :
    Followed ⟨store, s.sent ++
      [⟨ApplicationStore.replyRowId (s.store.rowCounter + 1), threadId, none, []⟩]⟩ := by
  have hnew {n : Nat} (hn : n ≤ s.store.rowCounter)
      (heq : ApplicationStore.replyRowId n = ApplicationStore.replyRowId (s.store.rowCounter + 1)) :
      False := by
    have := ApplicationStore.replyRowId_inj heq
    omega
  have hmore {n : Nat} (hn : n ≤ s.store.rowCounter) : n ≤ store.rowCounter := by
    rw [hsent.rowCounter]
    exact Nat.le_succ_of_le hn
  have hlast : s.store.rowCounter + 1 ≤ store.rowCounter := Nat.le_of_eq hsent.rowCounter.symm
  refine ⟨?_, fun t ht => ?_, fun q hq => ?_, fun q hq t ht hrow => ?_, fun t ht => ?_⟩
  · change (store.activeTurns.map _).Nodup
    rw [hsent.activeTurns, List.map_append, List.nodup_append']
    refine ⟨h.distinct, List.nodup_singleton _, fun other hold hmine => ?_⟩
    obtain ⟨t, ht, rfl⟩ := List.mem_map.1 hold
    exact hsent.free t ht (List.mem_singleton.1 hmine)
  · rcases List.mem_append.1 (hsent.activeTurns ▸ ht) with hold | hmine
    · obtain ⟨n, hn, heq⟩ := h.made t hold
      exact ⟨n, hmore hn, heq⟩
    · exact ⟨_, hlast, by rw [List.mem_singleton.1 hmine]⟩
  · rcases List.mem_append.1 (hsent.prompts ▸ hq) with hold | hmine
    · obtain ⟨n, hn, heq⟩ := h.waiting q hold
      exact ⟨n, hmore hn, heq⟩
    · exact ⟨_, hlast, by rw [List.mem_singleton.1 hmine]⟩
  · rcases List.mem_append.1 (hsent.activeTurns ▸ ht) with hold | hmine
    · rcases List.mem_append.1 (hsent.prompts ▸ hq) with hold' | hmine'
      · exact h.flight q hold' t hold hrow
      · -- an entry of before has not the row of the new prompt
        obtain ⟨n, hn, heq⟩ := h.made t hold
        rw [List.mem_singleton.1 hmine', heq] at hrow
        exact absurd (hnew hn hrow) id
    · rw [List.mem_singleton.1 hmine] at hrow ⊢
      rcases List.mem_append.1 (hsent.prompts ▸ hq) with hold' | hmine'
      · obtain ⟨n, hn, heq⟩ := h.waiting q hold'
        exact absurd (hnew hn (heq.symm.trans hrow.symm)) id
      · rw [List.mem_singleton.1 hmine']
        exact ⟨rfl, rfl⟩
  · rcases List.mem_append.1 (hsent.activeTurns ▸ ht) with hold | hmine
    · obtain ⟨p, hp, hrecord⟩ := h.record t hold
      exact ⟨p, List.mem_append_left _ hp, hrecord⟩
    · refine ⟨_, List.mem_append_right _ (List.mem_singleton.2 rfl), ?_⟩
      rw [List.mem_singleton.1 hmine]
      exact ⟨rfl, rfl, rfl, fun turnId hmem => absurd hmem List.not_mem_nil⟩

/-- A prompt was admitted. -/
theorem Followed.admitted (h : s.Followed) {replyRow threadId : String} {turnId : Option String}
    (hwaits : (replyRow, threadId) ∈ s.store.prompts)
    (hturns : store.activeTurns = s.store.activeTurns.map fun t =>
      if t.replyRowId = replyRow ∧ t.threadId = threadId then { t with turnId := turnId } else t)
    (hcounter : store.rowCounter = s.store.rowCounter)
    (hprompts : store.prompts = s.store.prompts.filter fun p => p.1 ≠ replyRow) :
    Followed ⟨store, s.sent.map (.told replyRow turnId)⟩ := by
  -- an entry is as it was, but for its turn
  have hold {t : ActiveTurnState} (ht : t ∈ store.activeTurns) : ∃ t₀ ∈ s.store.activeTurns,
      t.threadId = t₀.threadId ∧ t.replyRowId = t₀.replyRowId ∧
        (t₀.replyRowId = replyRow ∧ t.turnId = turnId ∨
          t₀.replyRowId ≠ replyRow ∧ t.turnId = t₀.turnId) := by
    obtain ⟨t₀, ht₀, rfl⟩ := List.mem_map.1 (hturns ▸ ht)
    refine ⟨t₀, ht₀, ?_⟩
    by_cases hrow : t₀.replyRowId = replyRow
    · have hmine := (h.flight _ hwaits t₀ ht₀ hrow).1
      rw [if_pos ⟨hrow, hmine⟩]
      exact ⟨rfl, rfl, .inl ⟨hrow, rfl⟩⟩
    · rw [if_neg fun hboth => hrow hboth.1]
      exact ⟨rfl, rfl, .inr ⟨hrow, rfl⟩⟩
  refine ⟨?_, fun t ht => ?_, fun q hq => ?_, fun q hq t ht hrow => ?_, fun t ht => ?_⟩
  · change (store.activeTurns.map _).Nodup
    rw [hturns, List.map_map]
    refine (List.map_congr_left fun t _ => ?_) ▸ h.distinct
    simp only [Function.comp_apply]
    split <;> rfl
  · obtain ⟨t₀, ht₀, -, hrow, -⟩ := hold ht
    obtain ⟨n, hn, heq⟩ := h.made t₀ ht₀
    exact ⟨n, hcounter ▸ hn, hrow.trans heq⟩
  · obtain ⟨n, hn, heq⟩ := h.waiting q (List.mem_filter.1 (hprompts ▸ hq)).1
    exact ⟨n, hcounter ▸ hn, heq⟩
  · obtain ⟨hq, hother⟩ := List.mem_filter.1 (hprompts ▸ hq)
    obtain ⟨t₀, ht₀, hthread, hrow₀, ⟨hmine, -⟩ | ⟨-, hturn⟩⟩ := hold ht
    · exact absurd (hrow.symm.trans (hrow₀.trans hmine)) (of_decide_eq_true hother)
    · rw [hthread, hturn]
      exact h.flight q hq t₀ ht₀ (hrow₀ ▸ hrow)
  · obtain ⟨t₀, ht₀, hthread, hrow, hcase⟩ := hold ht
    obtain ⟨p, hp, hprow, hpthread, hpturn, hended⟩ := h.record t₀ ht₀
    refine ⟨_, List.mem_map_of_mem hp, ?_⟩
    unfold PromptRecord.told
    rcases hcase with ⟨hmine, hturn⟩ | ⟨hother, hturn⟩
    · rw [if_pos (hprow.trans hmine)]
      refine ⟨hprow.trans hrow.symm, hpthread.trans hthread.symm, hturn, fun x hmem => ?_⟩
      -- it waited for its turn, so that no end was taken
      exact absurd (h.flight _ hwaits t₀ ht₀ hmine).2 (hended x hmem).1
    · rw [if_neg fun heq => hother (hprow.symm.trans heq)]
      refine ⟨hprow.trans hrow.symm, hpthread.trans hthread.symm, hturn.trans hpturn,
        fun x hmem => ?_⟩
      unfold Apart
      rw [hturn]
      exact hended x hmem

/-- A prompt was refused. -/
theorem Followed.refused (h : s.Followed) (hquiet : s.store.Quiet store) {replyRow : String}
    (hgone : ∀ t ∈ store.activeTurns, t.replyRowId ≠ replyRow) :
    Followed ⟨store, s.sent.filter fun p => p.replyRow ≠ replyRow⟩ := by
  have hquieted := h.quiet hquiet
  refine { hquieted with record := fun t ht => ?_ }
  obtain ⟨p, hp, hrow, hrest⟩ := hquieted.record t ht
  exact ⟨p, List.mem_filter.2 ⟨hp, decide_eq_true (hrow ▸ hgone t ht)⟩, hrow, hrest⟩

/-- The end of a turn was taken. -/
theorem Followed.ended (h : s.Followed) (hquiet : s.store.Quiet store) {threadId : String}
    {turnId : Option String}
    (hturns : ∀ t ∈ store.activeTurns, t ∈ s.store.activeTurns ∧
      (t.threadId = threadId → Apart t turnId)) :
    Followed ⟨store, s.sent.map (.hear threadId turnId)⟩ := by
  refine { h.quiet hquiet with record := fun t ht => ?_ }
  obtain ⟨ht₀, hapart⟩ := hturns t ht
  obtain ⟨p, hp, hrow, hthread, hturn, hended⟩ := h.record t ht₀
  refine ⟨_, List.mem_map_of_mem hp, ?_⟩
  unfold PromptRecord.hear
  by_cases hmine : p.threadId = threadId
  · rw [if_pos hmine]
    refine ⟨hrow, hthread, hturn, fun x hmem => ?_⟩
    rcases List.mem_append.1 hmem with hold | hnew
    · exact hended x hold
    · rw [List.mem_singleton.1 hnew]
      exact hapart (hthread.symm.trans hmine)
  · rw [if_neg hmine]
    exact ⟨hrow, hthread, hturn, hended⟩

/-! ## Runs -/

/-- The entry an end is for goes, and any other is apart from it. -/
theorem Followed.apart_of_mem_route (h : s.Followed) {event : StoreEvent} (hends : event.body.Ends)
    {t : ActiveTurnState} (ht : t ∈ (s.store.route event).activeTurns) :
    t ∈ s.store.activeTurns ∧
      (t.threadId = s.store.targetThreadId event → Apart t event.turnId) := by
  have hgone : (s.store.route event).activeTurns =
      (s.store.turnForEvent (s.store.targetThreadId event) event.turnId).elim s.store.activeTurns
        fun turn => s.store.activeTurns.filter fun t => t.replyRowId ≠ turn.replyRowId := by
    unfold ApplicationStore.route
    dsimp only
    cases hbody : event.body with
    | turnCompleted | turnFailed | turnCancelled =>
      dsimp only
      cases s.store.turnForEvent (s.store.targetThreadId event) event.turnId <;> rfl
    | _ =>
      rw [hbody] at hends
      exact absurd hends id
  rw [hgone] at ht
  cases hfind : s.store.turnForEvent (s.store.targetThreadId event) event.turnId with
  | none =>
    rw [hfind] at ht
    refine ⟨ht, fun hthread => ?_⟩
    have hother := List.find?_eq_none.1 hfind t ht
    simpa [hthread, Apart, Option.isNone_iff_eq_none, and_assoc] using hother
  | some turn =>
    rw [hfind] at ht
    obtain ⟨hmem, hother⟩ := List.mem_filter.1 ht
    refine ⟨hmem, fun hthread => ?_⟩
    -- there is no other entry of the thread
    have hsame : t = turn := by
      have hfits := List.find?_some hfind
      simp only [Bool.and_eq_true, decide_eq_true_eq] at hfits
      exact List.inj_on_of_nodup_map h.distinct hmem (List.mem_of_find?_eq_some hfind)
        (hthread.trans hfits.1.symm)
    exact absurd (congrArg ActiveTurnState.replyRowId hsame) (of_decide_eq_true hother)

theorem Followed.step (h : s.Followed) (i : Storing) : (machine.step s i).Followed := by
  cases i with
  | list threadIds => exact h.quiet (ApplicationStore.quiet_applyListPage threadIds)
  | create threadId => exact h.quiet (.of_frame rfl rfl rfl rfl)
  | select threadId => exact h.quiet (.of_frame rfl rfl rfl rfl)
  | sendPrompt text threadId =>
    change Followed ⟨s.store.sendPrompt text threadId, s.follow (.sendPrompt text threadId)⟩
    rcases ApplicationStore.sendPrompt_cases s.store text threadId with ⟨error, heq⟩ | hsent
    · have hsame : s.follow (.sendPrompt text threadId) = s.sent := if_pos (by rw [heq])
      rw [hsame, heq]
      exact h.quiet (.of_frame rfl rfl rfl rfl)
    · have hmore : (s.store.sendPrompt text threadId).rowCounter ≠ s.store.rowCounter := by
        rw [hsent.rowCounter]
        exact Nat.succ_ne_self _
      have hfollow : s.follow (.sendPrompt text threadId) = s.sent ++ [⟨ApplicationStore.replyRowId
          (s.store.rowCounter + 1), threadId.getD s.store.selectedThreadId, none, []⟩] :=
        if_neg hmore
      rw [hfollow]
      exact h.sent hsent
  | answer replyRow answer now =>
    change Followed ⟨s.store.answerPrompt replyRow answer now,
      s.follow (.answer replyRow answer now)⟩
    cases hfind : s.store.prompts.find? fun p => p.1 = replyRow with
    | none =>
      simp only [follow, ApplicationStore.answerPrompt, hfind]
      exact h
    | some q =>
      obtain ⟨row, threadId⟩ := q
      obtain rfl : row = replyRow := by simpa using List.find?_some hfind
      cases answer with
      | admitted turnId =>
        simp only [follow, ApplicationStore.answerPrompt, hfind]
        exact h.admitted (List.mem_of_find?_eq_some hfind) rfl rfl rfl
      | failed indeterminate reason =>
        have hquiet := ApplicationStore.quiet_answer_failed (s := s.store) row indeterminate
          reason now
        simp only [follow, ApplicationStore.answerPrompt, hfind] at hquiet ⊢
        exact h.refused hquiet fun t ht => of_decide_eq_true (List.mem_filter.1 ht).2
  | cancel threadId => exact h.quiet (ApplicationStore.quiet_cancelActiveTurn threadId)
  | cancelFailed replyRow reason => exact h.quiet (ApplicationStore.quiet_cancelFailed replyRow reason)
  | decide rowId => exact h.quiet (ApplicationStore.quiet_decidePermission rowId)
  | decided threadId rowId decision =>
    exact h.quiet (ApplicationStore.quiet_permissionAnswered threadId rowId decision)
  | history threadId answer =>
    exact h.quiet (ApplicationStore.quiet_updateView _ fun v => v.kept_getHistory none _)
  | older threadId answer =>
    exact h.quiet (ApplicationStore.quiet_updateView _ fun v => v.kept_loadOlderHistory _)
  | snapshot threadId snapshot =>
    exact h.quiet (ApplicationStore.quiet_applyThreadSnapshot threadId snapshot)
  | event event =>
    change Followed ⟨s.store.handleIncomingEvent event, s.follow (.event event)⟩
    by_cases htaken : event.body.Ends ∧ ¬ s.store.IsDuplicate event
    · have hfollow : s.follow (.event event) =
          s.sent.map (.hear (s.store.targetThreadId event) event.turnId) := if_pos htaken
      rw [hfollow]
      refine h.ended ApplicationStore.quiet_handleIncomingEvent fun t ht => ?_
      have hgreet : s.store.greet event = s.store := ApplicationStore.greet_of_none <| by
        have hends := htaken.1
        cases hbody : event.body <;> rw [hbody] at hends <;> first | rfl | exact absurd hends id
      unfold ApplicationStore.handleIncomingEvent at ht
      rw [hgreet] at ht
      dsimp only at ht
      rw [if_neg htaken.2] at ht
      have hrecorded : Followed ⟨s.store.recordEvent event, s.sent⟩ :=
        h.quiet (.of_frame rfl rfl rfl rfl)
      exact hrecorded.apart_of_mem_route htaken.1 ht
    · have hfollow : s.follow (.event event) = s.sent := if_neg htaken
      rw [hfollow]
      exact h.quiet ApplicationStore.quiet_handleIncomingEvent
  | recover answer => exact h.quiet (ApplicationStore.quiet_recover answer)

/-- When a recovery ends with every prompt of the thread accounted for, it leaves no
entry but of turns that are active. -/
theorem Followed.leavesActive (h : s.Followed) {i : Storing} (hi : s.FindsAccounted i) :
    s.LeavesActive i := by
  intro r hrecovered t ht hthread
  obtain ⟨answer, rfl⟩ : ∃ answer, i = .recover answer := by
    unfold recovered at hrecovered
    split at hrecovered
    · exact ⟨_, rfl⟩
    · cases hrecovered
  exact (h.quiet (ApplicationStore.quiet_recover answer)).active ht fun p hp hmine =>
    hi r hrecovered p hp (hmine.trans hthread)

/-- In a run in which at the end of every recovery the prompts of its thread are
accounted for, no recovery leaves an entry but of turns that are active. -/
theorem leavesActive_of_accounted (inputs : List Storing)
    (h : machine.Meets FindsAccounted machine.init inputs) :
    machine.Meets LeavesActive machine.init inputs := by
  have hinit : machine.init.Followed :=
    ⟨List.nodup_nil, fun t ht => absurd ht List.not_mem_nil, fun q hq => absurd hq List.not_mem_nil,
      fun q hq => absurd hq List.not_mem_nil, fun t ht => absurd ht List.not_mem_nil⟩
  exact machine.meets_of_invariant (fun s i hs _ => hs.step i) (fun s i hs hi => hs.leavesActive hi)
    hinit h

/-! ### An end that is heard of, and one that is lost -/

/-- A gap, and a recovery in which the turn is reported as ended. -/
def sampleRecovery (sequence : Nat) : List Storing :=
  [.event (ApplicationStore.sampleEvent sequence "trn_1" .streamGap),
    .recover (.threads (some ["thr_1"])), .recover (.history (some ⟨[], [], none, false⟩)),
    .recover (.snapshot (some ⟨"thr_1", [⟨"trn_1", "completed"⟩], []⟩))]

theorem leavesActive_of_accounted_sample : machine.Meets LeavesActive machine.init
    (ApplicationStore.sampleTurn ++ sampleRecovery 2) :=
  leavesActive_of_accounted _ (by decide)

/-- The event that ends a turn is lost in a gap, and its entry stays. -/
theorem not_leavesActive : ¬ ∀ inputs : List Storing,
    machine.Meets LeavesActive machine.init inputs := fun h =>
  absurd (h (ApplicationStore.sampleTurn.take 3 ++ sampleRecovery 1)) (by decide)

end Prompted

end Altior.Desktop
