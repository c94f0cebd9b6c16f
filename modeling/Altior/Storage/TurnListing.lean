import Altior.Storage.Acceptance

/-!
# The listed turns of a thread

`turns_for_thread` lists the turns of a thread by their start, a page at a time.  A
turn that many others of the thread start before is not on the first page, and
nothing keeps a thread from having that many: the run at the end starts any number
of turns.
-/

namespace Altior.Storage

open Domain Lib

/-! ## The first page of a sorted list -/

/-- An item on the first page has fewer than a page of items before it. -/
theorem countP_lt_of_mem_take {α : Type} (key : α → Int) {l : List α} {k : Nat} {x : α}
    (hl : l.Pairwise fun a b => key a ≤ key b) (hx : x ∈ l.take k) :
    l.countP (fun y => key y < key x) < k := by
  have hsplit : (l.take k ++ l.drop k).countP (fun y => decide (key y < key x)) =
      l.countP fun y => decide (key y < key x) := by rw [List.take_append_drop]
  rw [← List.take_append_drop k l, List.pairwise_append] at hl
  -- Nothing after the page is smaller, and the item itself is not.
  have hrest : (l.drop k).countP (fun y => decide (key y < key x)) = 0 := by
    rw [List.countP_eq_zero]
    intro y hy
    have hle := hl.2.2 x hx y hy
    simpa using hle
  have hpage : (l.take k).countP (fun y => decide (key y < key x)) < (l.take k).length := by
    refine Nat.lt_of_le_of_ne List.countP_le_length fun heq => ?_
    have hall := List.countP_eq_length.mp heq x hx
    simp at hall
  rw [← hsplit, List.countP_append, hrest]
  exact Nat.lt_of_lt_of_le hpage (by rw [List.length_take]; exact Nat.min_le_left _ _)

variable [SerdeJson]

open SerdeJson

/-- The turn is on the first page of its thread. -/
def Listed (s : Store) (threadId : ThreadId) (turnId : TurnId) : Prop :=
  ∃ row, (turnId.asStr, row) ∈ s.turnsForThread threadId turnListLimitMax

variable {threadId : ThreadId}

/-- A turn of the thread is listed only if fewer than a page of its turns start
before it. -/
theorem not_listed {s : Store} {turnId : TurnId} {row : TurnRow}
    (hrow : s.domain.projections.turn[turnId.asStr]? = some row)
    (earlier : List (String × TurnRow)) (hnodup : earlier.Nodup)
    (hcount : turnListLimitMax ≤ earlier.length)
    (hearlier : ∀ x ∈ earlier, s.domain.projections.turn[x.1]? = some x.2 ∧
      x.2.threadId = threadId.asStr ∧ 0 ≤ x.2.startedAt ∧ x.2.startedAt < row.startedAt) :
    ¬ Listed s threadId turnId := by
  rintro ⟨row', hmem⟩
  unfold Store.turnsForThread at hmem
  have hsorted := List.pairwise_insertionSort (fun a b : String × TurnRow =>
    a.2.startedAt ≤ b.2.startedAt) (s.domain.projections.turn.toList.filter fun x =>
      x.2.threadId == threadId.asStr
        && (-1 < x.2.startedAt || (x.2.startedAt == -1 && "" < x.1)))
  have hlt := countP_lt_of_mem_take (fun x : String × TurnRow => x.2.startedAt) hsorted hmem
  have hin := (List.mem_insertionSort _).1 (List.mem_of_mem_take hmem)
  obtain ⟨htable, -⟩ := List.mem_filter.1 hin
  have hsame := Std.ExtTreeMap.mem_toList_iff_getElem?_eq_some.1 htable
  rw [hrow, Option.some.injEq] at hsame
  subst hsame
  -- All the earlier ones are counted.
  have hsub : earlier ⊆ (((s.domain.projections.turn.toList.filter fun x =>
      x.2.threadId == threadId.asStr
        && (-1 < x.2.startedAt || (x.2.startedAt == -1 && "" < x.1))).insertionSort
      fun a b => a.2.startedAt ≤ b.2.startedAt).filter fun x =>
        decide (x.2.startedAt < row.startedAt)) := by
    intro x hx
    obtain ⟨hget, hthread, hzero, hbefore⟩ := hearlier x hx
    rw [List.mem_filter, List.mem_insertionSort, List.mem_filter]
    refine ⟨⟨Std.ExtTreeMap.mem_toList_iff_getElem?_eq_some.2 hget, ?_⟩, by simpa using hbefore⟩
    simp only [hthread, beq_self_eq_true, Bool.true_and, Bool.or_eq_true, decide_eq_true_eq]
    exact .inl (by omega)
  have hle := (List.subperm_of_subset hnodup hsub).length_le
  rw [← List.countP_eq_length_filter] at hle
  exact absurd (hcount.trans hle) (Nat.not_le.2 hlt)

/-! ## Starting turns -/

/-- A new start of a new turn is taken. -/
theorem append_turnStarted {d : DomainStore} {e : DomainEvent} {turnId : TurnId}
    (hkind : e.kind = .turnStarted) (hthread : e.threadId = some threadId)
    (hturn : e.turnId = some turnId) (hnow : e.occurredAt.toNat ≤ i64Max)
    (hnew : existingDomainEvent d e = none) (hmem : threadId.asStr ∈ d.projections.thread)
    (hfresh : turnId.asStr ∉ d.projections.turn) : ∃ seq d',
      appendDomainEvent d e = .ok (.appended seq, d') ∧
      d'.journal = d.journal ++ [durableRow seq e] ∧
      threadId.asStr ∈ d'.projections.thread ∧
      d'.projections.turn = d.projections.turn.insert turnId.asStr
        { threadId := threadId.asStr, operationId := e.operationId.map Id.asStr, state := "active"
          delivery := "absent", eventCount := 1, startedAt := e.occurredAt.toNat
          endedAt := none } := by
  have hvalid : validateDomainEventInTx d.projections e = .ok () := by
    refine validate_of_kind (by rw [hkind]; decide) (by rw [hkind]; rfl)
      (fun hother => by rw [hkind] at hother; cases hother) hthread hmem fun v _ => ?_
    unfold validateKind
    rw [hkind, hturn]
    exact bind_eq_ok.2 ⟨turnId, rfl, require_eq_ok.2 hfresh⟩
  obtain ⟨p, hfold⟩ : ∃ p, foldDomainEventInTx d.projections e (domainJournalMaxSeq d.journal + 1)
      e.occurredAt.toNat = .ok p := exists_fold (by rw [hkind]; rfl) hthread hmem
  have happend := append_of_fold hnow hnew hvalid hfold
  refine ⟨_, _, happend, rfl, mem_thread_step hfold hmem, ?_⟩
  have hnone : foldMemory d.projections e e.occurredAt.toNat = none := by
    unfold foldMemory
    rw [hkind]
  unfold foldDomainEventInTx at hfold
  simp only [hnone, hthread, hkind] at hfold
  have hturns := (updateThreadActivity_frame hfold).1
  change p.turn = _
  rw [hturns]
  unfold foldTurnScope
  simp only [hkind, hturn]
  unfold foldTurnStarted
  rw [if_neg hfresh]
  rfl

/-- The turn identifier with this number in its body. -/
def turnIdOf (i : UInt64) : TurnId :=
  hexId ['t', 'r', 'n'] [] [i] (by decide) (by decide) List.all_nil (by simp) (by simp [maxBodyLen])

/-- The start of the turn of this number, at the time of this number. -/
def numberedStart (payload : EventPayload) (threadId : ThreadId) (i : UInt64) : DomainEvent :=
  ⟨eventIdOf 0 i, some threadId, some (turnIdOf i), none, .turnStarted, payload, i⟩

/-- The row of the turn of this number. -/
def numberedTurn (threadId : ThreadId) (i : UInt64) : TurnRow where
  threadId := threadId.asStr
  operationId := none
  state := "active"
  delivery := "absent"
  eventCount := 1
  startedAt := i.toNat
  endedAt := none

/-- The thread has the first `n` numbered turns, and the others are still to come. -/
structure Crowded (threadId : ThreadId) (n : Nat) (d : DomainStore) : Prop where
  thread : threadId.asStr ∈ d.projections.thread
  started : ∀ i : UInt64, i.toNat < n →
    d.projections.turn[(turnIdOf i).asStr]? = some (numberedTurn threadId i)
  unstarted : ∀ i : UInt64, n ≤ i.toNat → (turnIdOf i).asStr ∉ d.projections.turn
  unrecorded : ∀ i : UInt64, n ≤ i.toNat → ∀ row ∈ d.journal, row.eventId ≠ (eventIdOf 0 i).asStr

/-- The start of the next turn is taken. -/
theorem Crowded.next {d : DomainStore} (payload : EventPayload) {i : UInt64}
    (h : Crowded threadId i.toNat d) (hi : i.toNat ≤ i64Max) :
    Crowded threadId (i.toNat + 1) (storeStep d (.append (numberedStart payload threadId i))) := by
  have hnew : existingDomainEvent d (numberedStart payload threadId i) = none := by
    unfold existingDomainEvent
    rw [List.find?_eq_none]
    intro row hrow heq
    exact h.unrecorded i (Nat.le_refl _) row hrow (beq_iff_eq.1 heq)
  obtain ⟨seq, d', happend, hjournal, hthread, hturns⟩ := append_turnStarted
    (e := numberedStart payload threadId i) rfl rfl rfl hi hnew h.thread
    (h.unstarted i (Nat.le_refl _))
  have hstep : storeStep d (.append (numberedStart payload threadId i)) = d' := by
    simp only [storeStep, happend]
  have hne (j : UInt64) (hj : j ≠ i) : (turnIdOf i).asStr ≠ (turnIdOf j).asStr := fun heq =>
    hj (hexId_singleton_inj heq).symm
  rw [hstep]
  refine ⟨hthread, fun j hj => ?_, fun j hj => ?_, fun j hj row hrow => ?_⟩
  · rw [hturns, Table.getElem?_insert_eq]
    split
    · rename_i heq
      rw [hexId_singleton_inj heq]
      rfl
    · rename_i hother
      refine h.started j (Nat.lt_of_le_of_ne (Nat.le_of_lt_succ hj) fun heq => hother ?_)
      rw [UInt64.toNat_inj.1 heq]
  · rw [hturns, Table.mem_insert_iff, not_or]
    have hlt : j ≠ i := fun heq => by
      rw [heq] at hj
      exact Nat.not_succ_le_self _ hj
    exact ⟨(hne j hlt).symm, h.unstarted j (Nat.le_of_succ_le hj)⟩
  · rw [hjournal, List.mem_append, List.mem_singleton] at hrow
    rcases hrow with hrow | rfl
    · exact h.unrecorded j (Nat.le_of_succ_le hj) row hrow
    · intro heq
      have hsame : (eventIdOf 0 i).asStr = (eventIdOf 0 j).asStr := heq
      have hnumbers := hexId_inj hsame rfl
      cases hnumbers
      exact Nat.not_succ_le_self _ hj

/-- The first `n` numbered starts. -/
def crowd (payload : EventPayload) (threadId : ThreadId) (n : Nat) : List DomainEvent :=
  (List.range n).map fun i => numberedStart payload threadId (UInt64.ofNat i)

/-- Any number of turns can be started in a thread. -/
theorem crowded_run {d : DomainStore} (payload : EventPayload) (h : Crowded threadId 0 d)
    {n : Nat} (hn : n ≤ i64Max) :
    Crowded threadId n (storeMachine.runFrom d (appends (crowd payload threadId n))) := by
  induction n with
  | zero => exact h
  | succ n ih =>
    have hcrowded := ih (Nat.le_of_succ_le hn)
    have hnat : (UInt64.ofNat n).toNat = n :=
      UInt64.toNat_ofNat_of_lt' (Nat.lt_of_le_of_lt (Nat.le_of_succ_le hn) (by decide))
    rw [← hnat] at hcrowded
    have hnext := hcrowded.next payload (by rw [hnat]; exact Nat.le_of_succ_le hn)
    rw [hnat] at hnext
    unfold appends crowd at hnext ⊢
    rw [List.range_succ, List.map_append, List.map_append, Machine.runFrom_append]
    exact hnext

/-- Once a page of turns is started the next ones are active and not listed. -/
theorem Crowded.unlisted {n : Nat} {s : Store} (h : Crowded threadId n s.domain) {i : UInt64}
    (hpage : turnListLimitMax ≤ i.toNat) (hi : i.toNat < n) :
    OpenTurn s.domain.projections threadId (turnIdOf i) ∧ ¬ Listed s threadId (turnIdOf i) := by
  have hrow := h.started i hi
  refine ⟨openTurn_iff.2 ⟨_, hrow, rfl, rfl⟩, ?_⟩
  have hnat : ∀ k < i.toNat, (UInt64.ofNat k).toNat = k := fun k hk =>
    UInt64.toNat_ofNat_of_lt' (hk.trans i.toNat_lt_size)
  refine not_listed hrow ((List.range i.toNat).map fun k =>
    ((turnIdOf (.ofNat k)).asStr, numberedTurn threadId (.ofNat k))) ?_ (by simpa using hpage) ?_
  · refine List.Nodup.map_on (fun a ha b hb heq => ?_) List.nodup_range
    have hsame := congrArg (fun x : String × TurnRow => x.2.startedAt) heq
    change ((UInt64.ofNat a).toNat : Int) = (UInt64.ofNat b).toNat at hsame
    rw [hnat a (List.mem_range.1 ha), hnat b (List.mem_range.1 hb)] at hsame
    exact Int.ofNat.inj hsame
  · intro x hx
    obtain ⟨k, hk, rfl⟩ := List.mem_map.1 hx
    have hlt := List.mem_range.1 hk
    refine ⟨h.started _ (by rw [hnat k hlt]; exact hlt.trans hi), rfl, Int.natCast_nonneg _, ?_⟩
    change ((UInt64.ofNat k).toNat : Int) < i.toNat
    rw [hnat k hlt]
    exact Int.ofNat_lt.2 hlt

end Altior.Storage
