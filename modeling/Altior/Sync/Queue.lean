import Altior.Lib.Positions
import Altior.Sync.Exchange

/-!
# What the relay holds

The relay as its readers see it: the queue of a bucket is its positions and
envelopes.  Fetching leaves the queues alone, pushing appends to one of them, and
every envelope carries the payload it was sealed from.
-/

namespace Altior.Sync

open Lib Crypto

namespace Relay

variable {π : Type}

/-- The positions and payloads of a bucket. -/
def queue (r : Relay π) (label : String) : List (Nat × π) :=
  (r.bucket label).entries.map fun entry => (entry.seq, entry.payload)

/-- The part of the queue after a position. -/
def queueAfter (r : Relay π) (label : String) (after : Nat) : List (Nat × π) :=
  (r.queue label).filter fun item => after < item.1

theorem queueAfter_eq (r : Relay π) (label : String) (after : Nat) :
    r.queueAfter label after =
      (entriesAfter (r.bucket label) after).map fun entry => (entry.seq, entry.payload) := by
  rw [queueAfter, queue, List.filter_map]
  rfl

/-- A relay in which nothing was queued or removed. -/
structure Same (r r' : Relay π) : Prop where
  queue : ∀ label, r'.queue label = r.queue label
  nextSeq : r'.nextSeq = r.nextSeq

theorem Same.refl (r : Relay π) : r.Same r := ⟨fun _ => rfl, rfl⟩

theorem Same.trans {r r' r'' : Relay π} (h : r.Same r') (h' : r'.Same r'') : r.Same r'' :=
  ⟨fun label => (h'.queue label).trans (h.queue label), h'.nextSeq.trans h.nextSeq⟩

theorem bucket_insert (r : Relay π) (buckets : Table String (Bucket π)) (label : String)
    (slot : Bucket π) (x : String) :
    ({ r with buckets := buckets.insert label slot } : Relay π).bucket x =
      if label = x then slot else ({ r with buckets := buckets } : Relay π).bucket x := by
  simp only [bucket, Table.getElem?_insert_eq]
  split <;> rfl

/-- The position after a page. -/
def pageEnd (slot : Bucket π) (after limit : Nat) : Nat :=
  (((entriesAfter slot after).take limit).getLast?.map QueueEntry.seq).getD after

/-- The page of a bucket. -/
def page (slot : Bucket π) (after limit : Nat) : FetchPage π :=
  if after < slot.compactedUpTo then .compacted slot.compactedUpTo
  else if slot.frontier < after then .invalidCursor after slot.frontier
  else .entries
    (((entriesAfter slot after).take limit).map fun entry => ⟨entry.seq, entry.id, entry.payload⟩)
    (pageEnd slot after limit) (limit < (entriesAfter slot after).length)

/-- A bucket after a page of it was fetched. -/
def afterPage (slot : Bucket π) (mark : QueueEntry π → QueueEntry π) (after limit : Nat) :
    Bucket π :=
  { slot with
    entries := slot.entries.map mark
    cursor := max (max slot.cursor after) (pageEnd slot after limit) }

/-- A bucket that was never pushed to answers as an empty one. -/
theorem fetch_page (r : Relay π) (label : String) (after limit : Nat) :
    (r.fetch label after limit).1 = page (r.bucket label) after limit := by
  unfold fetch
  split
  · rename_i hnone
    have hbucket : r.bucket label = .empty := by simp [bucket, hnone]
    rw [hbucket]
    split
    · rename_i hafter
      exact ((if_neg (Nat.not_lt_zero _)).trans (if_pos hafter)).symm
    · rename_i hafter
      refine ((if_neg (Nat.not_lt_zero _)).trans ((if_neg hafter).trans ?_)).symm
      simp [entriesAfter, pageEnd, Bucket.empty]
  · rename_i slot hslot
    have hbucket : r.bucket label = slot := by simp [bucket, hslot]
    rw [hbucket]
    unfold page
    split
    · rfl
    · split <;> rfl

/-- A fetch leaves the relay alone, or marks entries of its bucket as fetched and
moves the cursor to the end of the page. -/
theorem fetch_cases (r : Relay π) (label : String) (after limit : Nat) :
    (r.fetch label after limit).2 = r ∨
    ∃ mark : QueueEntry π → QueueEntry π,
      (∀ entry, mark entry = { entry with fetched := (mark entry).fetched }) ∧
      after ≤ (r.bucket label).frontier ∧
      (∃ items more, (r.fetch label after limit).1 =
        .entries items (pageEnd (r.bucket label) after limit) more) ∧
      (r.fetch label after limit).2 =
        { r with buckets := r.buckets.insert label (afterPage (r.bucket label) mark after limit) } := by
  unfold fetch
  split
  · split <;> exact .inl rfl
  · rename_i slot hslot
    have hbucket : r.bucket label = slot := by simp [bucket, hslot]
    rw [hbucket]
    split
    · exact .inl rfl
    split
    · exact .inl rfl
    · rename_i hfrontier
      refine .inr ⟨_, fun entry => ?_, Nat.le_of_not_lt hfrontier, ⟨_, _, rfl⟩, rfl⟩
      split <;> rfl

/-- A fetch leaves the queues alone. -/
theorem fetch_same (r : Relay π) (label : String) (after limit : Nat) :
    r.Same (r.fetch label after limit).2 := by
  obtain heq | ⟨mark, hmark, -, -, heq⟩ := r.fetch_cases label after limit
  · rw [heq]
    exact .refl r
  · rw [heq]
    refine ⟨fun x => ?_, rfl⟩
    simp only [queue, bucket_insert]
    split
    · rename_i hx
      subst hx
      rw [afterPage, List.map_map]
      refine List.map_congr_left fun entry _ => ?_
      rw [Function.comp_apply, hmark]
    · rfl

/-- A fetch that gives no page changes nothing; one that does moves the relay's
mark in the bucket at most to the end of the page. -/
theorem fetch_bucket (r : Relay π) (label : String) (after limit : Nat) :
    (r.fetch label after limit).2.nextSeq = r.nextSeq ∧
    (∀ x, x ≠ label → (r.fetch label after limit).2.bucket x = r.bucket x) ∧
    ((r.fetch label after limit).2 = r ∨
      ∃ items next more, (r.fetch label after limit).1 = .entries items next more ∧
        ((r.fetch label after limit).2.bucket label).cursor =
          max (max (r.bucket label).cursor after) next) := by
  obtain heq | ⟨mark, -, -, ⟨items, more, hpage⟩, heq⟩ := r.fetch_cases label after limit
  · exact ⟨by rw [heq], fun x _ => by rw [heq], .inl heq⟩
  · refine ⟨by rw [heq], fun x hx => ?_, .inr ⟨items, _, more, hpage, ?_⟩⟩
    · rw [heq, bucket_insert, if_neg (Ne.symm hx)]
    · rw [heq, bucket_insert, if_pos rfl, afterPage]

/-- The page of a fetch is the front of what is queued after the position. -/
theorem fetch_entries {r r' : Relay π} {label : String} {after limit nextCursor : Nat}
    {items : List (FetchedItem π)} {hasMore : Bool}
    (h : r.fetch label after limit = (.entries items nextCursor hasMore, r')) :
    items.map (fun item => (item.seq, item.payload)) = (r.queueAfter label after).take limit ∧
      nextCursor = (((r.queueAfter label after).take limit).getLast?.map Prod.fst).getD after ∧
      hasMore = decide (limit < (r.queueAfter label after).length) := by
  have hpage := r.fetch_page label after limit
  rw [h] at hpage
  unfold page at hpage
  split at hpage
  · cases hpage
  split at hpage
  · cases hpage
  cases hpage
  rw [queueAfter_eq]
  simp [pageEnd, List.getLast?_map, ← List.map_take, Function.comp_def]

/-- Room for one more entry in a bucket. -/
structure Admits (policy : RelayPolicy) (len : π → Nat) (b : Bucket π) (id : String)
    (payload : π) : Prop where
  fresh : ∀ entry ∈ b.entries, entry.id ≠ id
  bytes : b.retainedBytes len + len payload ≤ policy.maxBucketBytes
  depth : b.entries.length < policy.maxBucketDepth

/-- A push leaves every bucket alone, or adds one entry to its own. -/
theorem push_bucket [DecidableEq π] (len : π → Nat) (r : Relay π) (label id : String)
    (payload : π) :
    ((∀ seq, (r.push len label id payload).1 ≠ .ok (.pushed seq)) ∧
      (r.push len label id payload).2.nextSeq = r.nextSeq ∧
      ∀ x, (r.push len label id payload).2.bucket x = r.bucket x) ∨
    ((r.push len label id payload).1 = .ok (.pushed r.nextSeq) ∧
      (r.push len label id payload).2.nextSeq = r.nextSeq + 1 ∧
      (∀ x, (r.push len label id payload).2.bucket x =
        if label = x then { r.bucket label with
          entries := (r.bucket label).entries ++ [⟨r.nextSeq, id, payload, r.tick, false⟩] }
        else r.bucket x) ∧
      Admits r.policy len (r.bucket label) id payload) := by
  have htouch (x : String) :
      ({ r with buckets := r.buckets.insert label (r.bucket label) } : Relay π).bucket x =
        r.bucket x := by
    rw [bucket_insert]
    split
    · rename_i hx
      rw [hx]
    · rfl
  unfold push
  split
  · exact .inl ⟨by simp, rfl, fun _ => rfl⟩
  split
  · exact .inl ⟨by simp, rfl, fun _ => rfl⟩
  dsimp only
  split
  · split <;> exact .inl ⟨by simp, rfl, htouch⟩
  rename_i hfresh
  split
  · exact .inl ⟨by simp, rfl, htouch⟩
  rename_i hbytes
  split
  · exact .inl ⟨by simp, rfl, htouch⟩
  rename_i hdepth
  refine .inr ⟨rfl, rfl, fun x => ?_, fun entry hentry hid => ?_, Nat.le_of_not_lt hbytes,
    Nat.lt_of_not_le hdepth⟩
  · simp only [bucket, Table.getElem?_insert_eq]
    split <;> rfl
  · have hother := List.find?_eq_none.1 hfresh entry hentry
    exact hother (beq_iff_eq.2 hid)

theorem touch_same (r : Relay π) (label : String) :
    r.Same { r with buckets := r.buckets.insert label (r.bucket label) } := by
  refine ⟨fun x => ?_, rfl⟩
  simp only [queue, bucket_insert]
  split
  · rename_i hx
    rw [hx]
  · rfl

/-- What a push does: nothing, nothing because the payload is queued already, or
one more item at the end of the queue. -/
theorem push_cases [DecidableEq π] (len : π → Nat) (r : Relay π) (label id : String)
    (payload : π) :
    (∃ e, (r.push len label id payload).1 = .error e ∧ r.Same (r.push len label id payload).2) ∨
    (∃ seq, (r.push len label id payload).1 = .ok (.duplicate seq) ∧
      (seq, payload) ∈ r.queue label ∧ r.Same (r.push len label id payload).2) ∨
    ((r.push len label id payload).1 = .ok (.pushed r.nextSeq) ∧
      (r.push len label id payload).2.nextSeq = r.nextSeq + 1 ∧
      ∀ x, (r.push len label id payload).2.queue x =
        if label = x then r.queue label ++ [(r.nextSeq, payload)] else r.queue x) := by
  unfold push
  split
  · exact .inl ⟨_, rfl, .refl r⟩
  · split
    · exact .inl ⟨_, rfl, .refl r⟩
    · simp only
      split
      · rename_i existing hfind
        split
        · rename_i hpayload
          refine .inr (.inl ⟨existing.seq, rfl, ?_, r.touch_same label⟩)
          exact List.mem_map.2 ⟨existing, List.mem_of_find?_eq_some hfind, by rw [hpayload]⟩
        · exact .inl ⟨_, rfl, r.touch_same label⟩
      · split
        · exact .inl ⟨_, rfl, r.touch_same label⟩
        · split
          · exact .inl ⟨_, rfl, r.touch_same label⟩
          · refine .inr (.inr ⟨rfl, rfl, fun x => ?_⟩)
            simp only [queue, bucket]
            rw [Table.getElem?_insert_eq]
            split
            · simp
            · rfl

end Relay

/-! ## What envelopes carry -/

section

variable [Primitives] [SyncCodec]

/-- An envelope was sealed from a payload. -/
def Carries (envelope : Envelope) (payload : SyncPayload) : Prop :=
  ∃ version epochSeq epoch turnNo counter ephPub nonce cipher key n data,
    envelope = .full version epochSeq epoch turnNo counter ephPub nonce cipher ∧
      Primitives.encrypt key n data (SyncCodec.toVec payload) = some cipher

theorem carries_of_seal {s s' : SessionV2} {payload : SyncPayload} {envelope : Envelope}
    (h : s.sealPlain (SyncCodec.toVec payload) = (.ok envelope, s')) :
    Carries envelope payload := by
  unfold SessionV2.sealPlain at h
  split at h
  · cases h
  · split at h
    · cases h
    · simp only at h
      split at h
      · cases h
      · split at h
        · cases h
        · rename_i cipher hcipher
          cases h
          exact ⟨_, _, _, _, _, _, _, cipher, _, _, _, rfl, hcipher⟩

omit [SyncCodec] in
theorem open_decrypts {s s' : SessionV2} {envelope : Envelope} {plain : Primitives.Plain}
    (h : s.openEnvelope envelope = (.ok plain, s')) :
    ∃ version epochSeq epoch turnNo counter ephPub nonce cipher key n data,
      envelope = .full version epochSeq epoch turnNo counter ephPub nonce cipher ∧
        Primitives.decrypt key n data cipher = some plain := by
  cases envelope with
  | truncated size => cases h
  | full version epochSeq epoch turnNo counter ephPub nonce cipher =>
    simp only [SessionV2.openEnvelope] at h
    split at h
    · cases h
    · split at h
      · cases h
      · split at h
        · cases h
        · split at h
          · cases h
          · split at h
            · cases h
            · rename_i plain' hplain
              split at h
              · cases h
              · cases h
                exact ⟨_, _, _, _, _, _, _, _, _, _, _, rfl, hplain⟩

variable [AuthenticAead]

theorem Carries.opens {envelope : Envelope} {payload : SyncPayload} {s s' : SessionV2}
    {plain : Primitives.Plain} (hcarries : Carries envelope payload)
    (hopen : s.openEnvelope envelope = (.ok plain, s')) :
    SyncCodec.fromSlice plain = some payload := by
  obtain ⟨_, _, _, _, _, _, _, cipher, _, _, _, rfl, henc⟩ := hcarries
  obtain ⟨_, _, _, _, _, _, _, cipher', _, _, _, heq, hdec⟩ := open_decrypts hopen
  cases heq
  rw [AuthenticAead.plain_unique henc hdec, SyncCodec.fromSlice_toVec]

theorem Carries.unique {envelope : Envelope} {payload payload' : SyncPayload}
    (h : Carries envelope payload) (h' : Carries envelope payload') : payload = payload' := by
  obtain ⟨_, _, _, _, _, _, _, cipher, _, _, _, rfl, henc⟩ := h
  obtain ⟨_, _, _, _, _, _, _, cipher', _, _, _, heq, henc'⟩ := h'
  cases heq
  have hplain := AuthenticAead.plain_unique henc (AuthenticAead.decrypt_of_encrypt henc')
  have hcodec := congrArg SyncCodec.fromSlice hplain
  rw [SyncCodec.fromSlice_toVec, SyncCodec.fromSlice_toVec] at hcodec
  exact (Option.some.inj hcodec).symm

end

theorem JournalEvent.toWire_injective {e e' : JournalEvent} (h : e.toWire = e'.toWire) : e = e' := by
  have hsig : toSignature e.toWire.signature = toSignature e'.toWire.signature := by rw [h]
  simp only [JournalEvent.toWire, toSignature_toList, Option.some.injEq] at hsig
  calc e = e.toWire.toJournal e.signature := rfl
    _ = e'.toWire.toJournal e'.signature := by rw [h, hsig]
    _ = e' := rfl

/-! ## The record of pushes -/

section

variable [Primitives] [SyncCodec]

/-- The queues agree with the record of pushed events. -/
structure Queued (relay : Relay Envelope) (pushed : List Pushed) : Prop where
  increasing : ∀ label, (relay.queue label).Pairwise fun a b => a.1 < b.1
  bounded : ∀ label, ∀ item ∈ relay.queue label, 0 < item.1 ∧ item.1 < relay.nextSeq
  carried : ∀ label, ∀ item ∈ relay.queue label, ∃ payload, Carries item.2 payload ∧
    ∀ event, payload = .event event.toWire → ⟨label, item.1, event⟩ ∈ pushed
  nextSeq_pos : 0 < relay.nextSeq
  backed : ∀ record ∈ pushed, ∃ envelope, (record.seq, envelope) ∈ relay.queue record.bucket ∧
    Carries envelope (.event record.event.toWire)

theorem Queued.same {relay relay' : Relay Envelope} {pushed : List Pushed}
    (h : Queued relay pushed) (hsame : relay.Same relay') : Queued relay' pushed where
  increasing label := by
    rw [hsame.queue]
    exact h.increasing label
  bounded label := by
    rw [hsame.queue, hsame.nextSeq]
    exact h.bounded label
  carried label := by
    rw [hsame.queue]
    exact h.carried label
  nextSeq_pos := hsame.nextSeq ▸ h.nextSeq_pos
  backed record hrecord := by
    rw [hsame.queue]
    exact h.backed record hrecord

theorem queued_new (policy : RelayPolicy) : Queued (Relay.new policy) [] where
  increasing label := by simp [Relay.queue, Relay.bucket, Relay.new, Bucket.empty]
  bounded label item hitem := by
    simp [Relay.queue, Relay.bucket, Relay.new, Bucket.empty] at hitem
  carried label item hitem := by
    simp [Relay.queue, Relay.bucket, Relay.new, Bucket.empty] at hitem
  nextSeq_pos := Nat.one_pos
  backed record hrecord := by cases hrecord

variable [AuthenticAead]

/-- A push keeps the agreement; a record it adds is new at the relay or was there
before. -/
theorem Queued.push {relay relay' : Relay Envelope} {pushed : List Pushed} {label id : String}
    {envelope : Envelope} {payload : SyncPayload} {event : Option JournalEvent}
    {outcome : PushOutcome} (h : Queued relay pushed) (hcarries : Carries envelope payload)
    (hevent : ∀ e : JournalEvent, payload = .event e.toWire ↔ event = some e)
    (hpush : relay.push Envelope.len label id envelope = (.ok outcome, relay')) :
    Queued relay' (recordPush pushed label outcome event) ∧ relay.nextSeq ≤ relay'.nextSeq ∧
      ∀ record ∈ recordPush pushed label outcome event,
        record ∈ pushed ∨ relay.nextSeq ≤ record.seq := by
  obtain ⟨e, herror, -⟩ | ⟨seq, hdup, hmem, hsame⟩ | ⟨hnew, hnext, hqueue⟩ :=
    relay.push_cases Envelope.len label id envelope
  · rw [hpush] at herror
    cases herror
  · rw [hpush] at hdup hsame
    cases hdup
    -- The queued envelope is the same, so its event was recorded.
    have hold : ∀ record ∈ recordPush pushed label (.duplicate seq) event, record ∈ pushed := by
      intro record hrecord
      obtain hrecord | ⟨e, rfl, rfl⟩ := mem_recordPush.1 hrecord
      · exact hrecord
      · obtain ⟨payload', hcarries', hpushed⟩ := h.carried label _ hmem
        rw [← hcarries.unique hcarries'] at hpushed
        exact hpushed e ((hevent e).2 rfl)
    refine ⟨?_, Nat.le_of_eq hsame.nextSeq.symm, fun record hrecord => .inl (hold record hrecord)⟩
    have hsound := h.same hsame
    refine ⟨hsound.increasing, hsound.bounded, fun label' item hitem => ?_, hsound.nextSeq_pos,
      fun record hrecord => hsound.backed record (hold record hrecord)⟩
    obtain ⟨payload', hcarries', hpushed⟩ := hsound.carried label' item hitem
    exact ⟨payload', hcarries', fun e he => mem_recordPush.2 (.inl (hpushed e he))⟩
  · rw [hpush] at hnew hnext hqueue
    cases hnew
    have hmem (x : String) (item : Nat × Envelope) :
        item ∈ relay'.queue x ↔
          item ∈ relay.queue x ∨ (label = x ∧ item = (relay.nextSeq, envelope)) := by
      rw [hqueue]
      split
      · rename_i hx
        subst hx
        simp
      · rename_i hx
        simp [hx]
    refine ⟨⟨fun x => ?_, fun x item hitem => ?_, fun x item hitem => ?_, ?_, ?_⟩, ?_, ?_⟩
    · rw [hqueue]
      split
      · rw [List.pairwise_append]
        refine ⟨h.increasing label, List.pairwise_singleton _ _, fun a ha b hb => ?_⟩
        rw [List.mem_singleton.1 hb]
        exact (h.bounded label a ha).2
      · exact h.increasing x
    · rw [hnext]
      obtain hitem | ⟨-, rfl⟩ := (hmem x item).1 hitem
      · have hbounds := h.bounded x item hitem
        exact ⟨hbounds.1, by omega⟩
      · exact ⟨h.nextSeq_pos, Nat.lt_succ_self _⟩
    · obtain hitem | ⟨rfl, rfl⟩ := (hmem x item).1 hitem
      · obtain ⟨payload', hcarries', hpushed⟩ := h.carried x item hitem
        exact ⟨payload', hcarries', fun e he => mem_recordPush.2 (.inl (hpushed e he))⟩
      · exact ⟨payload, hcarries, fun e he =>
          mem_recordPush.2 (.inr ⟨e, (hevent e).1 he, rfl⟩)⟩
    · rw [hnext]
      exact Nat.succ_pos _
    · intro record hrecord
      obtain hrecord | ⟨e, rfl, rfl⟩ := mem_recordPush.1 hrecord
      · obtain ⟨envelope', hqueued, hcarries'⟩ := h.backed record hrecord
        exact ⟨envelope', (hmem _ _).2 (.inl hqueued), hcarries'⟩
      · exact ⟨envelope, (hmem _ _).2 (.inr ⟨rfl, rfl⟩), (hevent e).2 rfl ▸ hcarries⟩
    · rw [hnext]
      exact Nat.le_succ _
    · intro record hrecord
      obtain hrecord | ⟨e, rfl, rfl⟩ := mem_recordPush.1 hrecord
      · exact .inl hrecord
      · exact .inr (Nat.le_refl _)

end

end Altior.Sync
