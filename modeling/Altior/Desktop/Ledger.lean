import Altior.Desktop.Bridge

/-!
# What the ledger refuses

The ledger takes a command before its frame is serialised and sent, holds a bounded
number of operations, and forgets them with the Core launch only.  So it blocks fresh
work when it is full, and a command that was never sent when it is tried again.
-/

namespace Altior.Desktop

open Application Domain Ipc Lib

namespace Bridge

/-- The ledger refused only commands whose operation was used before, and what it took
for a duplicate had been sent. -/
structure Ledgered (s : Bridge) : Prop where
  fresh : ∀ (k : Nat) (i : Issued), s.issued[k]? = some i → ∀ e, i.record = some (.error e) →
    ∃ j < k, ∃ i' : Issued, s.issued[j]? = some i' ∧ i'.operationId = i.operationId
  duplicate : ∀ (k : Nat) (i : Issued), s.issued[k]? = some i →
    i.record = some (.ok .alreadyIssued) →
    ∃ j < k, ∃ i' : Issued, s.issued[j]? = some i' ∧ i'.operationId = i.operationId ∧
      i'.connection.isSome

/-- The operation is that of an earlier command. -/
def Used (s : Bridge) (op : OperationId) : Prop := ∃ i ∈ s.issued, i.operationId = op

/-- A frame of the operation was sent. -/
def Sent (s : Bridge) (op : OperationId) : Prop :=
  ∃ i ∈ s.issued, i.operationId = op ∧ i.connection.isSome

/-- The ledger has room for a new operation, and what it holds was sent if it comes
again. -/
def Fits (s : Bridge) : Bridging → Prop
  | .command envelope => s.worker matches .idle → s.status = .connected →
      (¬ s.Used envelope.operationId → s.session.ledger.recorded.size < defaultRetainedCapacity) ∧
        (envelope.operationId ∈ s.session.ledger.recorded → s.Sent envelope.operationId)
  | .handshake _ | .send _ | .register | .reconnect _ _ | .close | .read _ | .disconnect => True

/-! ## What a step does to the commands -/

/-- The commands are the same, and those that were sent still are. -/
structure Carries (issued issued' : List Issued) : Prop where
  length : issued'.length = issued.length
  same : ∀ (k : Nat) (i' : Issued), issued'[k]? = some i' → ∃ i : Issued, issued[k]? = some i ∧
    i'.operationId = i.operationId ∧ i'.record = i.record ∧
    (i.connection.isSome → i'.connection.isSome)

section Steps

variable {s s' : Bridge} {issued issued' issued'' : List Issued}

theorem Carries.refl (issued : List Issued) : Carries issued issued :=
  ⟨rfl, fun _ i' hi' => ⟨i', hi', rfl, rfl, id⟩⟩

theorem Carries.trans (h : Carries issued issued') (h' : Carries issued' issued'') :
    Carries issued issued'' := by
  refine ⟨h'.length.trans h.length, fun k i'' hi'' => ?_⟩
  obtain ⟨i', hi', hop', hrecord', hsent'⟩ := h'.same k i'' hi''
  obtain ⟨i, hi, hop, hrecord, hsent⟩ := h.same k i' hi'
  exact ⟨i, hi, hop'.trans hop, hrecord'.trans hrecord, fun hs => hsent' (hsent hs)⟩

/-- What was there is there still. -/
theorem Carries.forward (h : Carries issued issued') {k : Nat} {i : Issued}
    (hi : issued[k]? = some i) : ∃ i' : Issued, issued'[k]? = some i' ∧
      i'.operationId = i.operationId ∧ i'.record = i.record ∧
      (i.connection.isSome → i'.connection.isSome) := by
  have hlt : k < issued'.length := h.length.symm ▸ (List.getElem?_eq_some_iff.1 hi).1
  obtain ⟨i₀, hi₀, hsame⟩ := h.same k _ (List.getElem?_eq_getElem hlt)
  cases hi.symm.trans hi₀
  exact ⟨_, List.getElem?_eq_getElem hlt, hsame⟩

theorem carries_owe (due : Due) (owed : Issued → Bool) (issued : List Issued) :
    Carries issued (owe due owed issued) := by
  refine ⟨List.length_map _, fun k i' hi' => ?_⟩
  rw [owe, List.getElem?_map] at hi'
  obtain ⟨i, hi, rfl⟩ := Option.map_eq_some_iff.1 hi'
  refine ⟨i, hi, ?_⟩
  split <;> exact ⟨rfl, rfl, id⟩

theorem carries_oweReply (frame : Frame) (c : Nat) (issued : List Issued) :
    Carries issued (oweReply frame c issued) := by
  unfold oweReply
  split
  · exact .refl issued
  · exact carries_owe _ _ issued

theorem carries_modify (k c : Nat) (due : Option Due) (issued : List Issued) :
    Carries issued (issued.modify k fun i => { i with connection := some c, due := due }) := by
  refine ⟨List.length_modify .., fun j i' hi' => ?_⟩
  rw [List.getElem?_modify] at hi'
  obtain ⟨i, hi, rfl⟩ := Option.map_eq_some_iff.1 hi'
  refine ⟨i, hi, ?_⟩
  split
  · exact ⟨rfl, rfl, fun _ => rfl⟩
  · exact ⟨rfl, rfl, id⟩

/-- A step that takes no command: the ledger is kept or emptied. -/
structure Follows (s s' : Bridge) : Prop where
  carries : Carries s.issued s'.issued
  ledger : s'.session.ledger = s.session.ledger ∨ s'.session.ledger = s.session.ledger.clear

theorem follows_attach (s : Bridge) (failed : TransportStatus) (outcome : AttachOutcome) :
    Follows s (s.attach failed outcome) := by
  unfold attach
  split
  · exact ⟨.refl _, .inl rfl⟩
  · split
    · exact ⟨.refl _, .inl rfl⟩
    · exact ⟨carries_owe _ _ _, BridgeSession.ledger_acceptGreeting ‹_›⟩

theorem follows_send (s : Bridge) (k : Nat) (envelope : CommandEnvelope) (outcome : SendOutcome) :
    Follows s (s.send k envelope outcome) := by
  unfold send
  split
  · exact ⟨.refl _, .inl rfl⟩
  · split
    · exact ⟨.refl _, .inl rfl⟩
    · dsimp only
      split <;> exact ⟨carries_modify _ _ _ _, .inl rfl⟩

theorem follows_disconnect (s : Bridge) : Follows s s.disconnect := by
  unfold disconnect
  split <;> exact ⟨carries_owe _ _ _, .inl rfl⟩

theorem follows_complete (s : Bridge) (frame : Frame) : Follows s (s.complete frame) := by
  obtain ⟨pending, answers, heq⟩ := s.complete_frame frame
  rw [heq]
  exact ⟨.refl _, .inl rfl⟩

theorem follows_read (s : Bridge) (frame : Frame) : Follows s (s.read frame) := by
  unfold read
  split
  · exact ⟨.refl _, .inl rfl⟩
  · rename_i c _
    have hcomplete := follows_complete { s with issued := oweReply frame c s.issued } frame
    obtain ⟨inner, lastSequence, delivered, heq⟩ := dispatch_frame
      ({ s with issued := oweReply frame c s.issued }.complete frame) frame
    dsimp only
    rw [heq]
    exact ⟨(carries_oweReply frame c s.issued).trans hcomplete.carries, hcomplete.ledger⟩

/-- A step takes a command of the frontend, or none. -/
theorem step_cases (s : Bridge) (i : Bridging) :
    (∃ envelope, i = .command envelope ∧ s.worker = .idle ∧ s.step i = s.takeCommand envelope) ∨
      Follows s (s.step i) ∧ s.Fits i := by
  have hwhen {f : Bridge → Bridge} (hf : Follows s (f s)) : Follows s (s.whenIdle f) := by
    unfold whenIdle
    split
    · exact hf
    · exact ⟨.refl _, .inl rfl⟩
    · exact ⟨.refl _, .inl rfl⟩
  have hsame : Follows s s := ⟨.refl _, .inl rfl⟩
  cases i with
  | command envelope =>
    cases hworker : s.worker with
    | idle => exact .inl ⟨envelope, rfl, rfl, by simp only [step, whenIdle, hworker]⟩
    | recorded | sent =>
      right
      simp only [step, whenIdle, Fits, hworker]
      exact ⟨hsame, nofun⟩
  | handshake outcome =>
    refine .inr ⟨hwhen (f := (·.handshakeWith outcome)) ?_, trivial⟩
    unfold handshakeWith
    split
    · exact hsame
    · have hattach := follows_attach { s with status := .connecting } .unavailable outcome
      exact ⟨hattach.carries, hattach.ledger⟩
  | send outcome =>
    refine .inr ⟨?_, trivial⟩
    simp only [step]
    split
    · exact s.follows_send _ _ outcome
    · exact hsame
    · exact hsame
  | register =>
    refine .inr ⟨?_, trivial⟩
    simp only [step]
    split
    · exact ⟨.refl _, .inl rfl⟩
    · exact hsame
    · exact hsame
  | reconnect cursor outcome =>
    refine .inr ⟨hwhen (f := (·.reconnectWith cursor outcome)) ?_, trivial⟩
    have hattach := follows_attach (s.detach cursor) .disconnected outcome
    exact ⟨(carries_owe _ _ _).trans hattach.carries, hattach.ledger⟩
  | close => exact .inr ⟨hwhen ⟨carries_owe _ _ _, .inl rfl⟩, trivial⟩
  | read frame => exact .inr ⟨s.follows_read frame, trivial⟩
  | disconnect => exact .inr ⟨s.follows_disconnect, trivial⟩

/-! ## The invariant -/

/-- The ledger holds operations of the commands, no more than it may. -/
structure Recorded (s : Bridge) : Prop where
  capacity : s.session.ledger.capacity = defaultRetainedCapacity
  room : s.session.ledger.recorded.size ≤ defaultRetainedCapacity
  used : ∀ op ∈ s.session.ledger.recorded, s.Used op

theorem Used.follows {op : OperationId} (h : Carries s.issued s'.issued) (hused : s.Used op) :
    s'.Used op := by
  obtain ⟨i, hi, rfl⟩ := hused
  obtain ⟨k, hk⟩ := List.mem_iff_getElem?.1 hi
  obtain ⟨i', hi', hop, -⟩ := h.forward hk
  exact ⟨i', List.mem_iff_getElem?.2 ⟨k, hi'⟩, hop⟩

theorem Recorded.follows (h : s.Recorded) (hstep : Follows s s') : s'.Recorded := by
  rcases hstep.ledger with heq | heq
  · refine ⟨heq ▸ h.capacity, heq ▸ h.room, fun op hop => ?_⟩
    exact (h.used op (heq ▸ hop)).follows hstep.carries
  · refine ⟨heq ▸ h.capacity, ?_, fun op hop => ?_⟩
    · rw [heq]
      exact Nat.zero_le _
    · rw [heq] at hop
      exact absurd hop Std.ExtTreeMap.not_mem_empty

theorem Ledgered.follows (h : s.Ledgered) (hstep : Carries s.issued s'.issued) : s'.Ledgered := by
  constructor
  · intro k i' hi' e he
    obtain ⟨i, hi, hop, hrecord, -⟩ := hstep.same k i' hi'
    obtain ⟨j, hj, i₀, hi₀, hsame⟩ := h.fresh k i hi e (hrecord ▸ he)
    obtain ⟨i₁, hi₁, hop₁, -⟩ := hstep.forward hi₀
    exact ⟨j, hj, i₁, hi₁, hop₁.trans (hsame.trans hop.symm)⟩
  · intro k i' hi' hduplicate
    obtain ⟨i, hi, hop, hrecord, -⟩ := hstep.same k i' hi'
    obtain ⟨j, hj, i₀, hi₀, hsame, hsent⟩ := h.duplicate k i hi (hrecord ▸ hduplicate)
    obtain ⟨i₁, hi₁, hop₁, -, hsent₁⟩ := hstep.forward hi₀
    exact ⟨j, hj, i₁, hi₁, hop₁.trans (hsame.trans hop.symm), hsent₁ hsent⟩

/-- The books after one more command. -/
theorem ledgered_concat {i : Issued} (h : s.Ledgered) (hissued : s'.issued = s.issued ++ [i]) :
    s'.Ledgered ↔ (∀ e, i.record = some (.error e) → s.Used i.operationId) ∧
      (i.record = some (.ok .alreadyIssued) → s.Sent i.operationId) := by
  have hlast : (s.issued ++ [i])[s.issued.length]? = some i := List.getElem?_concat_length
  have hold {k : Nat} (hk : k < s.issued.length) : (s.issued ++ [i])[k]? = s.issued[k]? :=
    List.getElem?_append_left hk
  have hcases {k : Nat} {i' : Issued} (hi' : (s.issued ++ [i])[k]? = some i') :
      s.issued[k]? = some i' ∨ k = s.issued.length ∧ i' = i := by
    rcases Nat.lt_trichotomy k s.issued.length with hlt | rfl | hgt
    · exact .inl ((hold hlt).symm.trans hi')
    · cases hlast.symm.trans hi'
      exact .inr ⟨rfl, rfl⟩
    · have := (List.getElem?_eq_some_iff.1 hi').1
      rw [List.length_append, List.length_singleton] at this
      omega
  constructor
  · intro hgood
    constructor
    · intro e he
      obtain ⟨j, hj, i', hi', hop⟩ := hgood.fresh _ i (hissued ▸ hlast) e he
      rw [hissued, hold hj] at hi'
      exact ⟨i', List.mem_iff_getElem?.2 ⟨j, hi'⟩, hop⟩
    · intro hduplicate
      obtain ⟨j, hj, i', hi', hop, hsent⟩ := hgood.duplicate _ i (hissued ▸ hlast) hduplicate
      rw [hissued, hold hj] at hi'
      exact ⟨i', List.mem_iff_getElem?.2 ⟨j, hi'⟩, hop, hsent⟩
  · rintro ⟨hfresh, hduplicate⟩
    constructor
    · intro k i' hi' e he
      rw [hissued] at hi' ⊢
      rcases hcases hi' with hi' | ⟨rfl, rfl⟩
      · obtain ⟨j, hj, i₀, hi₀, hop⟩ := h.fresh k i' hi' e he
        have hlt := (List.getElem?_eq_some_iff.1 hi₀).1
        exact ⟨j, hj, i₀, (hold hlt).trans hi₀, hop⟩
      · obtain ⟨i₀, hi₀, hop⟩ := hfresh e he
        obtain ⟨j, hj⟩ := List.mem_iff_getElem?.1 hi₀
        have hlt := (List.getElem?_eq_some_iff.1 hj).1
        exact ⟨j, hlt, i₀, (hold hlt).trans hj, hop⟩
    · intro k i' hi' he
      rw [hissued] at hi' ⊢
      rcases hcases hi' with hi' | ⟨rfl, rfl⟩
      · obtain ⟨j, hj, i₀, hi₀, hop⟩ := h.duplicate k i' hi' he
        have hlt := (List.getElem?_eq_some_iff.1 hi₀).1
        exact ⟨j, hj, i₀, (hold hlt).trans hi₀, hop⟩
      · obtain ⟨i₀, hi₀, hop⟩ := hduplicate he
        obtain ⟨j, hj⟩ := List.mem_iff_getElem?.1 hi₀
        have hlt := (List.getElem?_eq_some_iff.1 hj).1
        exact ⟨j, hlt, i₀, (hold hlt).trans hj, hop⟩

/-- What the ledger says of a command, and what it keeps. -/
theorem takeCommand_cases (s : Bridge) (envelope : CommandEnvelope) :
    ∃ record, (s.takeCommand envelope).issued = s.issued ++ [.taken envelope record] ∧
      ((s.status ≠ .connected ∧ record = none ∧
          (s.takeCommand envelope).session = s.session) ∨
        (s.status = .connected ∧ record = some (s.session.recordCommand envelope).1 ∧
          (s.takeCommand envelope).session = (s.session.recordCommand envelope).2)) := by
  unfold takeCommand
  dsimp only
  split
  · rename_i hclosed
    exact ⟨none, rfl, .inl ⟨by rw [hclosed]; decide, rfl, rfl⟩⟩
  · split
    · rename_i hnot
      exact ⟨none, rfl, .inl ⟨hnot, rfl, rfl⟩⟩
    · rename_i hconnected
      have hconnected := not_not.1 hconnected
      split <;> rename_i hcase <;> rw [hcase] <;> exact ⟨_, rfl, .inr ⟨hconnected, rfl, rfl⟩⟩

theorem Recorded.takeCommand (h : s.Recorded) (envelope : CommandEnvelope) :
    (s.takeCommand envelope).Recorded := by
  obtain ⟨record, hissued, hcase⟩ := s.takeCommand_cases envelope
  have hused {op : OperationId} (hop : s.Used op) : (s.takeCommand envelope).Used op := by
    obtain ⟨i, hi, hop⟩ := hop
    exact ⟨i, hissued ▸ List.mem_append_left _ hi, hop⟩
  have hsame (hsession : (s.takeCommand envelope).session = s.session) :
      (s.takeCommand envelope).Recorded := by
    refine ⟨hsession ▸ h.capacity, hsession ▸ h.room, fun op hop => ?_⟩
    exact hused (h.used op (hsession ▸ hop))
  rcases hcase with ⟨-, -, hsession⟩ | ⟨-, -, hsession⟩
  · exact hsame hsession
  · rcases s.session.recordCommand_cases envelope with ⟨-, hledger⟩ | ⟨-, -, hledger⟩ |
      ⟨hnew, hroom, hledger⟩
    · exact hsame (by rw [hsession, hledger])
    · exact hsame (by rw [hsession, hledger])
    · rw [hledger] at hsession
      have hle := h.room
      rw [h.capacity] at hroom
      refine ⟨hsession ▸ h.capacity, ?_, fun op hop => ?_⟩
      · rw [hsession]
        rw [← Std.ExtTreeMap.contains_iff_mem] at hnew
        simp only [Std.ExtTreeMap.size_insert, if_neg hnew]
        omega
      · rw [hsession] at hop
        rcases Table.mem_insert_iff.1 hop with rfl | hop
        · exact ⟨.taken envelope record, hissued ▸ List.mem_append_right _ (List.mem_singleton.2 rfl),
            rfl⟩
        · exact hused (h.used op hop)

theorem Recorded.step (h : s.Recorded) (i : Bridging) : (s.step i).Recorded := by
  rcases s.step_cases i with ⟨envelope, -, -, heq⟩ | ⟨hfollows, -⟩
  · rw [heq]
    exact h.takeCommand envelope
  · exact h.follows hfollows

/-- A command keeps the books in order iff the ledger has room for it, or it was sent
before. -/
theorem ledgered_takeCommand (hrecorded : s.Recorded) (h : s.Ledgered)
    (envelope : CommandEnvelope) : (s.takeCommand envelope).Ledgered ↔
      (s.status = .connected →
        (¬ s.Used envelope.operationId →
            s.session.ledger.recorded.size < defaultRetainedCapacity) ∧
          (envelope.operationId ∈ s.session.ledger.recorded → s.Sent envelope.operationId)) := by
  obtain ⟨record, hissued, ⟨hstatus, rfl, -⟩ | ⟨hstatus, rfl, -⟩⟩ := s.takeCommand_cases envelope
  all_goals rw [ledgered_concat h hissued]
  · exact ⟨fun _ hconnected => absurd hconnected hstatus, fun _ => ⟨nofun, nofun⟩⟩
  · have hcapacity := hrecorded.capacity
    have hle := hrecorded.room
    simp only [hstatus, true_imp_iff, Issued.taken, Option.some.injEq]
    rcases s.session.recordCommand_cases envelope with ⟨hmem, hcase⟩ | ⟨hmem, hfull, hcase⟩ |
      ⟨hmem, hroom, hcase⟩
    · have hused := hrecorded.used _ hmem
      rw [hcase]
      exact ⟨fun hbooks => ⟨absurd hused, fun _ => hbooks.2 rfl⟩,
        fun hfits => ⟨fun _ _ => hused, fun _ => hfits.2 hmem⟩⟩
    · rw [hcase, hfull, hcapacity]
      constructor
      · intro hbooks
        exact ⟨fun hfresh => absurd (hbooks.1 _ rfl) hfresh, fun hin => absurd hin hmem⟩
      · intro hfits
        refine ⟨fun _ _ => ?_, nofun⟩
        by_contra hfresh
        exact absurd (hfits.1 hfresh) (Nat.lt_irrefl _)
    · rw [hcase]
      refine ⟨fun _ => ⟨fun _ => ?_, fun hin => absurd hin hmem⟩, fun _ => ⟨nofun, nofun⟩⟩
      omega

/-- **One step** keeps the books in order iff the ledger has room. -/
theorem ledgered_step (hrecorded : s.Recorded) (h : s.Ledgered) (i : Bridging) :
    (s.step i).Ledgered ↔ s.Fits i := by
  rcases s.step_cases i with ⟨envelope, rfl, hworker, heq⟩ | ⟨hfollows, hfits⟩
  · rw [heq, ledgered_takeCommand hrecorded h]
    simp only [Fits, hworker, true_imp_iff]
  · exact iff_of_true (h.follows hfollows.carries) hfits

theorem recorded_new : new.Recorded where
  capacity := rfl
  room := Nat.zero_le _
  used _ h := absurd h Std.ExtTreeMap.not_mem_empty

theorem ledgered_new : new.Ledgered where
  fresh _ _ h := absurd h (by rw [show new.issued = [] from rfl, List.getElem?_nil]; exact nofun)
  duplicate _ _ h := absurd h (by rw [show new.issued = [] from rfl, List.getElem?_nil]; exact nofun)

end Steps

/-! ## Whole lives -/

/-- **The ledger.** In every life of a bridge, the ledger refuses no command whose
operation is new, and takes none for a duplicate that was never sent, if and only if
each new command finds the ledger with room, and what it holds comes again only after
its frame was sent. -/
theorem ledgered_iff_fits (inputs : List Bridging) :
    (∀ done, done <+: inputs → (machine.run done).Ledgered) ↔
      machine.Meets Fits machine.init inputs :=
  machine.prefixes_iff_meets_of (I := Ledgered) (J := Recorded)
    (fun _ i hrecorded h => ledgered_step hrecorded h i)
    (fun _ i hrecorded _ _ => hrecorded.step i) recorded_new ledgered_new

/-! ### A command that could not be sent -/

/-- The frame of a command cannot be sent, and the frontend tries again. -/
def triedAgain : List Bridging :=
  let envelope : CommandEnvelope := ⟨sampleOperation, .runtimeStatus⟩
  [.handshake sampleAttach, .command envelope, .send (.failed .connectionClosed),
    .command envelope]

/-- The second attempt is acknowledged as a duplicate of what Core never saw. -/
theorem not_ledgered : ¬ ∀ inputs, (machine.run inputs).Ledgered := by
  intro h
  have hgood := h triedAgain
  generalize hs : machine.run triedAgain = s at hgood
  have hrun : s.issued.map (fun i => (i.connection.isSome, i.record.map Except.toOption)) =
      [(false, some (some .recorded)), (false, some (some .alreadyIssued))] := by
    subst hs
    decide
  obtain ⟨i₀, rest, hissued, h₀, hrest⟩ := List.map_eq_cons_iff.1 hrun
  obtain ⟨i₁, rfl, h₁⟩ := List.map_eq_singleton_iff.1 hrest
  simp only [Prod.mk.injEq] at h₀ h₁
  have hduplicate : i₁.record = some (.ok .alreadyIssued) := by
    obtain ⟨record, hrecord, hok⟩ := Option.map_eq_some_iff.1 h₁.2
    cases record with
    | error e => cases hok
    | ok outcome =>
      cases hok
      exact hrecord
  obtain ⟨j, hj, i', hi', -, hsent⟩ := hgood.duplicate 1 i₁ (by rw [hissued]; rfl) hduplicate
  obtain rfl : j = 0 := Nat.lt_one_iff.1 hj
  rw [hissued] at hi'
  cases hi'
  rw [h₀.1] at hsent
  cases hsent

end Bridge

end Altior.Desktop
