import Altior.Crypto.Session
import Altior.Lib.Machine
import Mathlib.Order.Lattice.Nat
import Mathlib.Data.List.Nodup

/-!
# Replayed envelopes

What the replay window of `altior-crypto/src/session.rs` rejects, and which
envelopes a receiving session opens more than once when it is restored from
snapshots of its chain.
-/

namespace Altior.Crypto

open Lib

/-! ## Bits of a word -/

section

variable (x y : UInt64) {i d : Nat}

theorem toBitVec_mask (hi : i < 64) :
    (1 <<< UInt64.ofNat i : UInt64).toBitVec = BitVec.twoPow 64 i := by
  apply BitVec.eq_of_toNat_eq
  rw [UInt64.toNat_toBitVec, UInt64.toNat_shiftLeft, BitVec.toNat_twoPow]
  simp [Nat.shiftLeft_eq, Nat.mod_eq_of_lt (show i < 18446744073709551616 by omega),
    Nat.mod_eq_of_lt hi]

theorem and_mask_ne_zero (hi : i < 64) :
    x &&& (1 <<< UInt64.ofNat i) ≠ 0 ↔ x.toBitVec.getLsbD i = true := by
  rw [Ne, ← UInt64.toBitVec_inj, UInt64.toBitVec_and, toBitVec_mask hi, BitVec.and_twoPow]
  cases x.toBitVec.getLsbD i with
  | false => simp
  | true =>
    simp only [if_true, iff_true]
    intro hzero
    have hnat := congrArg BitVec.toNat hzero
    rw [BitVec.toNat_twoPow_of_lt hi] at hnat
    simp at hnat

theorem getLsbD_or : (x ||| y).toBitVec.getLsbD i =
    (x.toBitVec.getLsbD i || y.toBitVec.getLsbD i) := by
  rw [UInt64.toBitVec_or, BitVec.getLsbD_or]

theorem getLsbD_mask (hd : d < 64) :
    (1 <<< UInt64.ofNat d : UInt64).toBitVec.getLsbD i = decide (i = d) := by
  rw [toBitVec_mask hd, BitVec.getLsbD_twoPow]
  simp [hd, eq_comm]

theorem getLsbD_shiftLeft (hd : d < 64) (hi : i < 64) :
    (x <<< UInt64.ofNat d).toBitVec.getLsbD i = (decide (d ≤ i) && x.toBitVec.getLsbD (i - d)) := by
  have hshift : (x <<< UInt64.ofNat d).toBitVec = x.toBitVec <<< d := by
    apply BitVec.eq_of_toNat_eq
    rw [UInt64.toNat_toBitVec, UInt64.toNat_shiftLeft, BitVec.toNat_shiftLeft]
    simp [Nat.mod_eq_of_lt (show d < 18446744073709551616 by omega), Nat.mod_eq_of_lt hd]
  rw [hshift, BitVec.getLsbD_shiftLeft]
  simp [hi, ← decide_not]

theorem getLsbD_one : (1 : UInt64).toBitVec.getLsbD i = decide (i = 0) := by
  have hone : (1 : UInt64) = 1 <<< UInt64.ofNat 0 := rfl
  rw [hone, getLsbD_mask (by decide)]

end

/-! ## The window -/

namespace ReplayWindow

/-- The window remembers a counter: its bit is set, or it has left the window. -/
def Saw (w : ReplayWindow) (counter : Nat) : Prop :=
  counter ≤ w.highest ∧
    (w.highest - counter < 64 → w.seen.toBitVec.getLsbD (w.highest - counter) = true)

variable {w : ReplayWindow} {counter other : Nat}

theorem Saw.not_acceptable (h : w.Saw counter) : w.acceptable counter = false := by
  obtain ⟨hle, hbit⟩ := h
  unfold acceptable
  rw [decide_eq_false_iff_not]
  rintro ⟨-, hlt | ⟨hin, hzero⟩⟩
  · omega
  · exact (and_mask_ne_zero w.seen hin).2 (hbit hin) hzero

theorem saw_record (h : w.acceptable counter = true) : (w.record counter).Saw counter := by
  unfold acceptable at h
  obtain ⟨hpos, hrest⟩ := of_decide_eq_true h
  unfold record
  split
  · refine ⟨Nat.le_refl _, fun _ => ?_⟩
    dsimp only
    rw [Nat.sub_self, getLsbD_or]
    exact Bool.or_eq_true_iff.2 (.inr rfl)
  · rename_i hle
    obtain hlt | ⟨hin, -⟩ := hrest
    · exact absurd hlt hle
    · rw [if_pos (Nat.pos_of_ne_zero hpos)]
      refine ⟨Nat.not_lt.1 hle, fun _ => ?_⟩
      rw [getLsbD_or]
      rw [getLsbD_mask hin, decide_eq_true rfl, Bool.or_true]

theorem Saw.record (h : w.Saw other) (counter : Nat) : (w.record counter).Saw other := by
  obtain ⟨hle, hbit⟩ := h
  unfold ReplayWindow.record
  split
  · rename_i hlt
    refine ⟨Nat.le_trans hle (Nat.le_of_lt hlt), fun hin => ?_⟩
    dsimp only at hin ⊢
    -- The bit moves up by as much as the highest counter does.
    have hsum : counter - other - (counter - w.highest) = w.highest - other := by omega
    have hd : counter - w.highest < 64 := by omega
    rw [if_neg (Nat.not_le.2 hd), getLsbD_or, getLsbD_shiftLeft _ hd hin, hsum, hbit (by omega),
      decide_eq_true (by omega)]
    rfl
  · split
    · refine ⟨hle, fun hin => ?_⟩
      rw [getLsbD_or]
      exact Bool.or_eq_true_iff.2 (.inl (hbit hin))
    · exact ⟨hle, hbit⟩

/-- The window is the set of accepted counters: the highest of them, and a bit for each
of the last 64 counters. -/
structure StandsFor (w : ReplayWindow) (accepted : Finset Nat) : Prop where
  pos : 0 ∉ accepted
  highest : w.highest = accepted.sup id
  seen : ∀ i < 64, w.seen.toBitVec.getLsbD i = true ↔ w.highest - i ∈ accepted

section StandsFor

variable {accepted : Finset Nat}

theorem StandsFor.le_highest (h : w.StandsFor accepted) (hc : counter ∈ accepted) :
    counter ≤ w.highest := h.highest ▸ Finset.le_sup (f := id) hc

theorem StandsFor.acceptable_iff (h : w.StandsFor accepted) : w.acceptable counter = true ↔
    counter ≠ 0 ∧ counter ∉ accepted ∧ w.highest < counter + 64 := by
  unfold acceptable
  rw [decide_eq_true_iff]
  refine and_congr_right fun hpos => ?_
  by_cases hlt : w.highest < counter
  · have hnew : counter ∉ accepted := fun hc => absurd (h.le_highest hc) (Nat.not_le.2 hlt)
    exact iff_of_true (.inl hlt) ⟨hnew, by omega⟩
  · have hback : w.highest - (w.highest - counter) = counter := by omega
    by_cases hin : w.highest - counter < 64
    · have hbit := not_congr ((and_mask_ne_zero w.seen hin).trans (h.seen _ hin))
      rw [not_not, hback] at hbit
      rw [hbit]
      exact ⟨fun hc => ⟨hc.resolve_left hlt |>.2, by omega⟩, fun hc => .inr ⟨hin, hc.1⟩⟩
    · refine iff_of_false ?_ fun hc => by omega
      rintro (hlt' | hin')
      · exact hlt hlt'
      · exact hin hin'.1

/-- An accepted counter joins the set. -/
theorem StandsFor.record (h : w.StandsFor accepted) (hpos : counter ≠ 0)
    (hin : w.highest < counter + 64) : (w.record counter).StandsFor (insert counter accepted) := by
  have hzero : 0 ∉ insert counter accepted := by
    rw [Finset.mem_insert, not_or]
    exact ⟨Ne.symm hpos, h.pos⟩
  have hsup : (insert counter accepted).sup id = max counter w.highest := by
    rw [Finset.sup_insert, h.highest]
    rfl
  unfold ReplayWindow.record
  split
  · rename_i hlt
    refine ⟨hzero, by rw [hsup, Nat.max_eq_left (Nat.le_of_lt hlt)], fun i hi => ?_⟩
    dsimp only
    -- a bit below the jump stands for a counter above all accepted ones
    have hjump (hi' : counter - i ∈ accepted) : counter - w.highest ≤ i := by
      have := h.le_highest hi'
      omega
    have hself : counter - i = counter ↔ i = 0 := by omega
    rw [getLsbD_or, getLsbD_one, Bool.or_eq_true_iff, decide_eq_true_iff, Finset.mem_insert, hself,
      or_comm]
    refine or_congr_right ?_
    split
    · rename_i hfar
      exact iff_of_false (by simp) fun hi' => absurd (hjump hi') (by omega)
    · rename_i hnear
      rw [getLsbD_shiftLeft _ (Nat.not_le.1 hnear) hi, Bool.and_eq_true_iff, decide_eq_true_iff,
        h.seen _ (by omega)]
      refine ⟨fun hi' => ?_, fun hi' => ⟨hjump hi', ?_⟩⟩
      · rw [show counter - i = w.highest - (i - (counter - w.highest)) by omega]
        exact hi'.2
      · rw [show w.highest - (i - (counter - w.highest)) = counter - i by have := hjump hi'; omega]
        exact hi'
  · rename_i hle
    rw [if_pos (Nat.pos_of_ne_zero hpos)]
    refine ⟨hzero, by rw [hsup, Nat.max_eq_right (Nat.not_lt.1 hle)], fun i hi => ?_⟩
    dsimp only
    have hself : i = w.highest - counter ↔ w.highest - i = counter := by omega
    rw [getLsbD_or, getLsbD_mask (by omega), Bool.or_eq_true_iff, decide_eq_true_iff, h.seen i hi,
      Finset.mem_insert, hself, or_comm]

end StandsFor

/-- A window and the counters it accepted, under any sequence of calls. -/
def accepting : Machine (ReplayWindow × Finset Nat) Nat where
  init := (.default, ∅)
  step s counter :=
    ((s.1.accept counter).2, if (s.1.accept counter).1 then insert counter s.2 else s.2)

/-- After any calls a counter is accepted iff it is not zero, was not accepted before and
is above the highest accepted one less 64; the others leave the window as it is. -/
theorem accept_iff (counters : List Nat) (counter : Nat) :
    let w := (accepting.run counters).1
    let accepted := (accepting.run counters).2
    ((w.accept counter).1 = true ↔
      counter ≠ 0 ∧ counter ∉ accepted ∧ accepted.sup id < counter + 64) ∧
    ((w.accept counter).1 = false → (w.accept counter).2 = w) := by
  intro w accepted
  have h : w.StandsFor accepted := by
    refine accepting.invariant (I := fun s => s.1.StandsFor s.2) (fun s c hs => ?_)
      ⟨Finset.notMem_empty 0, rfl, fun i _ => ?_⟩ counters
    · by_cases hc : s.1.acceptable c = true
      · obtain ⟨hpos, -, hin⟩ := hs.acceptable_iff.1 hc
        simp only [accepting, accept, if_pos hc]
        exact hs.record hpos hin
      · simp only [accepting, accept, if_neg hc]
        exact hs
    · simp [accepting, default]
  unfold accept
  rw [← h.highest, ← h.acceptable_iff]
  split
  · rename_i hc
    exact ⟨iff_of_true rfl hc, nofun⟩
  · rename_i hc
    exact ⟨iff_of_false Bool.false_ne_true hc, fun _ => rfl⟩

end ReplayWindow

/-! ## What an open does to the session -/

/-- The epoch, turn and counter an envelope claims. -/
def Envelope.header [Primitives] : Envelope → Option (Epoch × Nat × Nat)
  | .truncated _ => none
  | .full _ _ epoch turnNo counter _ _ _ => some (epoch, turnNo, counter)

namespace SessionV2

/-- The window a turn is judged by: the session's own, or a fresh one for the
next turn. -/
def windowFor (s : SessionV2) (turnNo : Nat) : ReplayWindow :=
  if turnNo = s.turnNo + 1 then .default else s.replay

/-- The session has moved to a turn, if it was not there yet. -/
structure AtTurn (s : SessionV2) (turnNo : Nat) (window : ReplayWindow) (s' : SessionV2) : Prop where
  near : turnNo = s.turnNo ∨ turnNo = s.turnNo + 1
  turnNo : s'.turnNo = turnNo
  window : s'.replay = window

variable [Primitives] {s s' : SessionV2} {envelope : Envelope}

/-- What an open can do: fail and leave the session, or authenticate the envelope
and let the window of its turn decide. -/
theorem openEnvelope_cases (s : SessionV2) (envelope : Envelope) :
    (∃ e, s.openEnvelope envelope = (.error e, s)) ∨
    ∃ epoch turnNo counter plain s', envelope.header = some (epoch, turnNo, counter) ∧
      s.AtTurn turnNo (s.windowFor turnNo) s' ∧
      s.openEnvelope envelope =
        if (s.windowFor turnNo).acceptable counter then
          (.ok plain, { s' with replay := (s.windowFor turnNo).record counter })
        else (.error (.replayRejected counter), s') := by
  cases envelope with
  | truncated size => exact .inl ⟨_, rfl⟩
  | full version epochSeq epoch turnNo counter ephPub nonce cipher =>
    simp only [openEnvelope]
    split
    · exact .inl ⟨_, rfl⟩
    split
    · exact .inl ⟨_, rfl⟩
    split
    · exact .inl ⟨_, rfl⟩
    rename_i hturn
    split
    · exact .inl ⟨_, rfl⟩
    rename_i chain _
    split
    · exact .inl ⟨_, rfl⟩
    rename_i plain _
    have hat : s.AtTurn turnNo (s.windowFor turnNo)
        (if turnNo = s.turnNo + 1 then
          { s with chainIkm := chain, turnNo := turnNo, replay := .default } else s) := by
      refine ⟨by omega, ?_, ?_⟩
      · split
        · rfl
        · omega
      · unfold windowFor
        split <;> rfl
    refine .inr ⟨epoch, turnNo, counter, plain, _, rfl, hat, ?_⟩
    rw [hat.window, ReplayWindow.accept]
    by_cases haccept : (s.windowFor turnNo).acceptable counter = true
    · rw [if_pos haccept, if_pos haccept]
    · rw [if_neg haccept, if_neg haccept]

/-- An envelope is opened in the current or the next turn, under a counter the
window of that turn accepts. -/
theorem openEnvelope_ok {plain : Primitives.Plain}
    (h : s.openEnvelope envelope = (.ok plain, s')) :
    ∃ epoch turnNo counter, envelope.header = some (epoch, turnNo, counter) ∧
      (s.windowFor turnNo).acceptable counter = true ∧
      s.AtTurn turnNo ((s.windowFor turnNo).record counter) s' := by
  obtain ⟨e, herror⟩ | ⟨epoch, turnNo, counter, _, s₁, hheader, hat, hopen⟩ :=
    s.openEnvelope_cases envelope
  · rw [herror] at h
    cases h
  · rw [hopen] at h
    split at h
    · rename_i haccept
      cases h
      exact ⟨epoch, turnNo, counter, hheader, haccept, hat.near, hat.turnNo, rfl⟩
    · cases h

/-- An envelope that is not opened leaves the session, or moves it to the next
turn with a fresh window. -/
theorem openEnvelope_error {e : CryptoError} (h : s.openEnvelope envelope = (.error e, s')) :
    (s'.turnNo = s.turnNo ∧ s'.replay = s.replay) ∨ s'.turnNo = s.turnNo + 1 := by
  obtain ⟨e, herror⟩ | ⟨epoch, turnNo, counter, _, s₁, hheader, hat, hopen⟩ :=
    s.openEnvelope_cases envelope
  · rw [herror] at h
    cases h
    exact .inl ⟨rfl, rfl⟩
  · rw [hopen] at h
    split at h
    · cases h
    · cases h
      obtain hsame | hnext := hat.near
      · refine .inl ⟨hat.turnNo.trans hsame, hat.window.trans ?_⟩
        rw [windowFor, if_neg (by omega)]
      · exact .inr (hat.turnNo.trans hnext)

end SessionV2

/-! ## Receiving across restarts -/

/-- A receiver: its session, if there is one, the snapshots taken of it, and the
envelopes opened so far. -/
structure Receiving where
  session : Option SessionV2
  snapshots : List ChainSnapshot
  opened : List (Epoch × Nat × Nat)
  /-- What had been opened when the session was last restored. -/
  carried : List (Epoch × Nat × Nat)

inductive ReceiveInput [Primitives]
  | openEnvelope (envelope : Envelope)
  | snapshot
  /-- The session is made anew from one of the snapshots. -/
  | restore (index : Nat)

namespace Receiving

variable [Primitives]

/-- One input. -/
def step (keys : DeviceKeys) (peer : DeviceIdentity) (epoch : Epoch) (epochSeq : UInt32)
    (s : Receiving) : ReceiveInput → Receiving
  | .openEnvelope envelope =>
    match s.session with
    | none => s
    | some session =>
      match session.openEnvelope envelope with
      | (.error _, session) => { s with session := some session }
      | (.ok _, session) =>
        { s with session := some session, opened := s.opened ++ envelope.header.toList }
  | .snapshot =>
    { s with snapshots := s.snapshots ++ (s.session.map SessionV2.chain).toList }
  | .restore index =>
    match s.snapshots[index]? with
    | none => s
    | some snapshot =>
      { s with
        session := (SessionV2.restoreInbound keys peer epoch epochSeq snapshot).toOption
        carried := s.opened }

/-- The receiver of one pairing. -/
def machine (keys : DeviceKeys) (peer : DeviceIdentity) (epoch : Epoch) (epochSeq : UInt32) :
    Machine Receiving ReceiveInput where
  init := ⟨(SessionV2.inbound keys peer epoch epochSeq).toOption, [], [], []⟩
  step := step keys peer epoch epochSeq

/-- What was opened before the last restore comes again only after its turn has
passed. -/
def NotReplayed (s : Receiving) : ReceiveInput → Prop
  | .openEnvelope envelope => ∀ session ∈ s.session, ∀ header ∈ envelope.header,
      header ∈ s.carried → header.2.1 < session.turnNo
  | .snapshot => True
  | .restore _ => True

instance (s : Receiving) : (i : ReceiveInput) → Decidable (s.NotReplayed i)
  | .openEnvelope envelope => inferInstanceAs (Decidable (∀ session ∈ s.session,
      ∀ header ∈ envelope.header, header ∈ s.carried → header.2.1 < session.turnNo))
  | .snapshot => .isTrue trivial
  | .restore _ => .isTrue trivial

/-- The session is past an envelope: its turn is over, or the window has seen its
counter. -/
def Past (session : SessionV2) (header : Epoch × Nat × Nat) : Prop :=
  header.2.1 < session.turnNo ∨
    (header.2.1 = session.turnNo ∧ session.replay.Saw header.2.2)

/-- The session is past all it has opened since it was restored. -/
structure Sound (s : Receiving) : Prop where
  nodup : s.opened.Nodup
  past : ∀ session, s.session = some session → ∀ header ∈ s.opened, header ∉ s.carried →
    Past session header

variable {keys : DeviceKeys} {peer : DeviceIdentity} {epoch : Epoch} {epochSeq : UInt32}
  {s : Receiving}

/-- An opened envelope is new, and the session is past it and everything it was
past before. -/
theorem past_of_open {session session' : SessionV2} {envelope : Envelope}
    {plain : Primitives.Plain} (h : session.openEnvelope envelope = (.ok plain, session')) :
    ∃ header, envelope.header = some header ∧ ¬ Past session header ∧
      session.turnNo ≤ header.2.1 ∧ Past session' header ∧
      ∀ other, Past session other → Past session' other := by
  obtain ⟨epoch, turnNo, counter, hheader, haccept, hat⟩ := SessionV2.openEnvelope_ok h
  refine ⟨_, hheader, ?_, ?_, .inr ⟨hat.turnNo.symm, ?_⟩, ?_⟩
  · rintro (hturn | ⟨hturn, hsaw⟩)
    · have := hat.near
      dsimp only at hturn
      omega
    · dsimp only at hturn hsaw
      rw [SessionV2.windowFor, if_neg (by omega), hsaw.not_acceptable] at haccept
      cases haccept
  · have := hat.near
    dsimp only
    omega
  · rw [hat.window]
    exact ReplayWindow.saw_record haccept
  · rintro other (hturn | ⟨hturn, hsaw⟩)
    · refine .inl ?_
      have := hat.near
      rw [hat.turnNo]
      omega
    · obtain hsame | hnext := hat.near
      · refine .inr ⟨hturn.trans (hsame.symm.trans hat.turnNo.symm), ?_⟩
        rw [hat.window, SessionV2.windowFor, if_neg (by omega)]
        exact hsaw.record counter
      · refine .inl ?_
        rw [hat.turnNo]
        omega

theorem past_of_error {session session' : SessionV2} {envelope : Envelope} {e : CryptoError}
    (h : session.openEnvelope envelope = (.error e, session')) {header : Epoch × Nat × Nat}
    (hpast : Past session header) : Past session' header := by
  obtain ⟨hturn, hreplay⟩ | hnext := SessionV2.openEnvelope_error h
  · unfold Past
    rwa [hturn, hreplay]
  · refine .inl ?_
    obtain hlt | ⟨heq, -⟩ := hpast <;> omega

/-- One step keeps the invariant. -/
theorem Sound.step (h : s.Sound) (i : ReceiveInput) (hok : s.NotReplayed i) :
    (s.step keys peer epoch epochSeq i).Sound := by
  cases i with
  | openEnvelope envelope =>
    simp only [Receiving.step]
    cases hsession : s.session with
    | none => exact h
    | some session =>
      dsimp only
      cases hopen : session.openEnvelope envelope with
      | mk result session' =>
        cases result with
        | error e =>
          refine ⟨h.nodup, ?_⟩
          rintro _ ⟨⟩ header hheader hnew
          exact past_of_error hopen (h.past session hsession header hheader hnew)
        | ok plain =>
          obtain ⟨header, hheader, hnot, hturn, hnow, hkeep⟩ := past_of_open hopen
          have hcarried : header ∉ s.carried := by
            intro hmem
            have := hok session hsession header hheader hmem
            omega
          simp only [hheader, Option.toList_some]
          constructor
          · rw [List.nodup_append]
            refine ⟨h.nodup, List.nodup_singleton _, ?_⟩
            rintro other hother _ hlast rfl
            rw [List.mem_singleton.1 hlast] at hother
            exact hnot (h.past session hsession header hother hcarried)
          · rintro _ ⟨⟩ other hother hnew
            obtain hold | hlast := List.mem_append.1 hother
            · exact hkeep other (h.past session hsession other hold hnew)
            · rw [List.mem_singleton.1 hlast]
              exact hnow
  | snapshot => exact ⟨h.nodup, h.past⟩
  | restore index =>
    simp only [Receiving.step]
    split
    · exact h
    · refine ⟨h.nodup, ?_⟩
      intro session _ header hheader hnew
      exact absurd hheader hnew

/-- Where no envelope that was opened before a restore comes again in a turn that
is not over, no epoch, turn and counter is opened twice. -/
theorem opened_nodup_of_notReplayed (keys : DeviceKeys) (peer : DeviceIdentity) (epoch : Epoch)
    (epochSeq : UInt32) (inputs : List ReceiveInput)
    (hok : (machine keys peer epoch epochSeq).Meets NotReplayed
      (machine keys peer epoch epochSeq).init inputs) :
    ((machine keys peer epoch epochSeq).run inputs).opened.Nodup := by
  have hinit : (machine keys peer epoch epochSeq).init.Sound :=
    ⟨List.nodup_nil, fun _ _ header hheader => (by cases hheader)⟩
  exact (Machine.invariant_of_meets _ (I := Sound) (fun _ i h hok => h.step i hok) hinit hok).nodup

end Receiving

section

local instance replayPrimitives : Primitives := ideal Unit

/-- The devices of a sample pairing. -/
def sampleSender : DeviceKeys := ⟨"a", Vector.replicate 32 1, Vector.replicate 32 1⟩

@[inherit_doc sampleSender]
def sampleReceiver : DeviceKeys := ⟨"b", Vector.replicate 32 2, Vector.replicate 32 2⟩

/-- The envelope the sender seals under a counter, in the turn it starts with. -/
def sampleEnvelope (counter : Nat) : Envelope :=
  ((do let session ← SessionV2.outbound sampleSender sampleReceiver.publicIdentity
          (Vector.replicate 16 1) 1 (some ⟨counter, counter + 1⟩)
       (session.sealPlain ()).1).toOption).getD (.truncated 0)

/-- The receiver of the sample pairing. -/
def sampleMachine : Machine Receiving ReceiveInput :=
  Receiving.machine sampleReceiver sampleSender.publicIdentity (Vector.replicate 16 1) 1

/-- One envelope twice and, after a restart, another one. -/
theorem opened_nodup_of_notReplayed_restored :
    (sampleMachine.run [.openEnvelope (sampleEnvelope 1), .openEnvelope (sampleEnvelope 1),
      .snapshot, .restore 0, .openEnvelope (sampleEnvelope 2)]).opened.Nodup := by
  apply Receiving.opened_nodup_of_notReplayed
  decide +kernel

/-- The same envelope is opened before and after a restart. -/
theorem opened_again_after_restore :
    ¬ (sampleMachine.run [.openEnvelope (sampleEnvelope 1), .snapshot, .restore 0,
      .openEnvelope (sampleEnvelope 1)]).opened.Nodup := by
  decide +kernel

end

end Altior.Crypto
