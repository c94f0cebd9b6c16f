import Altior.Crypto.Session
import Altior.Lib.Machine
import Altior.Lib.Table
import Mathlib.Data.List.Nodup

/-!
# Counter leases

The durable ledger the send counters are drawn from
(`SqliteCounterLease` of `altior-storage/src/sync_state.rs`), and any number of
sending sessions over one of its keys.  A session is handed a block when it is
made and further blocks later; a restart loses the sessions and keeps the ledger.
-/

namespace Altior.Crypto

open Lib

/-- The rows of `sync_counter_lease`: the next counter of each key. -/
abbrev CounterLedger := Table String Int

namespace CounterLedger

/-- The next counter a key would hand out. -/
def nextCounter (ledger : CounterLedger) (key : String) : Nat :=
  match ledger[key]? with
  | some value => if 0 ≤ value then value.toNat else 1
  | none => 1

/-- Reserves the next block of a key, in one transaction; `fault` says that the
database failed. -/
def reserve (ledger : CounterLedger) (key : String) (blockSize : Nat) (fault : Bool) :
    Option CounterBlock × CounterLedger :=
  let start := ledger.nextCounter key
  let stop := start + blockSize
  if fault ∨ u64Max < stop ∨ i64Max < stop then (none, ledger)
  else (some ⟨start, stop⟩, ledger.insert key stop)

/-- What a reservation does: nothing, or the next counters in order. -/
theorem reserve_cases (ledger : CounterLedger) (key : String) (blockSize : Nat) (fault : Bool) :
    ledger.reserve key blockSize fault = (none, ledger) ∨
    ∃ ledger', ledger.reserve key blockSize fault =
        (some ⟨ledger.nextCounter key, ledger.nextCounter key + blockSize⟩, ledger') ∧
      ledger'.nextCounter key = ledger.nextCounter key + blockSize := by
  unfold reserve
  dsimp only
  split
  · exact .inl rfl
  · refine .inr ⟨_, rfl, ?_⟩
    have hpos : (0 : Int) ≤ (ledger.nextCounter key + blockSize : Nat) := Int.natCast_nonneg _
    generalize hstop : ledger.nextCounter key + blockSize = stop at hpos
    simp only [nextCounter, Table.getElem?_insert_same, if_pos hpos, Int.toNat_natCast]

end CounterLedger

/-! ## Sessions over one key -/

/-- A sending session, new or resumed from a snapshot. -/
def SessionV2.startOutbound [Primitives] (keys : DeviceKeys) (peer : DeviceIdentity) (epoch : Epoch)
    (epochSeq : UInt32) (snapshot : Option ChainSnapshot) (block : CounterBlock) :
    Except CryptoError SessionV2 :=
  match snapshot with
  | none => outbound keys peer epoch epochSeq (some block)
  | some snapshot => restoreOutbound keys peer epoch epochSeq snapshot (some block)

/-- The sessions over a key, the blocks reserved for each of them, and the
counters their seals have used. -/
structure Leasing where
  ledger : CounterLedger
  sessions : Nat → Option SessionV2
  /-- Sessions are numbered in the order they are made. -/
  count : Nat
  reserved : Nat → List CounterBlock
  used : List (Nat × Nat)

/-- What happens to the sessions. -/
inductive LeaseInput [Primitives]
  /-- A session is made, from scratch or from a snapshot. -/
  | create (keys : DeviceKeys) (peer : DeviceIdentity) (epoch : Epoch) (epochSeq : UInt32)
      (snapshot : Option ChainSnapshot) (fault : Bool)
  | reserve (id blockSize : Nat) (fault : Bool)
  | setCounterBlock (id : Nat) (block : CounterBlock)
  | openTurn (id : Nat) (seed : Bytes32)
  | sealPlain (id : Nat) (plain : Primitives.Plain)
  /-- The process ends and the ledger is opened again. -/
  | reopen

namespace Leasing

/-- The block is one of those reserved for the session and has the counter. -/
def Owns (s : Leasing) (id counter : Nat) : Prop :=
  ∃ block ∈ s.reserved id, block.start ≤ counter ∧ counter < block.stop

/-- The state with a session replaced. -/
def setSession (s : Leasing) (id : Nat) (session : Option SessionV2) : Leasing :=
  { s with sessions := fun x => if x = id then session else s.sessions x }

/-- The state with one more block reserved for a session. -/
def addBlock (s : Leasing) (id : Nat) (block : CounterBlock) : Leasing :=
  { s with reserved := fun x => if x = id then s.reserved x ++ [block] else s.reserved x }

variable [Primitives]

/-- Makes a session; the block is reserved once the two devices are known to be
different, and is spent even when no session comes of it. -/
def create (key : String) (s : Leasing) (keys : DeviceKeys) (peer : DeviceIdentity) (epoch : Epoch)
    (epochSeq : UInt32) (snapshot : Option ChainSnapshot) (fault : Bool) : Leasing :=
  if keys.id = peer.id then s
  else match s.ledger.reserve key counterBlockSize fault with
    | (none, ledger) => { s with ledger := ledger }
    | (some block, ledger) =>
      ({ s with ledger := ledger, count := s.count + 1 }.addBlock s.count block).setSession s.count
        (SessionV2.startOutbound keys peer epoch epochSeq snapshot block).toOption

/-- One input; what is addressed to a session that is gone does nothing. -/
def step (key : String) (s : Leasing) : LeaseInput → Leasing
  | .create keys peer epoch epochSeq snapshot fault =>
    s.create key keys peer epoch epochSeq snapshot fault
  | .reserve id blockSize fault =>
    match s.sessions id with
    | none => s
    | some _ =>
      match s.ledger.reserve key blockSize fault with
      | (none, ledger) => { s with ledger := ledger }
      | (some block, ledger) => { s with ledger := ledger }.addBlock id block
  | .setCounterBlock id block =>
    match s.sessions id with
    | none => s
    | some session =>
      -- A caller hands over blocks it has reserved for this session.
      if block ∈ s.reserved id then
        match session.setCounterBlock block with
        | .error _ => s
        | .ok session => s.setSession id (some session)
      else s
  | .openTurn id seed =>
    match s.sessions id with
    | none => s
    | some session =>
      match session.openTurn seed with
      | .error _ => s
      | .ok session => s.setSession id (some session)
  | .sealPlain id plain =>
    match s.sessions id with
    | none => s
    | some session =>
      let session' := (session.sealPlain plain).2
      { s.setSession id (some session') with
        used := if session'.nextCounter = session.nextCounter then s.used
          else s.used ++ [(id, session.nextCounter)] }
  | .reopen => { s with sessions := fun _ => none }

/-- No session and an empty ledger. -/
def machine (key : String) : Machine Leasing LeaseInput where
  init := ⟨∅, fun _ => none, 0, fun _ => [], []⟩
  step := step key

end Leasing

/-! ## What the calls do to the counters -/

namespace SessionV2

variable [Primitives] {s s' : SessionV2} {block : CounterBlock}

theorem outbound_counters {keys : DeviceKeys} {peer : DeviceIdentity} {epoch : Epoch}
    {epochSeq : UInt32} (h : outbound keys peer epoch epochSeq (some block) = .ok s) :
    s.counterBlock = some block ∧ s.nextCounter = block.start := by
  unfold outbound at h
  split at h
  · cases h
  · dsimp only at h
    split at h
    · cases h
    · cases hshared : sharedSecretFrom keys.staticSecret peer.x25519Public with
      | error e =>
        rw [hshared] at h
        cases h
      | ok shared =>
        rw [hshared] at h
        cases h
        exact ⟨rfl, rfl⟩

theorem startOutbound_counters {keys : DeviceKeys} {peer : DeviceIdentity} {epoch : Epoch}
    {epochSeq : UInt32} {snapshot : Option ChainSnapshot}
    (h : startOutbound keys peer epoch epochSeq snapshot block = .ok s) :
    s.counterBlock = some block ∧ s.nextCounter = block.start := by
  cases snapshot with
  | none => exact outbound_counters h
  | some snapshot =>
    simp only [startOutbound, restoreOutbound] at h
    cases hout : outbound keys peer epoch epochSeq (some block) with
    | error e =>
      rw [hout] at h
      cases h
    | ok restored =>
      have hcounters := outbound_counters hout
      rw [hout] at h
      cases h
      exact hcounters

omit [Primitives] in
theorem setCounterBlock_ok (h : s.setCounterBlock block = .ok s') :
    s' = { s with counterBlock := some block } ∧ s.nextCounter ≤ block.start := by
  unfold setCounterBlock at h
  split at h
  · cases h
  · rename_i hgood
    cases h
    exact ⟨rfl, by omega⟩

theorem openTurn_counters {seed : Bytes32} (h : s.openTurn seed = .ok s') :
    s'.counterBlock = s.counterBlock ∧ s'.nextCounter = s.nextCounter := by
  unfold openTurn at h
  split at h
  · cases h
  · split at h
    · cases h
    · cases hshared : sharedSecretFrom seed s.chainKey with
      | error e =>
        rw [hshared] at h
        cases h
      | ok shared =>
        rw [hshared] at h
        cases h
        exact ⟨rfl, rfl⟩

/-- A seal takes no counter, or the next one of its block. -/
theorem sealPlain_counters (s : SessionV2) (plain : Primitives.Plain) :
    (s.sealPlain plain).2 = s ∨
    ∃ block, s.counterBlock = some block ∧ s.nextCounter < block.stop ∧
      (s.sealPlain plain).2.nextCounter = s.nextCounter + 1 ∧
      ∀ block', (s.sealPlain plain).2.counterBlock = some block' → block' = block := by
  unfold sealPlain
  split
  · exact .inl rfl
  · split
    · exact .inl rfl
    · rename_i block hblock
      dsimp only
      split
      · exact .inl rfl
      · rename_i hroom
        have hspent : ∀ block', (if block.stop ≤ s.nextCounter + 1 then none else some block) =
            some block' → block' = block := by
          intro block' h
          split at h
          · cases h
          · exact (Option.some.inj h).symm
        refine .inr ⟨block, hblock, by omega, ?_⟩
        split
        · exact ⟨rfl, hspent⟩
        · exact ⟨rfl, hspent⟩

/-- The session has `n` more counters in its block. -/
def Holds (s : SessionV2) (n : Nat) : Prop :=
  s.needsFreshTurn = false ∧
    (0 < n → ∃ block, s.counterBlock = some block ∧ s.nextCounter + n ≤ block.stop)

theorem sealPlain_holds {n : Nat} (h : s.Holds (n + 1)) (plain : Primitives.Plain) :
    (s.sealPlain plain).2.nextCounter = s.nextCounter + 1 ∧ (s.sealPlain plain).2.Holds n := by
  obtain ⟨hturn, hroom⟩ := h
  obtain ⟨block, hblock, hle⟩ := hroom (Nat.succ_pos n)
  have hlt : ¬ block.stop ≤ s.nextCounter := by omega
  have hkept : 0 < n → ∃ block',
      (if block.stop ≤ s.nextCounter + 1 then none else some block) = some block' ∧
        s.nextCounter + 1 + n ≤ block'.stop := by
    intro hn
    have hmore : ¬ block.stop ≤ s.nextCounter + 1 := by omega
    exact ⟨block, if_neg hmore, by omega⟩
  unfold sealPlain
  simp only [hturn, Bool.false_eq_true, if_false, hblock, if_neg hlt]
  split
  · exact ⟨rfl, rfl, hkept⟩
  · exact ⟨rfl, rfl, hkept⟩

end SessionV2

/-! ## The discipline -/

namespace Leasing

/-- Every counter that was used had been reserved for the session that used it,
and none was used twice. -/
def Disciplined (s : Leasing) : Prop :=
  (∀ use ∈ s.used, s.Owns use.1 use.2) ∧ (s.used.map Prod.snd).Nodup

/-- A block is installed only where the counters in front of it that the session
has not used yet are its own as well. -/
def Adjoins [Primitives] (s : Leasing) : LeaseInput → Prop
  | .setCounterBlock id block => ∀ session, s.sessions id = some session →
      ∀ counter, session.nextCounter ≤ counter → counter < block.start → s.Owns id counter
  | _ => True

/-- What holds between the ledger, the sessions and the counters. -/
structure Sound (key : String) (s : Leasing) : Prop where
  reserved : ∀ id, ∀ block ∈ s.reserved id, block.stop ≤ s.ledger.nextCounter key
  owner : ∀ id id' counter, s.Owns id counter → s.Owns id' counter → id = id'
  numbered : ∀ id, s.count ≤ id → s.sessions id = none ∧ s.reserved id = []
  ahead : ∀ id session block counter, s.sessions id = some session →
    session.counterBlock = some block → session.nextCounter ≤ counter → counter < block.stop →
    s.Owns id counter
  behind : ∀ id session, s.sessions id = some session →
    ∀ counter, (id, counter) ∈ s.used → counter < session.nextCounter
  disciplined : s.Disciplined

variable {key : String} {s : Leasing}

theorem owns_addBlock {id : Nat} {block : CounterBlock} {x counter : Nat} :
    (s.addBlock id block).Owns x counter ↔
      s.Owns x counter ∨ (x = id ∧ block.start ≤ counter ∧ counter < block.stop) := by
  simp only [Owns, addBlock]
  constructor
  · rintro ⟨b, hb, hin⟩
    split at hb
    · obtain hb | hb := List.mem_append.1 hb
      · exact .inl ⟨b, hb, hin⟩
      · rw [List.mem_singleton.1 hb] at hin
        exact .inr ⟨‹_›, hin⟩
    · exact .inl ⟨b, hb, hin⟩
  · rintro (⟨b, hb, hin⟩ | ⟨rfl, hin⟩)
    · refine ⟨b, ?_, hin⟩
      split
      · exact List.mem_append_left _ hb
      · exact hb
    · exact ⟨block, by simp, hin⟩

/-- A session is replaced by one whose counters ahead are its own and whose
counters behind are used up. -/
theorem Sound.setSession (h : s.Sound key) {id : Nat} {session : SessionV2} (hid : id < s.count)
    (hahead : ∀ block counter, session.counterBlock = some block → session.nextCounter ≤ counter →
      counter < block.stop → s.Owns id counter)
    (hbehind : ∀ counter, (id, counter) ∈ s.used → counter < session.nextCounter) :
    (s.setSession id (some session)).Sound key where
  reserved := h.reserved
  owner := h.owner
  numbered x hx := by
    have hne : x ≠ id := by
      have : s.count ≤ x := hx
      omega
    simp only [Leasing.setSession, if_neg hne]
    exact h.numbered x hx
  ahead x session' block counter hx := by
    simp only [Leasing.setSession] at hx
    split at hx
    · rename_i heq
      subst heq
      cases hx
      exact hahead block counter
    · exact h.ahead x session' block counter hx
  behind x session' hx := by
    simp only [Leasing.setSession] at hx
    split at hx
    · rename_i heq
      subst heq
      cases hx
      exact hbehind
    · exact h.behind x session' hx
  disciplined := h.disciplined

theorem Sound.lt_count (h : s.Sound key) {id : Nat} {session : SessionV2}
    (hid : s.sessions id = some session) : id < s.count := by
  rcases Nat.lt_or_ge id s.count with hlt | hge
  · exact hlt
  · rw [(h.numbered id hge).1] at hid
    cases hid

theorem Sound.owns_lt (h : s.Sound key) {id counter : Nat} (hown : s.Owns id counter) :
    counter < s.ledger.nextCounter key := by
  obtain ⟨block, hblock, -, hlt⟩ := hown
  exact Nat.lt_of_lt_of_le hlt (h.reserved id block hblock)

/-- The next block of the ledger is nobody's, so it can become a session's. -/
theorem Sound.addBlock (h : s.Sound key) {id blockSize : Nat} {ledger : CounterLedger}
    (hid : id < s.count)
    (hledger : ledger.nextCounter key = s.ledger.nextCounter key + blockSize) :
    ({ s with ledger := ledger }.addBlock id
      ⟨s.ledger.nextCounter key, s.ledger.nextCounter key + blockSize⟩).Sound key := by
  have hkeep {x counter : Nat} (hown : s.Owns x counter) :
      ({ s with ledger := ledger }.addBlock id
        ⟨s.ledger.nextCounter key, s.ledger.nextCounter key + blockSize⟩).Owns x counter :=
    owns_addBlock.2 (.inl hown)
  refine ⟨fun x block hblock => ?_, fun x y counter hx hy => ?_, fun x hx => ?_, ?_, h.behind,
    fun use huse => hkeep (h.disciplined.1 use huse), h.disciplined.2⟩
  · show block.stop ≤ ledger.nextCounter key
    rw [hledger]
    simp only [Leasing.addBlock] at hblock
    split at hblock
    · obtain hold | hnew := List.mem_append.1 hblock
      · have := h.reserved x block hold
        omega
      · exact Nat.le_of_eq (congrArg CounterBlock.stop (List.mem_singleton.1 hnew))
    · have := h.reserved x block hblock
      omega
  · -- What was owned before lies below the new block.
    obtain hxold | ⟨hxid, hxle, -⟩ := owns_addBlock.1 hx
    · obtain hyold | ⟨-, hyle, -⟩ := owns_addBlock.1 hy
      · exact h.owner x y counter hxold hyold
      · exact absurd (h.owns_lt hxold) (Nat.not_lt.2 hyle)
    · obtain hyold | ⟨hyid, -, -⟩ := owns_addBlock.1 hy
      · exact absurd (h.owns_lt hyold) (Nat.not_lt.2 hxle)
      · exact hxid.trans hyid.symm
  · have hx' : s.count ≤ x := hx
    have hne : x ≠ id := by omega
    simp only [Leasing.addBlock, if_neg hne]
    exact h.numbered x hx'
  · intro x session block counter hx hblock hle hlt
    exact hkeep (h.ahead x session block counter hx hblock hle hlt)

theorem setSession_none {id : Nat} (h : s.sessions id = none) : s.setSession id none = s := by
  have hsame : (fun x => if x = id then none else s.sessions x) = s.sessions := by
    funext x
    split
    · rename_i heq
      rw [heq, h]
    · rfl
  rw [Leasing.setSession, hsame]

variable [Primitives]

/-- A new session starts at the first counter of its block. -/
theorem Sound.create (h : s.Sound key) (keys : DeviceKeys) (peer : DeviceIdentity)
    (epoch : Epoch) (epochSeq : UInt32) (snapshot : Option ChainSnapshot) (fault : Bool) :
    (s.create key keys peer epoch epochSeq snapshot fault).Sound key := by
  unfold Leasing.create
  split
  · exact h
  obtain hnone | ⟨ledger, hsome, hledger⟩ := s.ledger.reserve_cases key counterBlockSize fault
  · rw [hnone]
    exact h
  rw [hsome]
  dsimp only
  -- The number of the new session is fresh, so counting it changes nothing else.
  have hcounted : ({ s with count := s.count + 1 } : Leasing).Sound key :=
    ⟨h.reserved, h.owner, fun x hx => h.numbered x (Nat.le_of_succ_le hx), h.ahead, h.behind,
      h.disciplined⟩
  have hblock := hcounted.addBlock (Nat.lt_succ_self s.count) hledger
  have hfresh := h.numbered s.count (Nat.le_refl _)
  cases hmade : SessionV2.startOutbound keys peer epoch epochSeq snapshot
      ⟨s.ledger.nextCounter key, s.ledger.nextCounter key + counterBlockSize⟩ with
  | error e =>
    rw [Except.toOption, setSession_none]
    · exact hblock
    · exact hfresh.1
  | ok session =>
    obtain ⟨hcounter, hnext⟩ := SessionV2.startOutbound_counters hmade
    refine hblock.setSession (Nat.lt_succ_self s.count) ?_ ?_
    · intro block counter heq hle hlt
      rw [hcounter] at heq
      cases heq
      exact owns_addBlock.2 (.inr ⟨rfl, hnext ▸ hle, hlt⟩)
    · intro counter hused
      obtain ⟨block, hblock', -⟩ := h.disciplined.1 _ hused
      rw [hfresh.2] at hblock'
      cases hblock'

/-- A seal uses a counter that is the session's own and that it has not used. -/
theorem Sound.sealPlain (h : s.Sound key) (id : Nat) (plain : Primitives.Plain) :
    (s.step key (.sealPlain id plain)).Sound key := by
  simp only [Leasing.step]
  cases hid : s.sessions id with
  | none => exact h
  | some session =>
    dsimp only
    have hcount := h.lt_count hid
    obtain hsame | ⟨block, hblock, hroom, hnext, hkeep⟩ := session.sealPlain_counters plain
    · rw [hsame, if_pos rfl]
      exact h.setSession hcount (fun block counter => h.ahead id session block counter hid)
        (h.behind id session hid)
    · have hmoved : (session.sealPlain plain).2.nextCounter ≠ session.nextCounter := by omega
      rw [if_neg hmoved]
      have hown := h.ahead id session block session.nextCounter hid hblock (Nat.le_refl _) hroom
      have hset : (s.setSession id (some (session.sealPlain plain).2)).Sound key := h.setSession hcount
        (fun block' counter heq hle hlt => by
          cases hkeep block' heq
          exact h.ahead id session block counter hid hblock (by omega) hlt)
        (fun counter hused => by
          have := h.behind id session hid counter hused
          omega)
      refine ⟨hset.reserved, hset.owner, hset.numbered, hset.ahead, ?_, ?_, ?_⟩
      · intro x session' hx counter hused
        obtain hold | hnew := List.mem_append.1 hused
        · exact hset.behind x session' hx counter hold
        · cases List.mem_singleton.1 hnew
          simp only [Leasing.setSession, if_pos] at hx
          cases hx
          omega
      · intro use huse
        obtain hold | hnew := List.mem_append.1 huse
        · exact h.disciplined.1 use hold
        · cases List.mem_singleton.1 hnew
          exact hown
      · rw [List.map_append, List.nodup_append]
        refine ⟨h.disciplined.2, by simp, ?_⟩
        intro counter hcounter counter' hcounter' heq
        subst heq
        obtain ⟨use, huse, rfl⟩ := List.mem_map.1 hcounter
        have hlast : use.2 = session.nextCounter := by simpa using hcounter'
        -- Whoever used the counter owned it, so it was this session, which is past it.
        have hsame : use.1 = id :=
          h.owner use.1 id use.2 (h.disciplined.1 use huse) (hlast ▸ hown)
        have := h.behind id session hid use.2 (hsame ▸ huse)
        omega

/-- One step keeps the invariant. -/
theorem Sound.step (h : s.Sound key) (i : LeaseInput) (hok : s.Adjoins i) :
    (s.step key i).Sound key := by
  cases i with
  | create keys peer epoch epochSeq snapshot fault =>
    exact h.create keys peer epoch epochSeq snapshot fault
  | reserve id blockSize fault =>
    simp only [Leasing.step]
    cases hid : s.sessions id with
    | none => exact h
    | some session =>
      dsimp only
      obtain hnone | ⟨ledger, hsome, hledger⟩ := s.ledger.reserve_cases key blockSize fault
      · rw [hnone]
        exact h
      · rw [hsome]
        exact h.addBlock (h.lt_count hid) hledger
  | setCounterBlock id block =>
    simp only [Leasing.step]
    cases hid : s.sessions id with
    | none => exact h
    | some session =>
      dsimp only
      split
      · rename_i hmine
        cases hset : session.setCounterBlock block with
        | error e => exact h
        | ok session' =>
          obtain ⟨rfl, -⟩ := SessionV2.setCounterBlock_ok hset
          refine h.setSession (h.lt_count hid) ?_ (h.behind id session hid)
          intro block' counter heq hle hlt
          cases heq
          rcases Nat.lt_or_ge counter block.start with hgap | hin
          · exact hok session hid counter hle hgap
          · exact ⟨block, hmine, hin, hlt⟩
      · exact h
  | openTurn id seed =>
    simp only [Leasing.step]
    cases hid : s.sessions id with
    | none => exact h
    | some session =>
      dsimp only
      cases hopen : session.openTurn seed with
      | error e => exact h
      | ok session' =>
        obtain ⟨hblock, hnext⟩ := SessionV2.openTurn_counters hopen
        refine h.setSession (h.lt_count hid) ?_ ?_
        · intro block counter heq hle hlt
          rw [hblock] at heq
          rw [hnext] at hle
          exact h.ahead id session block counter hid heq hle hlt
        · rw [hnext]
          exact h.behind id session hid
  | sealPlain id plain => exact h.sealPlain id plain
  | reopen =>
    refine ⟨h.reserved, h.owner, fun x hx => ⟨rfl, (h.numbered x hx).2⟩, ?_, ?_, h.disciplined⟩
    · intro x session block counter hx
      cases hx
    · intro x session hx
      cases hx

theorem sound_init (key : String) : (machine key).init.Sound key where
  reserved id block hblock := by cases hblock
  owner id id' counter hid := by
    obtain ⟨block, hblock, -⟩ := hid
    cases hblock
  numbered id _ := ⟨rfl, rfl⟩
  ahead id session block counter hid := by cases hid
  behind id session hid := by cases hid
  disciplined := ⟨fun use huse => (by cases huse), List.nodup_nil⟩

/-- Whenever only blocks that adjoin what a session still has are installed, every
counter a seal used was reserved for its session and no counter was used twice. -/
theorem disciplined_of_adjoins (key : String) (inputs : List LeaseInput)
    (hok : (machine key).Meets Adjoins (machine key).init inputs) :
    ((machine key).run inputs).Disciplined :=
  ((machine key).invariant_of_meets (I := Sound key) (fun _ i h hok => h.step i hok)
    (sound_init key) hok).disciplined

/-- A session that seals `n` times in a row uses its next `n` counters. -/
theorem used_seals (key : String) (id n : Nat) (plain : Primitives.Plain) {s : Leasing}
    {session : SessionV2} (hid : s.sessions id = some session) (hholds : session.Holds n) :
    let s' := (machine key).runFrom s (List.replicate n (.sealPlain id plain))
    s'.reserved = s.reserved ∧ (∀ x, x ≠ id → s'.sessions x = s.sessions x) ∧
      s.used ⊆ s'.used ∧ ∀ k < n, (id, session.nextCounter + k) ∈ s'.used := by
  induction n generalizing s session with
  | zero => exact ⟨rfl, fun _ _ => rfl, List.Subset.refl _, fun k hk => absurd hk (Nat.not_lt_zero k)⟩
  | succ n ih =>
    obtain ⟨hnext, hmore⟩ := SessionV2.sealPlain_holds hholds plain
    have hmoved : (session.sealPlain plain).2.nextCounter ≠ session.nextCounter := by omega
    have hstep : (machine key).step s (.sealPlain id plain) =
        { s.setSession id (some (session.sealPlain plain).2) with
          used := s.used ++ [(id, session.nextCounter)] } := by
      simp only [machine, step, hid, if_neg hmoved]
    have hid' : ((machine key).step s (.sealPlain id plain)).sessions id =
        some (session.sealPlain plain).2 := by
      rw [hstep]
      exact if_pos rfl
    obtain ⟨hreserved, hothers, hused, hnew⟩ := ih hid' hmore
    rw [List.replicate_succ]
    have hfront : s.used ++ [(id, session.nextCounter)] ⊆
        ((machine key).step s (.sealPlain id plain)).used := by
      rw [hstep]
      exact List.Subset.refl _
    refine ⟨hreserved.trans (by rw [hstep]; rfl), fun x hx => (hothers x hx).trans ?_, ?_, ?_⟩
    · rw [hstep]
      exact if_neg hx
    · exact fun use huse => hused (hfront (List.mem_append_left _ huse))
    · intro k hk
      cases k with
      | zero => exact hused (hfront (by simp))
      | succ k =>
        have hmem := hnew k (by omega)
        rw [hnext] at hmem
        rwa [Nat.add_right_comm, Nat.add_assoc] at hmem

end Leasing

/-! ## Two sessions, one counter -/

section

local instance leasePrimitives : Primitives := ideal Unit

/-- A sample device. -/
def sampleDevice (id : String) (byte : UInt8) : DeviceKeys :=
  ⟨id, Vector.replicate 32 byte, Vector.replicate 32 byte⟩

/-- A session from `a` to `b` is made. -/
def sampleCreate : LeaseInput :=
  .create (sampleDevice "a" 1) (sampleDevice "b" 2).publicIdentity (Vector.replicate 16 1) 1 none
    false

/-- A session seals, and is handed the next block. -/
def sampleRenewal : List LeaseInput := [sampleCreate, .sealPlain 0 (), .reserve 0 10 false]

theorem disciplined_of_adjoins_renewal :
    ((Leasing.machine "a→b").run
      (sampleRenewal ++ [.setCounterBlock 0 ⟨10001, 10011⟩, .sealPlain 0 ()])).Disciplined := by
  refine Leasing.disciplined_of_adjoins _ _ ⟨trivial, trivial, trivial, ?_, trivial, trivial⟩
  intro session hsession counter hle hlt
  have hnext : (((Leasing.machine "a→b").run sampleRenewal).sessions 0).map SessionV2.nextCounter =
      some 2 := by decide +kernel
  have hmine : (⟨1, 10001⟩ : CounterBlock) ∈ ((Leasing.machine "a→b").run sampleRenewal).reserved 0 := by
    decide +kernel
  rw [show ((Leasing.machine "a→b").run sampleRenewal).sessions 0 = some session from hsession,
    Option.map_some, Option.some.injEq] at hnext
  refine ⟨⟨1, 10001⟩, hmine, ?_, hlt⟩
  show 1 ≤ counter
  omega

/-- What of a session decides about its next seal. -/
def counters (session : SessionV2) : Bool × Option CounterBlock × Nat :=
  (session.needsFreshTurn, session.counterBlock, session.nextCounter)

/-- Two sessions, and a third block for the first of them. -/
def sampleGap : List LeaseInput :=
  [sampleCreate, sampleCreate, .reserve 0 10 false, .setCounterBlock 0 ⟨20001, 20011⟩]

/-- The first session runs past its first block into the second session's: the
counter 10001 is sealed under twice. -/
theorem counter_reused_across_gap :
    ¬ ((Leasing.machine "a→b").run
      (sampleGap ++ List.replicate 10001 (.sealPlain 0 ()) ++ [.sealPlain 1 ()])).Disciplined := by
  rintro ⟨-, hnodup⟩
  let base := (Leasing.machine "a→b").run sampleGap
  have hstart : (base.sessions 0).map counters = some (false, some ⟨20001, 20011⟩, 1) := by
    decide +kernel
  have hstart' : (base.sessions 1).map counters = some (false, some ⟨10001, 20001⟩, 10001) := by
    decide +kernel
  obtain ⟨first, hfirst, hcounters⟩ := Option.map_eq_some_iff.1 hstart
  obtain ⟨second, hsecond, hcounters'⟩ := Option.map_eq_some_iff.1 hstart'
  simp only [counters, Prod.mk.injEq] at hcounters hcounters'
  obtain ⟨hturn, hblock, hnext⟩ := hcounters
  obtain ⟨hturn', hblock', hnext'⟩ := hcounters'
  have hholds : first.Holds 10001 := ⟨hturn, fun _ => ⟨_, hblock, by rw [hnext]; decide⟩⟩
  have hholds' : second.Holds 1 := ⟨hturn', fun _ => ⟨_, hblock', by rw [hnext']; decide⟩⟩
  obtain ⟨-, hothers, -, hused⟩ := Leasing.used_seals "a→b" 0 10001 () hfirst hholds
  obtain ⟨-, -, hkept, hused'⟩ := Leasing.used_seals "a→b" 1 1 ()
    ((hothers 1 Nat.one_ne_zero).trans hsecond) hholds'
  have hzero := hkept (hused 10000 (by decide))
  have hone := hused' 0 Nat.one_pos
  rw [hnext] at hzero
  rw [hnext'] at hone
  rw [Machine.run_append, Machine.run_append] at hnodup
  have hsame := List.inj_on_of_nodup_map hnodup hzero hone rfl
  cases hsame

end

end Altior.Crypto
