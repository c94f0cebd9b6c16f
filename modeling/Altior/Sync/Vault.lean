import Altior.Sync.Exchange

/-!
# The vault

The group of nodes together with what else happens around them: anyone may push
an envelope to a bucket, the relay folds what was fetched, and tombstones are
compacted below the frontiers all peers have acknowledged
(`gc_frontiers` of `altior-core/src/sync/mod.rs`, `compact_tombstones` of
`altior-storage/src/sync_state.rs`).
-/

namespace Altior.Sync

open Lib Crypto

/-! ## Compaction -/

namespace SyncNode

/-- The highest sequence number of an origin that a peer has acknowledged. -/
def acknowledged (n : SyncNode) (peer origin : String) : Nat :=
  (n.peerAcks[peer]?.getD ∅)[origin]?.getD 0

/-- The least frontier of an origin that every peer has acknowledged. -/
def floor (n : SyncNode) (origin : String) : Nat :=
  n.peers.keys.foldl (fun floor peer => min floor (n.acknowledged peer origin)) u64Max

/-- Per known origin, the frontier below which tombstones may go. -/
def gcFrontiers (n : SyncNode) : Table String Nat :=
  (n.peerAcks.toList.flatMap fun (_, acks) => acks.keys).foldl
    (fun gate origin => gate.insert origin (n.floor origin)) ∅

end SyncNode

/-- Deletes the tombstones of each origin below its floor; the first floor that
does not fit a column, or the first failure, ends the loop. -/
def SyncPort.compactTombstones (p : SyncPort) : List (String × Nat) → SyncPort
  | [] => p
  | (origin, floor) :: floors =>
    if i64Max < floor then p
    else match p.call with
      | (true, p) => p
      | (false, p) =>
        compactTombstones { p with
          tombstones := p.tombstones.filter fun _ (mark, _) =>
            ¬ (mark.origin = origin ∧ mark.originSeq < floor) } floors

/-! ## The machine -/

section

variable [Primitives]

/-- What happens to the vault. -/
inductive VaultInput
  | system (input : SystemInput)
  /-- An envelope from anywhere is pushed to a bucket. -/
  | send (bucket id : String) (envelope : Envelope)
  | compactRelay (bucket : String)
  | compactTombstones (label : String)

variable [SyncCodec]

/-- One step.  Remote events arrive by polls, so none is received out of the
air. -/
def vaultStep (s : System) : VaultInput → System
  | .system (.node _ (.receive _)) => s
  | .system input => systemStep s input
  | .send bucket id envelope => { s with relay := (s.relay.push Envelope.len bucket id envelope).2 }
  | .compactRelay bucket => { s with relay := s.relay.compact Envelope.len bucket }
  | .compactTombstones label =>
    s.setNode label { s.nodes label with
      port := (s.nodes label).port.map fun port =>
        port.compactTombstones (s.nodes label).gcFrontiers.toList }

/-- The vault over the nodes of `systemMachine`. -/
def vaultMachine (policy : RelayPolicy) (keys : String → DeviceKeys) (isDurable : String → Bool) :
    Machine System VaultInput where
  init := (systemMachine policy keys isDurable).init
  step := vaultStep

end

end Altior.Sync
