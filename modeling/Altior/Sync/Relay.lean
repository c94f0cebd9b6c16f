import Altior.Lib.Table

/-!
# The relay

The content-agnostic queue machine of `altior-relay/src/lib.rs`: pushes into
buckets under global sequence numbers and cursored fetches.  Payloads are any
type with a length and decidable equality.
-/

namespace Altior.Sync

open Lib

/-- Quotas of the relay. -/
structure RelayPolicy where
  maxPayloadBytes : Nat
  maxBucketDepth : Nat
  maxAgeTicks : Nat
  maxPushIdBytes : Nat
  maxBucketBytes : Nat
deriving DecidableEq, Repr

/-- The test preset of the vault. -/
def RelayPolicy.permissive : RelayPolicy where
  maxPayloadBytes := 1024 * 1024
  maxBucketDepth := 512
  maxAgeTicks := 1000
  maxPushIdBytes := 4 * 1024
  maxBucketBytes := 64 * 1024 * 1024

inductive RelayError
  | pushTooLarge (sizeBytes limitBytes : Nat)
  | pushIdTooLarge (sizeBytes limitBytes : Nat)
  | bucketQuotaExceeded (bucket : String) (incomingBytes limitBytes : Nat)
  | bucketFull (depth : Nat) (bucket : String)
  | pushIdCollision (id : String) (existingSeq : Nat)
deriving DecidableEq, Repr

/-- What a push did. -/
inductive PushOutcome
  | pushed (seq : Nat)
  | duplicate (seq : Nat)
deriving DecidableEq, Repr

/-- A retained entry of a bucket. -/
structure QueueEntry (π : Type) where
  seq : Nat
  id : String
  payload : π
  pushedTick : Nat
  fetched : Bool
deriving DecidableEq

structure Bucket (π : Type) where
  entries : List (QueueEntry π)
  /-- Everything at or below this sequence number is gone. -/
  compactedUpTo : Nat
  /-- The highest sequence number the receiver has certainly seen. -/
  cursor : Nat
  compactedPayloads : Nat
  compactedBytes : Nat
deriving DecidableEq

variable {π : Type}

namespace Bucket

def empty : Bucket π := ⟨[], 0, 0, 0, 0⟩

def findById (b : Bucket π) (id : String) : Option (QueueEntry π) :=
  b.entries.find? fun entry => entry.id == id

/-- Sum of the retained payload bytes. -/
def retainedBytes (len : π → Nat) (b : Bucket π) : Nat :=
  b.entries.foldl (fun sum entry => sum + len entry.payload) 0

/-- The highest sequence number of the bucket. -/
def frontier (b : Bucket π) : Nat :=
  match b.entries.getLast? with
  | some entry => entry.seq
  | none => b.compactedUpTo

end Bucket

/-- The relay: a deterministic queue machine. -/
structure Relay (π : Type) where
  policy : RelayPolicy
  buckets : Table String (Bucket π)
  nextSeq : Nat
  tick : Nat
deriving DecidableEq

/-- One fetched payload with its cursor. -/
structure FetchedItem (π : Type) where
  seq : Nat
  id : String
  payload : π
deriving DecidableEq

/-- One page of a fetch. -/
inductive FetchPage (π : Type)
  | entries (items : List (FetchedItem π)) (nextCursor : Nat) (hasMore : Bool)
  | compacted (compactedUpTo : Nat)
  | invalidCursor (requested frontier : Nat)
deriving DecidableEq

namespace Relay

def new (policy : RelayPolicy) : Relay π := ⟨policy, ∅, 1, 0⟩

/-- The bucket under a label; a bucket that was never pushed to is empty. -/
def bucket (r : Relay π) (label : String) : Bucket π := r.buckets[label]?.getD .empty

/-- Queues a payload in a bucket. -/
def push [DecidableEq π] (len : π → Nat) (r : Relay π) (label id : String) (payload : π) :
    Except RelayError PushOutcome × Relay π :=
  if r.policy.maxPayloadBytes < len payload then
    (.error (.pushTooLarge (len payload) r.policy.maxPayloadBytes), r)
  else if r.policy.maxPushIdBytes < id.utf8ByteSize then
    (.error (.pushIdTooLarge id.utf8ByteSize r.policy.maxPushIdBytes), r)
  else
    let slot := r.bucket label
    -- The slot is created before the quota checks.
    let r' := { r with buckets := r.buckets.insert label slot }
    match slot.findById id with
    | some existing =>
      if existing.payload = payload then (.ok (.duplicate existing.seq), r')
      else (.error (.pushIdCollision id existing.seq), r')
    | none =>
      if r.policy.maxBucketBytes < slot.retainedBytes len + len payload then
        (.error (.bucketQuotaExceeded label (len payload) r.policy.maxBucketBytes), r')
      else if r.policy.maxBucketDepth ≤ slot.entries.length then
        (.error (.bucketFull r.policy.maxBucketDepth label), r')
      else
        let entry : QueueEntry π := ⟨r.nextSeq, id, payload, r.tick, false⟩
        (.ok (.pushed r.nextSeq),
          { r with
            buckets := r.buckets.insert label { slot with entries := slot.entries ++ [entry] }
            nextSeq := r.nextSeq + 1 })

/-- The entries after a cursor. -/
def entriesAfter (b : Bucket π) (after : Nat) : List (QueueEntry π) :=
  b.entries.filter fun entry => after < entry.seq

/-- Pages through a bucket: at most `limit` entries after the cursor. -/
def fetch (r : Relay π) (label : String) (after limit : Nat) : FetchPage π × Relay π :=
  match r.buckets[label]? with
  | none =>
    if 0 < after then (.invalidCursor after 0, r) else (.entries [] after false, r)
  | some slot =>
    if after < slot.compactedUpTo then (.compacted slot.compactedUpTo, r)
    else if slot.frontier < after then (.invalidCursor after slot.frontier, r)
    else
      let page := (entriesAfter slot after).take limit
      let nextCursor := (page.getLast?.map QueueEntry.seq).getD after
      let mark (entry : QueueEntry π) : QueueEntry π :=
        if after < entry.seq ∧ entry.seq ≤ nextCursor then { entry with fetched := true }
        else entry
      let slot' := { slot with
        entries := slot.entries.map mark
        cursor := max (max slot.cursor after) nextCursor }
      (.entries (page.map fun entry => ⟨entry.seq, entry.id, entry.payload⟩) nextCursor
          (limit < (entriesAfter slot after).length),
        { r with buckets := r.buckets.insert label slot' })

/-- Removes the entries at or below a boundary and counts them. -/
def compactTo (len : π → Nat) (slot : Bucket π) (boundary : Nat) : Bucket π :=
  let gone := slot.entries.takeWhile fun entry => entry.seq ≤ boundary
  { slot with
    entries := slot.entries.dropWhile fun entry => entry.seq ≤ boundary
    compactedUpTo := max slot.compactedUpTo boundary
    compactedPayloads := slot.compactedPayloads + gone.length
    compactedBytes := gone.foldl (fun sum entry => sum + len entry.payload) slot.compactedBytes }

/-- Folds everything the receiver has seen into the checkpoint of a bucket. -/
def compact (len : π → Nat) (r : Relay π) (label : String) : Relay π :=
  { r with buckets := r.buckets.update label fun slot => compactTo len slot slot.cursor }

/-- Folds the entries older than the retention policy into the checkpoints. -/
def sweepExpired (len : π → Nat) (r : Relay π) : Relay π :=
  let expired (entry : QueueEntry π) : Bool := r.policy.maxAgeTicks < r.tick - entry.pushedTick
  let boundary (slot : Bucket π) : Nat :=
    ((slot.entries.takeWhile expired).map QueueEntry.seq).max?.getD slot.compactedUpTo
  { r with buckets := r.buckets.map fun _ slot => compactTo len slot (boundary slot) }

/-- Advances the logical clock. -/
def advance (r : Relay π) : Relay π := { r with tick := r.tick + 1 }

end Relay

end Altior.Sync
