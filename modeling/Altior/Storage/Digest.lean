import Altior.Lib.Fnv
import Altior.Storage.Projection

/-!
# Projection digest

`domain_projection_digest` of `altior-storage/src/lib.rs`: the framed byte
stream of the four tables in primary-key order, hashed with FNV-1a.
-/

namespace Altior.Storage

open Lib

/-! ## Framing -/

def writeTag (tag : UInt8) : List UInt8 := [tag]

def writeU64 (n : Nat) : List UInt8 := toBeBytes (n % 0x10000000000000000)

/-- Two's complement. -/
def writeI64 (v : Int) : List UInt8 := toBeBytes (v % 0x10000000000000000).toNat

def writeStr (s : String) : List UInt8 :=
  writeU64 s.utf8ByteSize ++ s.toUTF8.data.toList

def writeOptStr : Option String → List UInt8
  | some s => writeTag 1 ++ writeStr s
  | none => writeTag 0

def writeOptI64 : Option Int → List UInt8
  | some v => writeTag 1 ++ writeI64 v
  | none => writeTag 0

def threadBytes (threadId : String) (row : ThreadRow) : List UInt8 :=
  writeTag 0x54 ++ writeStr threadId ++ writeStr row.agentProfileId ++ writeStr row.title
    ++ writeStr row.state ++ writeOptStr row.projectId ++ writeI64 row.eventCount
    ++ writeOptI64 row.firstEventSeq ++ writeOptI64 row.lastEventSeq ++ writeOptStr row.lastEventId
    ++ writeOptStr row.lastEventKind ++ writeI64 row.createdAt ++ writeI64 row.updatedAt

def turnBytes (turnId : String) (row : TurnRow) : List UInt8 :=
  writeTag 0x55 ++ writeStr turnId ++ writeStr row.threadId ++ writeOptStr row.operationId
    ++ writeStr row.state ++ writeStr row.delivery ++ writeI64 row.eventCount
    ++ writeI64 row.startedAt ++ writeOptI64 row.endedAt

def permissionBytes (eventId : String) (row : PermissionRow) : List UInt8 :=
  writeTag 0x50 ++ writeStr eventId ++ writeStr row.turnId ++ writeStr row.threadId
    ++ writeStr row.kind ++ writeStr row.description ++ writeStr row.decision
    ++ writeI64 row.requestedAt ++ writeOptI64 row.decidedAt

def memoryBytes (memoryId : String) (row : MemoryRow) : List UInt8 :=
  writeTag 0x4D ++ writeStr memoryId ++ writeStr row.content ++ writeStr row.scopeKind
    ++ writeOptStr row.scopeTarget ++ writeStr row.kind ++ writeStr row.state
    ++ writeI64 row.confidence ++ writeStr row.sensitivity ++ writeStr row.source
    ++ writeI64 row.explicit ++ writeOptStr row.provenanceThreadId
    ++ writeOptStr row.provenanceTurnId ++ writeOptStr row.excerpt ++ writeI64 row.createdAt
    ++ writeI64 row.updatedAt ++ writeOptI64 row.expiresAt ++ writeOptStr row.supersededBy

/-- The byte stream of a table, in primary-key order. -/
def tableBytes {α : Type} (f : String → α → List UInt8) (t : Table String α) : List UInt8 :=
  t.toList.flatMap fun (k, row) => f k row

/-- Everything the digest is computed from. -/
def projectionBytes (p : Projections) : List UInt8 :=
  tableBytes threadBytes p.thread ++ tableBytes turnBytes p.turn
    ++ tableBytes permissionBytes p.permission ++ tableBytes memoryBytes p.memory

/-! ## The hexadecimal digest -/

def hexDigit (n : Nat) : Char :=
  if n < 10 then Char.ofNat (48 + n) else Char.ofNat (87 + n)

/-- Sixteen lower-case hexadecimal digits. -/
def hex16 (n : Nat) : String :=
  String.ofList ((List.range 16).map fun i => hexDigit (n >>> (4 * (15 - i)) % 16))

def domainProjectionDigest (p : Projections) : String :=
  hex16 (fnv1a (projectionBytes p)).toNat

/-- A computed digest is never the empty text of a marker without one. -/
theorem domainProjectionDigest_ne_empty (p : Projections) : domainProjectionDigest p ≠ "" := by
  intro h
  have hlen := congrArg String.length h
  simp [domainProjectionDigest, hex16] at hlen

example : hex16 0xcbf29ce484222325 = "cbf29ce484222325" := by decide

end Altior.Storage
