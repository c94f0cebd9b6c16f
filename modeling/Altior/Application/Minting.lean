import Mathlib.Algebra.GroupWithZero.Nat
import Altior.Application.Daemon
import Altior.Domain.Identity

/-!
# Identifiers over many lives

Core mints identifiers of entities from the time and a counter mixed with noise of
the process (`altior-core/src/application/entity_ids.rs`), of events from the time
and a counter (`event_pump.rs`), and of identity documents from the time alone
(`daemon.rs`).  Counters start at zero with every process.  Each call is described by
the time it was given and its place in its life, and two calls clash when these agree
as far as the identifier keeps them.
-/

namespace Altior.Application

open Domain Lib

/-! ## The generators -/

/-- The noise of a process: its number turned by 17 bits and multiplied out. -/
def processNoise (pid : UInt32) : UInt64 :=
  let pid := pid.toUInt64
  ((pid <<< 17) ||| (pid >>> 47)) ^^^ (pid * 0x9E3779B97F4A7C15)

namespace EntityIdAllocator

/-- The allocator a process starts with. -/
def new (pid : UInt32) : EntityIdAllocator := ⟨0, processNoise pid⟩

theorem profile_head : '_' ∉ ['a', 'g', 'p'] := by decide

theorem binding_head : '_' ∉ ['h', 's', 'b'] := by decide

theorem event_head : '_' ∉ ['e', 'v', 't'] := by decide

def newAgentProfileId (a : EntityIdAllocator) (now : UInt64) : AgentProfileId :=
  hexId ['a', 'g', 'p'] [] [a.body now] rfl profile_head no_tag one_number body_le

def newHarnessBindingId (a : EntityIdAllocator) (now : UInt64) : HarnessBindingId :=
  hexId ['h', 's', 'b'] [] [a.body now] rfl binding_head no_tag one_number body_le

def newEventId (a : EntityIdAllocator) (now : UInt64) : EventId :=
  hexId ['e', 'v', 't'] [] [a.body now] rfl event_head no_tag one_number body_le

/-- Two bodies agree iff the times agree in 48 bits and what is mixed in in 16. -/
theorem body_eq_iff {a b : EntityIdAllocator} {now now' : UInt64} :
    a.body now = b.body now' ↔ now.toNat % 2 ^ 48 = now'.toNat % 2 ^ 48 ∧
      (a.counter + a.noise).toNat % 2 ^ 16 = (b.counter + b.noise).toNat % 2 ^ 16 := by
  have hbody (a : EntityIdAllocator) (now : UInt64) : (a.body now).toNat =
      now.toNat % 2 ^ 48 * 2 ^ 16 + (a.counter + a.noise).toNat % 2 ^ 16 := by
    have hlow : ((a.counter + a.noise) &&& 0xFFFF).toNat =
        (a.counter + a.noise).toNat % 2 ^ 16 :=
      (UInt64.toNat_and ..).trans (Nat.and_two_pow_sub_one_eq_mod _ 16)
    have hhigh : (now &&& 0xFFFFFFFFFFFF).toNat = now.toNat % 2 ^ 48 :=
      (UInt64.toNat_and ..).trans (Nat.and_two_pow_sub_one_eq_mod _ 48)
    rw [body, UInt64.toNat_add, UInt64.toNat_mul, hlow, hhigh]
    change (now.toNat % 2 ^ 48 * 2 ^ 16 % 2 ^ 64 + (a.counter + a.noise).toNat % 2 ^ 16) % 2 ^ 64 = _
    omega
  rw [← UInt64.toNat_inj, hbody, hbody]
  omega

end EntityIdAllocator

theorem document_head : '_' ∉ ['i', 'd', 'd'] := by decide

/-- The identifier of a document that is put: the one the command names, or one made
of the time. -/
def putDocumentId (documentId : Option String) (now : UInt64) :
    Except IdParseError IdentityDocumentId :=
  match documentId with
  | some id => Id.parse "idd_" id
  | none => .ok (hexId ['i', 'd', 'd'] [] [now] rfl document_head EntityIdAllocator.no_tag
      EntityIdAllocator.one_number EntityIdAllocator.body_le)

/-! ## Lives -/

/-- Who hands out an identifier: a constructor of the allocator, the generator of the
event pump, or the handler that puts documents. -/
inductive Issuer
  | thread
  | turn
  | agentProfile
  | harnessBinding
  | event
  | pump
  | document
deriving DecidableEq, Repr

/-- The constructors of the allocator. -/
inductive EntityKind
  | thread
  | turn
  | agentProfile
  | harnessBinding
  | event
deriving DecidableEq, Repr

namespace EntityKind

def issuer : EntityKind → Issuer
  | thread => .thread
  | turn => .turn
  | agentProfile => .agentProfile
  | harnessBinding => .harnessBinding
  | event => .event

/-- The text of the identifier the constructor returns. -/
def allocate (a : EntityIdAllocator) (now : UInt64) : EntityKind → String
  | thread => (a.newThreadId now).asStr
  | turn => (a.newTurnId now).asStr
  | agentProfile => (a.newAgentProfileId now).asStr
  | harnessBinding => (a.newHarnessBindingId now).asStr
  | event => (a.newEventId now).asStr

theorem issuer_inj {kind kind' : EntityKind} (h : kind.issuer = kind'.issuer) : kind = kind' := by
  cases kind <;> cases kind' <;> first | rfl | cases h

theorem allocate_eq_iff {a b : EntityIdAllocator} {now now' : UInt64} (kind : EntityKind) :
    kind.allocate a now = kind.allocate b now' ↔ a.body now = b.body now' := by
  cases kind <;> simp only [allocate, EntityIdAllocator.newThreadId, EntityIdAllocator.newTurnId,
    EntityIdAllocator.newAgentProfileId, EntityIdAllocator.newHarnessBindingId,
    EntityIdAllocator.newEventId]
  all_goals
    constructor
    · exact hexId_singleton_inj
    · intro h
      simp only [h]

end EntityKind

/-- One call of a generator: the time it was given, how many calls the generator had
answered before in its life, and the noise of that life. -/
inductive Issue
  | entity (kind : EntityKind) (now : UInt64) (earlier : Nat) (noise : UInt64)
  | event (now : UInt64) (earlier : Nat)
  | document (now : UInt64)

/-- Two calls of one generator whose identifiers agree: 48 bits of the time and 16
bits of what is mixed in, or the time and the counter, or the time. -/
def Issue.Clashes : Issue → Issue → Prop
  | .entity kind now earlier noise, .entity kind' now' earlier' noise' =>
    kind = kind' ∧ now.toNat % 2 ^ 48 = now'.toNat % 2 ^ 48 ∧
      (earlier + noise.toNat) % 2 ^ 16 = (earlier' + noise'.toNat) % 2 ^ 16
  | .event now earlier, .event now' earlier' =>
    now = now' ∧ earlier % 2 ^ 64 = earlier' % 2 ^ 64
  | .document now, .document now' => now = now'
  | _, _ => False

/-- The generators of Core.  `allocated` and `pumped` count the calls of this life;
`calls` and `issued` say what was asked and what was answered over all lives. -/
structure Mint where
  entityIds : EntityIdAllocator
  counter : UInt64
  allocated : Nat
  pumped : Nat
  calls : List Issue
  issued : List (Issuer × String)

/-- What may happen: a new process, a call of a constructor or of the pump's generator,
or a document that is put once its command was checked. -/
inductive Minting
  | restart (pid : UInt32)
  | entity (kind : EntityKind) (now : UInt64)
  | event (now : UInt64)
  | putIdentityDocument (documentId : Option String) (now : UInt64)

namespace Mint

/-- The generators of a process. -/
def start (pid : UInt32) (calls : List Issue) (issued : List (Issuer × String)) : Mint :=
  ⟨.new pid, 0, 0, 0, calls, issued⟩

/-- One step. -/
def step (s : Mint) : Minting → Mint
  | .restart pid => start pid s.calls s.issued
  | .entity kind now =>
    { s with
      entityIds := s.entityIds.next
      allocated := s.allocated + 1
      calls := s.calls ++ [.entity kind now s.allocated s.entityIds.noise]
      issued := s.issued ++ [(kind.issuer, kind.allocate s.entityIds now)] }
  | .event now =>
    { s with
      counter := s.counter + 1
      pumped := s.pumped + 1
      calls := s.calls ++ [.event now s.pumped]
      issued := s.issued ++ [(.pump, (eventIdOf now s.counter).asStr)] }
  | .putIdentityDocument documentId now =>
    match documentId, putDocumentId documentId now with
    | none, .ok id =>
      { s with
        calls := s.calls ++ [.document now]
        issued := s.issued ++ [(.document, id.asStr)] }
    | _, _ => s

/-- Core over many lives, of which the first is under the process `pid`. -/
def machine (pid : UInt32) : Machine Mint Minting := ⟨start pid [] [], step⟩

/-- What was answered to a call. -/
def answer : Issue → Issuer × String
  | .entity kind now earlier noise => (kind.issuer, kind.allocate ⟨.ofNat earlier, noise⟩ now)
  | .event now earlier => (.pump, (eventIdOf now (.ofNat earlier)).asStr)
  | .document now => (.document,
      (hexId ['i', 'd', 'd'] [] [now] rfl document_head EntityIdAllocator.no_tag
        EntityIdAllocator.one_number EntityIdAllocator.body_le : Id "idd_").asStr)

/-- Two calls are answered alike iff they clash. -/
theorem answer_eq_iff (a b : Issue) : answer a = answer b ↔ a.Clashes b := by
  have hadd (n : Nat) (noise : UInt64) : (UInt64.ofNat n + noise).toNat % 2 ^ 16 =
      (n + noise.toNat) % 2 ^ 16 := by
    rw [UInt64.toNat_add, UInt64.toNat_ofNat']
    omega
  cases a with
  | entity kind now earlier noise =>
    cases b with
    | entity kind' now' earlier' noise' =>
      rw [answer, answer, Prod.mk.injEq, Issue.Clashes]
      constructor
      · rintro ⟨hkind, hid⟩
        cases EntityKind.issuer_inj hkind
        obtain ⟨htime, hmix⟩ := EntityIdAllocator.body_eq_iff.1
          ((EntityKind.allocate_eq_iff kind).1 hid)
        exact ⟨rfl, htime, by rwa [hadd, hadd] at hmix⟩
      · rintro ⟨rfl, htime, hmix⟩
        refine ⟨rfl, (EntityKind.allocate_eq_iff kind).2 (EntityIdAllocator.body_eq_iff.2
          ⟨htime, ?_⟩)⟩
        rw [hadd, hadd]
        exact hmix
    | event | document =>
      refine iff_of_false (fun h => ?_) id
      cases kind <;> cases (Prod.mk.inj h).1
  | event now earlier =>
    cases b with
    | event now' earlier' =>
      rw [answer, answer, Prod.mk.injEq, Issue.Clashes, and_iff_right rfl]
      constructor
      · intro h
        obtain ⟨hnow, hrest⟩ := List.cons.inj (hexId_inj h rfl)
        have hearlier := congrArg UInt64.toNat (List.cons.inj hrest).1
        rw [UInt64.toNat_ofNat', UInt64.toNat_ofNat'] at hearlier
        exact ⟨hnow, hearlier⟩
      · rintro ⟨rfl, hearlier⟩
        have : UInt64.ofNat earlier = UInt64.ofNat earlier' := by
          rw [← UInt64.toNat_inj, UInt64.toNat_ofNat', UInt64.toNat_ofNat', hearlier]
        rw [this]
    | entity kind =>
      refine iff_of_false (fun h => ?_) id
      cases kind <;> cases (Prod.mk.inj h).1
    | document => exact iff_of_false (fun h => by cases (Prod.mk.inj h).1) id
  | document now =>
    cases b with
    | document now' =>
      rw [answer, answer, Prod.mk.injEq, Issue.Clashes, and_iff_right rfl]
      constructor
      · intro h
        exact hexId_singleton_inj h
      · rintro rfl
        rfl
    | entity kind =>
      refine iff_of_false (fun h => ?_) id
      cases kind <;> cases (Prod.mk.inj h).1
    | event => exact iff_of_false (fun h => by cases (Prod.mk.inj h).1) id

/-- The counters count the calls of the life, and every call was answered from what
it was given. -/
structure Counted (s : Mint) : Prop where
  allocator : s.entityIds.counter = .ofNat s.allocated
  pump : s.counter = .ofNat s.pumped
  issued : s.issued = s.calls.map answer

theorem Counted.step {s : Mint} (h : s.Counted) (i : Minting) : (s.step i).Counted := by
  have hsucc (n : Nat) : UInt64.ofNat n + 1 = .ofNat (n + 1) := (UInt64.ofNat_add n 1).symm
  cases i with
  | restart pid => exact ⟨rfl, rfl, h.issued⟩
  | entity kind now =>
    refine ⟨?_, h.pump, ?_⟩
    · exact (congrArg (· + 1) h.allocator).trans (hsucc s.allocated)
    · have hsame : s.entityIds = ⟨.ofNat s.allocated, s.entityIds.noise⟩ := by
        rw [← h.allocator]
      simp only [Mint.step, List.map_append, List.map_cons, List.map_nil, answer, h.issued, ← hsame]
  | event now =>
    refine ⟨h.allocator, ?_, ?_⟩
    · exact (congrArg (· + 1) h.pump).trans (hsucc s.pumped)
    · simp only [Mint.step, List.map_append, List.map_cons, List.map_nil, answer, h.issued, h.pump]
  | putIdentityDocument documentId now =>
    cases documentId with
    | some id => exact h
    | none =>
      refine ⟨h.allocator, h.pump, ?_⟩
      simp only [Mint.step, putDocumentId, List.map_append, List.map_cons, List.map_nil, answer,
        h.issued]

end Mint

end Altior.Application
