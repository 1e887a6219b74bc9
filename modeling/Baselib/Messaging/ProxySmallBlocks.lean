/-
Baselib.Messaging.ProxySmallBlocks — the budget of small blocks of the
proxy backend of `messaging/ProxyBrokerBackendProcessingFactory.h`.

Who asks for a block holds `m_lock`, so at most one request is going on. The
references are given back by the threads which complete or destroy the
messages, without the lock, and the counter is an atomic that each of them
counts down. Every access to the counter is a step of its own, and the
steps of all threads come in any order. A counter below zero would have
wrapped.
-/
import Baselib.Lib.Transition

namespace Baselib.Messaging.ProxySmallBlocks

open Lib

/-- `class DataBlockReferenceT`: whether it holds a block, and whether the pool
has marked it as freed. -/
structure DataBlockReference where
  dataBlock : Bool := false
  freed : Bool := false
  deriving DecidableEq, Repr

/-- `dehydrate`; the second component says that the counter is due to be
counted down. -/
def DataBlockReference.dehydrate (reference : DataBlockReference) : DataBlockReference × Bool :=
  ({ reference with dataBlock := false }, reference.dataBlock)

/-- Where `getAssociateMessageDataBlock` is: it has incremented the counter, it
may serialize the message, the scope guard is to run, or it has got a
reference to hydrate. -/
inductive Request where
  | incremented (tryOnly : Bool)
  | granted (tryOnly : Bool)
  | givingUp
  | referenced (tryOnly : Bool) (reference : Nat)
  deriving DecidableEq, Repr

/-- Where an associate message is: its reference is in use, the block is given
back and the counter is due, or the counter is counted down. A reference
which is given back by the continuation callback goes to the pool. -/
inductive Phase where
  | live
  | dehydrating (toPool : Bool)
  | dehydrated (toPool : Bool)
  deriving DecidableEq, Repr

structure Message where
  reference : Nat
  phase : Phase
  deriving DecidableEq, Repr

structure State where
  maxNoOfSmallBlocks : Int
  noOfSmallBlocksAllocated : Int := 0
  references : List DataBlockReference := []
  /-- `m_smallDataBlockReferencesPool`, which takes and gives at its end. -/
  pool : List Nat := []
  request : Option Request := none
  messages : List Message := []
  /-- A runtime assertion of the pool has failed. -/
  assertionFailed : Bool := false
  deriving DecidableEq, Repr

/-! ## The request -/

/-- `increment`, up to the atomic addition. -/
def acquire (tryOnly : Bool) (s : State) : Option State :=
  match s.request with
  | none =>
    some { s with
      noOfSmallBlocksAllocated := s.noOfSmallBlocksAllocated + 1
      request := some (.incremented tryOnly) }
  | some _ => none

/-- The counter is loaded again, and compared by a request that only tries. -/
def checkRoom (s : State) : Option State :=
  match s.request with
  | some (.incremented tryOnly) =>
    let noOfBlocksAllocated := s.noOfSmallBlocksAllocated
    if tryOnly && noOfBlocksAllocated ≥ s.maxNoOfSmallBlocks then
      some { s with request := some .givingUp }
    else some { s with request := some (.granted tryOnly) }
  | _ => none

/-- Serializing the message or making a reference throws. -/
def throwing (s : State) : Option State :=
  match s.request with
  | some (.granted _) => some { s with request := some .givingUp }
  | _ => none

/-- The scope guard. -/
def giveUp (s : State) : Option State :=
  match s.request with
  | some .givingUp =>
    some { s with
      noOfSmallBlocksAllocated := s.noOfSmallBlocksAllocated - 1
      request := none }
  | _ => none

/-- `tryGet` of the pool, which asserts that the reference is marked as freed;
else a new reference. -/
def takeReference (s : State) : Option State :=
  match s.request with
  | some (.granted tryOnly) =>
    match s.pool.getLast? with
    | some r =>
      match s.references[r]? with
      | some reference =>
        some { s with
          pool := s.pool.dropLast
          references := s.references.set r { reference with freed := false }
          request := some (.referenced tryOnly r)
          assertionFailed := s.assertionFailed || !reference.freed }
      | none => none
    | none =>
      some { s with
        references := s.references ++ [{}]
        request := some (.referenced tryOnly s.references.length) }
  | _ => none

/-- `hydrate`, and the reference is handed to a message. -/
def hydrate (s : State) : Option State :=
  match s.request with
  | some (.referenced _ r) =>
    match s.references[r]? with
    | some reference =>
      let (dehydrated, due) := reference.dehydrate
      some { s with
        noOfSmallBlocksAllocated :=
          if due then s.noOfSmallBlocksAllocated - 1 else s.noOfSmallBlocksAllocated
        references := s.references.set r { dehydrated with dataBlock := true }
        request := none
        messages := ⟨r, .live⟩ :: s.messages }
    | none => none
  | _ => none

/-! ## The messages -/

/-- The first half of `dehydrate` of the reference of a message. -/
def dehydrateMessage (i : Nat) (toPool : Bool) (s : State) : Option State :=
  match s.messages[i]? with
  | some ⟨r, .live⟩ =>
    match s.references[r]? with
    | some reference =>
      let (dehydrated, due) := reference.dehydrate
      some { s with
        references := s.references.set r dehydrated
        messages := s.messages.set i
          ⟨r, if due then .dehydrating toPool else .dehydrated toPool⟩ }
    | none => none
  | _ => none

/-- The second half. -/
def decrement (i : Nat) (s : State) : Option State :=
  match s.messages[i]? with
  | some ⟨r, .dehydrating toPool⟩ =>
    some { s with
      noOfSmallBlocksAllocated := s.noOfSmallBlocksAllocated - 1
      messages := s.messages.set i ⟨r, .dehydrated toPool⟩ }
  | _ => none

/-- `put` of the pool, which asserts that the reference is not marked as freed. -/
def put (i : Nat) (s : State) : Option State :=
  match s.messages[i]? with
  | some ⟨r, .dehydrated true⟩ =>
    match s.references[r]? with
    | some reference =>
      some { s with
        references := s.references.set r { reference with freed := true }
        pool := s.pool ++ [r]
        messages := s.messages.eraseIdx i
        assertionFailed := s.assertionFailed || reference.freed }
    | none => none
  | _ => none

/-- The reference is destroyed, or the pool has failed to store it. -/
def forget (i : Nat) (s : State) : Option State :=
  match s.messages[i]? with
  | some ⟨_, .dehydrated _⟩ => some { s with messages := s.messages.eraseIdx i }
  | _ => none

/-! ## Runs -/

/-- `continuation` is the continuation callback of a message that has completed
or failed; `destroyed` is the destructor of the reference of a message that
is dropped without one. -/
inductive Label where
  | acquire (tryOnly : Bool)
  | checkRoom
  | throwing
  | giveUp
  | takeReference
  | hydrate
  | continuation (i : Nat) (failed : Bool)
  | destroyed (i : Nat)
  | decrement (i : Nat)
  | put (i : Nat)
  | forget (i : Nat)
  deriving DecidableEq, Repr

def step (s : State) : Label → Option State
  | .acquire tryOnly => acquire tryOnly s
  | .checkRoom => checkRoom s
  | .throwing => throwing s
  | .giveUp => giveUp s
  | .takeReference => takeReference s
  | .hydrate => hydrate s
  | .continuation i _ => dehydrateMessage i true s
  | .destroyed i => dehydrateMessage i false s
  | .decrement i => decrement i s
  | .put i => put i s
  | .forget i => forget i s

/-- What some interleaving leads to. -/
def Reached (maxNoOfSmallBlocks : Int) (s : State) : Prop :=
  Transition.Reachable step (· = { maxNoOfSmallBlocks := maxNoOfSmallBlocks }) s

end Baselib.Messaging.ProxySmallBlocks
