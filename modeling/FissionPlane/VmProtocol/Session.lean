/-
# FissionPlane.VmProtocol.Session -- session constants, limits and epochs

The handshake is the first exchange of a connection: the host sends `Hello`, the guest answers
`HelloAck`, and the effective limits are the minimum of the two sides. Epochs are compared by
`evaluate`: an equal one joins, a greater one supersedes, a lower one is stale.
-/
import FissionPlane.VmProtocol.Proto

namespace FissionPlane.VmProtocol

/-! ## Constants -/

/-- Generation of the wire format itself. -/
def protocolVersion : UInt32 := 1

def streamIdSession : UInt64 := 0

def defaultMaxFrameSize : UInt32 := 4 * 1024 * 1024

def defaultChunkSize : UInt32 := 1024 * 1024

/-- Bound applied to the handshake itself, before limits are negotiated. -/
def maxHelloSize : Nat := 64 * 1024

/-! ## Limits -/

/-- Frame and chunk limits of one peer. -/
structure Limits where
  maxFrameSize : UInt32
  chunkSize : UInt32
  deriving DecidableEq, Repr

namespace Limits

def defaultLocal : Limits := ⟨defaultMaxFrameSize, defaultChunkSize⟩

/-- The effective limits are the minimum of the two sides. -/
def negotiate (local' peer : Limits) : Limits :=
  ⟨min local'.maxFrameSize peer.maxFrameSize, min local'.chunkSize peer.chunkSize⟩

/-- Limits advertised by the host. -/
def fromHello (hello : Hello) : Limits := ⟨hello.maxFrameSize, hello.chunkSize⟩

/-- Limits advertised by the agent. -/
def fromHelloAck (ack : HelloAck) : Limits := ⟨ack.maxFrameSize, ack.chunkSize⟩

end Limits

/-! ## Epochs -/

/-- The outcome of comparing a presented epoch against the current one. -/
inductive EpochVerdict where
  | join
  | supersede
  | rejectStale
  deriving DecidableEq, Repr

def evaluate (current presented : UInt64) : EpochVerdict :=
  if presented < current then .rejectStale
  else if current < presented then .supersede
  else .join

/-- An epoch is rejected exactly when it is below the current one. -/
theorem evaluate_eq_rejectStale_iff {current presented : UInt64} :
    evaluate current presented = .rejectStale ↔ presented < current := by
  unfold evaluate
  split
  · next h => exact ⟨fun _ => h, fun _ => rfl⟩
  · next h =>
      refine ⟨fun heq => ?_, fun hlt => absurd hlt h⟩
      split at heq <;> cases heq

end FissionPlane.VmProtocol
