/-
# What a key can use

The bound of the token bucket, for the application as a whole.  However the requests of all
clients interleave, with whatever else goes on between the layers, the handlers of a surface are
entered for one key at most as often in any window of time as the burst and the refill of its
tier allow.
-/
import Cellora.Api.Metering

namespace Cellora

namespace Api

/-! ### The decisions of a sequence of calls -/

section Decisions

variable {keyPrefix : String} {surface : Surface} {params : LimitParams}

end Decisions

/-! ### The exchanges that get through -/

namespace Gateway

variable (cfg : GatewayConfig) (A : Argon2Lib) (ttl : ℕ) (s₀ : Gateway) (ms : List GatewayMove)

/-- Every call of the limiter before a position is answered. -/
def Answered (k : ℕ) : Prop :=
  ∀ j < k, ∀ i call reply, ms[j]? = some (.limit i call reply) → reply = .answered

variable {cfg A ttl s₀ ms}

end Gateway

namespace GatewaySample

lemma answered : Gateway.Answered moves 11 := by
  intro j _ i call reply hm
  have hmem := List.mem_of_getElem? hm
  simp only [moves, List.mem_cons, reduceCtorEq, GatewayMove.limit.injEq, List.not_mem_nil,
    or_false, false_or] at hmem
  exact hmem.2.2

end GatewaySample

section Sample

open GatewaySample

end Sample

end Api

end Cellora
