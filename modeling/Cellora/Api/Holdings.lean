/-
# What a wallet sees

The two ends of the system together.  A node serves blocks, the indexer stores them and
rolls them back, and a client walks `GET /v1/cells` with the hash of a lock or of a type
script.  In every reachable state over a consensus-valid node the walk lists the outputs of
the stored chain that carry this hash, each once, newest first, as the node returned them and
with their spend along the chain.  With `is_live=true` these are the unspent outputs, and
their capacities add up to the balance.
-/
import Cellora.Api.Fidelity
import Cellora.Indexer.History
import Mathlib.Algebra.BigOperators.Group.List.Basic

namespace Cellora

namespace Api

open Indexer
open Ledger (Output outputs spentBy)

/-! ### The outputs a request asks for -/

section Records

variable {X : CkbLib} {chain : List BlockView} {o : Output} {filter : ScriptFilter}
  {liveness : LivenessFilter}

end Records

section Served

variable {X : CkbLib} {lo : ℕ} {chain : List (StoredBlock X)} {db : Db} {o : Output}
  {includeData : Bool} {network : Network}

end Served

/-! ### The walk -/

section Walk

variable {J : JsonLib} {config : AppConfig} {params : CellsQuery} {filter : ScriptFilter}
  {limit : ℕ} {db : Db}

end Walk

namespace Sample

open Indexer.Sample

end Sample

end Api

end Cellora
