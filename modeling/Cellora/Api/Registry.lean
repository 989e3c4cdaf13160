/-
# Well-known scripts

The table that gives a script its short label, and the lookup in it.
-/
import Cellora.Api.Hex

namespace Cellora

namespace Api

/-- The network a deployment indexes. -/
inductive Network where
  | mainnet
  | testnet
  | devnet
deriving DecidableEq, Repr

/-- Where a registered script may appear. -/
inductive ScriptKind where
  | lock
  | type
  | either
deriving DecidableEq, Repr

/-- The slot of a cell that is looked up. -/
inductive ScriptSlot where
  | lock
  | type
deriving DecidableEq, Repr

/-- An entry of the registry. -/
structure WellKnownScript where
  codeHash : Bytes
  hashType : ℤ
  network : Network
  kind : ScriptKind
  label : String
deriving DecidableEq

/-- The bytes of a `0x`-prefixed literal. -/
def literalHash (literal : String) : Bytes := (decodePrefixed literal).getD []

/-- The `SMALLINT` of the hash type `type`. -/
def htType : ℤ := 1

def sighashCodeHash : Bytes :=
  literalHash "0x9bd7e06f3ecf4be0f2fcd2188b23f1b9fcc88e5d4b65a8637b17723bbda3cce8"

def multisigCodeHash : Bytes :=
  literalHash "0x5c5069eb0857efc65e1bca0c07df34c31663b3622fd3876c876320fc9634e2a8"

def nervosDaoCodeHash : Bytes :=
  literalHash "0x82d76d1b75fe2fd9a27dfbaa65a039221a380d76c926f378d3f81cf3e7e13f2e"

/-- The full table. -/
def registry : List WellKnownScript :=
  [⟨sighashCodeHash, htType, .mainnet, .lock, "sighash"⟩,
    ⟨sighashCodeHash, htType, .testnet, .lock, "sighash"⟩,
    ⟨multisigCodeHash, htType, .mainnet, .lock, "multisig"⟩,
    ⟨multisigCodeHash, htType, .testnet, .lock, "multisig"⟩,
    ⟨nervosDaoCodeHash, htType, .mainnet, .type, "nervos_dao"⟩,
    ⟨nervosDaoCodeHash, htType, .testnet, .type, "nervos_dao"⟩]

/-- Whether an entry may tag a slot. -/
def ScriptKind.tags : ScriptKind → ScriptSlot → Bool
  | .either, _ => true
  | .lock, slot => slot == .lock
  | .type, slot => slot == .type

/-- `lookup`. -/
def lookup (network : Network) (codeHash : Bytes) (hashType : ℤ) (slot : ScriptSlot) :
    Option String :=
  if codeHash.length ≠ 32 then none
  else (registry.find? fun entry =>
    entry.network == network && entry.hashType == hashType && entry.codeHash == codeHash &&
      entry.kind.tags slot).map WellKnownScript.label

end Api

end Cellora
