/-
# Bytes and errors on the wire

The error type of the API, and the helpers that write byte strings as `0x`-prefixed
lower-case hexadecimal text and read them back.  A `Hex32` of the source is an `H256` here:
it cannot be built from a slice of another width.
-/
import Cellora.Ckb.Types
import Cellora.Lib.Hex
import Mathlib.Algebra.Ring.Parity

namespace Cellora

namespace Api

/-- `ApiError`. -/
inductive ApiError where
  | notFound (message : String)
  | badRequest (message : String)
  | invalidCursor (message : String)
  | unauthorized (reason : String)
  | rateLimited (retryAfterSeconds : ℕ)
  | upstreamUnavailable (message : String)
  | internal (source : String)
deriving DecidableEq

/-- The `Display` form of an error. -/
def ApiError.toString : ApiError → String
  | .notFound message => "not found: " ++ message
  | .badRequest message => "bad request: " ++ message
  | .invalidCursor message => "invalid cursor: " ++ message
  | .unauthorized reason => "unauthorized: " ++ reason
  | .rateLimited seconds => s!"rate limited: retry after {seconds}s"
  | .upstreamUnavailable message => "upstream unavailable: " ++ message
  | .internal _ => "internal error"

/-- Write `{byte:02x}` for each byte after the prefix. -/
def writePrefixed (bytes : Bytes) : String :=
  bytes.foldl (fun buf byte => buf ++ String.ofList (Hex.digits byte)) "0x"

/-- `encode_prefixed` of the REST surface. -/
def encodePrefixed : Bytes → String := writePrefixed

/-- `hex_prefixed` of the GraphQL surface. -/
def hexPrefixed : Bytes → String := writePrefixed

/-- `decode_prefixed`. -/
def decodePrefixed (input : String) : Option Bytes :=
  match input.toList with
  | '0' :: 'x' :: body => Hex.decodeChars body
  | _ => none

/-- `Hex32::try_from_slice`. -/
def hex32TryFromSlice (slice : Bytes) : Except ApiError H256 :=
  if h : slice.length = 32 then .ok ⟨slice, h⟩
  else .error (.internal s!"expected 32-byte hash, got {slice.length} bytes")

lemma foldl_writePrefixed (bytes : Bytes) (buf : String) :
    bytes.foldl (fun buf byte => buf ++ String.ofList (Hex.digits byte)) buf =
      buf ++ Hex.encode bytes := by
  induction bytes generalizing buf with
  | nil =>
      rw [List.foldl_nil]
      exact (String.append_empty).symm
  | cons b bytes ih =>
      rw [List.foldl_cons, ih, String.append_assoc, Hex.encode, Hex.encode,
        ← String.ofList_append]
      rfl

lemma decodePrefixed_append (bytes : Bytes) :
    decodePrefixed ("0x" ++ Hex.encode bytes) = some bytes := by
  have hlist : ("0x" ++ Hex.encode bytes).toList = '0' :: 'x' :: Hex.encodeChars bytes := by
    rw [String.toList_append, Hex.encode, String.toList_ofList]
    simp
  rw [decodePrefixed, hlist]
  exact Hex.decodeChars_encodeChars bytes

lemma writePrefixed_eq (bytes : Bytes) : writePrefixed bytes = "0x" ++ Hex.encode bytes := by
  rw [writePrefixed, foldl_writePrefixed]

/-- What either surface writes is read back. -/
theorem decodePrefixed_encodePrefixed (bytes : Bytes) :
    decodePrefixed (encodePrefixed bytes) = some bytes := by
  rw [encodePrefixed, writePrefixed_eq]
  exact decodePrefixed_append bytes

/-- The prefix, and what follows it. -/
lemma decodePrefixed_eq_some_iff {s : String} {bytes : Bytes} :
    decodePrefixed s = some bytes ↔
      ∃ ds, s = "0x" ++ String.ofList ds ∧ Hex.Spells ds bytes := by
  constructor
  · intro h
    rw [decodePrefixed] at h
    split at h
    · rename_i ds hs
      refine ⟨ds, ?_, Hex.decodeChars_eq_some_iff.1 h⟩
      rw [← String.toList_inj, hs]
      simp
    · exact absurd h (by simp)
  · rintro ⟨ds, rfl, h⟩
    have hlist : ("0x" ++ String.ofList ds).toList = '0' :: 'x' :: ds := by simp
    rw [decodePrefixed, hlist]
    exact Hex.decodeChars_eq_some_iff.2 h

/-- **Bytes on the wire.**  The three places that write a byte string write the same text,
which is read back.  Exactly the texts with the prefix and two digits of either case for each
byte are read, and what is written for the bytes read is the text in lower case. -/
theorem hex_wire_format (bytes : Bytes) (s : String) :
    (encodePrefixed bytes = hexPrefixed bytes ∧
      encodePrefixed bytes = "0x" ++ Hex.encode bytes) ∧
    decodePrefixed (encodePrefixed bytes) = some bytes ∧
    (decodePrefixed s = some bytes ↔
      ∃ ds, s = "0x" ++ String.ofList ds ∧ Even ds.length ∧ Hex.Spells ds bytes) ∧
    (decodePrefixed s = some bytes →
      encodePrefixed bytes = String.ofList (s.toList.map Char.toLower)) := by
  refine ⟨⟨rfl, writePrefixed_eq bytes⟩, decodePrefixed_encodePrefixed bytes, ?_, fun h => ?_⟩
  · rw [decodePrefixed_eq_some_iff]
    constructor
    · rintro ⟨ds, hs, h⟩
      exact ⟨ds, hs, h.length ▸ even_two_mul _, h⟩
    · rintro ⟨ds, hs, -, h⟩
      exact ⟨ds, hs, h⟩
  · obtain ⟨ds, rfl, hds⟩ := decodePrefixed_eq_some_iff.1 h
    -- the prefix has no upper-case letter
    rw [encodePrefixed, writePrefixed_eq, Hex.encode, Hex.encodeChars_of_spells hds,
      ← String.toList_inj]
    simp

lemma hex32TryFromSlice_of_width {slice : Bytes} (h : slice.length = 32) :
    hex32TryFromSlice slice = .ok ⟨slice, h⟩ := dif_pos h

end Api

end Cellora
