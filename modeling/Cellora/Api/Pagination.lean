/-
# Opaque cursors

A cursor is the key of the last row of a page, as base64url text over a JSON object.  The
JSON library is a parameter; what the walk over pages needs of it is that reading undoes
writing, on the objects the encoder writes.
-/
import Cellora.Api.Hex
import Cellora.Db.Cells
import Cellora.Lib.Base64
import Cellora.Lib.Except

namespace Cellora

namespace Api

/-- The wire shape of a cursor. -/
structure CellsCursorWire where
  bn : ℤ
  tx : String
  oi : ℤ
deriving DecidableEq

/-- The functions of `serde_json` that the cursor uses. -/
structure JsonLib where
  /-- `serde_json::to_vec` of a cursor. -/
  toVec : CellsCursorWire → Option Bytes
  /-- `serde_json::from_slice` to a cursor. -/
  fromSlice : Bytes → Option CellsCursorWire

/-- The wire shape the encoder makes of a cursor. -/
def cursorWire (cursor : CellCursor) : CellsCursorWire where
  bn := cursor.blockNumber
  tx := "0x" ++ Hex.encode cursor.txHash
  oi := cursor.outputIndex

/-- `encode_cells_cursor`. -/
def encodeCellsCursor (J : JsonLib) (cursor : CellCursor) : String :=
  Base64.encode ((J.toVec (cursorWire cursor)).getD [])

/-- `decode_cells_cursor`. -/
def decodeCellsCursor (J : JsonLib) (raw : String) : Except ApiError CellCursor :=
  match Base64.decode raw with
  | none => .error (.invalidCursor "cursor is not valid base64url")
  | some bytes =>
      match J.fromSlice bytes with
      | none => .error (.invalidCursor "cursor is not well-formed")
      | some wire =>
          match decodePrefixed wire.tx with
          | none => .error (.invalidCursor "cursor tx_hash is not valid hex")
          | some txHash =>
              if txHash.length ≠ 32 then
                .error (.invalidCursor "cursor tx_hash must be exactly 32 bytes")
              else .ok ⟨wire.bn, txHash, wire.oi⟩

/-- Writing the object of a cursor succeeds, and reading gives it back. -/
def JsonLib.RoundTrips (J : JsonLib) : Prop :=
  ∀ cursor : CellCursor, InI64 cursor.blockNumber → InI32 cursor.outputIndex →
    ∃ bytes, J.toVec (cursorWire cursor) = some bytes ∧
      J.fromSlice bytes = some (cursorWire cursor)

/-- What is read has the integer types of the wire shape. -/
def JsonLib.Typed (J : JsonLib) : Prop :=
  ∀ {bytes : Bytes} {wire : CellsCursorWire}, J.fromSlice bytes = some wire →
    InI64 wire.bn ∧ InI32 wire.oi

/-- The trip of a cursor to the client and back. -/
lemma decodeCellsCursor_encode_eq {J : JsonLib} (hJ : J.RoundTrips) {cursor : CellCursor}
    (hbn : InI64 cursor.blockNumber) (hoi : InI32 cursor.outputIndex) :
    decodeCellsCursor J (encodeCellsCursor J cursor) =
      if cursor.txHash.length = 32 then .ok cursor
      else .error (.invalidCursor "cursor tx_hash must be exactly 32 bytes") := by
  obtain ⟨bytes, hto, hfrom⟩ := hJ cursor hbn hoi
  rw [decodeCellsCursor, encodeCellsCursor, hto, Option.getD_some, Base64.decode_encode]
  simp only [hfrom]
  rw [show (cursorWire cursor).tx = "0x" ++ Hex.encode cursor.txHash from rfl,
    decodePrefixed_append]
  simp only [ne_eq, ite_not]
  rfl

/-- A cursor with a hash of 32 bytes survives the trip to the client and back. -/
lemma decodeCellsCursor_encode {J : JsonLib} (hJ : J.RoundTrips) {cursor : CellCursor}
    (hbn : InI64 cursor.blockNumber) (hoi : InI32 cursor.outputIndex)
    (htx : cursor.txHash.length = 32) :
    decodeCellsCursor J (encodeCellsCursor J cursor) = .ok cursor := by
  rw [decodeCellsCursor_encode_eq hJ hbn hoi, if_pos htx]

/-- Any text is refused as an invalid cursor, or read as one with a hash of 32 bytes. -/
lemma decodeCellsCursor_cases {J : JsonLib} (htyped : J.Typed) (raw : String) :
    (∃ message, decodeCellsCursor J raw = .error (.invalidCursor message)) ∨
      ∃ cursor, decodeCellsCursor J raw = .ok cursor ∧ InI64 cursor.blockNumber ∧
        InI32 cursor.outputIndex ∧ cursor.txHash.length = 32 := by
  rw [decodeCellsCursor]
  split
  · exact .inl ⟨_, rfl⟩
  · split
    · exact .inl ⟨_, rfl⟩
    · rename_i wire hwire
      obtain ⟨hbn, hoi⟩ := htyped hwire
      split
      · exact .inl ⟨_, rfl⟩
      · rename_i txHash _
        by_cases hlen : txHash.length = 32
        · exact .inr ⟨_, if_neg (not_not.2 hlen), hbn, hoi, hlen⟩
        · exact .inl ⟨_, if_pos hlen⟩

/-- **The cursor codec.**  A cursor survives the trip to the client and back exactly if its
hash is 32 bytes wide, and is refused otherwise.  Any text at all is refused as an invalid
cursor or read as a cursor that survives the trip. -/
theorem cursor_codec (J : JsonLib) (hJ : J.RoundTrips) (htyped : J.Typed) :
    (∀ cursor : CellCursor, InI64 cursor.blockNumber → InI32 cursor.outputIndex →
      (cursor.txHash.length = 32 →
        decodeCellsCursor J (encodeCellsCursor J cursor) = .ok cursor) ∧
      (cursor.txHash.length ≠ 32 →
        decodeCellsCursor J (encodeCellsCursor J cursor) =
          .error (.invalidCursor "cursor tx_hash must be exactly 32 bytes"))) ∧
    ∀ raw : String,
      (∃ message, decodeCellsCursor J raw = .error (.invalidCursor message)) ∨
      ∃ cursor, decodeCellsCursor J raw = .ok cursor ∧ cursor.txHash.length = 32 ∧
        decodeCellsCursor J (encodeCellsCursor J cursor) = .ok cursor := by
  refine ⟨fun cursor hbn hoi => ⟨decodeCellsCursor_encode hJ hbn hoi, fun htx => ?_⟩, fun raw => ?_⟩
  · rw [decodeCellsCursor_encode_eq hJ hbn hoi, if_neg htx]
  · rcases decodeCellsCursor_cases htyped raw with hbad | ⟨cursor, hok, hbn, hoi, htx⟩
    · exact .inl hbad
    · exact .inr ⟨cursor, hok, htx, decodeCellsCursor_encode hJ hbn hoi htx⟩

/-! ### The compact form of a cursor object -/

namespace CompactJson

/-- The decimal text of an integer. -/
def writeInt : ℤ → List Char
  | .ofNat n => Nat.toDigits 10 n
  | .negSucc n => '-' :: Nat.toDigits 10 (n + 1)

def readInt : List Char → ℤ
  | '-' :: ds => -(Nat.ofDigitChars 10 ds 0 : ℤ)
  | ds => Nat.ofDigitChars 10 ds 0

/-- The object with its fields in order and no blanks.  The text of a cursor needs no
escapes. -/
def writeChars (w : CellsCursorWire) : List Char :=
  ['\x7b', '\x22', 'b', 'n', '\x22', ':'] ++ (writeInt w.bn ++
    ([',', '\x22', 't', 'x', '\x22', ':', '\x22'] ++ (w.tx.toList ++
      (['\x22', ',', '\x22', 'o', 'i', '\x22', ':'] ++ (writeInt w.oi ++ ['\x7d'])))))

/-- The fields of an object in that form. -/
def readFields (cs : List Char) : CellsCursorWire :=
  let cs := cs.drop 6
  let bn := cs.takeWhile (· ≠ ',')
  let cs := (cs.dropWhile (· ≠ ',')).drop 7
  let tx := cs.takeWhile (· ≠ '\x22')
  let cs := (cs.dropWhile (· ≠ '\x22')).drop 7
  let oi := cs.takeWhile (· ≠ '\x7d')
  ⟨readInt bn, String.ofList tx, readInt oi⟩

/-- The bytes of a text of ASCII characters. -/
def bytesOf (cs : List Char) : Bytes := cs.map fun c => UInt8.ofNat c.toNat

/-- Write the compact form, and read exactly that form. -/
def lib : JsonLib where
  toVec := fun w => some (bytesOf (writeChars w))
  fromSlice := fun bytes =>
    let w := readFields (bytes.map fun b => Char.ofNat b.toNat)
    if bytesOf (writeChars w) = bytes then some w else none

lemma writeInt_spec (z : ℤ) : ∀ c ∈ writeInt z, c = '-' ∨ c.isDigit = true := by
  intro c hc
  cases z with
  | ofNat n => exact Or.inr (Nat.isDigit_of_mem_toDigits (by decide) (by decide) hc)
  | negSucc n =>
      rcases List.mem_cons.1 hc with rfl | hc
      · exact Or.inl rfl
      · exact Or.inr (Nat.isDigit_of_mem_toDigits (by decide) (by decide) hc)

lemma readInt_writeInt (z : ℤ) : readInt (writeInt z) = z := by
  cases z with
  | ofNat n =>
      rw [writeInt, readInt]
      · rw [Nat.ofDigitChars_ten_toDigits]
        rfl
      · -- the text of a natural number does not start with a sign
        intro ds h
        have := Nat.isDigit_of_mem_toDigits (n := n) (c := '-') (b := 10) (by decide) (by decide)
          (by rw [h]; exact List.mem_cons_self)
        exact absurd this (by decide)
  | negSucc n =>
      rw [writeInt, readInt, Nat.ofDigitChars_ten_toDigits, Int.negSucc_eq]
      rfl

lemma isDigit_bounds {c : Char} (h : c.isDigit = true) : 48 ≤ c.toNat ∧ c.toNat ≤ 57 := by
  simp only [Char.isDigit, Bool.and_eq_true, decide_eq_true_eq] at h
  exact h

lemma encodeChars_ne_quote (bs : Bytes) : ∀ c ∈ Hex.encodeChars bs, c ≠ '\x22' ∧ c.toNat < 128 := by
  have hdigit : ∀ m : Fin 16, Hex.digit m ≠ '\x22' ∧ (Hex.digit m).toNat < 128 := by decide
  intro c hc
  obtain ⟨b, -, hc⟩ := List.mem_flatMap.1 hc
  have hb : b.toNat < 256 := b.toNat_lt
  simp only [Hex.digits, List.mem_cons, List.not_mem_nil, or_false] at hc
  rcases hc with rfl | rfl
  · exact hdigit ⟨b.toNat / 16, by omega⟩
  · exact hdigit ⟨b.toNat % 16, by omega⟩

lemma map_bytesOf {cs : List Char} (h : ∀ c ∈ cs, c.toNat < 128) :
    (bytesOf cs).map (fun b => Char.ofNat b.toNat) = cs := by
  rw [bytesOf, List.map_map]
  conv_rhs => rw [← List.map_id cs]
  refine List.map_congr_left fun c hc => ?_
  have hlt := h c hc
  rw [Function.comp_apply, UInt8.toNat_ofNat_of_lt' (by simp only [UInt8.size]; omega),
    Char.ofNat_toNat]
  rfl

/-- The characters of an integer end no field. -/
lemma writeInt_ne (z : ℤ) {c : Char} (hc : c = ',' ∨ c = '\x7d') :
    ∀ d ∈ writeInt z, decide (d ≠ c) = true := by
  intro d hd
  rw [decide_eq_true_eq]
  rintro rfl
  rcases writeInt_spec z d hd with h | h <;> rcases hc with rfl | rfl <;> revert h <;> decide

/-- A field is read up to the character that ends it. -/
lemma takeWhile_field {c : Char} {field rest : List Char}
    (h : ∀ d ∈ field, decide (d ≠ c) = true) :
    (field ++ c :: rest).takeWhile (· ≠ c) = field ∧
      (field ++ c :: rest).dropWhile (· ≠ c) = c :: rest := by
  rw [List.takeWhile_append_of_pos h, List.dropWhile_append_of_pos h]
  simp

/-- Reading the fields of a written object, if its text holds no quote. -/
lemma readFields_writeChars {w : CellsCursorWire} (htx : ∀ d ∈ w.tx.toList, d ≠ '\x22') :
    readFields (writeChars w) = w := by
  have htx' : ∀ d ∈ w.tx.toList, decide (d ≠ '\x22') = true := by
    intro d hd
    simpa using htx d hd
  have hbn := writeInt_ne w.bn (c := ',') (Or.inl rfl)
  have hoi := writeInt_ne w.oi (c := '\x7d') (Or.inr rfl)
  simp only [readFields, writeChars, List.cons_append, List.nil_append, List.drop_succ_cons,
    List.drop_zero, takeWhile_field hbn, takeWhile_field htx', takeWhile_field hoi,
    readInt_writeInt, String.ofList_toList]

lemma lt_of_mem_ascii {cs : List Char} {d : Char} (hd : d ∈ cs)
    (h : cs.all (fun c => c.toNat < 128) = true) : d.toNat < 128 :=
  of_decide_eq_true (List.all_eq_true.1 h d hd)

lemma writeChars_ascii {w : CellsCursorWire} (htx : ∀ d ∈ w.tx.toList, d.toNat < 128) :
    ∀ d ∈ writeChars w, d.toNat < 128 := by
  have hint : ∀ z, ∀ d ∈ writeInt z, d.toNat < 128 := by
    intro z d hd
    rcases writeInt_spec z d hd with rfl | h
    · decide
    · exact (isDigit_bounds h).2.trans_lt (by decide)
  intro d hd
  simp only [writeChars, List.mem_append] at hd
  rcases hd with hd | hd | hd | hd | hd | hd | hd
  · exact lt_of_mem_ascii hd (by decide)
  · exact hint _ d hd
  · exact lt_of_mem_ascii hd (by decide)
  · exact htx d hd
  · exact lt_of_mem_ascii hd (by decide)
  · exact hint _ d hd
  · exact lt_of_mem_ascii hd (by decide)

/-- The compact form survives the trip. -/
lemma roundTrips : lib.RoundTrips := by
  intro cursor _ _
  have htx : ∀ d ∈ (cursorWire cursor).tx.toList, d ≠ '\x22' ∧ d.toNat < 128 := by
    intro d hd
    have hd : d = '0' ∨ d = 'x' ∨ d ∈ Hex.encodeChars cursor.txHash := by
      simpa [cursorWire, Hex.encode] using hd
    rcases hd with rfl | rfl | hd
    · decide
    · decide
    · exact encodeChars_ne_quote _ d hd
  refine ⟨_, rfl, ?_⟩
  have hread : readFields ((bytesOf (writeChars (cursorWire cursor))).map
      fun b => Char.ofNat b.toNat) = cursorWire cursor := by
    rw [map_bytesOf (writeChars_ascii fun d hd => (htx d hd).2),
      readFields_writeChars fun d hd => (htx d hd).1]
  simp only [lib, hread, if_true]

/-- The compact form, read into integers of the right types only. -/
def typedLib : JsonLib where
  toVec := lib.toVec
  fromSlice := fun bytes => (lib.fromSlice bytes).filter fun w => InI64 w.bn ∧ InI32 w.oi

lemma typedLib_typed : typedLib.Typed := by
  intro bytes wire h
  exact of_decide_eq_true (Option.filter_eq_some_iff.1 h).2

lemma typedLib_roundTrips : typedLib.RoundTrips := by
  intro cursor hbn hoi
  obtain ⟨bytes, hto, hfrom⟩ := roundTrips cursor hbn hoi
  refine ⟨bytes, hto, Option.filter_eq_some_iff.2 ⟨hfrom, decide_eq_true ⟨hbn, hoi⟩⟩⟩

end CompactJson

/-- Negative numbers survive the trip, and a hash of four bytes does not. -/
theorem cursor_codec_sample :
    decodeCellsCursor CompactJson.typedLib (encodeCellsCursor CompactJson.typedLib
      ⟨-5, List.replicate 32 0xab, -1⟩) = .ok ⟨-5, List.replicate 32 0xab, -1⟩ ∧
    decodeCellsCursor CompactJson.typedLib (encodeCellsCursor CompactJson.typedLib
      ⟨1, [0xde, 0xad, 0xbe, 0xef], 0⟩) =
        .error (.invalidCursor "cursor tx_hash must be exactly 32 bytes") := by
  obtain ⟨htrip, -⟩ := cursor_codec CompactJson.typedLib CompactJson.typedLib_roundTrips
    CompactJson.typedLib_typed
  exact ⟨(htrip ⟨-5, List.replicate 32 0xab, -1⟩ (by decide) (by decide)).1 rfl,
    (htrip ⟨1, [0xde, 0xad, 0xbe, 0xef], 0⟩ (by decide) (by decide)).2 (by decide)⟩

end Api

end Cellora
