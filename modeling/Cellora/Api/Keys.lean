/-
# API keys

The shape `cell_<8 hex prefix>_<32 hex secret>` of a bearer key, and the check of its secret
half.  A slice of a `str` at a byte index that is out of range or inside a character stops
the program; here it is `none`.  The Argon2 crate is a parameter, and what `generate` draws
from the operating system is an argument of it.
-/
import Cellora.Lib.Hex
import Mathlib.Algebra.Ring.Nat
import Mathlib.Tactic.Common

namespace Cellora

namespace Api

/-- `KeyError`. -/
inductive KeyError where
  | hashing (message : String)
  | badFormat
  | mismatch
deriving DecidableEq

/-- The functions of the `argon2` crate that the check of a secret uses. -/
structure Argon2Lib where
  /-- Whether `PasswordHash::new` accepts the text. -/
  parses : String → Bool
  /-- `Argon2::verify_password` of a secret against a hash that parses. -/
  verifyPassword : String → String → Bool

/-- The `argon2` crate with the function that hashes a secret under a salt. -/
structure Argon2Crate extends Argon2Lib where
  /-- `Argon2::hash_password`, as the PHC text or the message of the error. -/
  hashPassword : (secret salt : String) → Except String String

/-- What a call of `generate` draws. -/
structure KeyDraw where
  prefixBytes : List UInt8
  secretBytes : List UInt8
  salt : String
  prefixWidth : prefixBytes.length = 4
  secretWidth : secretBytes.length = 16

/-- `IssuedKey`. -/
structure IssuedKey where
  keyPrefix : String
  secret : String
  secretHash : String
  full : String
deriving DecidableEq

namespace Keys

/-- The part before the first separator, and the part after it if there is one. -/
def splitOnce (sep : Char) : List Char → List Char × Option (List Char)
  | [] => ([], none)
  | c :: cs =>
      if c = sep then ([], some cs) else (c :: (splitOnce sep cs).1, (splitOnce sep cs).2)

/-- `char::is_whitespace`. -/
def isWhitespace (c : Char) : Bool :=
  let n := c.toNat
  (0x9 ≤ n && n ≤ 0xd) || n == 0x20 || n == 0x85 || n == 0xa0 || n == 0x1680 ||
    (0x2000 ≤ n && n ≤ 0x200a) || n == 0x2028 || n == 0x2029 || n == 0x202f || n == 0x205f ||
    n == 0x3000

/-- `str::trim`. -/
def trim (cs : List Char) : List Char :=
  ((cs.dropWhile isWhitespace).reverse.dropWhile isWhitespace).reverse

/-- `str::len`. -/
def byteLen (cs : List Char) : ℕ := (cs.map Char.utf8Size).sum

/-- The two slices at a byte index, unless it is out of range or inside a character. -/
def sliceAt : List Char → ℕ → Option (List Char × List Char)
  | cs, 0 => some ([], cs)
  | [], _ + 1 => none
  | c :: cs, n + 1 =>
      if c.utf8Size ≤ n + 1 then
        (sliceAt cs (n + 1 - c.utf8Size)).map fun p => (c :: p.1, p.2)
      else none

/-- `char::is_ascii_hexdigit`. -/
def isAsciiHexdigit (c : Char) : Bool :=
  ('0' ≤ c && c ≤ '9') || ('a' ≤ c && c ≤ 'f') || ('A' ≤ c && c ≤ 'F')

/-- `keys::split`. -/
def split (full : String) : Option (Except KeyError (String × String)) :=
  match splitOnce '_' full.toList with
  | (_, none) => some (.error .badFormat)
  | (tag, some rest) =>
      match splitOnce '_' rest with
      | (_, none) => some (.error .badFormat)
      | (prefixRandom, some secret) =>
          if tag ≠ "cell".toList then some (.error .badFormat)
          else if byteLen prefixRandom ≠ 8 || !prefixRandom.all isAsciiHexdigit then
            some (.error .badFormat)
          else if byteLen secret ≠ 32 || !secret.all isAsciiHexdigit then
            some (.error .badFormat)
          else do
            let prefixEnd := byteLen tag + 1 + byteLen prefixRandom
            let (before, _) ← sliceAt full.toList prefixEnd
            let (_, after) ← sliceAt full.toList (prefixEnd + 1)
            some (.ok (String.ofList before, String.ofList after))

/-- `keys::verify`. -/
def verify (A : Argon2Lib) (secret phc : String) : Except KeyError Unit :=
  if !A.parses phc then .error .mismatch
  else if A.verifyPassword secret phc then .ok ()
  else .error .mismatch

/-- `keys::generate`. -/
def generate (A : Argon2Crate) (draw : KeyDraw) : Except KeyError IssuedKey :=
  let prefixRandom := Hex.encode draw.prefixBytes
  let secret := Hex.encode draw.secretBytes
  let keyPrefix := "cell" ++ "_" ++ prefixRandom
  let full := keyPrefix ++ "_" ++ secret
  match A.hashPassword secret draw.salt with
  | .error message => .error (.hashing message)
  | .ok phc => .ok ⟨keyPrefix, secret, phc, full⟩

/-! ### Splitting at separators and at byte indices -/

lemma splitOnce_append {sep : Char} {a : List Char} (h : sep ∉ a) (b : List Char) :
    splitOnce sep (a ++ sep :: b) = (a, some b) := by
  induction a with
  | nil => simp [splitOnce]
  | cons c a ih =>
      have hc : c ≠ sep := fun heq => h (by simp [heq])
      have ha : sep ∉ a := fun hmem => h (by simp [hmem])
      rw [List.cons_append, splitOnce, if_neg hc, ih ha]

lemma splitOnce_eq_some {sep : Char} {cs a b : List Char}
    (h : splitOnce sep cs = (a, some b)) : cs = a ++ sep :: b := by
  induction cs generalizing a with
  | nil => exact absurd (congrArg Prod.snd h) (by simp [splitOnce])
  | cons c cs ih =>
      rw [splitOnce] at h
      by_cases hc : c = sep
      · rw [if_pos hc] at h
        obtain ⟨rfl, hb⟩ := Prod.mk.inj h
        rw [hc, Option.some.inj hb, List.nil_append]
      · rw [if_neg hc] at h
        obtain ⟨rfl, hb⟩ := Prod.mk.inj h
        rw [List.cons_append, ← ih (Prod.ext rfl hb)]

/-- A text without whitespace is not trimmed. -/
lemma trim_of_forall {cs : List Char} (h : ∀ c ∈ cs, isWhitespace c = false) : trim cs = cs := by
  have hdrop : ∀ l : List Char, (∀ c ∈ l, isWhitespace c = false) →
      l.dropWhile isWhitespace = l := by
    intro l hl
    cases l with
    | nil => rfl
    | cons c l => exact List.dropWhile_cons_of_neg (by simp [hl c List.mem_cons_self])
  rw [trim, hdrop cs h, hdrop _ fun c hc => h c (List.mem_reverse.1 hc), List.reverse_reverse]

lemma byteLen_append (a b : List Char) : byteLen (a ++ b) = byteLen a + byteLen b := by
  rw [byteLen, List.map_append, List.sum_append]
  rfl

lemma byteLen_cons (c : Char) (a : List Char) : byteLen (c :: a) = c.utf8Size + byteLen a := by
  rw [byteLen, List.map_cons, List.sum_cons]
  rfl

/-- A slice at the end of a character sequence separates it from what follows. -/
lemma sliceAt_append (a b : List Char) : sliceAt (a ++ b) (byteLen a) = some (a, b) := by
  induction a with
  | nil => cases b <;> rfl
  | cons c a ih =>
      have hpos := c.utf8Size_pos
      obtain ⟨n, hn⟩ : ∃ n, byteLen (c :: a) = n + 1 :=
        ⟨c.utf8Size - 1 + byteLen a, by rw [byteLen_cons]; omega⟩
      have hle : c.utf8Size ≤ n + 1 := by
        rw [← hn, byteLen_cons]
        omega
      have hrest : n + 1 - c.utf8Size = byteLen a := by
        rw [← hn, byteLen_cons]
        omega
      rw [List.cons_append, hn, sliceAt, if_pos hle, hrest, ih]
      rfl

/-! ### The shape of a key -/

/-- The two halves of a key of the right shape. -/
structure Shape (prefixRandom secret : List Char) : Prop where
  prefixLen : byteLen prefixRandom = 8
  prefixHex : prefixRandom.all isAsciiHexdigit = true
  secretLen : byteLen secret = 32
  secretHex : secret.all isAsciiHexdigit = true

lemma underscore_not_mem {cs : List Char} (h : cs.all isAsciiHexdigit = true) : '_' ∉ cs := by
  intro hmem
  exact absurd (List.all_eq_true.1 h _ hmem) (by decide)

lemma utf8Size_of_isAsciiHexdigit {c : Char} (h : isAsciiHexdigit c = true) : c.utf8Size = 1 := by
  have hle : ∀ {b : Char}, c ≤ b → b.val ≤ 127 → c.val ≤ 127 := fun h h' => UInt32.le_trans h h'
  simp only [isAsciiHexdigit, Bool.or_eq_true, Bool.and_eq_true, decide_eq_true_eq] at h
  have hascii : c.val ≤ 127 := by
    rcases h with (⟨-, h⟩ | ⟨-, h⟩) | ⟨-, h⟩
    · exact hle h (by decide)
    · exact hle h (by decide)
    · exact hle h (by decide)
  rw [Char.utf8Size]
  exact if_pos hascii

/-- Hexadecimal digits are one byte each. -/
lemma byteLen_of_all {cs : List Char} (h : cs.all isAsciiHexdigit = true) :
    byteLen cs = cs.length := by
  induction cs with
  | nil => rfl
  | cons c cs ih =>
      rw [List.all_cons, Bool.and_eq_true] at h
      rw [byteLen_cons, utf8Size_of_isAsciiHexdigit h.1, ih h.2, List.length_cons, Nat.add_comm]

lemma Shape.length {prefixRandom secret : List Char} (h : Shape prefixRandom secret) :
    prefixRandom.length = 8 ∧ secret.length = 32 := by
  rw [← byteLen_of_all h.prefixHex, ← byteLen_of_all h.secretHex]
  exact ⟨h.prefixLen, h.secretLen⟩

/-- A text of the right shape is split into its halves; the slices are in range. -/
lemma split_of_shape {prefixRandom secret : List Char} (h : Shape prefixRandom secret) :
    split (String.ofList ("cell".toList ++ '_' :: (prefixRandom ++ '_' :: secret))) =
      some (.ok (String.ofList ("cell".toList ++ '_' :: prefixRandom), String.ofList secret)) := by
  have htag : ('_' : Char) ∉ "cell".toList := by decide
  have hslice : sliceAt ("cell".toList ++ '_' :: (prefixRandom ++ '_' :: secret))
      (byteLen "cell".toList + 1 + byteLen prefixRandom) =
      some ("cell".toList ++ '_' :: prefixRandom, '_' :: secret) := by
    have := sliceAt_append ("cell".toList ++ '_' :: prefixRandom) ('_' :: secret)
    rw [byteLen_append, byteLen_cons, List.append_assoc, List.cons_append, ← Nat.add_assoc] at this
    exact this
  have hslice' : sliceAt ("cell".toList ++ '_' :: (prefixRandom ++ '_' :: secret))
      (byteLen "cell".toList + 1 + byteLen prefixRandom + 1) =
      some ("cell".toList ++ '_' :: prefixRandom ++ ['_'], secret) := by
    have := sliceAt_append ("cell".toList ++ '_' :: prefixRandom ++ ['_']) secret
    rw [byteLen_append, byteLen_append, byteLen_cons, List.append_assoc, List.append_assoc,
      List.cons_append, List.singleton_append, ← Nat.add_assoc] at this
    exact this
  rw [split, String.toList_ofList, splitOnce_append htag]
  simp only [splitOnce_append (underscore_not_mem h.prefixHex), h.prefixLen, h.prefixHex,
    h.secretLen, h.secretHex]
  rw [h.prefixLen] at hslice hslice'
  simp only [hslice, hslice', ne_eq, not_true_eq_false, decide_false, Bool.not_true, Bool.or_self,
    Bool.false_eq_true, if_false, Option.bind_eq_bind, Option.bind_some]

/-- A text is refused, or it has the right shape. -/
lemma split_cases (full : String) :
    split full = some (.error .badFormat) ∨
      ∃ prefixRandom secret : List Char, Shape prefixRandom secret ∧
        full = String.ofList ("cell".toList ++ '_' :: (prefixRandom ++ '_' :: secret)) := by
  rw [split]
  split
  · exact .inl rfl
  · rename_i tag rest hfull
    split
    · exact .inl rfl
    · rename_i prefixRandom secret hrest
      by_cases htag : tag ≠ "cell".toList
      · exact .inl (if_pos htag)
      by_cases hpre : (byteLen prefixRandom ≠ 8 || !prefixRandom.all isAsciiHexdigit) = true
      · rw [if_neg htag]
        exact .inl (if_pos hpre)
      by_cases hsec : (byteLen secret ≠ 32 || !secret.all isAsciiHexdigit) = true
      · rw [if_neg htag, if_neg hpre]
        exact .inl (if_pos hsec)
      right
      rw [Bool.or_eq_true, not_or] at hpre hsec
      refine ⟨prefixRandom, secret, ⟨?_, ?_, ?_, ?_⟩, ?_⟩
      · simpa using hpre.1
      · simpa using hpre.2
      · simpa using hsec.1
      · simpa using hsec.2
      · rw [← not_ne_iff.1 htag, ← splitOnce_eq_some hrest, ← splitOnce_eq_some hfull,
          String.ofList_toList]

/-- Only a text of the right shape is split. -/
lemma exists_shape_of_split {full keyPrefix secret : String}
    (h : split full = some (.ok (keyPrefix, secret))) :
    ∃ prefixRandom secretChars : List Char, Shape prefixRandom secretChars ∧
      full = String.ofList ("cell".toList ++ '_' :: (prefixRandom ++ '_' :: secretChars)) := by
  rcases split_cases full with hbad | hshape
  · rw [hbad] at h
    cases Option.some.inj h
  · exact hshape

/-- **The halves of a key make it up.** -/
theorem split_eq_ok {full keyPrefix secret : String}
    (h : split full = some (.ok (keyPrefix, secret))) : full = keyPrefix ++ "_" ++ secret := by
  obtain ⟨prefixRandom, secretChars, hshape, rfl⟩ := exists_shape_of_split h
  rw [split_of_shape hshape] at h
  obtain ⟨rfl, rfl⟩ := Prod.mk.inj (Except.ok.inj (Option.some.inj h))
  rw [← String.toList_inj]
  simp

/-! ### Generated keys -/

lemma all_encodeChars (bs : List UInt8) : (Hex.encodeChars bs).all isAsciiHexdigit = true := by
  rw [List.all_eq_true]
  intro c hc
  obtain ⟨n, hn, rfl⟩ := Hex.exists_digit_of_mem hc
  have hall : ∀ m : Fin 16, isAsciiHexdigit (Hex.digit m) = true := by decide
  exact hall ⟨n, hn⟩

lemma byteLen_encodeChars (bs : List UInt8) : byteLen (Hex.encodeChars bs) = 2 * bs.length := by
  rw [byteLen_of_all (all_encodeChars bs), Hex.length_encodeChars]

/-- What `generate` returns: the halves of the full key, and a hash of the secret half. -/
structure IssuedBy (A : Argon2Crate) (draw : KeyDraw) (issued : IssuedKey) : Prop where
  secret : issued.secret = Hex.encode draw.secretBytes
  full : issued.full = issued.keyPrefix ++ "_" ++ issued.secret
  hashed : A.hashPassword issued.secret draw.salt = .ok issued.secretHash
  splits : split issued.full = some (.ok (issued.keyPrefix, issued.secret))

/-- **The full key that is handed out splits into the stored prefix and the hashed secret.** -/
lemma issuedBy_of_generate {A : Argon2Crate} {draw : KeyDraw} {issued : IssuedKey}
    (h : generate A draw = .ok issued) : IssuedBy A draw issued := by
  rw [generate] at h
  cases hhash : A.hashPassword (Hex.encode draw.secretBytes) draw.salt with
  | error e =>
      simp only [hhash] at h
      exact absurd h (by simp)
  | ok phc =>
      simp only [hhash] at h
      obtain rfl := (Except.ok.inj h).symm
      have hshape : Shape (Hex.encodeChars draw.prefixBytes) (Hex.encodeChars draw.secretBytes) :=
        ⟨by rw [byteLen_encodeChars, draw.prefixWidth], all_encodeChars _,
          by rw [byteLen_encodeChars, draw.secretWidth], all_encodeChars _⟩
      refine ⟨rfl, rfl, hhash, ?_⟩
      have hsplit := split_of_shape hshape
      have hfull : String.ofList ("cell".toList ++ '_' :: (Hex.encodeChars draw.prefixBytes ++
          '_' :: Hex.encodeChars draw.secretBytes)) =
          "cell" ++ "_" ++ Hex.encode draw.prefixBytes ++ "_" ++ Hex.encode draw.secretBytes := by
        rw [← String.toList_inj]
        simp [Hex.encode]
      have hpre : String.ofList ("cell".toList ++ '_' :: Hex.encodeChars draw.prefixBytes) =
          "cell" ++ "_" ++ Hex.encode draw.prefixBytes := by
        rw [← String.toList_inj]
        simp [Hex.encode]
      rw [hfull, hpre] at hsplit
      exact hsplit

/-! ### The grammar of a key -/

/-- The form `cell_`, 8 hexadecimal digits, an underscore and 32 hexadecimal digits. -/
def InGrammar (s : String) : Prop :=
  ∃ a b : List Char, a.length = 8 ∧ (∀ c ∈ a, isAsciiHexdigit c = true) ∧
    b.length = 32 ∧ (∀ c ∈ b, isAsciiHexdigit c = true) ∧
    s = "cell_" ++ String.ofList a ++ "_" ++ String.ofList b

lemma inGrammar_iff_shape {s : String} :
    InGrammar s ↔ ∃ prefixRandom secret : List Char, Shape prefixRandom secret ∧
      s = String.ofList ("cell".toList ++ '_' :: (prefixRandom ++ '_' :: secret)) := by
  have htext : ∀ a b : List Char, "cell_" ++ String.ofList a ++ "_" ++ String.ofList b =
      String.ofList ("cell".toList ++ '_' :: (a ++ '_' :: b)) := by
    intro a b
    rw [← String.toList_inj]
    simp
  constructor
  · rintro ⟨a, b, ha, hahex, hb, hbhex, rfl⟩
    rw [← List.all_eq_true] at hahex hbhex
    exact ⟨a, b, ⟨(byteLen_of_all hahex).trans ha, hahex, (byteLen_of_all hbhex).trans hb, hbhex⟩,
      htext a b⟩
  · rintro ⟨a, b, hshape, rfl⟩
    exact ⟨a, b, hshape.length.1, List.all_eq_true.1 hshape.prefixHex, hshape.length.2,
      List.all_eq_true.1 hshape.secretHex, (htext a b).symm⟩

/-- **The grammar of a bearer key.**  A text is split exactly if it is in the grammar, into its
first 13 and its last 32 characters with an underscore between them; any other text is refused
as malformed, and no slice is ever out of range.  A generated key splits into the halves it was
made of, and one is generated unless the secret cannot be hashed. -/
theorem bearer_key_grammar (s : String) :
    ((∃ p x, split s = some (.ok (p, x))) ↔ InGrammar s) ∧
    (∀ p x, split s = some (.ok (p, x)) → s = p ++ "_" ++ x ∧
      p.toList = s.toList.take 13 ∧ x.toList = s.toList.drop (s.toList.length - 32) ∧
      p.toList.length = 13 ∧ x.toList.length = 32) ∧
    (¬ InGrammar s → split s = some (.error .badFormat)) ∧
    ∀ (A : Argon2Crate) (draw : KeyDraw),
      (∃ message, A.hashPassword (Hex.encode draw.secretBytes) draw.salt = .error message ∧
        generate A draw = .error (.hashing message)) ∨
      ∃ issued, generate A draw = .ok issued ∧
        split issued.full = some (.ok (issued.keyPrefix, issued.secret)) := by
  refine ⟨⟨?_, ?_⟩, ?_, ?_, ?_⟩
  · rintro ⟨p, x, h⟩
    exact inGrammar_iff_shape.2 (exists_shape_of_split h)
  · intro h
    obtain ⟨prefixRandom, secret, hshape, rfl⟩ := inGrammar_iff_shape.1 h
    exact ⟨_, _, split_of_shape hshape⟩
  · intro p x h
    have hparts := split_eq_ok h
    obtain ⟨prefixRandom, secret, hshape, rfl⟩ := exists_shape_of_split h
    rw [split_of_shape hshape] at h
    obtain ⟨rfl, rfl⟩ := Prod.mk.inj (Except.ok.inj (Option.some.inj h))
    obtain ⟨hpre, hsec⟩ := hshape.length
    refine ⟨hparts, ?_, ?_, ?_, ?_⟩
    · simp [hpre]
    · simp [hpre, hsec, List.drop_append]
    · simp [hpre]
    · simpa using hsec
  · intro h
    rcases split_cases s with hbad | hshape
    · exact hbad
    · exact absurd (inGrammar_iff_shape.2 hshape) h
  · intro A draw
    cases hhash : A.hashPassword (Hex.encode draw.secretBytes) draw.salt with
    | error message =>
        refine .inl ⟨message, rfl, ?_⟩
        simp only [generate, hhash]
    | ok phc =>
        have hgen : ∃ issued, generate A draw = .ok issued := by
          simp only [generate, hhash]
          exact ⟨_, rfl⟩
        obtain ⟨issued, hgen⟩ := hgen
        exact .inr ⟨issued, hgen, (issuedBy_of_generate hgen).splits⟩

end Keys

end Api

end Cellora
