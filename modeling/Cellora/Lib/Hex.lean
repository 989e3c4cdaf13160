/-
# Hexadecimal text

Bytes as pairs of hexadecimal digits.  Encoding writes lower-case digits, as Rust's
`{:02x}` and the crate `hex` do; decoding reads digits of either case and refuses an odd
number of digits or any other character.
-/
import Mathlib.Data.List.Basic
import Mathlib.Tactic.Common

namespace Cellora

namespace Hex

/-- The lower-case digit of a number below 16. -/
def digit (n : ℕ) : Char :=
  if n < 10 then Char.ofNat (48 + n) else Char.ofNat (87 + n)

/-- The value of a hexadecimal digit of either case. -/
def value (c : Char) : Option ℕ :=
  if '0' ≤ c ∧ c ≤ '9' then some (c.toNat - 48)
  else if 'a' ≤ c ∧ c ≤ 'f' then some (c.toNat - 87)
  else if 'A' ≤ c ∧ c ≤ 'F' then some (c.toNat - 55)
  else none

/-- The two digits of a byte. -/
def digits (b : UInt8) : List Char := [digit (b.toNat / 16), digit (b.toNat % 16)]

/-- The digits of a byte string. -/
def encodeChars (bs : List UInt8) : List Char := bs.flatMap digits

/-- Read pairs of digits: `hex::decode`, without the reason of a failure. -/
def decodeChars : List Char → Option (List UInt8)
  | [] => some []
  | [_] => none
  | c :: d :: cs => do
      let hi ← value c
      let lo ← value d
      let bs ← decodeChars cs
      some (UInt8.ofNat (16 * hi + lo) :: bs)

/-- `c` is a digit of either case with the value `n`. -/
def IsDigit (c : Char) (n : ℕ) : Prop :=
  "0123456789abcdef".toList[n]? = some c ∨ "0123456789ABCDEF".toList[n]? = some c

instance (c : Char) (n : ℕ) : Decidable (IsDigit c n) := inferInstanceAs (Decidable (_ ∨ _))

/-- The text spells the bytes: two digits for each byte, the high one first. -/
inductive Spells : List Char → List UInt8 → Prop
  | nil : Spells [] []
  | cons {c d : Char} {hi lo : ℕ} {b : UInt8} {cs : List Char} {bs : List UInt8}
      (hc : IsDigit c hi) (hd : IsDigit d lo) (hb : b.toNat = 16 * hi + lo)
      (rest : Spells cs bs) : Spells (c :: d :: cs) (b :: bs)

/-- `hex::encode`. -/
def encode (bs : List UInt8) : String := String.ofList (encodeChars bs)

lemma value_digit {n : ℕ} (h : n < 16) : value (digit n) = some n := by
  have hall : ∀ m : Fin 16, value (digit m) = some (m : ℕ) := by decide
  exact hall ⟨n, h⟩

lemma encodeChars_cons (b : UInt8) (bs : List UInt8) :
    encodeChars (b :: bs) =
      digit (b.toNat / 16) :: digit (b.toNat % 16) :: encodeChars bs := rfl

lemma length_encodeChars (bs : List UInt8) : (encodeChars bs).length = 2 * bs.length := by
  induction bs with
  | nil => rfl
  | cons b bs ih =>
      rw [encodeChars_cons, List.length_cons, List.length_cons, ih, List.length_cons]
      omega

/-- Every digit of an encoding is the digit of a number below 16. -/
lemma exists_digit_of_mem {bs : List UInt8} {c : Char} (h : c ∈ encodeChars bs) :
    ∃ n < 16, c = digit n := by
  obtain ⟨b, -, hc⟩ := List.mem_flatMap.1 h
  have hb : b.toNat < 256 := b.toNat_lt
  rcases List.mem_cons.1 hc with rfl | hc
  · exact ⟨_, by omega, rfl⟩
  · rw [List.mem_singleton.1 hc]
    exact ⟨_, by omega, rfl⟩

/-- Decoding undoes encoding. -/
lemma decodeChars_encodeChars (bs : List UInt8) :
    decodeChars (encodeChars bs) = some bs := by
  induction bs with
  | nil => rfl
  | cons b bs ih =>
      have hb : b.toNat < 256 := b.toNat_lt
      have hbyte : UInt8.ofNat (16 * (b.toNat / 16) + b.toNat % 16) = b := by
        rw [Nat.div_add_mod]
        exact UInt8.ofNat_toNat
      rw [encodeChars_cons, decodeChars, value_digit (by omega), value_digit (by omega), ih]
      simp only [Option.bind_eq_bind, Option.bind_some, hbyte]

/-! ### The texts that are decoded -/

lemma IsDigit.lt {c : Char} {n : ℕ} (h : IsDigit c n) : n < 16 := by
  rcases h with h | h
  · exact (List.getElem?_eq_some_iff.1 h).1
  · exact (List.getElem?_eq_some_iff.1 h).1

lemma value_lt {c : Char} {n : ℕ} (h : value c = some n) : c.toNat < 128 := by
  have hle : ∀ {a b : Char}, a ≤ c ∧ c ≤ b → a.toNat ≤ c.toNat ∧ c.toNat ≤ b.toNat :=
    fun h => h
  unfold value at h
  split_ifs at h with h₁ h₂ h₃
  · obtain ⟨hlo, hhi⟩ := hle h₁
    obtain rfl := Option.some.inj h
    simp only [Char.reduceToNat] at hlo hhi
    omega
  · obtain ⟨hlo, hhi⟩ := hle h₂
    obtain rfl := Option.some.inj h
    simp only [Char.reduceToNat] at hlo hhi
    omega
  · obtain ⟨hlo, hhi⟩ := hle h₃
    obtain rfl := Option.some.inj h
    simp only [Char.reduceToNat] at hlo hhi
    omega

/-- The characters with a value are the digits of either case. -/
lemma value_eq_some_iff {c : Char} {n : ℕ} : value c = some n ↔ IsDigit c n := by
  constructor
  · intro h
    have hascii : ∀ m : Fin 128, ∀ k ∈ value (Char.ofNat m), IsDigit (Char.ofNat m) k := by
      decide +kernel
    have hdigit := hascii ⟨c.toNat, value_lt h⟩ n
    rw [Char.ofNat_toNat] at hdigit
    exact hdigit h
  · have htable : ∀ k : Fin 16, value ("0123456789abcdef".toList[k]) = some (k : ℕ) ∧
        value ("0123456789ABCDEF".toList[k]) = some (k : ℕ) := by decide
    rintro (h | h)
    · obtain ⟨hn, rfl⟩ := List.getElem?_eq_some_iff.1 h
      exact (htable ⟨n, hn⟩).1
    · obtain ⟨hn, rfl⟩ := List.getElem?_eq_some_iff.1 h
      exact (htable ⟨n, hn⟩).2

/-- The lower-case form of a digit is the one that is written. -/
lemma toLower_of_isDigit {c : Char} {n : ℕ} (h : IsDigit c n) : c.toLower = digit n := by
  have htable : ∀ k : Fin 16, ("0123456789abcdef".toList[k]).toLower = digit k ∧
      ("0123456789ABCDEF".toList[k]).toLower = digit k := by decide
  rcases h with h | h
  · obtain ⟨hn, rfl⟩ := List.getElem?_eq_some_iff.1 h
    exact (htable ⟨n, hn⟩).1
  · obtain ⟨hn, rfl⟩ := List.getElem?_eq_some_iff.1 h
    exact (htable ⟨n, hn⟩).2

/-- Decoding reads exactly the texts that spell some bytes. -/
theorem decodeChars_eq_some_iff {cs : List Char} {bs : List UInt8} :
    decodeChars cs = some bs ↔ Spells cs bs := by
  constructor
  · intro h
    fun_induction decodeChars cs generalizing bs with
    | case1 =>
        obtain rfl := Option.some.inj h
        exact .nil
    | case2 c => exact absurd h (by simp)
    | case3 c d cs ih =>
        simp only [Option.bind_eq_bind, Option.bind_eq_some_iff] at h
        obtain ⟨hi, hc, lo, hd, bs', hcs, hbs⟩ := h
        obtain rfl := Option.some.inj hbs
        have hhi := (value_eq_some_iff.1 hc).lt
        have hlo := (value_eq_some_iff.1 hd).lt
        refine .cons (value_eq_some_iff.1 hc) (value_eq_some_iff.1 hd) ?_ (ih hcs)
        exact UInt8.toNat_ofNat_of_lt' (by simp only [UInt8.size]; omega)
  · intro h
    induction h with
    | nil => rfl
    | cons hc hd hb rest ih =>
        rw [decodeChars, value_eq_some_iff.2 hc, value_eq_some_iff.2 hd, ih]
        simp only [Option.bind_eq_bind, Option.bind_some, ← hb, UInt8.ofNat_toNat]

lemma Spells.length {cs : List Char} {bs : List UInt8} (h : Spells cs bs) :
    cs.length = 2 * bs.length := by
  induction h with
  | nil => rfl
  | cons hc hd hb rest ih =>
      rw [List.length_cons, List.length_cons, List.length_cons, ih]
      omega

/-- The encoding of what a text spells is the text in lower case. -/
theorem encodeChars_of_spells {cs : List Char} {bs : List UInt8} (h : Spells cs bs) :
    encodeChars bs = cs.map Char.toLower := by
  induction h with
  | nil => rfl
  | cons hc hd hb rest ih =>
      have hlo := hd.lt
      rw [encodeChars_cons, hb, ih, List.map_cons, List.map_cons, toLower_of_isDigit hc,
        toLower_of_isDigit hd]
      congr 3
      · omega
      · omega

lemma encode_injective : Function.Injective encode := by
  intro bs bs' h
  have hchars : encodeChars bs = encodeChars bs' := String.ofList_injective h
  have := congrArg decodeChars hchars
  rw [decodeChars_encodeChars, decodeChars_encodeChars] at this
  exact Option.some.inj this

end Hex

end Cellora
