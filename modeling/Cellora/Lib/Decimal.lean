/-
# Reading unsigned decimal numerals

The reader of `str::parse` for an unsigned integer type: an optional sign `+`, then at least
one digit, and every intermediate value below the bound of the type.  It accepts exactly the
texts that spell a number below the bound, leading zeros included.
-/
import Mathlib.Data.Nat.Notation
import Mathlib.Tactic.Common

namespace Cellora

namespace Decimal

/-- Read digits into an accumulator, until a character is no digit or the bound is reached. -/
def readDigits (bound : ℕ) : List Char → ℕ → Option ℕ
  | [], acc => some acc
  | c :: cs, acc =>
      if c.isDigit then
        let next := 10 * acc + (c.toNat - '0'.toNat)
        if next < bound then readDigits bound cs next else none
      else none

/-- `from_str_radix(src, 10)` of an unsigned type: a lone sign is refused, and a leading `-` is
no digit. -/
def parseUnsigned (bound : ℕ) (src : String) : Option ℕ :=
  match src.toList with
  | [] => none
  | ['+'] => none
  | '+' :: ds => readDigits bound ds 0
  | ds => readDigits bound ds 0

/-- A text of digits, and the number it stands for. -/
structure Numeral (ds : List Char) (n : ℕ) : Prop where
  ne_nil : ds ≠ []
  digits : ∀ c ∈ ds, c.isDigit = true
  value : Nat.ofDigitChars 10 ds 0 = n

/-- A numeral, with a sign or without. -/
def Spells (src : String) (n : ℕ) : Prop :=
  ∃ ds, (src.toList = ds ∨ src.toList = '+' :: ds) ∧ Numeral ds n

lemma Numeral.head_ne_plus {ds : List Char} {n : ℕ} (h : Numeral ('+' :: ds) n) : False :=
  absurd (h.digits '+' List.mem_cons_self) (by decide)

lemma numeral_toDigits (n : ℕ) : Numeral (Nat.toDigits 10 n) n where
  ne_nil := Nat.toDigits_ne_nil
  digits := fun _ hc => Nat.isDigit_of_mem_toDigits (by decide) (by decide) hc
  value := Nat.ofDigitChars_ten_toDigits

/-- The plain decimal text of a number spells it. -/
lemma spells_toString (n : ℕ) : Spells (toString n) n :=
  ⟨_, .inl (by rw [Nat.toString_eq_repr, Nat.toList_repr]), numeral_toDigits n⟩

/-- A text spells at most one number. -/
lemma Spells.unique {src : String} {n n' : ℕ} (h : Spells src n) (h' : Spells src n') :
    n = n' := by
  obtain ⟨ds, hsrc, hds⟩ := h
  obtain ⟨ds', hsrc', hds'⟩ := h'
  obtain rfl : ds = ds' := by
    rcases hsrc with hsrc | hsrc <;> rcases hsrc' with hsrc' | hsrc'
    · exact hsrc.symm.trans hsrc'
    · exact absurd (hsrc.symm.trans hsrc' ▸ hds) fun h => h.head_ne_plus
    · exact absurd (hsrc'.symm.trans hsrc ▸ hds') fun h => h.head_ne_plus
    · exact (List.cons.inj (hsrc.symm.trans hsrc')).2
  exact hds.value.symm.trans hds'.value

lemma le_ofDigitChars (ds : List Char) (acc : ℕ) : acc ≤ Nat.ofDigitChars 10 ds acc := by
  induction ds generalizing acc with
  | nil => exact Nat.le_of_eq Nat.ofDigitChars_nil.symm
  | cons c ds ih =>
      rw [Nat.ofDigitChars_cons]
      exact Nat.le_trans (by omega) (ih _)

/-- Checking the bound at every digit is checking it at the end. -/
lemma readDigits_eq_some_iff {bound acc n : ℕ} {ds : List Char} (hacc : acc < bound) :
    readDigits bound ds acc = some n ↔
      (∀ c ∈ ds, c.isDigit = true) ∧ Nat.ofDigitChars 10 ds acc = n ∧ n < bound := by
  induction ds generalizing acc with
  | nil =>
      rw [readDigits, Option.some.injEq, Nat.ofDigitChars_nil]
      constructor
      · rintro rfl
        exact ⟨fun _ h => absurd h List.not_mem_nil, rfl, hacc⟩
      · exact fun h => h.2.1
  | cons c ds ih =>
      rw [readDigits, List.forall_mem_cons, Nat.ofDigitChars_cons]
      by_cases hc : c.isDigit = true
      · simp only [hc, if_true, true_and]
        split
        · rename_i hlt
          exact ih hlt
        · rename_i hle
          -- later digits only make the value larger
          have := le_ofDigitChars ds (10 * acc + (c.toNat - '0'.toNat))
          constructor
          · intro h
            cases h
          · rintro ⟨-, rfl, hn⟩
            exact absurd (Nat.lt_of_le_of_lt this hn) hle
      · simp [hc]

lemma readDigits_zero_eq_some_iff {bound n : ℕ} {ds : List Char} (hpos : 0 < bound)
    (hds : ds ≠ []) :
    readDigits bound ds 0 = some n ↔ Numeral ds n ∧ n < bound := by
  rw [readDigits_eq_some_iff hpos]
  exact ⟨fun ⟨h₁, h₂, h₃⟩ => ⟨⟨hds, h₁, h₂⟩, h₃⟩, fun ⟨h, h₃⟩ => ⟨h.digits, h.value, h₃⟩⟩

/-- The reader accepts exactly the texts that spell a number below the bound. -/
theorem parseUnsigned_eq_some_iff {bound n : ℕ} {src : String} (hpos : 0 < bound) :
    parseUnsigned bound src = some n ↔ Spells src n ∧ n < bound := by
  rw [parseUnsigned]
  split
  · rename_i hsrc
    refine ⟨fun h => (by cases h), ?_⟩
    rintro ⟨⟨ds, h | h, hds⟩, -⟩
    · exact absurd (h.symm.trans hsrc) hds.ne_nil
    · rw [hsrc] at h
      cases h
  · rename_i hsrc
    refine ⟨fun h => (by cases h), ?_⟩
    rintro ⟨⟨ds, h | h, hds⟩, -⟩
    · exact (((h.symm.trans hsrc) ▸ hds : Numeral ['+'] n)).head_ne_plus.elim
    · exact absurd ((List.cons.inj (hsrc.symm.trans h)).2).symm hds.ne_nil
  · rename_i ds hds hsrc
    have hne : ds ≠ [] := fun h => hds (by rw [h])
    rw [readDigits_zero_eq_some_iff hpos hne, Spells, hsrc]
    refine and_congr_left fun _ => ⟨fun h => ⟨ds, .inr rfl, h⟩, ?_⟩
    rintro ⟨ds', h | h, hds'⟩
    · exact (h ▸ hds' : Numeral ('+' :: ds) n).head_ne_plus.elim
    · exact (List.cons.inj h).2 ▸ hds'
  · rename_i hnil _ hplus
    rw [readDigits_zero_eq_some_iff hpos hnil, Spells]
    refine and_congr_left fun _ => ⟨fun h => ⟨_, .inl rfl, h⟩, ?_⟩
    rintro ⟨ds', rfl | h, hds'⟩
    · exact hds'
    · exact absurd h (hplus ds')

end Decimal

end Cellora
