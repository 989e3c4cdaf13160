/-
# Addresses that are not public

The addresses a webhook must not reach, as blocks of addresses, and how the tests of
`is_blocked_ip` relate to them.  Everything the tests refuse is in one of the blocks.  They miss
the multicast addresses of IPv4, and the IPv6 addresses that embed an IPv4 address in one of
the three forms other than the mapped one.
-/
import Cellora.Api.Webhooks
import Cellora.Lib.Cidr

namespace Cellora

namespace Api

open Cidr

/-! ### The blocks -/

/-- An IPv4 address as a number of 32 bits. -/
def v4Number (a b c d : UInt8) : ℕ :=
  ((a.toNat * 2 ^ 8 + b.toNat) * 2 ^ 8 + c.toNat) * 2 ^ 8 + d.toNat

/-- The block `a.b.c.d/len`. -/
def v4Block (a b c d : UInt8) (len : ℕ) : Block 32 := ⟨v4Number a b c d, len⟩

/-- Multicast, 224.0.0.0/4. -/
def multicastV4 : Block 32 := v4Block 224 0 0 0 4

/-- The IPv4 addresses that are not public. -/
def nonPublicV4 : List (Block 32) :=
  [v4Block 0 0 0 0 8, v4Block 10 0 0 0 8, v4Block 100 64 0 0 10, v4Block 127 0 0 0 8,
    v4Block 169 254 0 0 16, v4Block 172 16 0 0 12, v4Block 192 168 0 0 16,
    v4Block 192 0 2 0 24, v4Block 198 51 100 0 24, v4Block 203 0 113 0 24,
    multicastV4, v4Block 240 0 0 0 4, v4Block 255 255 255 255 32]

/-- An IPv6 address as a number of 128 bits. -/
def v6Number (s₀ s₁ s₂ s₃ s₄ s₅ s₆ s₇ : UInt16) : ℕ :=
  ((((((s₀.toNat * 2 ^ 16 + s₁.toNat) * 2 ^ 16 + s₂.toNat) * 2 ^ 16 + s₃.toNat) * 2 ^ 16 +
    s₄.toNat) * 2 ^ 16 + s₅.toNat) * 2 ^ 16 + s₆.toNat) * 2 ^ 16 + s₇.toNat

/-- The IPv6 addresses that are not public in their own right: unspecified, loopback,
multicast, unique local and link local. -/
def nonPublicV6 : List (Block 128) :=
  [⟨0, 128⟩, ⟨1, 128⟩, ⟨0xff00 * 2 ^ 112, 8⟩, ⟨0xfc00 * 2 ^ 112, 7⟩, ⟨0xfe80 * 2 ^ 112, 10⟩]

/-- The forms of an IPv6 address that embeds an IPv4 address. -/
inductive Embedding where
  /-- ::ffff:0:0/96. -/
  | mapped
  /-- ::/96. -/
  | compatible
  /-- 64:ff9b::/96. -/
  | nat64
  /-- 2002::/16. -/
  | sixToFour
deriving DecidableEq

/-- The addresses of a form. -/
def Embedding.block : Embedding → Block 128
  | .mapped => ⟨0xffff * 2 ^ 32, 96⟩
  | .compatible => ⟨0, 96⟩
  | .nat64 => ⟨0x64ff9b * 2 ^ 96, 96⟩
  | .sixToFour => ⟨0x2002 * 2 ^ 112, 16⟩

/-- The IPv4 address in an address of a form. -/
def Embedding.embedded : Embedding → ℕ → ℕ
  | .sixToFour, n => n / 2 ^ 80 % 2 ^ 32
  | _, n => n % 2 ^ 32

/-- The IPv6 address embeds an IPv4 address that is not public. -/
def EmbedsNonPublic (e : Embedding) (n : ℕ) : Prop :=
  e.block.Contains n ∧ InAny nonPublicV4 (e.embedded n)

/-- The address is not public. -/
def NonPublic : IpAddr → Prop
  | .v4 a b c d => InAny nonPublicV4 (v4Number a b c d)
  | .v6 s₀ s₁ s₂ s₃ s₄ s₅ s₆ s₇ =>
      let n := v6Number s₀ s₁ s₂ s₃ s₄ s₅ s₆ s₇
      InAny nonPublicV6 n ∨ ∃ e, EmbedsNonPublic e n

/-- The addresses that `is_blocked_ip` has no test for: multicast addresses of IPv4, also as
mapped ones, and the other forms that embed an IPv4 address that is not public. -/
def Untested : IpAddr → Prop
  | .v4 a b c d => multicastV4.Contains (v4Number a b c d)
  | .v6 s₀ s₁ s₂ s₃ s₄ s₅ s₆ s₇ =>
      let n := v6Number s₀ s₁ s₂ s₃ s₄ s₅ s₆ s₇
      (Embedding.mapped.block.Contains n ∧ multicastV4.Contains (Embedding.mapped.embedded n)) ∨
        ∃ e ≠ Embedding.mapped, EmbedsNonPublic e n

/-! ### IPv4 -/

section V4

variable (a b c d : UInt8)

lemma v4_lt : a.toNat < 256 ∧ b.toNat < 256 ∧ c.toNat < 256 ∧ d.toNat < 256 :=
  ⟨a.toNat_lt, b.toNat_lt, c.toNat_lt, d.toNat_lt⟩

lemma contains_slash8 (x : UInt8) :
    (v4Block x 0 0 0 8).Contains (v4Number a b c d) ↔ a = x := by
  obtain ⟨ha, hb, hc, hd⟩ := v4_lt a b c d
  have hx := x.toNat_lt
  rw [← UInt8.toNat_inj]
  simp only [Block.Contains, v4Block, v4Number, UInt8.reduceToNat]
  omega

lemma contains_slash16 (x y : UInt8) :
    (v4Block x y 0 0 16).Contains (v4Number a b c d) ↔ a = x ∧ b = y := by
  obtain ⟨ha, hb, hc, hd⟩ := v4_lt a b c d
  have hx := x.toNat_lt
  have hy := y.toNat_lt
  rw [← UInt8.toNat_inj, ← UInt8.toNat_inj]
  simp only [Block.Contains, v4Block, v4Number, UInt8.reduceToNat]
  omega

lemma contains_slash24 (x y z : UInt8) :
    (v4Block x y z 0 24).Contains (v4Number a b c d) ↔ a = x ∧ b = y ∧ c = z := by
  obtain ⟨ha, hb, hc, hd⟩ := v4_lt a b c d
  have hx := x.toNat_lt
  have hy := y.toNat_lt
  have hz := z.toNat_lt
  rw [← UInt8.toNat_inj, ← UInt8.toNat_inj, ← UInt8.toNat_inj]
  simp only [Block.Contains, v4Block, v4Number, UInt8.reduceToNat]
  omega

lemma contains_cgnat :
    (v4Block 100 64 0 0 10).Contains (v4Number a b c d) ↔ a = 100 ∧ b &&& 0xc0 = 0x40 := by
  obtain ⟨ha, hb, hc, hd⟩ := v4_lt a b c d
  have hmask := land_highMask (w := 8) (k := 6) hb (by decide)
  have hland : (b &&& 0xc0 = 0x40) ↔ b.toNat &&& (2 ^ 8 - 2 ^ 6) = 64 := by
    rw [← UInt8.toNat_inj, UInt8.toNat_and]
    rfl
  rw [hland, hmask, ← UInt8.toNat_inj]
  simp only [Block.Contains, v4Block, v4Number, UInt8.reduceToNat]
  omega

lemma contains_private12 :
    (v4Block 172 16 0 0 12).Contains (v4Number a b c d) ↔ a = 172 ∧ 16 ≤ b ∧ b ≤ 31 := by
  obtain ⟨ha, hb, hc, hd⟩ := v4_lt a b c d
  rw [← UInt8.toNat_inj, UInt8.le_iff_toNat_le, UInt8.le_iff_toNat_le]
  simp only [Block.Contains, v4Block, v4Number, UInt8.reduceToNat]
  omega

lemma contains_reserved : (v4Block 240 0 0 0 4).Contains (v4Number a b c d) ↔ 240 ≤ a := by
  obtain ⟨ha, hb, hc, hd⟩ := v4_lt a b c d
  rw [UInt8.le_iff_toNat_le]
  simp only [Block.Contains, v4Block, v4Number, UInt8.reduceToNat]
  omega

lemma contains_broadcast :
    (v4Block 255 255 255 255 32).Contains (v4Number a b c d) ↔
      a = 255 ∧ b = 255 ∧ c = 255 ∧ d = 255 := by
  obtain ⟨ha, hb, hc, hd⟩ := v4_lt a b c d
  rw [← UInt8.toNat_inj, ← UInt8.toNat_inj, ← UInt8.toNat_inj, ← UInt8.toNat_inj]
  simp only [Block.Contains, v4Block, v4Number, UInt8.reduceToNat]
  omega

/-- The tests cover the blocks of IPv4 but for multicast. -/
lemma inAny_nonPublicV4_iff :
    InAny nonPublicV4 (v4Number a b c d) ↔
      isBlockedIpv4 a b c d = true ∨ multicastV4.Contains (v4Number a b c d) := by
  simp only [nonPublicV4, inAny_cons, not_inAny_nil, or_false, contains_slash8, contains_slash16,
    contains_slash24, contains_cgnat, contains_private12, contains_reserved, contains_broadcast,
    isBlockedIpv4, Ipv4Addr.isLoopback, Ipv4Addr.isPrivate, Ipv4Addr.isLinkLocal,
    Ipv4Addr.isUnspecified, Ipv4Addr.isBroadcast, Ipv4Addr.isDocumentation, Bool.or_eq_true,
    Bool.and_eq_true, beq_iff_eq, decide_eq_true_eq]
  constructor
  · rintro (h | h | h | h | h | h | h | h | h | h | h | h | h)
    all_goals simp [h]
  · rintro (((((((((h | ((h | h) | h)) | h) | h) | h) | ((h | h) | h)) | h) | h) | h) | h)
    all_goals simp [h]

end V4

/-! ### IPv6 -/

section V6

variable (s₀ s₁ s₂ s₃ s₄ s₅ s₆ s₇ : UInt16)

/-- The segments of a mapped address. -/
def IsMapped : Prop := s₀ = 0 ∧ s₁ = 0 ∧ s₂ = 0 ∧ s₃ = 0 ∧ s₄ = 0 ∧ s₅ = 0xffff

instance : Decidable (IsMapped s₀ s₁ s₂ s₃ s₄ s₅) := inferInstanceAs (Decidable (_ ∧ _))

lemma v6_lt :
    s₁.toNat < 2 ^ 16 ∧ s₂.toNat < 2 ^ 16 ∧ s₃.toNat < 2 ^ 16 ∧ s₄.toNat < 2 ^ 16 ∧
      s₅.toNat < 2 ^ 16 ∧ s₆.toNat < 2 ^ 16 ∧ s₇.toNat < 2 ^ 16 :=
  ⟨s₁.toNat_lt, s₂.toNat_lt, s₃.toNat_lt, s₄.toNat_lt, s₅.toNat_lt, s₆.toNat_lt, s₇.toNat_lt⟩

lemma v6Number_div_112 : v6Number s₀ s₁ s₂ s₃ s₄ s₅ s₆ s₇ / 2 ^ 112 = s₀.toNat := by
  obtain ⟨h₁, h₂, h₃, h₄, h₅, h₆, h₇⟩ := v6_lt s₁ s₂ s₃ s₄ s₅ s₆ s₇
  rw [v6Number]
  omega

lemma v6Number_eq_iff {k : ℕ} (hk : k < 2 ^ 16) :
    v6Number s₀ s₁ s₂ s₃ s₄ s₅ s₆ s₇ = k ↔
      s₀ = 0 ∧ s₁ = 0 ∧ s₂ = 0 ∧ s₃ = 0 ∧ s₄ = 0 ∧ s₅ = 0 ∧ s₆ = 0 ∧ s₇.toNat = k := by
  have h₇ := s₇.toNat_lt
  simp only [← UInt16.toNat_inj, v6Number, UInt16.reduceToNat]
  omega

lemma contains_mapped :
    Embedding.mapped.block.Contains (v6Number s₀ s₁ s₂ s₃ s₄ s₅ s₆ s₇) ↔
      IsMapped s₀ s₁ s₂ s₃ s₄ s₅ := by
  obtain ⟨h₁, h₂, h₃, h₄, h₅, h₆, h₇⟩ := v6_lt s₁ s₂ s₃ s₄ s₅ s₆ s₇
  simp only [IsMapped, ← UInt16.toNat_inj, Block.Contains, Embedding.block, v6Number,
    UInt16.reduceToNat]
  omega

/-- The IPv4 address that a mapped address is judged by. -/
lemma embedded_eq :
    v6Number s₀ s₁ s₂ s₃ s₄ s₅ s₆ s₇ % 2 ^ 32 =
      v4Number (s₆ >>> 8).toUInt8 s₆.toUInt8 (s₇ >>> 8).toUInt8 s₇.toUInt8 := by
  have h₆ := s₆.toNat_lt
  have h₇ := s₇.toNat_lt
  have hhigh : ∀ s : UInt16, (s >>> 8).toUInt8.toNat = s.toNat / 256 := by
    intro s
    have hs := s.toNat_lt
    simp only [UInt16.toNat_toUInt8, UInt16.toNat_shiftRight, UInt16.reduceToNat,
      Nat.shiftRight_eq_div_pow, Nat.reduceMod, Nat.reducePow]
    omega
  have hlow : ∀ s : UInt16, s.toUInt8.toNat = s.toNat % 256 := fun s => UInt16.toNat_toUInt8 s
  rw [v6Number, v4Number, hhigh, hhigh, hlow, hlow]
  omega

/-- A test of `k` high bits of the first segment is a test for a block. -/
lemma contains_highBits {k x : ℕ} (hk : k ≤ 16)
    (hbits : x / 2 ^ (16 - k) * 2 ^ (16 - k) = x) :
    (⟨x * 2 ^ 112, k⟩ : Block 128).Contains (v6Number s₀ s₁ s₂ s₃ s₄ s₅ s₆ s₇) ↔
      s₀.toNat &&& (2 ^ 16 - 2 ^ (16 - k)) = x := by
  have hsplit : (2 : ℕ) ^ (128 - k) = 2 ^ 112 * 2 ^ (16 - k) := by
    rw [← pow_add]
    congr 1
    omega
  have hpos : 0 < 2 ^ (16 - k) := Nat.two_pow_pos _
  rw [Block.Contains, hsplit, ← Nat.div_div_eq_div_mul, ← Nat.div_div_eq_div_mul,
    v6Number_div_112, Nat.mul_div_cancel _ (Nat.two_pow_pos _),
    land_highMask s₀.toNat_lt (Nat.sub_le _ _)]
  constructor
  · intro h
    rw [h, hbits]
  · intro h
    rw [← h, Nat.mul_div_cancel _ hpos]

/-- The tests for an address that is not a mapped one. -/
lemma inAny_nonPublicV6_iff :
    InAny nonPublicV6 (v6Number s₀ s₁ s₂ s₃ s₄ s₅ s₆ s₇) ↔
      (let high := s₀ == 0 && s₁ == 0 && s₂ == 0 && s₃ == 0 && s₄ == 0 && s₅ == 0 && s₆ == 0
      (high && s₇ == 1) || (high && s₇ == 0) || s₀ &&& 0xff00 == 0xff00 ||
        s₀ &&& 0xfe00 == 0xfc00 || s₀ &&& 0xffc0 == 0xfe80) = true := by
  have hland : ∀ m x : UInt16, (s₀ &&& m = x) ↔ s₀.toNat &&& m.toNat = x.toNat := by
    intro m x
    rw [← UInt16.toNat_inj, UInt16.toNat_and]
  have hsingle : ∀ k : UInt16, (⟨k.toNat, 128⟩ : Block 128).Contains
      (v6Number s₀ s₁ s₂ s₃ s₄ s₅ s₆ s₇) ↔
      s₀ = 0 ∧ s₁ = 0 ∧ s₂ = 0 ∧ s₃ = 0 ∧ s₄ = 0 ∧ s₅ = 0 ∧ s₆ = 0 ∧ s₇ = k := by
    intro k
    rw [Block.Contains, Nat.sub_self, pow_zero, Nat.div_one, Nat.div_one,
      v6Number_eq_iff _ _ _ _ _ _ _ _ k.toNat_lt, UInt16.toNat_inj]
  have hbits : ∀ (k : ℕ) (m x : UInt16), k ≤ 16 → m.toNat = 2 ^ 16 - 2 ^ (16 - k) →
      x.toNat / 2 ^ (16 - k) * 2 ^ (16 - k) = x.toNat →
      ((⟨x.toNat * 2 ^ 112, k⟩ : Block 128).Contains (v6Number s₀ s₁ s₂ s₃ s₄ s₅ s₆ s₇) ↔
        s₀ &&& m = x) := by
    intro k m x hk hm hx
    rw [contains_highBits _ _ _ _ _ _ _ _ hk hx, hland, hm]
  have h₀ := hsingle 0
  have h₁ := hsingle 1
  have hff := hbits 8 0xff00 0xff00 (by decide) (by decide) (by decide)
  have hfc := hbits 7 0xfe00 0xfc00 (by decide) (by decide) (by decide)
  have hfe := hbits 10 0xffc0 0xfe80 (by decide) (by decide) (by decide)
  simp only [UInt16.reduceToNat] at h₀ h₁ hff hfc hfe
  simp only [nonPublicV6, inAny_cons, not_inAny_nil, or_false, h₀, h₁, hff, hfc, hfe,
    Bool.or_eq_true, Bool.and_eq_true, beq_iff_eq]
  constructor
  · rintro (h | h | h | h | h)
    all_goals simp [h]
  · rintro ((((h | h) | h) | h) | h)
    all_goals simp [h]

/-- A mapped address is judged by the IPv4 address in it, any other one by its own blocks. -/
lemma isBlockedIp_v6_iff :
    isBlockedIp (.v6 s₀ s₁ s₂ s₃ s₄ s₅ s₆ s₇) = true ↔
      if IsMapped s₀ s₁ s₂ s₃ s₄ s₅ then
        isBlockedIpv4 (s₆ >>> 8).toUInt8 s₆.toUInt8 (s₇ >>> 8).toUInt8 s₇.toUInt8 = true
      else InAny nonPublicV6 (v6Number s₀ s₁ s₂ s₃ s₄ s₅ s₆ s₇) := by
  by_cases h : IsMapped s₀ s₁ s₂ s₃ s₄ s₅
  · rw [if_pos h]
    obtain ⟨rfl, rfl, rfl, rfl, rfl, rfl⟩ := h
    exact Iff.rfl
  · rw [if_neg h, inAny_nonPublicV6_iff]
    unfold isBlockedIp
    split
    · rename_i heq
      cases heq
    · rename_i heq
      cases heq
      exact absurd ⟨rfl, rfl, rfl, rfl, rfl, rfl⟩ h
    · rename_i heq
      cases heq
      exact Iff.rfl

lemma not_inAny_of_isMapped (h : IsMapped s₀ s₁ s₂ s₃ s₄ s₅) :
    ¬ InAny nonPublicV6 (v6Number s₀ s₁ s₂ s₃ s₄ s₅ s₆ s₇) := by
  obtain ⟨rfl, rfl, rfl, rfl, rfl, rfl⟩ := h
  rw [inAny_nonPublicV6_iff]
  simp

/-- A mapped address embeds what it is judged by. -/
lemma embedsNonPublic_mapped_iff :
    EmbedsNonPublic .mapped (v6Number s₀ s₁ s₂ s₃ s₄ s₅ s₆ s₇) ↔
      IsMapped s₀ s₁ s₂ s₃ s₄ s₅ ∧
        (isBlockedIpv4 (s₆ >>> 8).toUInt8 s₆.toUInt8 (s₇ >>> 8).toUInt8 s₇.toUInt8 = true ∨
          multicastV4.Contains
            (Embedding.mapped.embedded (v6Number s₀ s₁ s₂ s₃ s₄ s₅ s₆ s₇))) := by
  have hembedded : Embedding.mapped.embedded (v6Number s₀ s₁ s₂ s₃ s₄ s₅ s₆ s₇) =
      v4Number (s₆ >>> 8).toUInt8 s₆.toUInt8 (s₇ >>> 8).toUInt8 s₇.toUInt8 :=
    embedded_eq s₀ s₁ s₂ s₃ s₄ s₅ s₆ s₇
  rw [EmbedsNonPublic, contains_mapped, hembedded, inAny_nonPublicV4_iff]

end V6

/-- **What the tests cover.**  An address is not public exactly if it is refused or has no
test. -/
theorem nonPublic_iff (ip : IpAddr) : NonPublic ip ↔ isBlockedIp ip = true ∨ Untested ip := by
  cases ip with
  | v4 a b c d => exact inAny_nonPublicV4_iff a b c d
  | v6 s₀ s₁ s₂ s₃ s₄ s₅ s₆ s₇ =>
      rw [isBlockedIp_v6_iff, NonPublic, Untested]
      constructor
      · rintro (h | ⟨e, he⟩)
        · rw [if_neg fun hm => not_inAny_of_isMapped _ _ _ _ _ _ _ _ hm h]
          exact .inl h
        · by_cases hmapped : e = .mapped
          · rw [hmapped, embedsNonPublic_mapped_iff] at he
            obtain ⟨hm, hblocked | hmulti⟩ := he
            · rw [if_pos hm]
              exact .inl hblocked
            · exact .inr (.inl ⟨(contains_mapped _ _ _ _ _ _ _ _).2 hm, hmulti⟩)
          · exact .inr (.inr ⟨e, hmapped, he⟩)
      · rintro (h | ⟨hm, hmulti⟩ | ⟨e, -, he⟩)
        · split at h
          · rename_i hm
            exact .inr ⟨.mapped, (embedsNonPublic_mapped_iff _ _ _ _ _ _ _ _).2 ⟨hm, .inl h⟩⟩
          · exact .inl h
        · rw [contains_mapped] at hm
          exact .inr ⟨.mapped, (embedsNonPublic_mapped_iff _ _ _ _ _ _ _ _).2 ⟨hm, .inr hmulti⟩⟩
        · exact .inr ⟨e, he⟩

end Api

end Cellora
