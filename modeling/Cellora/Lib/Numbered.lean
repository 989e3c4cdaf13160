/-
# Lists with consecutive numbers

A list whose elements carry the numbers `lo`, `lo + 1`, and so on.  Appending the next
number keeps it so, a prefix of it is the part below a bound, and what the elements
contribute to a concatenation can be cut at the same bound.
-/
import Mathlib.Data.List.Nodup
import Mathlib.Tactic.Common

namespace Cellora

variable {α β : Type}

/-- The element at position `i` has the number `lo + i`. -/
def Numbered (num : α → ℕ) (lo : ℕ) (l : List α) : Prop :=
  ∀ (i : ℕ) (a : α), l[i]? = some a → num a = lo + i

namespace Numbered

variable {num : α → ℕ} {lo : ℕ} {l : List α}

lemma nil : Numbered num lo [] := by
  intro i a h
  simp at h

lemma cons_iff {a : α} :
    Numbered num lo (a :: l) ↔ num a = lo ∧ Numbered num (lo + 1) l := by
  constructor
  · intro h
    refine ⟨by simpa using h 0 a rfl, fun i b hb => ?_⟩
    have := h (i + 1) b (by simpa using hb)
    omega
  · rintro ⟨ha, hl⟩ i b hb
    cases i with
    | zero =>
        have : a = b := by simpa using hb
        subst this
        simpa using ha
    | succ i =>
        have := hl i b (by simpa using hb)
        omega

lemma concat (h : Numbered num lo l) {a : α} (ha : num a = lo + l.length) :
    Numbered num lo (l ++ [a]) := by
  intro i b hb
  rcases Nat.lt_trichotomy i l.length with hi | rfl | hi
  · rw [List.getElem?_append_left hi] at hb
    exact h i b hb
  · simp only [List.getElem?_concat_length, Option.some.injEq] at hb
    rw [← hb]
    exact ha
  · rw [List.getElem?_eq_none (by simp; omega)] at hb
    exact absurd hb (by simp)

lemma take (h : Numbered num lo l) (k : ℕ) : Numbered num lo (l.take k) := by
  intro i a ha
  rw [List.getElem?_take] at ha
  split at ha
  · exact h i a ha
  · exact absurd ha (by simp)

lemma map {f : β → α} {l : List β} (h : Numbered (fun b => num (f b)) lo l) :
    Numbered num lo (l.map f) := by
  intro i a ha
  rw [List.getElem?_map] at ha
  obtain ⟨b, hb, rfl⟩ := Option.map_eq_some_iff.1 ha
  exact h i b hb

lemma le_of_mem (h : Numbered num lo l) {a : α} (ha : a ∈ l) :
    lo ≤ num a ∧ num a < lo + l.length := by
  obtain ⟨i, hi⟩ := List.mem_iff_getElem?.1 ha
  obtain ⟨hlt, -⟩ := List.getElem?_eq_some_iff.1 hi
  have := h i a hi
  omega

lemma eq_of_num_eq (h : Numbered num lo l) {a b : α} (ha : a ∈ l) (hb : b ∈ l)
    (hab : num a = num b) : a = b := by
  obtain ⟨i, hi⟩ := List.mem_iff_getElem?.1 ha
  obtain ⟨j, hj⟩ := List.mem_iff_getElem?.1 hb
  have hi' := h i a hi
  have hj' := h j b hj
  obtain rfl : i = j := by omega
  exact Option.some.inj (hi.symm.trans hj)

/-- The elements with a number below `lo + k` are the first `k` ones. -/
lemma filter_lt (h : Numbered num lo l) (k : ℕ) :
    l.filter (fun a => num a < lo + k) = l.take k := by
  induction l generalizing lo k with
  | nil => simp
  | cons a l ih =>
      obtain ⟨ha, hl⟩ := cons_iff.1 h
      cases k with
      | zero =>
          rw [List.take_zero, List.filter_eq_nil_iff]
          intro b hb
          have := (h.le_of_mem hb).1
          simp only [decide_eq_true_eq]
          omega
      | succ k =>
          have hk : num a < lo + (k + 1) := by omega
          rw [List.filter_cons_of_pos (by simpa using hk), List.take_succ_cons]
          have := ih hl k
          rw [← this]
          congr 1
          refine List.filter_congr fun b _ => ?_
          rw [show lo + 1 + k = lo + (k + 1) by omega]

end Numbered

/-- Cutting a concatenation by a test on the elements it is made from. -/
lemma filter_flatMap_of_forall {f : α → List β} {p : β → Bool} {q : α → Bool} {l : List α}
    (h : ∀ a ∈ l, ∀ b ∈ f a, p b = q a) :
    (l.flatMap f).filter p = (l.filter q).flatMap f := by
  induction l with
  | nil => rfl
  | cons a l ih =>
      obtain ⟨ha, hl⟩ := List.forall_mem_cons.1 h
      rw [List.flatMap_cons, List.filter_append, ih hl]
      cases hq : q a with
      | true =>
          have hall : (f a).filter p = f a :=
            List.filter_eq_self.2 fun b hb => (ha b hb).trans hq
          rw [hall, List.filter_cons_of_pos hq, List.flatMap_cons]
      | false =>
          have hnone : (f a).filter p = [] :=
            List.filter_eq_nil_iff.2 fun b hb => by simp [ha b hb, hq]
          rw [hnone, List.filter_cons_of_neg (by simp [hq]), List.nil_append]

end Cellora
