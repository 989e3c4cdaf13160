/-
# Sequencing fallible computations

A fallible function of the program is an `Except`.  The facts every proof about such a
function starts from are collected here: what it means for a sequence of two computations
or for a loop over a list to succeed, and how two programs with different errors are
compared step by step.
-/
import Mathlib.Data.List.Forall2
import Mathlib.Tactic.Common

namespace Cellora

variable {ε α β γ : Type}

namespace Except

/-- A sequence succeeds exactly when its first part does and the second one succeeds on
the value. -/
lemma bind_eq_ok {x : Except ε α} {f : α → Except ε β} {b : β} :
    (x >>= f) = .ok b ↔ ∃ a, x = .ok a ∧ f a = .ok b := by
  cases x with
  | error e =>
      constructor
      · intro h
        exact absurd h (by simp [bind, Except.bind])
      · rintro ⟨a, ha, -⟩
        exact absurd ha (by simp)
  | ok a => simp [bind, Except.bind]

lemma map_eq_ok {x : Except ε α} {f : α → β} {b : β} :
    (f <$> x) = .ok b ↔ ∃ a, x = .ok a ∧ f a = b := by
  cases x <;> simp [Functor.map, Except.map]

/-- A loop over a list succeeds exactly when its body does on every element, and then it
returns the values in order. -/
lemma mapM_eq_ok_iff {f : α → Except ε β} {xs : List α} {ys : List β} :
    xs.mapM f = .ok ys ↔ List.Forall₂ (fun x y => f x = .ok y) xs ys := by
  induction xs generalizing ys with
  | nil =>
      rw [List.mapM_nil, List.forall₂_nil_left_iff]
      exact ⟨fun h => (Except.ok.inj h).symm, fun h => by rw [h]; rfl⟩
  | cons x xs ih =>
      rw [List.mapM_cons, bind_eq_ok, List.forall₂_cons_left_iff]
      constructor
      · rintro ⟨y, hy, h⟩
        obtain ⟨zs, hzs, h⟩ := bind_eq_ok.1 h
        exact ⟨y, zs, hy, ih.1 hzs, (Except.ok.inj h).symm⟩
      · rintro ⟨y, zs, hy, hzs, rfl⟩
        exact ⟨y, hy, bind_eq_ok.2 ⟨zs, ih.2 hzs, rfl⟩⟩

/-- If the body succeeds on every element with a value in `R`, the loop returns such
values. -/
lemma mapM_ok_of_forall {f : α → Except ε β} {R : α → β → Prop} {xs : List α}
    (h : ∀ x ∈ xs, ∃ y, f x = .ok y ∧ R x y) :
    ∃ ys, xs.mapM f = .ok ys ∧ List.Forall₂ R xs ys := by
  induction xs with
  | nil => exact ⟨[], rfl, .nil⟩
  | cons x xs ih =>
      obtain ⟨⟨y, hy, hR⟩, hxs⟩ := List.forall_mem_cons.1 h
      obtain ⟨ys, hys, hall⟩ := ih hxs
      refine ⟨y :: ys, ?_, .cons hR hall⟩
      rw [List.mapM_cons, hy, hys]
      rfl

/-- Two computations agree up to `R`: both fail, or both return related values. -/
inductive Agree {ε' : Type} (R : α → β → Prop) : Except ε α → Except ε' β → Prop where
  | rejected (e : ε) (e' : ε') : Agree R (.error e) (.error e')
  | answered {a : α} {b : β} (h : R a b) : Agree R (.ok a) (.ok b)

section Agree

variable {ε' δ : Type} {R : α → β → Prop} {S : γ → δ → Prop}

/-- Sequences agree if their first parts do and the rest agrees on related values. -/
lemma Agree.bind {x : Except ε α} {y : Except ε' β} {f : α → Except ε γ} {g : β → Except ε' δ}
    (h : Agree R x y) (hfg : ∀ a b, R a b → Agree S (f a) (g b)) :
    Agree S (x >>= f) (y >>= g) := by
  cases h with
  | rejected e e' => exact .rejected e e'
  | answered h => exact hfg _ _ h

lemma Agree.map {x : Except ε α} {y : Except ε' β} {f : α → γ} {g : β → δ} (h : Agree R x y)
    (hfg : ∀ a b, R a b → S (f a) (g b)) : Agree S (f <$> x) (g <$> y) := by
  cases h with
  | rejected e e' => exact .rejected e e'
  | answered h => exact .answered (hfg _ _ h)

/-- Loops agree if their bodies do on every element. -/
lemma Agree.mapM {f : γ → Except ε α} {g : γ → Except ε' β} {xs : List γ}
    (h : ∀ x ∈ xs, Agree R (f x) (g x)) :
    Agree (List.Forall₂ R) (xs.mapM f) (xs.mapM g) := by
  induction xs with
  | nil => exact .answered .nil
  | cons x xs ih =>
      obtain ⟨hx, hxs⟩ := List.forall_mem_cons.1 h
      rw [List.mapM_cons, List.mapM_cons]
      refine hx.bind fun a b hab => (ih hxs).bind fun as bs hall => ?_
      exact .answered (.cons hab hall)

lemma Agree.symm {x : Except ε α} {y : Except ε' β} (h : Agree R x y) :
    Agree (fun b a => R a b) y x := by
  cases h with
  | rejected e e' => exact .rejected e' e
  | answered h => exact .answered h

lemma Agree.eq_ok {x : Except ε α} {y : Except ε' β} (h : Agree R x y) {a : α}
    (hx : x = .ok a) : ∃ b, y = .ok b ∧ R a b := by
  cases h with
  | rejected e e' => exact absurd hx (by simp)
  | @answered a' b hab =>
      obtain rfl := Except.ok.inj hx
      exact ⟨b, rfl, hab⟩

end Agree

end Except

/-! ### Lists related position by position -/

section Forall₂

variable {R : α → β → Prop} {xs : List α} {ys : List β}

lemma exists_of_mem_right (h : List.Forall₂ R xs ys) {y : β} (hy : y ∈ ys) :
    ∃ x ∈ xs, R x y := by
  induction h with
  | nil => exact absurd hy List.not_mem_nil
  | @cons x y' xs ys hxy _ ih =>
      rcases List.mem_cons.1 hy with rfl | hy
      · exact ⟨x, List.mem_cons_self, hxy⟩
      · obtain ⟨x', hx', hr⟩ := ih hy
        exact ⟨x', List.mem_cons_of_mem _ hx', hr⟩

lemma exists_of_mem_left (h : List.Forall₂ R xs ys) {x : α} (hx : x ∈ xs) :
    ∃ y ∈ ys, R x y :=
  exists_of_mem_right h.flip hx

end Forall₂

/-- Two lists whose elements produce the same output, position by position, produce the
same concatenation. -/
lemma flatMap_congr_forall₂ {f : α → List γ} {g : β → List γ} {xs : List α} {ys : List β}
    (h : List.Forall₂ (fun x y => f x = g y) xs ys) : xs.flatMap f = ys.flatMap g := by
  induction h with
  | nil => rfl
  | cons hxy _ ih => rw [List.flatMap_cons, List.flatMap_cons, hxy, ih]

end Cellora
