/-
# Isolation of tenants

A service answers requests one after the other and changes its state.  Two things are asked
of it for a tenant: what it answers depends on a part of the state only, the tenant's view,
and the rest of the state is left alone.  Both follow from one request: answers and views
that agree before a request agree after it, and a request keeps the rest.

The view of a table is the list of the tenant's rows, and its rest the list of the others.
-/
import Mathlib.Data.List.Basic
import Mathlib.Tactic.Common

namespace Cellora

namespace Isolation

section Runs

variable {σ μ ρ ω τ : Type} (step : σ → μ → ρ × σ)

/-- The answers to a list of requests. -/
def answers : σ → List μ → List ρ
  | _, [] => []
  | s, m :: ms => (step s m).1 :: answers (step s m).2 ms

/-- The state after a list of requests. -/
def final : σ → List μ → σ
  | s, [] => s
  | s, m :: ms => final (step s m).2 ms

/-- Every request of the list is admissible in the state it meets. -/
def Along (Ok : σ → μ → Prop) : σ → List μ → Prop
  | _, [] => True
  | s, m :: ms => Ok s m ∧ Along Ok (step s m).2 ms

/-- The answer to an admissible request, and the view after it, depend on the view only. -/
def Unwinds (view : σ → ω) (Ok : σ → μ → Prop) : Prop :=
  ∀ s t m, view s = view t → Ok s m → Ok t m →
    (step s m).1 = (step t m).1 ∧ view (step s m).2 = view (step t m).2

variable {step} {view : σ → ω} {Ok : σ → μ → Prop}

/-- **Noninterference.**  States with the same view answer alike. -/
theorem answers_eq_of_view_eq (hstep : Unwinds step view Ok) {s t : σ} (hview : view s = view t)
    {ms : List μ} (hs : Along step Ok s ms) (ht : Along step Ok t ms) :
    answers step s ms = answers step t ms := by
  induction ms generalizing s t with
  | nil => rfl
  | cons m ms ih =>
      obtain ⟨hanswer, hnext⟩ := hstep s t m hview hs.1 ht.1
      rw [answers, answers, hanswer, ih hnext hs.2 ht.2]

/-- **Frame.**  What every request keeps is kept by the list. -/
theorem final_eq_of_step {rest : σ → τ} (hstep : ∀ s m, rest (step s m).2 = rest s) (s : σ)
    (ms : List μ) : rest (final step s ms) = rest s := by
  induction ms generalizing s with
  | nil => rfl
  | cons m ms ih => rw [final, ih, hstep]

/-- An invariant of the requests holds along the list. -/
lemma Along.of_invariant {Inv : σ → Prop} (hstep : ∀ s m, Inv s → Inv (step s m).2) {s : σ}
    (hs : Inv s) {ms : List μ} (h : Along step Ok s ms) :
    Along step (fun s m => Inv s ∧ Ok s m) s ms := by
  induction ms generalizing s with
  | nil => trivial
  | cons m ms ih => exact ⟨⟨hs, h.1⟩, ih (hstep s m hs) h.2⟩

end Runs

section Rows

variable {α β : Type} {own : α → Bool} {rows : List α}

/-- An update that keeps the owner of every row, seen by the owner. -/
lemma filter_map {f : α → α} (hown : ∀ r, own (f r) = own r) :
    (rows.map f).filter own = (rows.filter own).map f := by
  rw [List.filter_map]
  congr 1
  exact List.filter_congr fun r _ => hown r

/-- An update that changes rows of the owner only is not seen by the others. -/
lemma filter_not_map {f : α → α} (hown : ∀ r, own (f r) = own r)
    (hkeep : ∀ r, own r = false → f r = r) :
    (rows.map f).filter (fun r => !own r) = rows.filter fun r => !own r := by
  rw [List.filter_map, show ((fun r => !own r) ∘ f) = fun r => !own r from
    funext fun r => by simp [hown r]]
  conv_rhs => rw [← List.map_id (rows.filter _)]
  refine List.map_congr_left fun r hr => ?_
  exact hkeep r (by simpa using (List.mem_filter.1 hr).2)

/-- A condition that implies ownership looks at the rows of the owner only. -/
lemma filter_filter_of_imp {p : α → Bool} (himp : ∀ r, p r = true → own r = true) :
    (rows.filter own).filter p = rows.filter p := by
  rw [List.filter_filter]
  refine List.filter_congr fun r _ => ?_
  cases hp : p r with
  | false => rfl
  | true => simp [himp r hp]

lemma find?_filter_of_imp {p : α → Bool} (himp : ∀ r, p r = true → own r = true) :
    (rows.filter own).find? p = rows.find? p := by
  rw [← List.head?_filter, ← List.head?_filter, filter_filter_of_imp himp]

lemma any_filter_of_imp {p : α → Bool} (himp : ∀ r, p r = true → own r = true) :
    (rows.filter own).any p = rows.any p := by
  rw [Bool.eq_iff_iff, List.any_eq_true, List.any_eq_true]
  constructor
  · rintro ⟨r, hr, hp⟩
    exact ⟨r, List.mem_of_mem_filter hr, hp⟩
  · rintro ⟨r, hr, hp⟩
    exact ⟨r, List.mem_filter.2 ⟨hr, himp r hp⟩, hp⟩

/-- Rows that contribute nothing to a join can be left out. -/
lemma flatMap_filter {f : α → List β} (hnil : ∀ r, own r = false → f r = []) :
    (rows.filter own).flatMap f = rows.flatMap f := by
  induction rows with
  | nil => rfl
  | cons r rows ih =>
      cases hr : own r with
      | false => rw [List.filter_cons_of_neg (by simp [hr]), List.flatMap_cons, hnil r hr, ih]; rfl
      | true => rw [List.filter_cons_of_pos hr, List.flatMap_cons, List.flatMap_cons, ih]

end Rows

end Isolation

end Cellora
