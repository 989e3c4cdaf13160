/-
# Runs of a state machine

A machine is a function from a state and a move to the next state; what the environment
chooses is part of the move.  A run is a list of moves.  An invariant that every allowed
move preserves holds after every run of allowed moves.
-/
import Mathlib.Data.List.Basic
import Mathlib.Tactic.Common

namespace Cellora

namespace Machine

variable {σ μ : Type} (exec : σ → μ → σ)

/-- The state after a list of moves. -/
def run (s : σ) (ms : List μ) : σ := ms.foldl exec s

@[simp] lemma run_nil (s : σ) : run exec s [] = s := rfl

@[simp] lemma run_cons (s : σ) (m : μ) (ms : List μ) :
    run exec s (m :: ms) = run exec (exec s m) ms := rfl

lemma run_append (s : σ) (ms ms' : List μ) :
    run exec s (ms ++ ms') = run exec (run exec s ms) ms' := List.foldl_append

lemma run_concat (s : σ) (ms : List μ) (m : μ) :
    run exec s (ms ++ [m]) = exec (run exec s ms) m := by
  rw [run_append, run_cons, run_nil]

/-- The state before the move at position `k`. -/
def before (s : σ) (ms : List μ) (k : ℕ) : σ := run exec s (ms.take k)

lemma before_succ {s : σ} {ms : List μ} {k : ℕ} {m : μ} (h : ms[k]? = some m) :
    before exec s ms (k + 1) = exec (before exec s ms k) m := by
  rw [before, List.take_add_one, h, Option.toList_some, run_concat]
  rfl

lemma before_succ_of_none {s : σ} {ms : List μ} {k : ℕ} (h : ms[k]? = none) :
    before exec s ms (k + 1) = before exec s ms k := by
  rw [before, List.take_add_one, h, Option.toList_none, List.append_nil]
  rfl

/-- The end of a run does not matter for what is before it. -/
lemma before_append_of_le {s : σ} {ms ms' : List μ} {k : ℕ} (hk : k ≤ ms.length) :
    before exec s (ms ++ ms') k = before exec s ms k := by
  rw [before, before, List.take_append_of_le_length hk]

lemma before_append_length_add (s : σ) (ms ms' : List μ) (k : ℕ) :
    before exec s (ms ++ ms') (ms.length + k) = before exec (run exec s ms) ms' k := by
  rw [before, List.take_length_add_append, run_append]
  rfl

/-- **Induction along a run.**  What holds before the first move and is preserved by every
move of the run holds before every move; it may refer to the position. -/
theorem before_induction {s : σ} {ms : List μ} (Inv : ℕ → σ → Prop) (h₀ : Inv 0 s)
    (hstep : ∀ k m, ms[k]? = some m → Inv k (before exec s ms k) →
      Inv (k + 1) (exec (before exec s ms k) m))
    (hlater : ∀ k t, Inv k t → Inv (k + 1) t) (k : ℕ) : Inv k (before exec s ms k) := by
  induction k with
  | zero => exact h₀
  | succ k ih =>
      cases hm : ms[k]? with
      | none =>
          rw [before_succ_of_none exec hm]
          exact hlater k _ ih
      | some m =>
          rw [before_succ exec hm]
          exact hstep k m hm ih

/-- `t` is reached from `s` by moves that are all allowed. -/
def Reaches (Ok : μ → Prop) (s t : σ) : Prop :=
  ∃ ms : List μ, (∀ m ∈ ms, Ok m) ∧ run exec s ms = t

variable {exec} {Ok : μ → Prop} {s t u : σ}

lemma Reaches.refl : Reaches exec Ok s s := ⟨[], fun _ h => absurd h List.not_mem_nil, rfl⟩

/-- **The invariant rule.**  What every allowed move preserves holds in every state that
is reached from a state where it holds. -/
theorem Reaches.invariant (Inv : σ → Prop)
    (hstep : ∀ s m, Ok m → Inv s → Inv (exec s m)) (hs : Inv s)
    (h : Reaches exec Ok s t) : Inv t := by
  obtain ⟨ms, hms, rfl⟩ := h
  induction ms generalizing s with
  | nil => exact hs
  | cons m ms ih =>
      obtain ⟨hm, hms⟩ := List.forall_mem_cons.1 hms
      exact ih (hstep s m hm hs) hms

/-- **The variant rule.**  If no allowed move raises the number of good moves that are still
needed, and every good move lowers it, then an allowed run with that many good moves in it,
wherever they stand, leaves none to be made. -/
theorem run_variant {Needs : ℕ → σ → Prop} {Good : μ → Prop}
    (hok : ∀ d s m, Ok m → Needs d s → ∃ d' ≤ d, Needs d' (exec s m))
    (hgood : ∀ d s m, Good m → Needs (d + 1) s → ∃ d' ≤ d, Needs d' (exec s m))
    {ms good : List μ} (hms : ∀ m ∈ ms, Ok m) (hsub : good.Sublist ms)
    (hall : ∀ m ∈ good, Good m) {d : ℕ} (hd : d ≤ good.length) (h : Needs d s) :
    Needs 0 (run exec s ms) := by
  induction hsub generalizing s d with
  | slnil =>
      obtain rfl : d = 0 := by simpa using hd
      exact h
  | cons m _ ih =>
      obtain ⟨hm, hms⟩ := List.forall_mem_cons.1 hms
      obtain ⟨d', hle, h'⟩ := hok d s m hm h
      exact ih hms hall (Nat.le_trans hle hd) h'
  | cons_cons m _ ih =>
      obtain ⟨hm, hms⟩ := List.forall_mem_cons.1 hms
      obtain ⟨hgm, hall⟩ := List.forall_mem_cons.1 hall
      rw [List.length_cons] at hd
      cases d with
      | zero =>
          obtain ⟨d', hle, h'⟩ := hok 0 s m hm h
          exact ih hms hall (Nat.le_trans hle (Nat.zero_le _)) h'
      | succ d =>
          obtain ⟨d', hle, h'⟩ := hgood d s m hgm h
          exact ih hms hall (by omega) h'

/-- `t` is reached from `s` by any moves, through states that all satisfy `P`. -/
inductive Stays (exec : σ → μ → σ) (P : σ → Prop) : σ → σ → Prop
  | here {s : σ} (h : P s) : Stays exec P s s
  | move {s t : σ} (m : μ) (h : P s) (rest : Stays exec P (exec s m) t) : Stays exec P s t

lemma Stays.start {P : σ → Prop} (h : Stays exec P s t) : P s := by
  cases h with
  | here h => exact h
  | move m h rest => exact h

/-- What every move into `P` preserves holds as long as the run stays in `P`. -/
theorem Stays.invariant {P : σ → Prop} (Inv : σ → Prop)
    (hstep : ∀ s m, Inv s → P (exec s m) → Inv (exec s m)) (hs : Inv s)
    (h : Stays exec P s t) : Inv t := by
  induction h with
  | here => exact hs
  | move m _ rest ih => exact ih (hstep _ m hs rest.start)

/-- Where a state keeps the tasks that interleave in a list, a move changes one of them: the
number of tasks with a property changes by what the one task contributes. -/
lemma countP_set_add {τ : Type} {p : τ → Bool} {l : List τ} {i : ℕ} {t : τ} (h : l[i]? = some t)
    (t' : τ) :
    (l.set i t').countP p + (if p t then 1 else 0) = l.countP p + if p t' then 1 else 0 := by
  obtain ⟨hi, rfl⟩ := List.getElem?_eq_some_iff.1 h
  have hpos : p l[i] = true → 0 < l.countP p := fun ht =>
    List.countP_pos_iff.2 ⟨l[i], List.getElem_mem hi, ht⟩
  rw [List.countP_set hi]
  split_ifs with h₁ h₂ h₂
  · have := hpos h₁
    omega
  · have := hpos h₁
    omega
  · rfl
  · rfl

/-- What every task keeps. -/
lemma map_set_of_eq {τ β : Type} {f : τ → β} {l : List τ} {i : ℕ} {t t' : τ} (h : l[i]? = some t)
    (hf : f t' = f t) : (l.set i t').map f = l.map f := by
  obtain ⟨hi, rfl⟩ := List.getElem?_eq_some_iff.1 h
  rw [List.map_set, hf, ← List.map_set, List.set_getElem_self]

/-- What the tasks contribute to a list changes by what the one task contributes. -/
lemma perm_filterMap_set {τ β : Type} {f : τ → Option β} {l : List τ} {i : ℕ} {t : τ}
    (h : l[i]? = some t) (t' : τ) :
    ((l.set i t').filterMap f ++ (f t).toList).Perm (l.filterMap f ++ (f t').toList) := by
  obtain ⟨hi, rfl⟩ := List.getElem?_eq_some_iff.1 h
  have hsplit : ∀ a, (l.take i ++ a :: l.drop (i + 1)).filterMap f =
      (l.take i).filterMap f ++ ((f a).toList ++ (l.drop (i + 1)).filterMap f) := by
    intro a
    rw [List.filterMap_append, List.filterMap_cons]
    cases f a <;> rfl
  have hold : l = l.take i ++ l[i] :: l.drop (i + 1) := by
    rw [← List.drop_eq_getElem_cons hi, List.take_append_drop]
  conv_rhs => rw [hold]
  rw [List.set_eq_take_append_cons_drop, if_pos hi, hsplit, hsplit]
  simp only [List.append_assoc]
  -- the two contributions change places around what the later tasks contribute
  refine List.Perm.append_left _ ?_
  rw [← List.append_assoc]
  exact List.perm_append_comm.trans (List.Perm.append_left _ List.perm_append_comm)

end Machine

end Cellora
