/-
# Leases

A lease gives a value to a key until it expires or is revoked.  In its own terms the state
is a partial function from keys to leases, and it is determined by the events so far: the
last one about a key counts.

A table implements it with one row for each key.  Rows may be changed outside the columns
of the lease, and rows that have expired may be deleted at any time; as long as the clock
does not go back, a lookup of the leases in force sees neither.
-/
import Cellora.Lib.Table
import Mathlib.Data.Int.Order.Basic
import Mathlib.Data.List.Induction
import Mathlib.Logic.Function.Basic

namespace Cellora

/-- A value and the moment from which it is no longer given. -/
structure Lease (γ : Type) where
  value : γ
  expiresAt : ℤ
deriving DecidableEq

namespace Lease

variable {κ γ ρ : Type}

/-- What happens to the leases. -/
inductive Event (κ γ : Type) where
  | issued (key : κ) (lease : Lease γ)
  | revoked (key : κ)

/-- The key an event is about. -/
def Event.key : Event κ γ → κ
  | .issued key _ => key
  | .revoked key => key

/-- What an event leaves for its key. -/
def Event.lease : Event κ γ → Option (Lease γ)
  | .issued _ lease => some lease
  | .revoked _ => none

section Events

variable [DecidableEq κ]

/-- The leases after some events. -/
def after (events : List (Event κ γ)) : κ → Option (Lease γ) :=
  events.foldl (fun leases e => Function.update leases e.key e.lease) fun _ => none

@[simp] lemma after_nil : after ([] : List (Event κ γ)) = fun _ => none := rfl

lemma after_concat (events : List (Event κ γ)) (e : Event κ γ) :
    after (events ++ [e]) = Function.update (after events) e.key e.lease := List.foldl_append

/-- A lease is there if the last event about its key issued it. -/
lemma after_eq_some_iff {events : List (Event κ γ)} {key : κ} {lease : Lease γ} :
    after events key = some lease ↔
      (events.filter fun e => e.key = key).getLast? = some (.issued key lease) := by
  induction events using List.reverseRecOn with
  | nil => simp
  | append_singleton events e ih =>
      rw [after_concat, List.filter_append]
      by_cases hk : e.key = key
      · subst hk
        rw [Function.update_self, List.filter_cons_of_pos (by simp), List.filter_nil,
          List.getLast?_concat]
        cases e <;> simp [Event.lease, Event.key]
      · rw [Function.update_of_ne (Ne.symm hk), ih, List.filter_cons_of_neg (by simpa using hk),
          List.filter_nil, List.append_nil]

end Events

/-! ### A table of leases -/

/-- The rows implement the leases: one row for each key, every row a lease, and a row for
every lease in force. -/
structure Implements (key : ρ → κ) (lease : ρ → Lease γ) (now : ℤ)
    (leases : κ → Option (Lease γ)) (rows : List ρ) : Prop where
  keys : (rows.map key).Nodup
  sound : ∀ r ∈ rows, leases (key r) = some (lease r)
  complete : ∀ k l, leases k = some l → now < l.expiresAt → k ∈ rows.map key

namespace Implements

variable {key : ρ → κ} {lease : ρ → Lease γ} {now now' : ℤ} {leases : κ → Option (Lease γ)}
  {rows : List ρ}

lemma empty (now : ℤ) : Implements key lease now (fun _ => none) ([] : List ρ) where
  keys := List.nodup_nil
  sound := fun _ h => absurd h List.not_mem_nil
  complete := fun _ _ h => nomatch h

/-- Time passes. -/
lemma tick (h : Implements key lease now leases rows) (hle : now ≤ now') :
    Implements key lease now' leases rows :=
  ⟨h.keys, h.sound, fun k l hl hlt => h.complete k l hl (lt_of_le_of_lt hle hlt)⟩

/-- Changing other columns is not seen. -/
lemma map (h : Implements key lease now leases rows) {f : ρ → ρ} (hkey : ∀ r, key (f r) = key r)
    (hlease : ∀ r, lease (f r) = lease r) : Implements key lease now leases (rows.map f) := by
  have hkeys : (rows.map f).map key = rows.map key := by
    rw [List.map_map]
    exact List.map_congr_left fun r _ => hkey r
  refine ⟨hkeys ▸ h.keys, fun x hx => ?_, fun k l hl hlt => ?_⟩
  · obtain ⟨r, hr, rfl⟩ := List.mem_map.1 hx
    rw [hkey, hlease]
    exact h.sound r hr
  · rw [hkeys]
    exact h.complete k l hl hlt

/-- Deleting rows that have expired is not seen. -/
lemma purge (h : Implements key lease now leases rows) {p : ρ → Bool}
    (hp : ∀ r ∈ rows, now < (lease r).expiresAt → p r = true) :
    Implements key lease now leases (rows.filter p) where
  keys := h.keys.sublist (List.filter_sublist.map key)
  sound := fun r hr => h.sound r (List.mem_of_mem_filter hr)
  complete := by
    intro k l hl hlt
    obtain ⟨r, hr, rfl⟩ := List.mem_map.1 (h.complete k l hl hlt)
    obtain rfl : l = lease r := Option.some.inj (hl.symm.trans (h.sound r hr))
    exact List.mem_map.2 ⟨r, List.mem_filter.2 ⟨hr, hp r hr hlt⟩, rfl⟩

variable [DecidableEq κ]

/-- A new row issues a lease. -/
lemma insert (h : Implements key lease now leases rows) {r : ρ} (hr : key r ∉ rows.map key) :
    Implements key lease now (Function.update leases (key r) (some (lease r))) (rows ++ [r]) where
  keys := Table.nodup_map_concat h.keys hr
  sound := by
    intro x hx
    rcases List.mem_append.1 hx with hx | hx
    · have hne : key x ≠ key r := fun heq => hr (heq ▸ List.mem_map_of_mem hx)
      rw [Function.update_of_ne hne]
      exact h.sound x hx
    · rw [List.mem_singleton.1 hx, Function.update_self]
  complete := by
    intro k l hl hlt
    rw [List.map_append, List.mem_append]
    by_cases hk : k = key r
    · exact Or.inr (by simp [hk])
    · rw [Function.update_of_ne hk] at hl
      exact Or.inl (h.complete k l hl hlt)

/-- Deleting the row of a key revokes its lease. -/
lemma delete (h : Implements key lease now leases rows) (k : κ) :
    Implements key lease now (Function.update leases k none)
      (rows.filter fun r => key r ≠ k) where
  keys := h.keys.sublist (List.filter_sublist.map key)
  sound := by
    intro x hx
    obtain ⟨hx, hne⟩ := List.mem_filter.1 hx
    rw [Function.update_of_ne (by simpa using hne)]
    exact h.sound x hx
  complete := by
    intro k' l hl hlt
    by_cases hk : k' = k
    · rw [hk, Function.update_self] at hl
      cases hl
    · rw [Function.update_of_ne hk] at hl
      obtain ⟨r, hr, rfl⟩ := List.mem_map.1 (h.complete k' l hl hlt)
      exact List.mem_map.2 ⟨r, List.mem_filter.2 ⟨hr, by simpa using hk⟩, rfl⟩

/-- **Lookup.**  The row of a key that has not expired is there exactly if the key has a
lease in force, and it shows that lease. -/
lemma find?_eq_some_iff (h : Implements key lease now leases rows) {k : κ} {r : ρ} :
    rows.find? (fun r => key r = k && now < (lease r).expiresAt) = some r ↔
      r ∈ rows ∧ key r = k ∧ leases k = some (lease r) ∧ now < (lease r).expiresAt := by
  constructor
  · intro hfind
    have hr := List.mem_of_find?_eq_some hfind
    have hcond := List.find?_some hfind
    simp only [Bool.and_eq_true, decide_eq_true_eq] at hcond
    exact ⟨hr, hcond.1, hcond.1 ▸ h.sound r hr, hcond.2⟩
  · rintro ⟨hr, rfl, -, hlt⟩
    cases hfind : rows.find? fun x => key x = key r && now < (lease x).expiresAt with
    | none =>
        have := List.find?_eq_none.1 hfind r hr
        simp [hlt] at this
    | some x =>
        have hx := List.mem_of_find?_eq_some hfind
        have hcond := List.find?_some hfind
        simp only [Bool.and_eq_true, decide_eq_true_eq] at hcond
        rw [List.inj_on_of_nodup_map h.keys hx hr hcond.1]

/-- A lease in force is found. -/
lemma exists_find? (h : Implements key lease now leases rows) {k : κ} {l : Lease γ}
    (hl : leases k = some l) (hlt : now < l.expiresAt) :
    ∃ r, rows.find? (fun r => key r = k && now < (lease r).expiresAt) = some r ∧
      lease r = l := by
  obtain ⟨r, hr, rfl⟩ := List.mem_map.1 (h.complete k l hl hlt)
  obtain rfl : l = lease r := Option.some.inj (hl.symm.trans (h.sound r hr))
  exact ⟨r, h.find?_eq_some_iff.2 ⟨hr, rfl, hl, hlt⟩, rfl⟩

end Implements

end Lease

end Cellora
