/-
# Lists as queues

A Redis list with its head first.  A producer pushes at the head and may trim the list to a
number of newest elements; a consumer pops from the tail.  Read from the tail the list is a
queue: a push appends, a pop takes from the front, and a trim drops from the front.
-/
import Mathlib.Data.List.Basic
import Mathlib.Tactic.Common

namespace Cellora

namespace RedisList

variable {α : Type}

/-- `LPUSH`. -/
def lpush (a : α) (l : List α) : List α := a :: l

/-- `LTRIM` with indices that are not negative. -/
def ltrim (start stop : ℕ) (l : List α) : List α := (l.take (stop + 1)).drop start

/-- `RPOP` with a count: the popped elements, the one at the tail first, and what is left. -/
def rpop (count : ℕ) (l : List α) : List α × List α :=
  (l.reverse.take count, (l.reverse.drop count).reverse)

/-- The list as a queue, the oldest element first. -/
def queue (l : List α) : List α := l.reverse

lemma queue_lpush (a : α) (l : List α) : queue (lpush a l) = queue l ++ [a] :=
  List.reverse_cons

/-- A pop splits the queue. -/
lemma rpop_append (count : ℕ) (l : List α) :
    (rpop count l).1 ++ queue (rpop count l).2 = queue l := by
  rw [rpop, queue, queue, List.reverse_reverse, List.take_append_drop]

lemma length_rpop_le (count : ℕ) (l : List α) : (rpop count l).2.length ≤ l.length := by
  rw [rpop, List.length_reverse, List.length_drop, List.length_reverse]
  omega

/-- Keeping the newest elements. -/
lemma ltrim_zero {max : ℕ} (h : 0 < max) (l : List α) : ltrim 0 (max - 1) l = l.take max := by
  rw [ltrim, List.drop_zero, Nat.sub_add_cancel h]

/-- A trim to the newest elements drops from the front of the queue. -/
lemma queue_take (max : ℕ) (l : List α) : queue (l.drop max) ++ queue (l.take max) = queue l := by
  rw [queue, queue, queue, ← List.reverse_append, List.take_append_drop]

/-- An element that a trim drops has as many newer ones above it as the trim keeps. -/
lemma take_newer {r : α → α → Prop} {max : ℕ} {l : List α} {a : α} (h : l.Pairwise r)
    (ha : a ∈ l.drop max) : (l.take max).length = max ∧ ∀ b ∈ l.take max, r b a := by
  constructor
  · have hlen := List.length_pos_of_mem ha
    rw [List.length_drop] at hlen
    rw [List.length_take]
    omega
  · intro b hb
    rw [← List.take_append_drop max l] at h
    exact (List.pairwise_append.1 h).2.2 b hb a ha

end RedisList

end Cellora
