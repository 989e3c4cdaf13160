/-
# Queries against the table of blocks

`blocks::latest` and `blocks::get_by_number`, on the tables.  In a table that holds the blocks
of a chain, the first is the last block and the second the block of that height.
-/
import Cellora.Indexer.Mirror

namespace Cellora

namespace Blocks

/-- `blocks::latest`: `ORDER BY number DESC LIMIT 1`. -/
def latest (db : Db) : Option BlockRow :=
  (db.blocks.mergeSort fun r r' => r'.number ≤ r.number).head?

/-- `blocks::get_by_number`. -/
def getByNumber (db : Db) (number : ℤ) : Option BlockRow :=
  db.blocks.find? fun row => row.number == number

/-- The latest block is one with the greatest number. -/
lemma latest_eq_some {db : Db} {row : BlockRow} (h : latest db = some row) :
    row ∈ db.blocks ∧ ∀ row' ∈ db.blocks, row'.number ≤ row.number := by
  obtain ⟨rest, hsorted⟩ := List.head?_eq_some_iff.1 h
  have hmem : ∀ r, r ∈ db.blocks ↔ r ∈ row :: rest := fun r => by
    rw [← hsorted, List.mem_mergeSort]
  have hpair : (db.blocks.mergeSort fun r r' => r'.number ≤ r.number).Pairwise
      fun r r' => decide (r'.number ≤ r.number) = true :=
    List.pairwise_mergeSort
      (fun a b c hab hbc => by simp only [decide_eq_true_eq] at *; omega)
      (fun a b => by simp only [Bool.or_eq_true, decide_eq_true_eq]; omega) db.blocks
  rw [hsorted, List.pairwise_cons] at hpair
  refine ⟨(hmem row).2 List.mem_cons_self, fun row' hrow' => ?_⟩
  rcases List.mem_cons.1 ((hmem row').1 hrow') with rfl | hrest
  · exact Int.le_refl _
  · simpa using hpair.1 row' hrest

lemma latest_eq_none {db : Db} : latest db = none ↔ db.blocks = [] := by
  rw [latest, List.head?_eq_none_iff, ← List.length_eq_zero_iff, List.length_mergeSort,
    List.length_eq_zero_iff]

section Mirrors

open Indexer

variable {X : CkbLib} {lo : ℕ} {chain : List (StoredBlock X)} {db : Db}

/-- The latest block is the last of the chain. -/
lemma latest_of_mirrors (h : Mirrors lo chain db) :
    latest db = chain.getLast?.map fun b => b.rows.block := by
  cases hlast : chain.getLast? with
  | none =>
      rw [List.getLast?_eq_none_iff] at hlast
      rw [Option.map_none, latest_eq_none, h.blocks, hlast, List.map_nil]
  | some b =>
      cases hrow : latest db with
      | none =>
          rw [latest_eq_none, h.blocks, List.map_eq_nil_iff] at hrow
          rw [hrow] at hlast
          cases hlast
      | some row =>
          obtain ⟨hmem, hmax⟩ := latest_eq_some hrow
          rw [h.blocks] at hmem hmax
          obtain ⟨b', hb', rfl⟩ := List.mem_map.1 hmem
          have hle := hmax _ (List.mem_map_of_mem (List.mem_of_getLast? hlast))
          rw [b.block_number, b'.block_number] at hle
          -- the last block has the greatest number of the chain
          have hlen := (h.numbered.le_of_mem hb').2
          have hnum : b.number = lo + (chain.length - 1) :=
            h.numbered _ b (by rw [← hlast, List.getLast?_eq_getElem?])
          obtain rfl := h.numbered.eq_of_num_eq hb' (List.mem_of_getLast? hlast) (by omega)
          rfl

/-- A stored block is found under its number. -/
lemma getByNumber_of_mem (h : Mirrors lo chain db) {b : StoredBlock X} (hb : b ∈ chain) :
    getByNumber db b.number = some b.rows.block := by
  cases hrow : getByNumber db b.number with
  | none =>
      rw [getByNumber, List.find?_eq_none, h.blocks] at hrow
      refine absurd ?_ (hrow _ (List.mem_map_of_mem hb))
      rw [b.block_number, beq_self_eq_true]
  | some row =>
      have hmem := List.mem_of_find?_eq_some hrow
      have hnum := List.find?_some hrow
      rw [h.blocks] at hmem
      obtain ⟨b', hb', rfl⟩ := List.mem_map.1 hmem
      rw [b'.block_number, beq_iff_eq, Nat.cast_inj] at hnum
      rw [h.numbered.eq_of_num_eq hb' hb hnum]

lemma getByNumber_of_absent (h : Mirrors lo chain db) {n : ℕ}
    (hn : ∀ b ∈ chain, b.number ≠ n) : getByNumber db n = none := by
  rw [getByNumber, List.find?_eq_none, h.blocks]
  intro row hrow
  obtain ⟨b, hb, rfl⟩ := List.mem_map.1 hrow
  rw [b.block_number, beq_iff_eq, Nat.cast_inj]
  exact hn b hb

end Mirrors

end Blocks

end Cellora
