/-
# Tables with a unique key

A table is the list of its rows.  Rows are inserted one statement at a time; a statement
fails on a duplicate key, and a further check (a foreign key) may refuse the row.  A batch
of inserts inside one transaction is the sequence of its statements, so it succeeds
exactly when the new keys are fresh and pairwise distinct and every check passes.
-/
import Cellora.Lib.Except
import Mathlib.Data.List.Nodup

namespace Cellora

namespace Table

variable {ρ κ ε : Type}

/-- The keys of the rows `new` are pairwise distinct and none of them is taken. -/
def Fresh (key : ρ → κ) (new rows : List ρ) : Prop :=
  (new.map key).Nodup ∧ ∀ r ∈ new, key r ∉ rows.map key

section Fresh

variable {key : ρ → κ} {new rows : List ρ}

lemma fresh_nil : Fresh key [] rows :=
  ⟨List.nodup_nil, fun _ h => absurd h List.not_mem_nil⟩

lemma fresh_cons {row : ρ} :
    Fresh key (row :: new) rows ↔
      key row ∉ rows.map key ∧ Fresh key new (rows ++ [row]) := by
  simp only [Fresh, List.map_cons, List.nodup_cons, List.forall_mem_cons, List.map_append,
    List.map_nil, List.mem_append, List.mem_singleton, not_or]
  constructor
  · rintro ⟨⟨hrow, hnd⟩, hk, hnew⟩
    refine ⟨hk, hnd, fun r hr => ⟨hnew r hr, fun he => hrow ?_⟩⟩
    rw [← he]
    exact List.mem_map_of_mem hr
  · rintro ⟨hk, hnd, hnew⟩
    refine ⟨⟨fun hmem => ?_, hnd⟩, hk, fun r hr => (hnew r hr).1⟩
    obtain ⟨r, hr, he⟩ := List.mem_map.1 hmem
    exact (hnew r hr).2 he

/-- A batch with fresh keys keeps the key unique. -/
lemma Fresh.nodup_append (h : Fresh key new rows) (hrows : (rows.map key).Nodup) :
    ((rows ++ new).map key).Nodup := by
  rw [List.map_append, List.nodup_append]
  refine ⟨hrows, h.1, fun a ha b hb hab => ?_⟩
  obtain ⟨r, hr, rfl⟩ := List.mem_map.1 hb
  exact h.2 r hr (hab ▸ ha)

/-- The suffix of a table with a unique key is fresh for the prefix. -/
lemma fresh_of_nodup_append (h : ((rows ++ new).map key).Nodup) : Fresh key new rows := by
  rw [List.map_append, List.nodup_append] at h
  refine ⟨h.2.1, fun r hr hmem => ?_⟩
  exact h.2.2 _ hmem _ (List.mem_map_of_mem hr) rfl

/-- One more row keeps a column unique if its value is not taken. -/
lemma nodup_map_concat {f : ρ → κ} {row : ρ} (hnd : (rows.map f).Nodup)
    (hrow : f row ∉ rows.map f) : ((rows ++ [row]).map f).Nodup := by
  rw [List.map_append]
  refine List.nodup_append.2 ⟨hnd, List.nodup_singleton _, fun g hg g' hg' heq => ?_⟩
  obtain rfl := List.mem_singleton.1 hg'
  exact hrow (heq ▸ hg)

/-- If the rows that a query selects all have one key, it selects at most one row. -/
lemma length_filter_le_one (hnd : (rows.map key).Nodup) {p : ρ → Bool}
    (h : ∀ r ∈ rows, ∀ r' ∈ rows, p r = true → p r' = true → key r = key r') :
    (rows.filter p).length ≤ 1 := by
  have hnodup : ((rows.filter p).map key).Nodup := hnd.sublist (List.filter_sublist.map key)
  rcases hlist : rows.filter p with _ | ⟨r, _ | ⟨r', rest⟩⟩
  · exact Nat.zero_le 1
  · exact Nat.le_refl 1
  · have hr : r ∈ rows.filter p := by simp [hlist]
    have hr' : r' ∈ rows.filter p := by simp [hlist]
    rw [List.mem_filter] at hr hr'
    rw [hlist, List.map_cons, List.nodup_cons] at hnodup
    refine absurd ?_ hnodup.1
    rw [h r hr.1 r' hr'.1 hr.2 hr'.2, List.map_cons]
    exact List.mem_cons_self

end Fresh

variable [DecidableEq κ]

/-- One `INSERT`: `dup` is the error of the unique index on `key`, and `check` the error
of the remaining constraints, if the row breaks one. -/
def insert (key : ρ → κ) (dup : ε) (check : ρ → Option ε) (rows : List ρ) (row : ρ) :
    Except ε (List ρ) :=
  if key row ∈ rows.map key then .error dup
  else match check row with
    | some e => .error e
    | none => .ok (rows ++ [row])

/-- A batch of `INSERT` statements, in order. -/
def insertAll (key : ρ → κ) (dup : ε) (check : ρ → Option ε) (new rows : List ρ) :
    Except ε (List ρ) :=
  new.foldlM (insert key dup check) rows

variable {key : ρ → κ} {dup : ε} {check : ρ → Option ε} {new rows rows' : List ρ}

lemma insert_eq_ok_iff {row : ρ} :
    insert key dup check rows row = .ok rows' ↔
      key row ∉ rows.map key ∧ check row = none ∧ rows' = rows ++ [row] := by
  unfold insert
  by_cases hk : key row ∈ rows.map key
  · rw [if_pos hk]
    simp [hk]
  · rw [if_neg hk]
    cases hc : check row with
    | some e => simp
    | none =>
        simp only [Except.ok.injEq, true_and]
        exact ⟨fun h => ⟨hk, h.symm⟩, fun h => h.2.symm⟩

/-- A batch succeeds exactly when the new keys are fresh and every row passes the checks,
and then it appends the batch. -/
lemma insertAll_eq_ok_iff :
    insertAll key dup check new rows = .ok rows' ↔
      Fresh key new rows ∧ (∀ r ∈ new, check r = none) ∧ rows' = rows ++ new := by
  induction new generalizing rows with
  | nil =>
      simp only [insertAll, List.foldlM_nil, List.append_nil]
      constructor
      · intro h
        exact ⟨fresh_nil, fun _ h => absurd h List.not_mem_nil, (Except.ok.inj h).symm⟩
      · rintro ⟨-, -, rfl⟩
        rfl
  | cons row new ih =>
      have hstep : insertAll key dup check (row :: new) rows = .ok rows' ↔
          ∃ t, insert key dup check rows row = .ok t ∧
            insertAll key dup check new t = .ok rows' := by
        rw [insertAll, List.foldlM_cons, Except.bind_eq_ok]
        rfl
      rw [hstep, fresh_cons]
      constructor
      · rintro ⟨t, ht, hrest⟩
        obtain ⟨hk, hc, rfl⟩ := insert_eq_ok_iff.1 ht
        obtain ⟨hfresh, hall, rfl⟩ := ih.1 hrest
        refine ⟨⟨hk, hfresh⟩, ?_, by simp⟩
        exact List.forall_mem_cons.2 ⟨hc, hall⟩
      · rintro ⟨⟨hk, hfresh⟩, hall, rfl⟩
        obtain ⟨hc, hall⟩ := List.forall_mem_cons.1 hall
        exact ⟨rows ++ [row], insert_eq_ok_iff.2 ⟨hk, hc, rfl⟩,
          ih.2 ⟨hfresh, hall, by simp⟩⟩

/-- A unique key selects one row. -/
lemma filter_key_eq (hnd : (rows.map key).Nodup) {row : ρ}
    (hrow : row ∈ rows) : (rows.filter fun r => key r = key row) = [row] := by
  refine List.perm_singleton.1 ((List.perm_ext_iff_of_nodup ?_ (List.nodup_singleton row)).2 ?_)
  · exact (List.Nodup.of_map _ hnd).filter _
  · intro r
    rw [List.mem_filter, decide_eq_true_eq, List.mem_singleton]
    constructor
    · rintro ⟨hr, hkey⟩
      exact List.inj_on_of_nodup_map hnd hr hrow hkey
    · rintro rfl
      exact ⟨hrow, rfl⟩

end Table

end Cellora
