/-
# Keyset pagination

Rows are listed in descending order of a unique key.  A page is the first rows below a
cursor; one row more than the page holds is fetched to learn whether there is another page,
and the key of the last row kept is the next cursor.  A client walks from page to page,
each fetched from its own state of the table.

Whatever happens to the table in between, the keys of a walk are strictly descending, and a
key that is in the table at every fetch of a finished walk is returned.  On a table that
does not change, the walk returns the sorted table.
-/
import Mathlib.Data.List.Sort

namespace Cellora

namespace Keyset

variable {ρ κ : Type} [LinearOrder κ] (key : ρ → κ)

/-- `ORDER BY key DESC`. -/
def descending (rows : List ρ) : List ρ := rows.insertionSort fun r r' => key r' ≤ key r

/-- The key is below the cursor, if there is one. -/
def Below : Option κ → κ → Prop
  | none, _ => True
  | some c, k => k < c

instance (cursor : Option κ) (k : κ) : Decidable (Below cursor k) :=
  match cursor with
  | none => inferInstanceAs (Decidable True)
  | some c => inferInstanceAs (Decidable (k < c))

/-- The rows that remain below a cursor, in the order of the list. -/
def remaining (cursor : Option κ) (rows : List ρ) : List ρ :=
  descending key (rows.filter fun r => Below cursor (key r))

/-- Keep `limit` rows; if there are more, the next cursor is the key of the last one kept. -/
def cut (limit : ℕ) (rows : List ρ) : List ρ × Option κ :=
  if limit < rows.length then (rows.take limit, (rows.take limit).getLast?.map key)
  else (rows, none)

/-- One page: fetch one row more than the limit, and cut. -/
def page (limit : ℕ) (cursor : Option κ) (rows : List ρ) : List ρ × Option κ :=
  cut key limit ((remaining key cursor rows).take (limit + 1))

/-- The pages a client gets, one from each state of the table, and whether it has got the
last one. -/
def walk (limit : ℕ) : Option κ → List (List ρ) → List (List ρ) × Bool
  | _, [] => ([], false)
  | cursor, rows :: rest =>
      match page key limit cursor rows with
      | (p, none) => ([p], true)
      | (p, some c) => (p :: (walk limit (some c) rest).1, (walk limit (some c) rest).2)

/-! ### The order -/

section Order

variable {key} {rows : List ρ} {cursor : Option κ}

lemma descending_perm : (descending key rows).Perm rows := List.perm_insertionSort _ _

lemma mem_remaining {r : ρ} : r ∈ remaining key cursor rows ↔ r ∈ rows ∧ Below cursor (key r) := by
  rw [remaining, descending_perm.mem_iff, List.mem_filter, decide_eq_true_eq]

lemma remaining_none : remaining key none rows = descending key rows := by
  have hall : (rows.filter fun r => Below none (key r)) = rows :=
    List.filter_eq_self.2 fun r _ => decide_eq_true (trivial : Below none (key r))
  rw [remaining, hall]

/-- With unique keys the order is strict. -/
lemma descending_pairwise (h : (rows.map key).Nodup) :
    (descending key rows).Pairwise fun r r' => key r' < key r := by
  have htotal : Std.Total fun r r' : ρ => key r' ≤ key r := ⟨fun r r' => le_total _ _⟩
  have htrans : IsTrans ρ fun r r' => key r' ≤ key r := ⟨fun a b c hab hbc => hbc.trans hab⟩
  have hle : (descending key rows).Pairwise fun r r' => key r' ≤ key r :=
    List.pairwise_insertionSort _ rows
  have hne : (descending key rows).Pairwise fun r r' => key r ≠ key r' :=
    List.pairwise_map.1 ((descending_perm.map key).nodup_iff.2 h)
  refine (hle.and hne).imp ?_
  rintro a b ⟨hab, hne⟩
  exact lt_of_le_of_ne hab hne.symm

lemma remaining_pairwise (cursor : Option κ) (h : (rows.map key).Nodup) :
    (remaining key cursor rows).Pairwise fun r r' => key r' < key r :=
  descending_pairwise (h.sublist (List.filter_sublist.map key))

/-- A strictly descending list is determined by its elements. -/
lemma eq_of_perm {l l' : List ρ} (hp : l.Perm l') (h : l.Pairwise fun r r' => key r' < key r)
    (h' : l'.Pairwise fun r r' => key r' < key r) : l = l' :=
  hp.eq_of_pairwise (fun _ _ _ _ hab hba => absurd hab hba.asymm) h h'

end Order

/-! ### One page -/

section Page

variable {key} {limit : ℕ} {cursor : Option κ} {rows : List ρ}

/-- A page is the beginning of what remains, and there is another one if more remains. -/
lemma page_eq : page key limit cursor rows =
    ((remaining key cursor rows).take limit,
      if limit < (remaining key cursor rows).length then
        ((remaining key cursor rows).take limit).getLast?.map key
      else none) := by
  rw [page, cut]
  generalize remaining key cursor rows = s
  rw [List.length_take, List.take_take, Nat.min_eq_left (Nat.le_succ limit)]
  by_cases h : limit < s.length
  · rw [if_pos (by omega), if_pos h]
  · rw [if_neg (by omega), if_neg h, List.take_of_length_le (by omega),
      List.take_of_length_le (by omega)]

/-- If there is no next cursor, the page is all that remains. -/
lemma page_of_none (hlimit : 0 < limit) (h : (page key limit cursor rows).2 = none) :
    (page key limit cursor rows).1 = remaining key cursor rows ∧
      (remaining key cursor rows).length ≤ limit := by
  rw [page_eq] at h ⊢
  by_cases hlen : limit < (remaining key cursor rows).length
  · -- a page that is cut has a last row
    rw [if_pos hlen, Option.map_eq_none_iff, List.getLast?_eq_none_iff,
      List.take_eq_nil_iff] at h
    rcases h with h | h
    · omega
    · simp [h] at hlen
  · exact ⟨List.take_of_length_le (by omega), by omega⟩

/-- If there is a next cursor, it is the key of the last row of the page. -/
lemma page_of_some {c : κ} (h : (page key limit cursor rows).2 = some c) :
    limit < (remaining key cursor rows).length ∧
      ∃ r, ((remaining key cursor rows).take limit).getLast? = some r ∧ key r = c := by
  rw [page_eq] at h
  by_cases hlen : limit < (remaining key cursor rows).length
  · rw [if_pos hlen] at h
    exact ⟨hlen, Option.map_eq_some_iff.1 h⟩
  · rw [if_neg hlen] at h
    exact absurd h (by simp)

lemma length_page_le : (page key limit cursor rows).1.length ≤ limit := by
  rw [page_eq, List.length_take]
  exact Nat.min_le_left _ _

lemma page_pairwise (limit : ℕ) (cursor : Option κ) (h : (rows.map key).Nodup) :
    (page key limit cursor rows).1.Pairwise fun r r' => key r' < key r := by
  rw [page_eq]
  exact (remaining_pairwise cursor h).sublist (List.take_sublist _ _)

lemma below_of_mem_page {r : ρ} (hr : r ∈ (page key limit cursor rows).1) :
    Below cursor (key r) := by
  rw [page_eq] at hr
  exact (mem_remaining.1 (List.mem_of_mem_take hr)).2

/-- No key of a page is below the next cursor, and every key that remains after it is. -/
lemma next_le_of_mem_page (hnd : (rows.map key).Nodup) {c : κ}
    (h : (page key limit cursor rows).2 = some c) {r : ρ}
    (hr : r ∈ (page key limit cursor rows).1) : c ≤ key r := by
  obtain ⟨-, last, hlast, rfl⟩ := page_of_some h
  obtain ⟨init, hinit⟩ := List.getLast?_eq_some_iff.1 hlast
  have hpw := page_pairwise limit cursor hnd
  rw [page_eq] at hr hpw
  simp only [hinit] at hr hpw
  rcases List.mem_append.1 hr with hr | hr
  · exact (List.pairwise_append.1 hpw).2.2 r hr last (List.mem_singleton_self _) |>.le
  · rw [List.mem_singleton.1 hr]

lemma lt_next_of_mem_drop (hnd : (rows.map key).Nodup) {c : κ}
    (h : (page key limit cursor rows).2 = some c) {r : ρ}
    (hr : r ∈ (remaining key cursor rows).drop limit) : key r < c := by
  obtain ⟨-, last, hlast, rfl⟩ := page_of_some h
  have hpw := remaining_pairwise cursor hnd
  rw [← List.take_append_drop limit (remaining key cursor rows), List.pairwise_append] at hpw
  exact hpw.2.2 last (List.mem_of_getLast? hlast) r hr

end Page

/-! ### Walks -/

section Walk

variable {key} {limit : ℕ} {cursor : Option κ}

lemma walk_of_none {rows : List ρ} {rest : List (List ρ)}
    (h : (page key limit cursor rows).2 = none) :
    walk key limit cursor (rows :: rest) = ([(page key limit cursor rows).1], true) := by
  rw [walk]
  split
  · rename_i p hp
    rw [hp]
  · rename_i p c hp
    rw [hp] at h
    exact absurd h (by simp)

lemma walk_of_some {rows : List ρ} {rest : List (List ρ)} {c : κ}
    (h : (page key limit cursor rows).2 = some c) :
    walk key limit cursor (rows :: rest) =
      ((page key limit cursor rows).1 :: (walk key limit (some c) rest).1,
        (walk key limit (some c) rest).2) := by
  rw [walk]
  split
  · rename_i p hp
    rw [hp] at h
    exact absurd h (by simp)
  · rename_i p c' hp
    rw [hp] at h ⊢
    obtain rfl : c' = c := Option.some.inj h
    rfl

/-- Every page holds at most `limit` rows. -/
theorem length_le_of_mem_walk {snapshots : List (List ρ)} {p : List ρ}
    (hp : p ∈ (walk key limit cursor snapshots).1) : p.length ≤ limit := by
  induction snapshots generalizing cursor with
  | nil => exact absurd hp List.not_mem_nil
  | cons rows rest ih =>
      cases hnext : (page key limit cursor rows).2 with
      | none =>
          rw [walk_of_none hnext, List.mem_singleton] at hp
          rw [hp]
          exact length_page_le
      | some c =>
          rw [walk_of_some hnext] at hp
          rcases List.mem_cons.1 hp with rfl | hp
          · exact length_page_le
          · exact ih hp

lemma Below.of_le {k k' : κ} (h : Below cursor k') (hle : k ≤ k') : Below cursor k := by
  cases cursor with
  | none => trivial
  | some c => exact lt_of_le_of_lt hle h

/-- The next cursor is itself below the cursor of the page. -/
lemma below_next {rows : List ρ} {c : κ} (h : (page key limit cursor rows).2 = some c) :
    Below cursor c := by
  obtain ⟨-, last, hlast, rfl⟩ := page_of_some h
  have hmem : last ∈ (page key limit cursor rows).1 := by
    rw [page_eq]
    exact List.mem_of_getLast? hlast
  exact below_of_mem_page hmem

/-- Over a whole walk the keys are strictly descending, and below the cursor it starts
with. -/
theorem walk_pairwise (limit : ℕ) (cursor : Option κ) {snapshots : List (List ρ)}
    (hnd : ∀ rows ∈ snapshots, (rows.map key).Nodup) :
    ((walk key limit cursor snapshots).1.flatten.Pairwise fun r r' => key r' < key r) ∧
      ∀ r ∈ (walk key limit cursor snapshots).1.flatten, Below cursor (key r) := by
  induction snapshots generalizing cursor with
  | nil => exact ⟨List.Pairwise.nil, fun r hr => absurd hr List.not_mem_nil⟩
  | cons rows rest ih =>
      obtain ⟨hrows, hrest⟩ := List.forall_mem_cons.1 hnd
      cases hnext : (page key limit cursor rows).2 with
      | none =>
          rw [walk_of_none hnext, List.flatten_singleton]
          exact ⟨page_pairwise limit cursor hrows, fun r => below_of_mem_page⟩
      | some c =>
          obtain ⟨hpw, hbelow⟩ := ih (some c) hrest
          rw [walk_of_some hnext, List.flatten_cons]
          constructor
          · refine List.pairwise_append.2 ⟨page_pairwise limit cursor hrows, hpw, ?_⟩
            intro r hr r' hr'
            exact lt_of_lt_of_le (hbelow r' hr') (next_le_of_mem_page hrows hnext hr)
          · intro r hr
            rcases List.mem_append.1 hr with hr | hr
            · exact below_of_mem_page hr
            · exact (below_next hnext).of_le (le_of_lt (hbelow r hr))

/-- A finished walk returns every key below its cursor that every snapshot it used has. -/
theorem mem_walk_of_forall {snapshots : List (List ρ)} (hlimit : 0 < limit)
    (hnd : ∀ rows ∈ snapshots, (rows.map key).Nodup)
    (hend : (walk key limit cursor snapshots).2 = true) {k : κ} (hk : Below cursor k)
    (hall : ∀ rows ∈ snapshots.take (walk key limit cursor snapshots).1.length,
      k ∈ rows.map key) :
    k ∈ (walk key limit cursor snapshots).1.flatten.map key := by
  induction snapshots generalizing cursor with
  | nil => exact absurd hend (by simp [walk])
  | cons rows rest ih =>
      obtain ⟨hrows, hrest⟩ := List.forall_mem_cons.1 hnd
      -- the row with the key is in what remains of this snapshot
      have hremains : ∃ r ∈ remaining key cursor rows, key r = k := by
        have hmem : k ∈ rows.map key := by
          refine hall rows ?_
          cases hnext : (page key limit cursor rows).2 with
          | none => simp [walk_of_none hnext]
          | some c => simp [walk_of_some hnext]
        obtain ⟨r, hr, rfl⟩ := List.mem_map.1 hmem
        exact ⟨r, mem_remaining.2 ⟨hr, hk⟩, rfl⟩
      obtain ⟨r, hr, rfl⟩ := hremains
      cases hnext : (page key limit cursor rows).2 with
      | none =>
          rw [walk_of_none hnext, List.flatten_singleton, (page_of_none hlimit hnext).1]
          exact List.mem_map_of_mem hr
      | some c =>
          rw [walk_of_some hnext] at hend hall ⊢
          rw [List.flatten_cons, List.map_append, List.mem_append]
          rw [← List.take_append_drop limit (remaining key cursor rows)] at hr
          rcases List.mem_append.1 hr with hr | hr
          · left
            rw [page_eq]
            exact List.mem_map_of_mem hr
          · right
            refine ih hrest hend (lt_next_of_mem_drop hrows hnext hr) fun rows' hrows' => ?_
            refine hall rows' ?_
            rw [List.length_cons, List.take_succ_cons]
            exact List.mem_cons_of_mem _ hrows'

end Walk

/-! ### A table that does not change -/

section Static

variable {key} {limit : ℕ} {cursor : Option κ} {rows : List ρ}

/-- What remains after a page is what remained before it without the page. -/
lemma remaining_next (hnd : (rows.map key).Nodup) {c : κ}
    (h : (page key limit cursor rows).2 = some c) :
    remaining key (some c) rows = (remaining key cursor rows).drop limit := by
  have hpw := remaining_pairwise cursor hnd
  refine eq_of_perm ?_ (remaining_pairwise (some c) hnd) (hpw.sublist (List.drop_sublist _ _))
  have hnodup : rows.Nodup := List.Nodup.of_map key hnd
  refine (List.perm_ext_iff_of_nodup ?_ ?_).2 fun r => ?_
  · exact descending_perm.nodup_iff.2 (hnodup.filter _)
  · exact (descending_perm.nodup_iff.2 (hnodup.filter _)).sublist (List.drop_sublist _ _)
  constructor
  · intro hr
    obtain ⟨hmem, hlt⟩ := mem_remaining.1 hr
    have hold : r ∈ remaining key cursor rows :=
      mem_remaining.2 ⟨hmem, (below_next h).of_le (le_of_lt hlt)⟩
    rw [← List.take_append_drop limit (remaining key cursor rows)] at hold
    refine (List.mem_append.1 hold).resolve_left fun htake => ?_
    -- the keys of the page are not below the next cursor
    have hle : c ≤ key r := next_le_of_mem_page hnd h (by rw [page_eq]; exact htake)
    exact absurd hlt (not_lt_of_ge hle)
  · intro hr
    have hold := mem_remaining.1 (List.mem_of_mem_drop hr)
    exact mem_remaining.2 ⟨hold.1, lt_next_of_mem_drop hnd h hr⟩

/-- The number of pages for `n` rows: one for each `limit` rows begun, and at least one. -/
def pages (limit n : ℕ) : ℕ := max 1 ((n + limit - 1) / limit)

lemma pages_of_le (hlimit : 0 < limit) {n : ℕ} (h : n ≤ limit) : pages limit n = 1 := by
  have : (n + limit - 1) / limit ≤ 1 := by
    rw [Nat.div_le_iff_le_mul_add_pred hlimit]
    omega
  rw [pages]
  omega

lemma pages_of_lt (hlimit : 0 < limit) {n : ℕ} (h : limit < n) :
    pages limit n = pages limit (n - limit) + 1 := by
  have hstep : (n + limit - 1) / limit = (n - limit + limit - 1) / limit + 1 := by
    rw [← Nat.add_div_right _ hlimit]
    congr 1
    omega
  have hpos : 1 ≤ (n - limit + limit - 1) / limit := by
    rw [Nat.one_le_div_iff hlimit]
    omega
  rw [pages, pages, hstep]
  omega

/-- On a table that does not change, the walk ends with the last page and its pages are the
sorted table. -/
theorem walk_replicate (cursor : Option κ) (hlimit : 0 < limit) (hnd : (rows.map key).Nodup)
    {m : ℕ} (hm : pages limit (remaining key cursor rows).length ≤ m) :
    (walk key limit cursor (List.replicate m rows)).2 = true ∧
      (walk key limit cursor (List.replicate m rows)).1.flatten = remaining key cursor rows ∧
      (walk key limit cursor (List.replicate m rows)).1.length =
        pages limit (remaining key cursor rows).length := by
  induction m generalizing cursor with
  | zero =>
      have : 1 ≤ pages limit (remaining key cursor rows).length := Nat.le_max_left _ _
      omega
  | succ m ih =>
      rw [List.replicate_succ]
      cases hnext : (page key limit cursor rows).2 with
      | none =>
          obtain ⟨hpage, hlen⟩ := page_of_none hlimit hnext
          rw [walk_of_none hnext, pages_of_le hlimit hlen]
          exact ⟨rfl, by rw [List.flatten_singleton, hpage], rfl⟩
      | some c =>
          obtain ⟨hlen, -⟩ := page_of_some hnext
          have hcount := pages_of_lt hlimit hlen
          have hdrop := remaining_next hnd hnext
          have hrest : (remaining key (some c) rows).length =
              (remaining key cursor rows).length - limit := by
            rw [hdrop, List.length_drop]
          obtain ⟨hend, hflat, hpages⟩ := ih (some c) (by rw [hrest]; omega)
          rw [walk_of_some hnext]
          refine ⟨hend, ?_, ?_⟩
          · rw [List.flatten_cons, hflat, hdrop, page_eq, List.take_append_drop]
          · rw [List.length_cons, hpages, hrest, hcount]

end Static

end Keyset

end Cellora
