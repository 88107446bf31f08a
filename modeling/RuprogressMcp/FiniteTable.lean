import Mathlib.Data.List.AList
import Mathlib.Tactic

/-!
# Finite tables with deadlines

A table is Mathlib's `AList` at a constant value type.  This module adds the
two operations of a hash map that `AList` lacks, filtering by a predicate and
counting, together with the sweep of a table whose values carry a deadline.
Every operation is described by its effect on `lookup`, so that later proofs
never look at the underlying list.
-/

/-- A finite map from `K` to `V` without duplicate keys. -/
abbrev Table (K V : Type) : Type := AList fun _ : K => V

namespace Table

variable {K V : Type} [DecidableEq K]

/-- Keep the entries that satisfy the predicate. -/
def retain (keep : K → V → Bool) (table : Table K V) : Table K V where
  entries := table.entries.filter fun entry => keep entry.1 entry.2
  nodupKeys := table.nodupKeys.sublist List.filter_sublist

def len (table : Table K V) : ℕ := table.entries.length

/-- Apply a function to the value stored under one key, if there is one. -/
def modify (key : K) (f : V → V) (table : Table K V) : Table K V :=
  match table.lookup key with
  | some value => table.insert key (f value)
  | none => table

theorem mem_iff_lookup {table : Table K V} {key : K} :
    key ∈ table ↔ ∃ value, table.lookup key = some value := by
  rw [← AList.lookup_isSome, Option.isSome_iff_exists]

theorem mem_of_lookup
    {table : Table K V} {key : K} {value : V}
    (hlookup : table.lookup key = some value) : key ∈ table :=
  mem_iff_lookup.mpr ⟨value, hlookup⟩

theorem lookup_eq_some_iff_mem_entries
    {table : Table K V} {key : K} {value : V} :
    table.lookup key = some value ↔ ⟨key, value⟩ ∈ table.entries := by
  rw [← Option.mem_def, AList.mem_lookup_iff]

theorem lookup_retain_eq_some
    {keep : K → V → Bool} {table : Table K V} {key : K} {value : V} :
    (table.retain keep).lookup key = some value ↔
      table.lookup key = some value ∧ keep key value = true := by
  rw [lookup_eq_some_iff_mem_entries, lookup_eq_some_iff_mem_entries]
  exact List.mem_filter

theorem lookup_insert_iff
    {table : Table K V} {key other : K} {value found : V} :
    (table.insert key value).lookup other = some found ↔
      (other = key ∧ found = value) ∨
        (other ≠ key ∧ table.lookup other = some found) := by
  by_cases heq : other = key
  · subst heq
    simp [AList.lookup_insert, eq_comm]
  · simp [AList.lookup_insert_ne heq, heq]

theorem lookup_erase_iff
    {table : Table K V} {key other : K} {found : V} :
    (table.erase key).lookup other = some found ↔
      other ≠ key ∧ table.lookup other = some found := by
  by_cases heq : other = key
  · subst heq
    simp [AList.lookup_erase]
  · simp [AList.lookup_erase_ne heq, heq]

theorem lookup_modify_iff
    {table : Table K V} {key other : K} {f : V → V} {found : V} :
    (table.modify key f).lookup other = some found ↔
      (other = key ∧ ∃ value, table.lookup key = some value ∧
        found = f value) ∨
        (other ≠ key ∧ table.lookup other = some found) := by
  unfold modify
  cases hlookup : table.lookup key with
  | none =>
      by_cases heq : other = key
      · subst heq
        simp [hlookup]
      · simp [heq]
  | some value =>
      simp [lookup_insert_iff]

theorem mem_retain_of_mem
    {keep : K → V → Bool} {table : Table K V} {key : K}
    (hmem : key ∈ table.retain keep) : key ∈ table := by
  obtain ⟨value, hvalue⟩ := mem_iff_lookup.mp hmem
  exact mem_of_lookup (lookup_retain_eq_some.mp hvalue).1

theorem mem_modify
    {table : Table K V} {key other : K} {f : V → V} :
    other ∈ table.modify key f ↔ other ∈ table := by
  unfold modify
  cases hlookup : table.lookup key with
  | none => rfl
  | some value =>
      rw [AList.mem_insert]
      constructor
      · rintro (heq | hmem)
        · subst heq
          exact mem_of_lookup hlookup
        · exact hmem
      · exact Or.inr

/-! ## Sizes -/

omit [DecidableEq K] in
theorem len_eq_length_keys (table : Table K V) :
    table.len = table.keys.length := by
  simp [len, AList.keys, List.keys]

omit [DecidableEq K] in
theorem len_le_of_subset
    {W : Type} {small : Table K V} {large : Table K W}
    (hsubset : ∀ key ∈ small, key ∈ large) : small.len ≤ large.len := by
  rw [len_eq_length_keys, len_eq_length_keys]
  have hkeys : small.keys ⊆ large.keys := by
    intro key hkey
    exact AList.mem_keys.mp (hsubset key (AList.mem_keys.mpr hkey))
  exact (List.subperm_of_subset small.keys_nodup hkeys).length_le

omit [DecidableEq K] in
theorem len_retain_le (keep : K → V → Bool) (table : Table K V) :
    (table.retain keep).len ≤ table.len :=
  List.length_filter_le _ _

theorem len_erase_le (key : K) (table : Table K V) :
    len (table.erase key) ≤ table.len :=
  len_le_of_subset fun _ hmem => (AList.mem_erase.mp hmem).2

theorem len_erase_of_mem
    {key : K} {table : Table K V} (hmem : key ∈ table) :
    len (table.erase key) + 1 = table.len := by
  rw [len_eq_length_keys, len_eq_length_keys, AList.keys_erase,
    List.length_erase_of_mem (AList.mem_keys.mp hmem)]
  have hpositive : 0 < table.keys.length :=
    List.length_pos_of_mem (AList.mem_keys.mp hmem)
  omega

omit [DecidableEq K] in
theorem retain_eq_of_len
    {keep : K → V → Bool} {table : Table K V}
    (hlen : (table.retain keep).len = table.len) :
    table.retain keep = table := by
  apply AList.ext
  exact List.filter_eq_self.mpr
    (List.length_filter_eq_length_iff.mp hlen)

theorem len_insert_of_mem
    {key : K} {table : Table K V} (hmem : key ∈ table) (value : V) :
    len (table.insert key value) ≤ table.len := by
  apply len_le_of_subset
  intro other hother
  rcases (AList.mem_insert _).mp hother with rfl | hold
  · exact hmem
  · exact hold

theorem len_insert_le (key : K) (value : V) (table : Table K V) :
    len (table.insert key value) ≤ table.len + 1 := by
  by_cases hmem : key ∈ table
  · exact Nat.le_succ_of_le (len_insert_of_mem hmem value)
  · rw [len, AList.entries_insert_of_notMem hmem, List.length_cons, len]

/-! ## Deadlines -/

/-- Drop every entry whose deadline has been reached. -/
def sweep (now : ℕ) (table : Table K (V × ℕ)) : Table K (V × ℕ) :=
  table.retain fun _ entry => decide (now < entry.2)

theorem lookup_sweep_iff
    {now : ℕ} {table : Table K (V × ℕ)} {key : K} {entry : V × ℕ} :
    (table.sweep now).lookup key = some entry ↔
      table.lookup key = some entry ∧ now < entry.2 := by
  rw [sweep, lookup_retain_eq_some, decide_eq_true_iff]

theorem mem_of_mem_sweep
    {now : ℕ} {table : Table K (V × ℕ)} {key : K}
    (hmem : key ∈ table.sweep now) : key ∈ table :=
  mem_retain_of_mem hmem

end Table
