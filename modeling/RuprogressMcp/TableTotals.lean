import RuprogressMcp.FiniteTable

/-!
# Totals over a finite table

The sum of a weight over the values of a table.  Inserting and erasing move
one value in or out of the total, and a table whose values are each paid for
by a different value of two other tables weighs no more than these together.
-/

namespace Table

variable {K V : Type} [DecidableEq K]

/-- The sum of the weights of all values. -/
def total (weight : V → ℕ) (table : Table K V) : ℕ :=
  (table.entries.map fun entry => weight entry.2).sum

omit [DecidableEq K] in
@[simp] theorem total_empty (weight : V → ℕ) :
    total weight (∅ : Table K V) = 0 := rfl

theorem total_congr
    {first second : Table K V} (weight : V → ℕ)
    (hlookup : ∀ key, first.lookup key = second.lookup key) :
    first.total weight = second.total weight := by
  have hperm : first.entries.Perm second.entries := by
    apply List.lookup_ext first.nodupKeys second.nodupKeys
    intro key value
    have hkey : first.entries.dlookup key = second.entries.dlookup key := hlookup key
    rw [hkey]
  exact (hperm.map _).sum_eq

theorem total_insert
    (weight : V → ℕ) (key : K) (value : V) (table : Table K V) :
    total weight (table.insert key value) =
      weight value + total weight (table.erase key) := by
  rw [total, AList.entries_insert, List.map_cons, List.sum_cons]
  rfl

theorem total_erase
    {key : K} {value : V} {table : Table K V} (weight : V → ℕ)
    (hlookup : table.lookup key = some value) :
    table.total weight = weight value + total weight (table.erase key) := by
  have hsame : ∀ other,
      ((table.erase key).insert key value).lookup other = table.lookup other := by
    intro other
    by_cases heq : other = key
    · rw [heq, AList.lookup_insert, hlookup]
    · rw [AList.lookup_insert_ne heq, AList.lookup_erase_ne heq]
  have htwice : ∀ other,
      ((table.erase key).erase key).lookup other = (table.erase key).lookup other := by
    intro other
    by_cases heq : other = key
    · rw [heq, AList.lookup_erase, AList.lookup_erase]
    · rw [AList.lookup_erase_ne heq]
  rw [← total_congr weight hsame, total_insert, total_congr weight htwice]

theorem total_erase_of_none
    {key : K} {table : Table K V} (weight : V → ℕ)
    (hlookup : table.lookup key = none) :
    total weight (table.erase key) = table.total weight := by
  apply total_congr
  intro other
  by_cases heq : other = key
  · rw [heq, AList.lookup_erase, hlookup]
  · rw [AList.lookup_erase_ne heq]

theorem total_insert_of_none
    {key : K} {table : Table K V} (weight : V → ℕ) (value : V)
    (hlookup : table.lookup key = none) :
    total weight (table.insert key value) = weight value + table.total weight := by
  rw [total_insert, total_erase_of_none weight hlookup]

theorem total_replace
    {key : K} {old : V} {table : Table K V} (weight : V → ℕ) (new : V)
    (hlookup : table.lookup key = some old) :
    total weight (table.insert key new) + weight old =
      table.total weight + weight new := by
  rw [total_insert, total_erase weight hlookup]
  omega

theorem weight_le_total
    {key : K} {value : V} {table : Table K V} (weight : V → ℕ)
    (hlookup : table.lookup key = some value) :
    weight value ≤ table.total weight := by
  rw [total_erase weight hlookup]
  exact Nat.le_add_right _ _

theorem total_erase_le
    (weight : V → ℕ) (key : K) (table : Table K V) :
    total weight (table.erase key) ≤ table.total weight := by
  cases hlookup : table.lookup key with
  | none => exact le_of_eq (total_erase_of_none weight hlookup)
  | some value =>
      rw [total_erase weight hlookup]
      exact Nat.le_add_left _ _

theorem total_insert_le
    (weight : V → ℕ) (key : K) (value : V) (table : Table K V) :
    total weight (table.insert key value) ≤ weight value + table.total weight := by
  rw [total_insert]
  exact Nat.add_le_add_left (total_erase_le weight key table) _

/-! ## Paying for a table -/

/-- A table is paid for when every value with a weight is matched by an owner
that names its key, or by a share stored under its key. -/
def PaidBy {T O S : Type} [DecidableEq T]
    (weight : V → ℕ) (names : O → K → Prop) (owned : O → ℕ) (shared : S → ℕ)
    (table : Table K V) (owners : Table T O) (shares : Table K S) : Prop :=
  ∀ key value, table.lookup key = some value →
    weight value = 0 ∨
      (∃ id owner, owners.lookup id = some owner ∧ names owner key ∧
        weight value ≤ owned owner) ∨
      ∃ share, shares.lookup key = some share ∧ weight value ≤ shared share

variable {T O S : Type} [DecidableEq T]
  {weight : V → ℕ} {names : O → K → Prop} {owned : O → ℕ} {shared : S → ℕ}

theorem PaidBy.total_le
    (hnames : ∀ owner first second, names owner first → names owner second →
      first = second)
    {table : Table K V} {owners : Table T O} {shares : Table K S}
    (hpaid : PaidBy weight names owned shared table owners shares) :
    table.total weight ≤ owners.total owned + shares.total shared := by
  induction table using AList.insertRec generalizing owners shares with
  | H0 => simp
  | IH key value rest hnotMem ih =>
      have hnone : rest.lookup key = none := AList.lookup_eq_none.mpr hnotMem
      have hrest : PaidBy weight names owned shared rest owners shares := by
        intro other found hfound
        have hne : other ≠ key := by
          rintro rfl
          rw [hnone] at hfound
          cases hfound
        apply hpaid other found
        rw [AList.lookup_insert_ne hne, hfound]
      have hkeys : ∀ other found, rest.lookup other = some found → other ≠ key := by
        rintro other found hfound rfl
        rw [hnone] at hfound
        cases hfound
      rw [total_insert_of_none weight value hnone]
      obtain hzero | ⟨id, owner, howner, hname, hle⟩ | ⟨share, hshare, hle⟩ :=
        hpaid key value (AList.lookup_insert _)
      · rw [hzero, Nat.zero_add]
        exact ih hrest
      · have herased :
            PaidBy weight names owned shared rest (owners.erase id) shares := by
          intro other found hfound
          obtain hzero | ⟨id', owner', howner', hname', hle'⟩ | hshared :=
            hrest other found hfound
          · exact Or.inl hzero
          · refine Or.inr (Or.inl ⟨id', owner', ?_, hname', hle'⟩)
            refine lookup_erase_iff.mpr ⟨?_, howner'⟩
            rintro rfl
            rw [howner] at howner'
            cases howner'
            exact hkeys other found hfound (hnames owner _ _ hname' hname)
          · exact Or.inr (Or.inr hshared)
        have hih := ih herased
        rw [total_erase owned howner]
        omega
      · have herased :
            PaidBy weight names owned shared rest owners (shares.erase key) := by
          intro other found hfound
          obtain hzero | howned | ⟨share', hshare', hle'⟩ := hrest other found hfound
          · exact Or.inl hzero
          · exact Or.inr (Or.inl howned)
          · refine Or.inr (Or.inr ⟨share', ?_, hle'⟩)
            exact lookup_erase_iff.mpr ⟨hkeys other found hfound, hshare'⟩
        have hih := ih herased
        rw [total_erase shared hshare]
        omega

end Table
