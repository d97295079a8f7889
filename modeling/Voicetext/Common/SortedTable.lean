import Mathlib.Algebra.GroupWithZero.Nat
import Mathlib.Data.List.Basic
import Mathlib.Order.Lattice

/-!
# Tables kept in key order

A table is a list of rows whose keys strictly increase, so a key names at most one row and every
scan of the table is ordered. Lookup, upsert and deletion are the operations the stores need;
each has one specification lemma, and later proofs use those instead of the list representation.
-/

namespace Voicetext.Common

variable {K V : Type*} [LinearOrder K] {key : V → K}

/-- Rows in strictly increasing order of their keys. -/
structure SortedTable {K V : Type*} [LinearOrder K] (key : V → K) where
  rows : List V
  sorted : rows.Pairwise fun a b => key a < key b

namespace SortedTable

/-- The table with no rows. -/
def empty : SortedTable key := ⟨[], .nil⟩

/-- The row stored under a key. -/
def lookup (table : SortedTable key) (k : K) : Option V := table.rows.find? fun v => key v = k

/-- Place a row at its position in key order, replacing the row which has the same key. -/
def putRow (key : V → K) (v : V) : List V → List V
  | [] => [v]
  | a :: rest =>
    if key v < key a then v :: a :: rest
    else if key a < key v then a :: putRow key v rest
    else v :: rest

/-- Every row after an upsert is the new row or an old one. -/
theorem mem_putRow {v w : V} {rows : List V} (h : w ∈ putRow key v rows) : w = v ∨ w ∈ rows := by
  induction rows with
  | nil => simpa [putRow] using h
  | cons a rest ih =>
    simp only [putRow] at h
    split at h
    · simpa using h
    · split at h
      · rcases List.mem_cons.mp h with rfl | hrest
        · simp
        · rcases ih hrest with rfl | hmem
          · simp
          · simp [hmem]
      · rcases List.mem_cons.mp h with rfl | hrest
        · simp
        · simp [hrest]

/-- An upsert keeps the rows in key order. -/
theorem putRow_sorted {v : V} {rows : List V} (h : rows.Pairwise fun a b => key a < key b) :
    (putRow key v rows).Pairwise fun a b => key a < key b := by
  induction rows with
  | nil => simp [putRow]
  | cons a rest ih =>
    obtain ⟨hhead, htail⟩ := List.pairwise_cons.mp h
    simp only [putRow]
    split
    · rename_i hlt
      refine List.pairwise_cons.mpr ⟨fun b hb => ?_, h⟩
      rcases List.mem_cons.mp hb with rfl | hb
      · exact hlt
      · exact hlt.trans (hhead b hb)
    · rename_i hnlt
      split
      · rename_i hgt
        refine List.pairwise_cons.mpr ⟨fun b hb => ?_, ih htail⟩
        rcases mem_putRow hb with rfl | hb
        · exact hgt
        · exact hhead b hb
      · rename_i hngt
        have heq : key v = key a := le_antisymm (not_lt.mp hngt) (not_lt.mp hnlt)
        exact List.pairwise_cons.mpr ⟨fun b hb => heq ▸ hhead b hb, htail⟩

/-- Store a row under its key. -/
def put (table : SortedTable key) (v : V) : SortedTable key :=
  ⟨putRow key v table.rows, putRow_sorted table.sorted⟩

/-- Delete the row stored under a key. -/
def erase (table : SortedTable key) (k : K) : SortedTable key :=
  ⟨table.rows.filter fun v => key v ≠ k, table.sorted.filter _⟩

@[simp] theorem lookup_empty (k : K) : (empty : SortedTable key).lookup k = none := rfl

/-- A looked-up row has the key it was looked up by. -/
theorem key_of_lookup {table : SortedTable key} {k : K} {v : V} (h : table.lookup k = some v) :
    key v = k := by
  simpa using List.find?_some h

theorem mem_of_lookup {table : SortedTable key} {k : K} {v : V} (h : table.lookup k = some v) :
    v ∈ table.rows := List.mem_of_find?_eq_some h

/-- In an ordered list the first row with a key is the only one. -/
private theorem find_eq_of_mem {rows : List V} (h : rows.Pairwise fun a b => key a < key b) {v : V}
    (hv : v ∈ rows) : rows.find? (fun w => decide (key w = key v)) = some v := by
  induction rows with
  | nil => simp at hv
  | cons a rest ih =>
    obtain ⟨hhead, htail⟩ := List.pairwise_cons.mp h
    rcases List.mem_cons.mp hv with rfl | hv
    · simp
    · have hne : key a ≠ key v := (hhead v hv).ne
      simpa [List.find?_cons, hne] using ih htail hv

/-- Every row of the table is found under its own key. -/
theorem lookup_of_mem {table : SortedTable key} {v : V} (h : v ∈ table.rows) :
    table.lookup (key v) = some v := find_eq_of_mem table.sorted h

/-- Lookup and membership are the same relation. -/
theorem lookup_eq_some_iff {table : SortedTable key} {k : K} {v : V} :
    table.lookup k = some v ↔ v ∈ table.rows ∧ key v = k := by
  constructor
  · exact fun h => ⟨mem_of_lookup h, key_of_lookup h⟩
  · rintro ⟨hmem, rfl⟩
    exact lookup_of_mem hmem

private theorem find_putRow (v : V) (k : K) (rows : List V)
    (h : rows.Pairwise fun a b => key a < key b) :
    (putRow key v rows).find? (fun w => decide (key w = k)) =
      if k = key v then some v else rows.find? fun w => decide (key w = k) := by
  induction rows with
  | nil =>
    by_cases hk : key v = k
    · simp [putRow, hk]
    · simp [putRow, hk, Ne.symm hk]
  | cons a rest ih =>
    obtain ⟨hhead, htail⟩ := List.pairwise_cons.mp h
    simp only [putRow]
    split
    · by_cases hk : key v = k
      · simp [hk]
      · simp [hk, Ne.symm hk, List.find?_cons]
    · split
      · rename_i hgt
        by_cases hk : key a = k
        · have hne : k ≠ key v := fun hkv => by rw [hk, hkv] at hgt; exact lt_irrefl _ hgt
          simp [hk, hne]
        · simp only [List.find?_cons, decide_eq_false hk, ih htail]
      · rename_i hnlt hngt
        have heq : key v = key a := le_antisymm (not_lt.mp hngt) (not_lt.mp hnlt)
        by_cases hk : key v = k
        · simp [hk]
        · have hka : ¬ key a = k := fun h' => hk (heq.trans h')
          simp [hk, hka, Ne.symm hk]

/-- An upsert changes the lookup of its own key only. -/
theorem lookup_put (table : SortedTable key) (v : V) (k : K) :
    (table.put v).lookup k = if k = key v then some v else table.lookup k :=
  find_putRow v k table.rows table.sorted

@[simp] theorem lookup_put_self (table : SortedTable key) (v : V) :
    (table.put v).lookup (key v) = some v := by
  simp [lookup_put]

/-- A deletion changes the lookup of its own key only. -/
theorem lookup_erase (table : SortedTable key) (k k' : K) :
    (table.erase k).lookup k' = if k' = k then none else table.lookup k' := by
  unfold lookup erase
  simp only [List.find?_filter]
  by_cases hk : k' = k
  · subst hk
    simp
  · simp only [if_neg hk]
    congr 1
    funext v
    by_cases hv : key v = k'
    · simp [hv, hk]
    · simp [hv]

/-- Replacing a row that is present rewrites that row in place. -/
theorem rows_put_of_mem (table : SortedTable key) {v old : V} (hmem : old ∈ table.rows)
    (hkey : key v = key old) :
    (table.put v).rows = table.rows.map fun w => if key w = key v then v else w := by
  have hput : ∀ rows : List V, rows.Pairwise (fun a b => key a < key b) → old ∈ rows →
      putRow key v rows = rows.map fun w => if key w = key v then v else w := by
    intro rows hsorted
    induction rows with
    | nil => simp
    | cons a rest ih =>
      intro hold
      obtain ⟨hhead, htail⟩ := List.pairwise_cons.mp hsorted
      simp only [putRow, List.map_cons]
      rcases List.mem_cons.mp hold with rfl | hold
      · have hrest : rest.map (fun w => if key w = key v then v else w) = rest := by
          conv_rhs => rw [← List.map_id rest]
          refine List.map_congr_left fun w hw => if_neg fun hw' => ?_
          exact (hhead w hw).ne (hkey.symm.trans hw'.symm)
        rw [if_neg (hkey ▸ lt_irrefl _), if_neg (hkey ▸ lt_irrefl _), if_pos hkey.symm, hrest]
      · have hlt : key a < key v := hkey ▸ hhead old hold
        rw [if_neg hlt.not_gt, if_pos hlt, if_neg hlt.ne, ih htail hold]
  exact hput table.rows table.sorted hmem

/-- A row stored under a free key is one more row. -/
theorem perm_put_of_absent (table : SortedTable key) {v : V} (h : table.lookup (key v) = none) :
    (table.put v).rows.Perm (v :: table.rows) := by
  have hput : ∀ rows : List V, (∀ w ∈ rows, key w ≠ key v) → (putRow key v rows).Perm (v :: rows) := by
    intro rows
    induction rows with
    | nil => simp [putRow]
    | cons a rest ih =>
      intro hfree
      obtain ⟨ha, hrest⟩ := List.forall_mem_cons.mp hfree
      simp only [putRow]
      split
      · exact .refl _
      · rename_i hnlt
        rw [if_pos (lt_of_le_of_ne (not_lt.mp hnlt) ha)]
        exact ((ih hrest).cons a).trans (.swap v a rest)
  refine hput table.rows fun w hw heq => ?_
  rw [← heq, lookup_of_mem hw] at h
  cases h

/-- Deleting a free key changes nothing. -/
theorem rows_erase_of_absent (table : SortedTable key) {k : K} (h : table.lookup k = none) :
    (table.erase k).rows = table.rows := by
  refine List.filter_eq_self.mpr fun v hv => ?_
  refine decide_eq_true fun heq => ?_
  rw [← heq, lookup_of_mem hv] at h
  cases h

/-- The rows of a table are the row under a key and those which its deletion leaves. -/
theorem perm_erase_of_lookup (table : SortedTable key) {k : K} {v : V} (h : table.lookup k = some v) :
    table.rows.Perm (v :: (table.erase k).rows) := by
  have herase : ∀ rows : List V, rows.Pairwise (fun a b => key a < key b) → v ∈ rows →
      rows.Perm (v :: rows.filter fun w => key w ≠ key v) := by
    intro rows hsorted
    induction rows with
    | nil => simp
    | cons a rest ih =>
      intro hv
      obtain ⟨hhead, htail⟩ := List.pairwise_cons.mp hsorted
      rcases List.mem_cons.mp hv with rfl | hv
      · have hrest : rest.filter (fun w => key w ≠ key v) = rest :=
          List.filter_eq_self.mpr fun w hw => decide_eq_true (hhead w hw).ne'
        simpa using (congrArg (v :: ·) hrest.symm).subst (List.Perm.refl (v :: rest))
      · have hne : key a ≠ key v := (hhead v hv).ne
        rw [List.filter_cons_of_pos (by simpa using hne)]
        exact ((ih htail hv).cons a).trans (.swap v a _)
  obtain ⟨hmem, rfl⟩ := lookup_eq_some_iff.mp h
  exact herase table.rows table.sorted hmem

/-- What the rows of a table add up to is what the row under a key counts and what the others add up to. -/
theorem sum_erase (table : SortedTable key) (weight : V → ℕ) (k : K) :
    (table.rows.map weight).sum =
      ((table.erase k).rows.map weight).sum + (table.lookup k).elim 0 weight := by
  cases h : table.lookup k with
  | none => rw [table.rows_erase_of_absent h, Option.elim_none, Nat.add_zero]
  | some v =>
    rw [((table.perm_erase_of_lookup h).map weight).sum_nat, List.map_cons, List.sum_cons, Option.elim_some,
      Nat.add_comm]

/-- Every key of an ordered list is at most the last one. -/
theorem le_getLast {rows : List V} (h : rows.Pairwise fun a b => key a < key b) {v last : V}
    (hv : v ∈ rows) (hlast : rows.getLast? = some last) : key v ≤ key last := by
  obtain ⟨front, rfl⟩ := List.getLast?_eq_some_iff.mp hlast
  rcases List.mem_append.mp hv with hfront | hend
  · exact ((List.pairwise_append.mp h).2.2 v hfront last (by simp)).le
  · rw [List.mem_singleton.mp hend]

/-- The rows beyond the last key of a prefix are exactly the rows the prefix leaves over. -/
theorem filter_beyond {done rest : List V} (h : (done ++ rest).Pairwise fun a b => key a < key b) :
    (done ++ rest).filter (fun v => done.getLast?.all fun last => decide (key last < key v)) = rest := by
  obtain ⟨hdone, _, hbetween⟩ := List.pairwise_append.mp h
  cases hlast : done.getLast? with
  | none =>
    obtain rfl := List.getLast?_eq_none_iff.mp hlast
    simp
  | some last =>
    rw [List.filter_append, List.filter_eq_nil_iff.mpr fun v hv => ?_,
      List.filter_eq_self.mpr fun v hv => ?_, List.nil_append]
    · simpa using hbetween last (List.mem_of_getLast? hlast) v hv
    · simpa using le_getLast hdone hv hlast

end SortedTable

end Voicetext.Common
