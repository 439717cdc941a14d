import Mathlib.Order.Basic
import Mathlib.Order.Lattice
import Mathlib.Data.List.Basic
import Mathlib.Data.List.Dedup
import Mathlib.Data.List.Induction
import Mathlib.Tactic.Common

/-!
# Counting by insertion into a sorted list

A tally is a list of keys with counts. `tally` counts one more occurrence of a key: it walks the
list up to the first key that is not smaller, raises the count there when the key is the same, and
otherwise inserts the key with count one before it, or at the end. `tallyAll` does so for every
element of a list, oldest first, starting from the empty tally.

The walk stops at the first greater key, so the counts are right only on a list whose keys are
strictly increasing, and `sortedKeys_tally` keeps them so. `sortedKeys_tallyAll`,
`mem_keys_tallyAll` and `count_of_mem_tallyAll` put the steps together: the keys of the final tally
are strictly increasing, they are exactly the elements of the list, and each count is the number of
occurrences.
-/

set_option autoImplicit false
set_option relaxedAutoImplicit false

namespace Apes.Library

variable {α : Type*} [LinearOrder α]

/-- Counts one more occurrence of a key. -/
def tally (key : α) : List (α × ℕ) → List (α × ℕ)
  | [] => [(key, 1)]
  | entry :: rest =>
    if entry.1 = key then (entry.1, entry.2 + 1) :: rest
    else if key < entry.1 then (key, 1) :: entry :: rest
    else entry :: tally key rest

/-- Counts every element of a list, oldest first. -/
def tallyAll (keys : List α) : List (α × ℕ) :=
  keys.foldl (fun entries key ↦ tally key entries) []

/-- The keys of a tally are strictly increasing. -/
def SortedKeys (entries : List (α × ℕ)) : Prop :=
  entries.Pairwise fun first second ↦ first.1 < second.1

/-- The keys after a step are the old keys and the key counted. -/
theorem mem_keys_tally {key other : α} (entries : List (α × ℕ)) :
    other ∈ (tally key entries).map Prod.fst ↔ other = key ∨ other ∈ entries.map Prod.fst := by
  induction entries with
  | nil => simp [tally]
  | cons entry rest ih =>
    by_cases heq : entry.1 = key
    · simp [tally, heq]
    · by_cases hlt : key < entry.1
      · simp [tally, heq, hlt]
      · simp only [tally, if_neg heq, if_neg hlt, List.map_cons, List.mem_cons, ih]
        tauto

/-- A step keeps the keys strictly increasing. -/
theorem sortedKeys_tally {key : α} {entries : List (α × ℕ)} (hsorted : SortedKeys entries) :
    SortedKeys (tally key entries) := by
  induction entries with
  | nil => exact List.pairwise_singleton _ _
  | cons entry rest ih =>
    obtain ⟨hhead, hrest⟩ := List.pairwise_cons.mp hsorted
    by_cases heq : entry.1 = key
    · rw [tally, if_pos heq]
      exact List.pairwise_cons.mpr ⟨hhead, hrest⟩
    · by_cases hlt : key < entry.1
      · rw [tally, if_neg heq, if_pos hlt]
        refine List.pairwise_cons.mpr ⟨fun later hlater ↦ ?_, hsorted⟩
        rcases List.mem_cons.mp hlater with rfl | hmem
        · exact hlt
        · exact hlt.trans (hhead later hmem)
      · rw [tally, if_neg heq, if_neg hlt]
        refine List.pairwise_cons.mpr ⟨fun later hlater ↦ ?_, ih hrest⟩
        rcases (mem_keys_tally rest).mp (List.mem_map_of_mem hlater) with hkey | hold
        · rw [hkey]
          exact lt_of_le_of_ne (not_lt.mp hlt) heq
        · obtain ⟨old, hmem, hsame⟩ := List.mem_map.mp hold
          rw [← hsame]
          exact hhead old hmem

/-- In a tally with strictly increasing keys a key in front of the first one is not in it. -/
theorem not_mem_keys_of_lt {key : α} {entry : α × ℕ} {rest : List (α × ℕ)}
    (hsorted : SortedKeys (entry :: rest)) (hlt : key < entry.1) :
    key ∉ (entry :: rest).map Prod.fst := by
  intro hmem
  obtain ⟨other, hother, rfl⟩ := List.mem_map.mp hmem
  rcases List.mem_cons.mp hother with rfl | hlater
  · exact lt_irrefl _ hlt
  · exact lt_asymm hlt ((List.pairwise_cons.mp hsorted).1 other hlater)

/-- A step adds an entry when the key is new. -/
theorem length_tally (key : α) {entries : List (α × ℕ)} (hsorted : SortedKeys entries) :
    (tally key entries).length =
      entries.length + if key ∈ entries.map Prod.fst then 0 else 1 := by
  induction entries with
  | nil => rfl
  | cons entry rest ih =>
    by_cases heq : entry.1 = key
    · have hmem : key ∈ (entry :: rest).map Prod.fst := heq ▸ List.mem_cons_self
      rw [tally, if_pos heq, if_pos hmem]
      rfl
    · by_cases hlt : key < entry.1
      · rw [tally, if_neg heq, if_pos hlt, if_neg (not_mem_keys_of_lt hsorted hlt)]
        rfl
      · have hmem : key ∈ (entry :: rest).map Prod.fst ↔ key ∈ rest.map Prod.fst := by
          rw [List.map_cons, List.mem_cons, or_iff_right (Ne.symm heq)]
        rw [tally, if_neg heq, if_neg hlt, List.length_cons, List.length_cons,
          ih (List.pairwise_cons.mp hsorted).2]
        simp only [hmem]
        omega

/-- The count a tally holds for a key, zero when it does not hold it. -/
def countOf (key : α) : List (α × ℕ) → ℕ
  | [] => 0
  | entry :: rest => (if entry.1 = key then entry.2 else 0) + countOf key rest

/-- A step raises the count of the key by one and no other. -/
theorem countOf_tally (key other : α) (entries : List (α × ℕ)) :
    countOf other (tally key entries) = countOf other entries + if key = other then 1 else 0 := by
  induction entries with
  | nil => simp [tally, countOf]
  | cons entry rest ih =>
    by_cases heq : entry.1 = key
    · rw [tally, if_pos heq, countOf, countOf, heq]
      split_ifs <;> omega
    · by_cases hlt : key < entry.1
      · rw [tally, if_neg heq, if_pos hlt, countOf]
        exact Nat.add_comm _ _
      · rw [tally, if_neg heq, if_neg hlt, countOf, countOf, ih]
        omega

/-- A key that is not in the tally has count zero. -/
theorem countOf_eq_zero {key : α} {entries : List (α × ℕ)}
    (habsent : ∀ entry ∈ entries, entry.1 ≠ key) : countOf key entries = 0 := by
  induction entries with
  | nil => rfl
  | cons entry rest ih =>
    rw [countOf, if_neg (habsent entry List.mem_cons_self),
      ih fun later hlater ↦ habsent later (List.mem_cons_of_mem entry hlater)]

/-- In a tally with strictly increasing keys every entry carries the count of its key. -/
theorem countOf_of_mem {entries : List (α × ℕ)} (hsorted : SortedKeys entries) {entry : α × ℕ}
    (hmem : entry ∈ entries) : countOf entry.1 entries = entry.2 := by
  induction entries with
  | nil => simp at hmem
  | cons head rest ih =>
    obtain ⟨hhead, hrest⟩ := List.pairwise_cons.mp hsorted
    rcases List.mem_cons.mp hmem with rfl | hlater
    · rw [countOf, if_pos rfl, countOf_eq_zero fun later hlater ↦ (hhead later hlater).ne',
        Nat.add_zero]
    · rw [countOf, if_neg (hhead entry hlater).ne, ih hrest hlater, Nat.zero_add]

/-- The tally of a list extended by one element. -/
theorem tallyAll_append_singleton (keys : List α) (key : α) :
    tallyAll (keys ++ [key]) = tally key (tallyAll keys) := by
  rw [tallyAll, List.foldl_append]
  rfl

/-- The keys of the final tally are strictly increasing. -/
theorem sortedKeys_tallyAll (keys : List α) : SortedKeys (tallyAll keys) := by
  induction keys using List.reverseRecOn with
  | nil => exact .nil
  | append_singleton keys key ih =>
    rw [tallyAll_append_singleton]
    exact sortedKeys_tally ih

/-- The keys of the final tally are the elements of the list. -/
theorem mem_keys_tallyAll {keys : List α} {key : α} :
    key ∈ (tallyAll keys).map Prod.fst ↔ key ∈ keys := by
  induction keys using List.reverseRecOn with
  | nil => simp [tallyAll]
  | append_singleton keys last ih =>
    rw [tallyAll_append_singleton, mem_keys_tally, ih, List.mem_append, List.mem_singleton]
    tauto

/-- The final tally has an entry for each of the distinct elements of the list. -/
theorem length_tallyAll (keys : List α) : (tallyAll keys).length = keys.dedup.length := by
  have hkeys : ((tallyAll keys).map Prod.fst).Nodup := by
    rw [List.Nodup, List.pairwise_map]
    exact (sortedKeys_tallyAll keys).imp fun hlt ↦ hlt.ne
  have hperm : ((tallyAll keys).map Prod.fst).Perm keys.dedup := by
    rw [List.perm_ext_iff_of_nodup hkeys keys.nodup_dedup]
    intro key
    rw [mem_keys_tallyAll, List.mem_dedup]
  rw [← hperm.length_eq, List.length_map]

/-- The count of a key in the final tally is its number of occurrences. -/
theorem countOf_tallyAll (keys : List α) (key : α) :
    countOf key (tallyAll keys) = keys.count key := by
  induction keys using List.reverseRecOn with
  | nil => rfl
  | append_singleton keys last ih =>
    rw [tallyAll_append_singleton, countOf_tally, ih, List.count_append, List.count_singleton]
    simp only [beq_iff_eq]

/-- Every entry of the final tally carries the number of occurrences of its key. -/
theorem count_of_mem_tallyAll {keys : List α} {entry : α × ℕ} (hmem : entry ∈ tallyAll keys) :
    entry.2 = keys.count entry.1 := by
  rw [← countOf_tallyAll, countOf_of_mem (sortedKeys_tallyAll keys) hmem]

end Apes.Library
