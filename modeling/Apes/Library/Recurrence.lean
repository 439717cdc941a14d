import Mathlib.Algebra.BigOperators.Group.Multiset.Defs
import Mathlib.Algebra.Ring.Nat
import Mathlib.Data.Multiset.Filter
import Mathlib.Data.Multiset.Range
import Mathlib.Tactic.Common

/-!
# Recurring occurrences

A plan gives each of some keys a period and says whether it recurs or occurs once. What is pending
is a multiset of keys with the times at which they occur next, and when a key occurs, its entry is
replaced by the one a period later, or removed. `Recurrence.Follows` says of a multiset and a
history that they come from that: the key that has occurred `n` times is pending for `n + 1`
periods, and it has occurred after one, two and up to `n` periods, in this order.

`follows_start` and `Follows.occur` are the induction; `Follows.count_eq` is what it says at a time
that all that is pending is yet to see: a key with period `p` has occurred once in every `p`.
`overdue` counts the occurrences that a time has left behind, and each of them that takes place
leaves fewer (`overdue_replace`).
-/

set_option autoImplicit false
set_option relaxedAutoImplicit false

namespace Apes.Library

variable {Key : Type*} [DecidableEq Key]

/-- The times at which a key has occurred. -/
def timesOf (key : Key) (history : List (Key × ℕ)) : List ℕ :=
  (history.filter fun entry ↦ entry.1 = key).map Prod.snd

/-- How often a key has occurred. -/
def occurrences (key : Key) (history : List (Key × ℕ)) : ℕ := (timesOf key history).length

/-- The periods of the keys, and which of them recur. -/
structure Recurrence (Key : Type*) where
  period : Key → ℕ
  again : Key → Bool

namespace Recurrence

/-- A key has an occurrence to come: it recurs, or it has not occurred. -/
def Awaits (plan : Recurrence Key) (history : List (Key × ℕ)) (key : Key) : Prop :=
  plan.again key = true ∨ occurrences key history = 0

instance (plan : Recurrence Key) (history : List (Key × ℕ)) :
    DecidablePred (plan.Awaits history) :=
  fun _ ↦ inferInstanceAs (Decidable (_ ∨ _))

/-- The next time of a key. -/
def next (plan : Recurrence Key) (history : List (Key × ℕ)) (key : Key) : Key × ℕ :=
  (key, (occurrences key history + 1) * plan.period key)

/-- An entry that has occurred is replaced by the one a period later, or removed. -/
def replace (plan : Recurrence Key) (key : Key) (time : ℕ) (pending : Multiset (Key × ℕ)) :
    Multiset (Key × ℕ) :=
  if plan.again key then (key, time + plan.period key) ::ₘ pending.erase (key, time)
  else pending.erase (key, time)

/-- What is pending and what has occurred are as the plan has them. -/
structure Follows (plan : Recurrence Key) (keys : Multiset Key) (pending : Multiset (Key × ℕ))
    (history : List (Key × ℕ)) : Prop where
  pending : pending = (keys.filter (plan.Awaits history)).map (plan.next history)
  times : ∀ key, timesOf key history =
    (List.range (occurrences key history)).map fun n ↦ (n + 1) * plan.period key
  once : ∀ key, plan.again key = false → occurrences key history ≤ 1
  known : ∀ entry ∈ history, entry.1 ∈ keys

section Occurrences

variable {key other : Key} {time : ℕ} {history : List (Key × ℕ)}

/-- The occurrence of a key is its last. -/
theorem timesOf_occur : timesOf key (history ++ [(key, time)]) = timesOf key history ++ [time] := by
  have hlast : [(key, time)].filter (fun entry ↦ entry.1 = key) = [(key, time)] :=
    List.filter_cons_of_pos (decide_eq_true rfl)
  unfold timesOf
  rw [List.filter_append, List.map_append, hlast]
  rfl

/-- The occurrence of a key is none of another. -/
theorem timesOf_other (hother : other ≠ key) :
    timesOf other (history ++ [(key, time)]) = timesOf other history := by
  unfold timesOf
  rw [List.filter_append, List.filter_cons_of_neg, List.filter_nil, List.append_nil]
  exact fun hsame ↦ hother (of_decide_eq_true hsame).symm

theorem occurrences_occur :
    occurrences key (history ++ [(key, time)]) = occurrences key history + 1 := by
  unfold occurrences
  rw [timesOf_occur, List.length_append, List.length_singleton]

theorem occurrences_other (hother : other ≠ key) :
    occurrences other (history ++ [(key, time)]) = occurrences other history := by
  unfold occurrences
  rw [timesOf_other hother]

/-- The times are those of the entries of the key. -/
theorem mem_timesOf : time ∈ timesOf key history ↔ (key, time) ∈ history := by
  unfold timesOf
  rw [List.mem_map]
  constructor
  · rintro ⟨⟨first, second⟩, hentry, rfl⟩
    obtain ⟨hmem, hkey⟩ := List.mem_filter.mp hentry
    obtain rfl := of_decide_eq_true hkey
    exact hmem
  · intro hmem
    exact ⟨(key, time), List.mem_filter.mpr ⟨hmem, decide_eq_true rfl⟩, rfl⟩

end Occurrences

section Follows

variable {plan : Recurrence Key} {keys : Multiset Key} {pending : Multiset (Key × ℕ)}
  {history : List (Key × ℕ)} {key : Key} {time : ℕ}

/-- At the start every key is pending for its first period. -/
theorem follows_start (plan : Recurrence Key) (keys : Multiset Key) :
    plan.Follows keys (keys.map fun key ↦ (key, plan.period key)) [] where
  pending := by
    have hall : keys.filter (plan.Awaits []) = keys :=
      Multiset.filter_eq_self.mpr fun key _ ↦ .inr rfl
    rw [hall]
    refine Multiset.map_congr rfl fun key _ ↦ ?_
    unfold next
    rw [show occurrences key [] = 0 from rfl, Nat.zero_add, Nat.one_mul]
  times key := rfl
  once key _ := Nat.zero_le 1
  known entry hentry := absurd hentry List.not_mem_nil

/-- What is pending of a key. -/
theorem Follows.of_mem (hfollows : plan.Follows keys pending history)
    (hmem : (key, time) ∈ pending) :
    key ∈ keys ∧ plan.Awaits history key ∧
      time = (occurrences key history + 1) * plan.period key := by
  rw [hfollows.pending] at hmem
  obtain ⟨other, hother, hsame⟩ := Multiset.mem_map.mp hmem
  obtain ⟨hkeys, hawaits⟩ := Multiset.mem_filter.mp hother
  obtain ⟨rfl, rfl⟩ := Prod.mk.inj hsame
  exact ⟨hkeys, hawaits, rfl⟩

/-- A key with an occurrence to come is pending. -/
theorem Follows.mem (hfollows : plan.Follows keys pending history) (hkey : key ∈ keys)
    (hawaits : plan.Awaits history key) :
    (key, (occurrences key history + 1) * plan.period key) ∈ pending := by
  rw [hfollows.pending]
  exact Multiset.mem_map.mpr ⟨key, Multiset.mem_filter.mpr ⟨hkey, hawaits⟩, rfl⟩

/-- No more is pending than keys that are known. -/
theorem Follows.pending_keys (hfollows : plan.Follows keys pending history) :
    pending.map Prod.fst ≤ keys := by
  have hsame : pending.map Prod.fst = keys.filter (plan.Awaits history) := by
    rw [hfollows.pending, Multiset.map_map]
    exact Multiset.map_id _
  rw [hsame]
  exact Multiset.filter_le _ _

/-- A key occurs. -/
theorem Follows.occur (hfollows : plan.Follows keys pending history) (hkeys : keys.Nodup)
    (hmem : (key, time) ∈ pending) :
    plan.Follows keys (plan.replace key time pending) (history ++ [(key, time)]) := by
  obtain ⟨hkey, hawaits, htime⟩ := hfollows.of_mem hmem
  have hfiltered : key ∈ keys.filter (plan.Awaits history) :=
    Multiset.mem_filter.mpr ⟨hkey, hawaits⟩
  have hnodup : (keys.filter (plan.Awaits history)).Nodup := hkeys.filter _
  have herase : pending.erase (key, time) =
      ((keys.filter (plan.Awaits history)).erase key).map (plan.next history) := by
    rw [Multiset.map_erase_of_mem _ _ hfiltered, ← hfollows.pending, htime]
    rfl
  have hsame : ((keys.filter (plan.Awaits history)).erase key).map
        (plan.next (history ++ [(key, time)])) =
      ((keys.filter (plan.Awaits history)).erase key).map (plan.next history) := by
    refine Multiset.map_congr rfl fun other hother ↦ ?_
    have hne := (hnodup.mem_erase_iff.mp hother).1
    unfold next
    rw [occurrences_other hne]
  have hothers : ∀ other ≠ key, plan.Awaits (history ++ [(key, time)]) other ↔
      plan.Awaits history other := by
    intro other hne
    unfold Awaits
    rw [occurrences_other hne]
  refine ⟨?_, fun other ↦ ?_, fun other honce ↦ ?_, fun entry hentry ↦ ?_⟩
  · unfold replace
    rw [herase]
    cases hagain : plan.again key with
    | true =>
      have hstays : keys.filter (plan.Awaits (history ++ [(key, time)])) =
          keys.filter (plan.Awaits history) := by
        refine Multiset.filter_congr fun other _ ↦ ?_
        by_cases hne : other = key
        · subst hne
          exact ⟨fun _ ↦ hawaits, fun _ ↦ .inl hagain⟩
        · exact hothers other hne
      have hnext : plan.next (history ++ [(key, time)]) key = (key, time + plan.period key) := by
        unfold next
        rw [occurrences_occur, htime, Nat.succ_mul (occurrences key history + 1)]
      rw [if_pos rfl, hstays, ← Multiset.cons_erase hfiltered, Multiset.map_cons, hnext,
        Multiset.cons_erase hfiltered, hsame]
    | false =>
      have hgone : keys.filter (plan.Awaits (history ++ [(key, time)])) =
          (keys.filter (plan.Awaits history)).erase key := by
        rw [hnodup.erase_eq_filter, Multiset.filter_filter]
        refine Multiset.filter_congr fun other _ ↦ ?_
        by_cases hne : other = key
        · subst hne
          unfold Awaits
          rw [hagain, occurrences_occur]
          constructor
          · rintro (hfalse | hzero)
            · exact absurd hfalse nofun
            · exact absurd hzero (Nat.succ_ne_zero _)
          · exact fun hboth ↦ absurd rfl hboth.1
        · exact (hothers other hne).trans ⟨fun hold ↦ ⟨hne, hold⟩, fun hboth ↦ hboth.2⟩
      rw [if_neg nofun, hgone, hsame]
  · by_cases hne : other = key
    · subst hne
      rw [timesOf_occur, occurrences_occur, List.range_succ, List.map_append, hfollows.times other,
        htime]
      rfl
    · rw [timesOf_other hne, occurrences_other hne]
      exact hfollows.times other
  · by_cases hne : other = key
    · subst hne
      rcases hawaits with hagain | hnone
      · exact absurd (hagain.symm.trans honce) nofun
      · rw [occurrences_occur, hnone]
    · rw [occurrences_other hne]
      exact hfollows.once other honce
  · rcases List.mem_append.mp hentry with hold | hnew
    · exact hfollows.known entry hold
    · rw [List.mem_singleton.mp hnew]
      exact hkey

/-- The last occurrence of a key is after as many periods as it has occurred. -/
theorem Follows.last_mem (hfollows : plan.Follows keys pending history)
    (hoccurred : 0 < occurrences key history) :
    (key, occurrences key history * plan.period key) ∈ history := by
  rw [← mem_timesOf, hfollows.times key, List.mem_map]
  refine ⟨occurrences key history - 1, List.mem_range.mpr (Nat.sub_lt hoccurred Nat.one_pos), ?_⟩
  rw [Nat.sub_add_cancel hoccurred]

/-- A key has not occurred more often than once in each of its periods. Assumes: all that has
occurred is not later than a time. -/
theorem Follows.mul_le (hfollows : plan.Follows keys pending history) {now : ℕ}
    (hpast : ∀ entry ∈ history, entry.2 ≤ now) :
    occurrences key history * plan.period key ≤ now := by
  rcases Nat.eq_zero_or_pos (occurrences key history) with hzero | hpos
  · rw [hzero, Nat.zero_mul]
    exact Nat.zero_le now
  · exact hpast _ (hfollows.last_mem hpos)

/-- What is pending of a key is no more than a period away. -/
theorem Follows.le_next (hfollows : plan.Follows keys pending history) {now : ℕ}
    (hpast : ∀ entry ∈ history, entry.2 ≤ now) (hmem : (key, time) ∈ pending) :
    time ≤ now + plan.period key := by
  rw [(hfollows.of_mem hmem).2.2, Nat.succ_mul]
  exact Nat.add_le_add_right (hfollows.mul_le hpast) _

/-- **A key occurs once in every period.** Assumes: all that has occurred is not later than a time,
and all that is pending is later. -/
theorem Follows.count_eq (hfollows : plan.Follows keys pending history) {now : ℕ}
    (hpast : ∀ entry ∈ history, entry.2 ≤ now) (hfuture : ∀ entry ∈ pending, now < entry.2)
    (hkey : key ∈ keys) (hperiod : 0 < plan.period key) :
    occurrences key history =
      if plan.again key then now / plan.period key else min 1 (now / plan.period key) := by
  have hbound : occurrences key history ≤ now / plan.period key :=
    (Nat.le_div_iff_mul_le hperiod).mpr (hfollows.mul_le hpast)
  have hless : plan.Awaits history key → now / plan.period key < occurrences key history + 1 :=
    fun hawaits ↦ (Nat.div_lt_iff_lt_mul hperiod).mpr (hfuture _ (hfollows.mem hkey hawaits))
  cases hagain : plan.again key with
  | true =>
    rw [if_pos rfl]
    exact Nat.le_antisymm hbound (Nat.lt_succ_iff.mp (hless (.inl hagain)))
  | false =>
    have honce := hfollows.once key hagain
    rw [if_neg nofun]
    rcases Nat.eq_zero_or_pos (occurrences key history) with hzero | hpos
    · have hnone := hless (.inr hzero)
      omega
    · omega

/-! ### What is overdue -/

/-- How often an entry is to occur up to a time. -/
def overdueOf (plan : Recurrence Key) (now : ℕ) (entry : Key × ℕ) : ℕ :=
  if entry.2 ≤ now then (now - entry.2) / plan.period entry.1 + 1 else 0

/-- How many occurrences are overdue at a time. -/
def overdue (plan : Recurrence Key) (now : ℕ) (pending : Multiset (Key × ℕ)) : ℕ :=
  (pending.map (plan.overdueOf now)).sum

omit [DecidableEq Key] in
/-- One period later there is one occurrence less. -/
theorem overdueOf_next {now : ℕ} (htime : time ≤ now) (hperiod : 0 < plan.period key) :
    plan.overdueOf now (key, time + plan.period key) + 1 = plan.overdueOf now (key, time) := by
  unfold overdueOf
  dsimp only
  rw [if_pos htime]
  by_cases hlater : time + plan.period key ≤ now
  · have hless : plan.period key ≤ now - time := by omega
    rw [if_pos hlater, Nat.div_eq_sub_div hperiod hless, Nat.sub_add_eq]
  · rw [if_neg hlater, Nat.div_eq_of_lt (by omega)]

/-- An occurrence that is overdue leaves fewer of them. -/
theorem overdue_replace {now : ℕ} (hmem : (key, time) ∈ pending) (htime : time ≤ now)
    (hperiod : 0 < plan.period key) :
    plan.overdue now (plan.replace key time pending) < plan.overdue now pending := by
  have hsplit : plan.overdue now pending =
      plan.overdueOf now (key, time) + plan.overdue now (pending.erase (key, time)) := by
    conv_lhs => rw [← Multiset.cons_erase hmem]
    unfold overdue
    rw [Multiset.map_cons, Multiset.sum_cons]
  have hnext := overdueOf_next htime hperiod
  rw [hsplit]
  unfold replace
  split_ifs
  · unfold overdue
    rw [Multiset.map_cons, Multiset.sum_cons]
    omega
  · omega

end Follows

end Recurrence

end Apes.Library
