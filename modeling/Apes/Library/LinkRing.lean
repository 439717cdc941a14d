import Mathlib.Data.List.Chain
import Mathlib.Data.List.Nodup
import Mathlib.Tactic.Common

/-!
# Rings of links

A circular doubly linked list is a ring of cells through a header: the `next` of each cell is the
following one, the `prev` of that one leads back, and the last cell is followed by the header.
`IsRing next prev header members` says so for the cells `members` in order, with `next` and `prev`
partial functions, undefined on cells that are not there.

`IsRing.splice` is the one edit of a list that only grows: a new cell is linked in between two
neighbours by changing the `next` of the first, the `prev` of the second, and the links of the new
cell. Where the neighbours stand does not matter; the header may be one of them or both.
`IsRing.prev_eq` finds the first neighbour from the second.

`Circular` says what a ring is good for without naming its cells in order: following the forward
links from the header visits every cell that there is once and returns to it, and the backward links
are the inverse of the forward ones. `IsRing.circular` concludes it for a ring of distinct cells
outside which there is none.
-/

set_option autoImplicit false
set_option relaxedAutoImplicit false

namespace Apes.Library

variable {α : Type*}

/-- Two cells are linked both ways. -/
def Linked (next prev : α → Option α) (first second : α) : Prop :=
  next first = some second ∧ prev second = some first

/-- The cells `members`, in order, form a ring with the header. -/
def IsRing (next prev : α → Option α) (header : α) (members : List α) : Prop :=
  List.IsChain (Linked next prev) (header :: members ++ [header])

/-- A chain stays one when the links between its consecutive cells do. The first cell of a pair is
not the last of the list and the second is not the first. -/
theorem isChain_transport {before after : α → α → Prop} {cells : List α}
    (hchain : List.IsChain before cells)
    (hlink : ∀ first ∈ cells.dropLast, ∀ second ∈ cells.tail, before first second →
      after first second) : List.IsChain after cells := by
  induction cells with
  | nil => exact .nil
  | cons first rest ih =>
    obtain _ | ⟨second, rest⟩ := rest
    · exact .singleton _
    · rw [List.isChain_cons_cons] at hchain ⊢
      refine ⟨hlink first (by simp) second (by simp) hchain.1, ih hchain.2 ?_⟩
      intro left hleft right hright
      refine hlink left ?_ right ?_
      · rw [List.dropLast_cons_of_ne_nil (List.cons_ne_nil _ _)]
        exact List.mem_cons_of_mem _ hleft
      · exact List.mem_of_mem_tail hright

/-- The empty ring: the header is linked to itself. -/
theorem isRing_nil_iff {next prev : α → Option α} {header : α} :
    IsRing next prev header [] ↔ next header = some header ∧ prev header = some header := by
  simp [IsRing, Linked]

variable {next prev next' prev' : α → Option α} {header first second new : α}
  {front back members : List α}

/-- The links of a ring at two neighbours. -/
theorem isRing_iff_of_split (hsplit : header :: members ++ [header] =
    front ++ first :: second :: back) :
    IsRing next prev header members ↔ List.IsChain (Linked next prev) (front ++ [first]) ∧
      Linked next prev first second ∧ List.IsChain (Linked next prev) (second :: back) := by
  rw [IsRing, hsplit, List.isChain_append_cons_cons]

/-- The cell before a member or before the header is the target of its backward link. -/
theorem IsRing.prev_eq (hring : IsRing next prev header members)
    (hsplit : header :: members ++ [header] = front ++ first :: second :: back) :
    prev second = some first :=
  ((isRing_iff_of_split hsplit).mp hring).2.1.2

/-- The cell after the header or after a member is the target of its forward link. -/
theorem IsRing.next_eq (hring : IsRing next prev header members)
    (hsplit : header :: members ++ [header] = front ++ first :: second :: back) :
    next first = some second :=
  ((isRing_iff_of_split hsplit).mp hring).2.1.1

/-- Links that change only forward of two cells and backward of two cells leave a chain that does
not go on from the former and does not come to the latter. -/
theorem isChain_frame {cells : List α} (hchain : List.IsChain (Linked next prev) cells)
    (hnext : ∀ cell, cell ≠ first → cell ≠ new → next' cell = next cell)
    (hprev : ∀ cell, cell ≠ second → cell ≠ new → prev' cell = prev cell)
    (hleft : ∀ left ∈ cells.dropLast, left ≠ first ∧ left ≠ new)
    (hright : ∀ right ∈ cells.tail, right ≠ second ∧ right ≠ new) :
    List.IsChain (Linked next' prev') cells := by
  apply isChain_transport hchain
  intro left hmemLeft right hmemRight hlinked
  obtain ⟨hfirst, hleftNew⟩ := hleft left hmemLeft
  obtain ⟨hsecond, hrightNew⟩ := hright right hmemRight
  exact ⟨(hnext left hfirst hleftNew).trans hlinked.1,
    (hprev right hsecond hrightNew).trans hlinked.2⟩

/-- Linking a new cell in between two neighbours of a ring. Assumes: the cells of the ring are
distinct, `first` is the last cell up to the place of the edit and `second` the next one, and apart
from the four links of the edit the links are as before. -/
theorem IsRing.splice {init tail : List α} (hring : IsRing next prev header (front ++ back))
    (hdistinct : (header :: (front ++ back)).Nodup) (hnew : new ∉ header :: (front ++ back))
    (hfirst : header :: front = init ++ [first]) (hsecond : back ++ [header] = second :: tail)
    (hnextFirst : next' first = some new) (hnextNew : next' new = some second)
    (hprevSecond : prev' second = some new) (hprevNew : prev' new = some first)
    (hnext : ∀ cell, cell ≠ first → cell ≠ new → next' cell = next cell)
    (hprev : ∀ cell, cell ≠ second → cell ≠ new → prev' cell = prev cell) :
    IsRing next' prev' header (front ++ new :: back) := by
  have hsplit : header :: (front ++ back) ++ [header] = init ++ first :: second :: tail := by
    calc header :: (front ++ back) ++ [header] = (header :: front) ++ (back ++ [header]) := by simp
      _ = init ++ first :: second :: tail := by rw [hfirst, hsecond]; simp
  have hspliced : header :: (front ++ new :: back) ++ [header] =
      init ++ first :: new :: second :: tail := by
    calc header :: (front ++ new :: back) ++ [header] =
          (header :: front) ++ new :: (back ++ [header]) := by simp
      _ = init ++ first :: new :: second :: tail := by rw [hfirst, hsecond]; simp
  obtain ⟨hfront, -, hback⟩ := (isRing_iff_of_split hsplit).mp hring
  obtain ⟨hfrontNodup, hbackNodup, hapart⟩ :=
    List.nodup_append.mp (show ((header :: front) ++ back).Nodup from hdistinct)
  obtain ⟨hheaderFront, -⟩ := List.nodup_cons.mp hfrontNodup
  have hsecondMem : second ∈ back ++ [header] := hsecond ▸ List.mem_cons_self
  rw [isRing_iff_of_split hspliced, List.isChain_cons_cons]
  refine ⟨isChain_frame hfront hnext hprev ?_ ?_, ⟨hnextFirst, hprevNew⟩,
    ⟨hnextNew, hprevSecond⟩, isChain_frame hback hnext hprev ?_ ?_⟩
  · intro left hleft
    rw [List.dropLast_concat] at hleft
    constructor
    · rw [hfirst, List.nodup_append] at hfrontNodup
      exact hfrontNodup.2.2 left hleft first (List.mem_singleton_self first)
    · rintro rfl
      exact hnew (List.mem_append_left back (hfirst ▸ List.mem_append_left _ hleft))
  · intro right hright
    rw [← hfirst, List.tail_cons] at hright
    constructor
    · rintro rfl
      rcases List.mem_append.mp hsecondMem with hold | hheader
      · exact hapart right (List.mem_cons_of_mem _ hright) right hold rfl
      · exact hheaderFront (List.mem_singleton.mp hheader ▸ hright)
    · rintro rfl
      exact hnew (List.mem_append_left back (List.mem_cons_of_mem header hright))
  · intro left hleft
    rw [← hsecond, List.dropLast_concat] at hleft
    have hfirstMem : first ∈ header :: front := hfirst ▸ by simp
    constructor
    · intro hsame
      exact hapart first hfirstMem left hleft hsame.symm
    · rintro rfl
      exact hnew (List.mem_append_right (header :: front) hleft)
  · intro right hright
    rw [List.tail_cons] at hright
    have hrightMem : right ∈ back ++ [header] := hsecond ▸ List.mem_cons_of_mem second hright
    have hnodup : (second :: tail).Nodup := by
      rw [← hsecond, List.nodup_append]
      refine ⟨hbackNodup, List.nodup_singleton header, fun cell hcell other hother hsame ↦ ?_⟩
      exact hapart header List.mem_cons_self cell hcell
        ((List.mem_singleton.mp hother).symm.trans hsame.symm)
    constructor
    · rintro rfl
      exact (List.nodup_cons.mp hnodup).1 hright
    · rintro rfl
      rcases List.mem_append.mp hrightMem with hold | hheader
      · exact hnew (List.mem_append_right (header :: front) hold)
      · exact hnew (List.mem_singleton.mp hheader ▸ List.mem_cons_self)

/-! ### Going around -/

/-- Where a number of forward links lead from a cell. -/
def follow (next : α → Option α) : ℕ → α → Option α
  | 0, cell => some cell
  | steps + 1, cell => (next cell).bind (follow next steps)

/-- The forward links lead from the header through each of `size` cells once and back to it, there
are no other cells, and the backward links are the inverse of the forward ones. -/
structure Circular (next prev : α → Option α) (header : α) (size : ℕ) : Prop where
  visits : ∀ cell, (next cell).isSome = true →
    ∃! steps, steps < size ∧ follow next steps header = some cell
  returns : follow next size header = some header
  inverse : ∀ first second, next first = some second ↔ prev second = some first

/-- The forward links of a chain lead along it. -/
theorem follow_of_isChain {start : α} {cells : List α}
    (hchain : List.IsChain (Linked next prev) (start :: cells)) {steps : ℕ}
    (hsteps : steps ≤ cells.length) : follow next steps start = (start :: cells)[steps]? := by
  induction cells generalizing start steps with
  | nil =>
    rw [Nat.le_zero.mp hsteps]
    rfl
  | cons second rest ih =>
    cases steps with
    | zero => rfl
    | succ steps =>
      rw [List.isChain_cons_cons] at hchain
      rw [follow, hchain.1.1, Option.bind_some, List.getElem?_cons_succ]
      exact ih hchain.2 (Nat.le_of_succ_le_succ hsteps)

/-- The forward links of a ring lead from the header through its members in order. -/
theorem IsRing.follow_eq (hring : IsRing next prev header members) {steps : ℕ}
    (hsteps : steps < members.length + 1) :
    follow next steps header = (header :: members)[steps]? := by
  have hbound : steps ≤ (members ++ [header]).length := by
    rw [List.length_append]
    exact Nat.le_of_lt hsteps
  have hchain : List.IsChain (Linked next prev) (header :: (members ++ [header])) := hring
  rw [follow_of_isChain hchain hbound, ← List.cons_append]
  exact List.getElem?_append_left hsteps

/-- After the last member the forward links of a ring lead back to the header. -/
theorem IsRing.follow_length (hring : IsRing next prev header members) :
    follow next (members.length + 1) header = some header := by
  have hbound : members.length + 1 ≤ (members ++ [header]).length := by
    rw [List.length_append, List.length_singleton]
  have hchain : List.IsChain (Linked next prev) (header :: (members ++ [header])) := hring
  rw [follow_of_isChain hchain hbound, List.getElem?_cons_succ, List.getElem?_concat_length]

/-- The forward link of a cell of a ring is undone by the backward link of its target. -/
theorem IsRing.prev_of_next (hring : IsRing next prev header members)
    (hfirst : first ∈ header :: members) (hnext : next first = some second) :
    prev second = some first := by
  obtain ⟨front, back, hcut⟩ := List.append_of_mem hfirst
  obtain ⟨third, tail, htail⟩ : ∃ third tail, back ++ [header] = third :: tail :=
    List.exists_cons_of_ne_nil (List.append_ne_nil_of_right_ne_nil _ (List.cons_ne_nil _ _))
  have hsplit : header :: members ++ [header] = front ++ first :: third :: tail := by
    rw [hcut, List.append_assoc, List.cons_append, htail]
  have hsame : second = third := Option.some.inj (hnext.symm.trans (hring.next_eq hsplit))
  rw [hsame]
  exact hring.prev_eq hsplit

/-- The backward link of a cell of a ring is undone by the forward link of its target. -/
theorem IsRing.next_of_prev (hring : IsRing next prev header members)
    (hsecond : second ∈ header :: members) (hprev : prev second = some first) :
    next first = some second := by
  have hmem : second ∈ members ++ [header] := by
    rw [List.mem_append, List.mem_singleton]
    exact (List.mem_cons.mp hsecond).symm
  obtain ⟨front, back, hcut⟩ := List.append_of_mem hmem
  obtain ⟨init, third, hinit⟩ : ∃ init third, header :: front = init ++ [third] :=
    (List.eq_nil_or_concat' _).resolve_left (List.cons_ne_nil _ _)
  have hsplit : header :: members ++ [header] = init ++ third :: second :: back := by
    rw [List.cons_append, hcut, ← List.cons_append, hinit, List.append_assoc]
    rfl
  have hsame : first = third := Option.some.inj (hprev.symm.trans (hring.prev_eq hsplit))
  rw [hsame]
  exact hring.next_eq hsplit

/-- A ring of distinct cells is circular. Assumes: no cell outside it has a link. -/
theorem IsRing.circular (hring : IsRing next prev header members)
    (hdistinct : (header :: members).Nodup)
    (hnext : ∀ cell, (next cell).isSome = true → cell ∈ header :: members)
    (hprev : ∀ cell, (prev cell).isSome = true → cell ∈ header :: members) :
    Circular next prev header (members.length + 1) := by
  refine ⟨fun cell hcell ↦ ?_, hring.follow_length, fun first second ↦ ⟨fun hlink ↦ ?_,
    fun hlink ↦ ?_⟩⟩
  · obtain ⟨steps, hvisit⟩ := List.mem_iff_getElem?.mp (hnext cell hcell)
    have hsteps : steps < members.length + 1 := (List.getElem?_eq_some_iff.mp hvisit).1
    refine ⟨steps, ⟨hsteps, (hring.follow_eq hsteps).trans hvisit⟩, fun other hother ↦ ?_⟩
    have hagain := (hring.follow_eq hother.1).symm.trans hother.2
    exact ((List.getElem?_inj hsteps hdistinct).mp (hvisit.trans hagain.symm)).symm
  · exact hring.prev_of_next (hnext first (hlink ▸ rfl)) hlink
  · exact hring.next_of_prev (hprev second (hlink ▸ rfl)) hlink

end Apes.Library
