import Apes.Kernel.MemoryMap
import Mathlib.Algebra.Group.Nat.Defs
import Mathlib.Data.Nat.Basic
import Mathlib.Order.Basic

/-!
# What a task can make of its memory map

`reachable_incapable_iff` and `reachable_mm_iff` say which states of its `mm_struct` a task reaches
by calls of `prctl_set_mm`, without a capability and with any, and both are exact. Without a
capability it reaches the states with sound fields, with the first auxiliary vector or any that ends
in zeros, and with the file that it was started from. A capability adds nothing to the fields; it
adds the files that may be executed, and changes of the vector or of the file alone.

`MmMap.Sound` is what `validate_prctl_map` makes of the fields. It asks for a heap behind the data
only when words have 64 bits: the check compares the fields before they are cast to words, and
`MmMap.widen` has the fields of 64 bits that get past it. `reachable_incapable_heapFirst` is a
program of 32 bits with its heap in front of its code.

`exists_capable_of_exe_changed` finds the call that has changed the file, made with a capability at
a moment when nothing of the old file was mapped. `setField_iff_setWhole` compares the two ways to
write a field.

`Mm.Moves` is the one statement of what a call does, and each way to write has a lemma of its own
about what it writes; the rest is put together from these.
-/

set_option autoImplicit false
set_option relaxedAutoImplicit false

namespace Apes.Kernel

open Library

variable {w n : ℕ} {layout : MmLayout w}

/-! ### Valid fields -/

/-- Every field is in the table. -/
theorem MmField.mem_offsets (field : MmField) : field ∈ MmField.offsets := by
  cases field <;> decide

/-- What `validate_prctl_map` has checked when it accepts. -/
theorem validatePrctlMap_eq_ok_iff {answers : MmAnswers w} {prctlMap : PrctlMmMap} :
    validatePrctlMap n layout answers prctlMap = .ok () ↔
      (∀ field, layout.Contains (prctlMap.words field)) ∧ (prctlMap.words : MmMap w).Ordered ∧
        (prctlMap.map .endData < prctlMap.map .startBrk ∧
          prctlMap.map .endData < prctlMap.map .brk) ∧
        layout.acceptsData answers.dataLimit prctlMap.words = true ∧
        (prctlMap.auxvSize ≠ 0 → prctlMap.auxv.isSome ∧ prctlMap.auxvSize.toNat ≤ n) ∧
        (prctlMap.exeFd ≠ noFd → answers.nsCapable) := by
  unfold validatePrctlMap
  simp only [require_seq_eq_ok_iff, require_eq_ok_iff]
  refine and_congr_left fun _ ↦ ?_
  exact ⟨fun hall field ↦ hall field field.mem_offsets, fun hall field _ ↦ hall field⟩

/-- The fields that the checks let through, as machine words: each in the address space, the pairs
ordered, and the data within some limit. Only with words of 64 bits is the heap behind the data. -/
structure MmMap.Sound (layout : MmLayout w) (map : MmMap w) : Prop where
  inRange : ∀ field, layout.Contains (map field)
  ordered : map.Ordered
  accepted : ∃ dataLimit, layout.acceptsData dataLimit map = true
  apart : w = 64 → map .endData < map .startBrk

/-- Valid fields are sound. -/
theorem sound_of_valid {answers : MmAnswers w} {prctlMap : PrctlMmMap}
    (hvalid : validatePrctlMap n layout answers prctlMap = .ok ()) :
    (prctlMap.words : MmMap w).Sound layout := by
  obtain ⟨hinRange, hordered, ⟨hapart, -⟩, haccepted, -, -⟩ := validatePrctlMap_eq_ok_iff.mp hvalid
  refine ⟨hinRange, hordered, ⟨_, haccepted⟩, ?_⟩
  rintro rfl
  simpa only [PrctlMmMap.words, BitVec.setWidth_eq] using hapart

/-- The fields of 64 bits to ask for when the machine words are to be `map`. When words are shorter,
the heap is put behind the data with bits that no word has. -/
def MmMap.widen (map : MmMap w) : MmMap 64 := fun field ↦
  BitVec.ofNat 64 ((map field).toNat +
    if w < 64 ∧ (field = .startBrk ∨ field = .brk) then 2 ^ w else 0)

theorem toNat_widen (hw : w ≤ 64) (map : MmMap w) (field : MmField) :
    (map.widen field).toNat = (map field).toNat +
      if w < 64 ∧ (field = .startBrk ∨ field = .brk) then 2 ^ w else 0 := by
  have hbound : (map field).toNat < 2 ^ w := (map field).isLt
  rw [MmMap.widen, BitVec.toNat_ofNat, Nat.mod_eq_of_lt]
  split_ifs with hshort
  · have hpow : 2 ^ (w + 1) ≤ 2 ^ 64 := Nat.pow_le_pow_right (by decide) hshort.1
    omega
  · have hpow : 2 ^ w ≤ 2 ^ 64 := Nat.pow_le_pow_right (by decide) hw
    omega

/-- A vector of words ends in `AT_NULL`: the bytes of its last two words are zero. -/
def NullTerminated (w : ℕ) (auxv : Fin n → UInt8) : Prop :=
  ∀ i : Fin n, n - 2 * (w / 8) ≤ i → auxv i = 0

theorem nullTerminated_sealAuxv (w : ℕ) (bytes : Fin n → UInt8) :
    NullTerminated w (sealAuxv w bytes) := fun _ hlast ↦ if_pos hlast

theorem NullTerminated.sealAuxv_eq {auxv : Fin n → UInt8} (hnull : NullTerminated w auxv) :
    sealAuxv w auxv = auxv := by
  funext i
  unfold sealAuxv
  split_ifs with hlast
  · exact (hnull i hlast).symm
  · rfl

/-- The request for given fields, and for an auxiliary vector or none. -/
def MmMap.request (map : MmMap w) (auxv : Option (Fin n → UInt8)) : PrctlMmMap where
  map := map.widen
  auxv := auxv.map List.ofFn
  auxvSize := if auxv.isSome then UInt32.ofNat n else 0
  exeFd := noFd

theorem words_request (hw : w ≤ 64) (map : MmMap w) (auxv : Option (Fin n → UInt8)) :
    ((map.request auxv).words : MmMap w) = map := by
  funext field
  refine BitVec.eq_of_toNat_eq ?_
  have hbound : (map field).toNat < 2 ^ w := (map field).isLt
  change ((map.widen field).setWidth w).toNat = (map field).toNat
  rw [BitVec.toNat_setWidth, toNat_widen hw]
  split_ifs
  · rw [Nat.add_mod_right, Nat.mod_eq_of_lt hbound]
  · exact Nat.mod_eq_of_lt hbound

/-- The size in a request for an auxiliary vector. -/
theorem toNat_auxvSize (hn : n < UInt32.size) (map : MmMap w) (auxv : Fin n → UInt8) :
    (map.request (some auxv)).auxvSize.toNat = n := by
  change (UInt32.ofNat n).toNat = n
  rw [UInt32.toNat_ofNat', Nat.mod_eq_of_lt hn]

/-- Sound fields can be asked for without a capability. -/
theorem valid_request (hw : w ≤ 64) (hn : n < UInt32.size) {map : MmMap w}
    (hsound : map.Sound layout) (auxv : Option (Fin n → UInt8)) {answers : MmAnswers w}
    (haccepted : layout.acceptsData answers.dataLimit map = true) :
    validatePrctlMap n layout answers (map.request auxv) = .ok () := by
  have hheap : (map .startBrk).toNat ≤ (map .brk).toNat := hsound.ordered.2.2.1
  have hstart : (map.widen .endData).toNat < (map.widen .startBrk).toNat := by
    rw [toNat_widen hw, toNat_widen hw]
    obtain hshort | rfl := hw.lt_or_eq
    · have hbound : (map .endData).toNat < 2 ^ w := (map .endData).isLt
      simp only [hshort, reduceCtorEq, or_false, and_false, if_false, and_self, if_true]
      omega
    · have hapart : (map .endData).toNat < (map .startBrk).toNat := hsound.apart rfl
      simpa using hapart
  have hbrk : (map.widen .startBrk).toNat ≤ (map.widen .brk).toNat := by
    rw [toNat_widen hw, toNat_widen hw]
    simp only [or_true, true_or, and_true]
    omega
  have hauxv : (map.request auxv).auxvSize ≠ 0 →
      (map.request auxv).auxv.isSome ∧ (map.request auxv).auxvSize.toNat ≤ n := by
    cases auxv with
    | none => exact fun hsize ↦ absurd rfl hsize
    | some auxv => exact fun _ ↦ ⟨rfl, (toNat_auxvSize hn map auxv).le⟩
  rw [validatePrctlMap_eq_ok_iff, words_request hw]
  exact ⟨hsound.inRange, hsound.ordered, ⟨hstart, hstart.trans_le hbrk⟩, haccepted, hauxv,
    fun hfd ↦ absurd rfl hfd⟩

/-- The auxiliary vector after a request for one. -/
theorem newAuxv_request (hn : n < UInt32.size) (map : MmMap w) {auxv : Option (Fin n → UInt8)}
    (hnull : ∀ vector ∈ auxv, NullTerminated w vector) (savedAuxv : Fin n → UInt8) :
    (map.request auxv).newAuxv w savedAuxv = .ok (auxv.getD savedAuxv) := by
  cases auxv with
  | none => rfl
  | some auxv =>
    have hsize := toNat_auxvSize hn map auxv
    unfold PrctlMmMap.newAuxv
    split_ifs with hzero
    · have hempty : n = 0 := by rw [← hsize, hzero]; rfl
      subst hempty
      exact congrArg Except.ok (funext fun i ↦ i.elim0)
    · refine require_seq_eq_ok_iff.mpr ⟨?_, ?_⟩
      · have hbytes : (List.ofFn auxv).length = n := List.length_ofFn
        rw [hsize]
        exact hbytes.ge
      · have hbytes : (fun i : Fin n ↦ if (i : ℕ) < (map.request (some auxv)).auxvSize.toNat then
            ((map.request (some auxv)).auxv.getD []).getD i 0 else 0) = auxv := by
          funext i
          rw [hsize, if_pos i.isLt]
          change (List.ofFn auxv).getD i 0 = auxv i
          simp
        rw [hbytes, (hnull auxv rfl).sealAuxv_eq]
        rfl

/-! ### What a call changes -/

/-- What a call makes of the `mm_struct` when it succeeds: nothing, or what one of the four ways to
write does. -/
inductive Mm.Moves (layout : MmLayout w) (answers : MmAnswers w) (mm : Mm w n) : Mm w n → Prop
  | same : mm.Moves layout answers mm
  | whole (next : Mm w n) (dataSize : BitVec w)
      (hset : setWholeMap layout answers mm dataSize = .ok next) : mm.Moves layout answers next
  | exeFile (exe : OpenFile) (fd : UInt32) (hcapable : answers.capable = true)
      (hset : prctlSetMmExeFile answers mm.exeFile fd = .ok exe) :
      mm.Moves layout answers { mm with exeFile := some exe }
  | auxv (next : Mm w n) (len : BitVec w) (hcapable : answers.capable = true)
      (hset : prctlSetAuxv answers mm len = .ok next) : mm.Moves layout answers next
  | field (next : Mm w n) (field : MmField) (addr : BitVec w) (hcapable : answers.capable = true)
      (hset : setField layout answers mm field addr = .ok next) : mm.Moves layout answers next

/-- What a call that succeeds does. -/
theorem moves_of_prctlSetMm {answers : MmAnswers w} {mm next : Mm w n} {opt : MmOption}
    {addr arg4 arg5 : BitVec w} {stored : Option ℕ}
    (hok : prctlSetMm layout answers mm opt addr arg4 arg5 = .ok (stored, next)) :
    mm.Moves layout answers next := by
  unfold prctlSetMm at hok
  obtain ⟨-, hok⟩ := require_seq_eq_ok_iff.mp hok
  split_ifs at hok with hwhole
  · unfold prctlSetMmMap at hok
    split_ifs at hok with hsize
    · obtain ⟨-, hok⟩ := require_seq_eq_ok_iff.mp hok
      obtain ⟨-, rfl⟩ := Prod.mk.inj (Except.ok.inj hok)
      exact .same
    · obtain ⟨other, hset, hok⟩ := seq_eq_ok_iff.mp hok
      obtain ⟨-, rfl⟩ := Prod.mk.inj (Except.ok.inj hok)
      exact .whole _ _ hset
  · obtain ⟨hcapable, hok⟩ := require_seq_eq_ok_iff.mp hok
    cases opt with
    | exeFile =>
      obtain ⟨exe, hset, hok⟩ := seq_eq_ok_iff.mp hok
      obtain ⟨-, rfl⟩ := Prod.mk.inj (Except.ok.inj hok)
      exact .exeFile exe _ hcapable hset
    | auxv =>
      obtain ⟨other, hset, hok⟩ := seq_eq_ok_iff.mp hok
      obtain ⟨-, rfl⟩ := Prod.mk.inj (Except.ok.inj hok)
      exact .auxv _ _ hcapable hset
    | field field =>
      obtain ⟨-, hok⟩ := require_seq_eq_ok_iff.mp hok
      obtain ⟨other, hset, hok⟩ := seq_eq_ok_iff.mp hok
      obtain ⟨-, rfl⟩ := Prod.mk.inj (Except.ok.inj hok)
      exact .field _ _ _ hcapable hset
    | map | mapSize | other => injection hok

/-- What a call does, also when it fails. -/
theorem Mm.after_moves (mm : Mm w n) (event : MmEvent w) :
    mm.Moves layout event.answers (mm.after layout event) := by
  unfold Mm.after
  split
  · exact moves_of_prctlSetMm ‹_›
  · exact .same

/-- The `mm_struct` after a call that succeeds. -/
theorem Mm.after_of_ok {event : MmEvent w} {mm next : Mm w n} {stored : Option ℕ}
    (hok : prctlSetMm layout event.answers mm event.opt event.addr event.arg4 event.arg5 =
      .ok (stored, next)) : mm.after layout event = next := by
  unfold Mm.after
  rw [hok]

/-- What `PR_SET_MM_MAP` does: the fields are valid ones, the auxiliary vector stays or ends in
zeros, and the file stays or is one that `prctl_set_mm_exe_file` accepts from a capable caller. -/
theorem setWholeMap_eq_ok {answers : MmAnswers w} {mm next : Mm w n} {dataSize : BitVec w}
    (hset : setWholeMap layout answers mm dataSize = .ok next) :
    next.map.Sound layout ∧
      (next.savedAuxv = mm.savedAuxv ∨ NullTerminated w next.savedAuxv) ∧
      (next.exeFile = mm.exeFile ∨ ∃ fd exe, next.exeFile = some exe ∧
        prctlSetMmExeFile answers mm.exeFile fd = .ok exe ∧ answers.nsCapable = true) := by
  unfold setWholeMap at hset
  obtain ⟨-, hset⟩ := require_seq_eq_ok_iff.mp hset
  cases hrequest : answers.request with
  | none =>
    rw [hrequest] at hset
    injection hset
  | some prctlMap =>
    rw [hrequest] at hset
    obtain ⟨⟨⟩, hvalid, hset⟩ := seq_eq_ok_iff.mp hset
    obtain ⟨savedAuxv, hauxv, hset⟩ := seq_eq_ok_iff.mp hset
    obtain ⟨exeFile, hexe, hset⟩ := seq_eq_ok_iff.mp hset
    obtain rfl := Except.ok.inj hset
    refine ⟨sound_of_valid hvalid, ?_, ?_⟩
    · unfold PrctlMmMap.newAuxv at hauxv
      split_ifs at hauxv with hsize
      · exact Or.inl (Except.ok.inj hauxv).symm
      · obtain ⟨-, hauxv⟩ := require_seq_eq_ok_iff.mp hauxv
        obtain rfl := Except.ok.inj hauxv
        exact Or.inr (nullTerminated_sealAuxv w _)
    · unfold PrctlMmMap.newExeFile at hexe
      split_ifs at hexe with hfd
      · exact Or.inl (Except.ok.inj hexe).symm
      · have hcapable := (validatePrctlMap_eq_ok_iff.mp hvalid).2.2.2.2.2 hfd
        cases hfile : prctlSetMmExeFile answers mm.exeFile prctlMap.exeFd with
        | error errno =>
          rw [hfile] at hexe
          injection hexe
        | ok exe =>
          rw [hfile] at hexe
          obtain rfl := Except.ok.inj hexe
          exact Or.inr ⟨_, exe, rfl, hfile, hcapable⟩

/-- What `prctl_set_auxv` does: each byte stays, or is one of a vector that ends in zeros. -/
theorem prctlSetAuxv_eq_ok {answers : MmAnswers w} {mm next : Mm w n} {len : BitVec w}
    (hset : prctlSetAuxv answers mm len = .ok next) :
    (∀ i, next.savedAuxv i = mm.savedAuxv i ∨ ∃ bytes, next.savedAuxv i = sealAuxv w bytes i) ∧
      next = { mm with savedAuxv := next.savedAuxv } := by
  unfold prctlSetAuxv at hset
  obtain ⟨-, hset⟩ := require_seq_eq_ok_iff.mp hset
  obtain ⟨-, hset⟩ := require_seq_eq_ok_iff.mp hset
  obtain rfl := Except.ok.inj hset
  refine ⟨fun i ↦ ?_, rfl⟩
  by_cases hwritten : i < len.toNat
  · exact Or.inr ⟨_, if_pos hwritten⟩
  · exact Or.inl (if_neg hwritten)

/-- What a call for one field does. -/
theorem setField_eq_ok {answers : MmAnswers w} {mm next : Mm w n} {field : MmField}
    {addr : BitVec w} (hset : setField layout answers mm field addr = .ok next) :
    next.map.Sound layout ∧ next = { mm with map := next.map } := by
  unfold setField at hset
  obtain ⟨⟨⟩, hvalid, hset⟩ := seq_eq_ok_iff.mp hset
  obtain ⟨-, hset⟩ := require_seq_eq_ok_iff.mp hset
  obtain rfl := Except.ok.inj hset
  exact ⟨sound_of_valid hvalid, rfl⟩

/-! ### The states that are reached without a capability -/

/-- What a call finds that makes a request. -/
def PrctlMmMap.answers (request : PrctlMmMap) (dataLimit : BitVec w) : MmAnswers w where
  capable := false
  nsCapable := false
  dataLimit := dataLimit
  request := some request
  bytes := []
  putUser := true
  file _ := none
  mayExec := none
  mapped := []
  vma := true

/-- A call that makes a request. -/
def PrctlMmMap.event (layout : MmLayout w) (request : PrctlMmMap) (dataLimit : BitVec w) :
    MmEvent w where
  opt := .map
  addr := 0
  arg4 := BitVec.ofNat w layout.mapSize
  arg5 := 0
  answers := request.answers dataLimit

/-- The state after a call that asks for given fields, and for an auxiliary vector or none. -/
theorem after_request (hw : w ≤ 64) (hn : n < UInt32.size)
    (hrestore : layout.checkpointRestore = true) (hsize : layout.mapSize < 2 ^ w) {map : MmMap w}
    (hsound : map.Sound layout) {dataLimit : BitVec w}
    (haccepted : layout.acceptsData dataLimit map = true) {auxv : Option (Fin n → UInt8)}
    (hnull : ∀ vector ∈ auxv, NullTerminated w vector) (mm : Mm w n) :
    mm.after layout ((map.request auxv).event layout dataLimit) =
      { map, savedAuxv := auxv.getD mm.savedAuxv, exeFile := mm.exeFile } := by
  have hlength : (BitVec.ofNat w layout.mapSize).toNat = layout.mapSize := by
    rw [BitVec.toNat_ofNat, Nat.mod_eq_of_lt hsize]
  have hset : setWholeMap layout ((map.request auxv).answers dataLimit) mm
      (BitVec.ofNat w layout.mapSize) =
        .ok { map, savedAuxv := auxv.getD mm.savedAuxv, exeFile := mm.exeFile } := by
    refine require_seq_eq_ok_iff.mpr ⟨hlength, seq_eq_ok_iff.mpr
      ⟨(), valid_request hw hn hsound auxv haccepted, seq_eq_ok_iff.mpr
        ⟨_, newAuxv_request hn map hnull mm.savedAuxv, ?_⟩⟩⟩
    change (Except.ok ⟨(map.request auxv).words, _, _⟩ : Except Errno (Mm w n)) = _
    rw [words_request hw]
  have hok : prctlSetMm layout ((map.request auxv).answers dataLimit) mm .map 0
      (BitVec.ofNat w layout.mapSize) 0 =
        .ok (none, { map, savedAuxv := auxv.getD mm.savedAuxv, exeFile := mm.exeFile }) := by
    refine require_seq_eq_ok_iff.mpr ⟨⟨rfl, fun _ ↦ Or.inr (Or.inl rfl)⟩, ?_⟩
    rw [if_pos ⟨hrestore, Or.inl rfl⟩]
    exact seq_eq_ok_iff.mpr ⟨_, hset, rfl⟩
  exact Mm.after_of_ok hok

/-- A call without a capability leaves the `mm_struct` as it is, or writes it as `PR_SET_MM_MAP`
does. -/
theorem Mm.Moves.of_incapable {event : MmEvent w} {mm next : Mm w n}
    (hmoves : mm.Moves layout event.answers next) (hincapable : event.Incapable) :
    next = mm ∨ next.map.Sound layout ∧
      (next.savedAuxv = mm.savedAuxv ∨ NullTerminated w next.savedAuxv) ∧
      next.exeFile = mm.exeFile := by
  obtain ⟨hcapable, hnsCapable⟩ := hincapable
  cases hmoves with
  | same => exact Or.inl rfl
  | whole _ dataSize hset =>
    obtain ⟨hsound, hauxv, hsame | ⟨_, _, _, _, hgranted⟩⟩ := setWholeMap_eq_ok hset
    · exact Or.inr ⟨hsound, hauxv, hsame⟩
    · exact absurd (hnsCapable.symm.trans hgranted) (by decide)
  | exeFile _ _ hgranted | auxv _ _ hgranted | field _ _ _ hgranted =>
    exact absurd (hcapable.symm.trans hgranted) (by decide)

/-- The states that a task reaches without a capability are exactly the first one, and those that
have sound fields, the first auxiliary vector or any that ends in zeros, and the first file.
Assumes: the kernel has `CONFIG_CHECKPOINT_RESTORE`, a word has at most 64 bits and can hold the
size of `struct prctl_mm_map`, and the size of the auxiliary vector has 32 bits. -/
theorem reachable_incapable_iff (hw : w ≤ 64) (hn : n < UInt32.size)
    (hrestore : layout.checkpointRestore = true) (hsize : layout.mapSize < 2 ^ w)
    (first mm : Mm w n) :
    (memoryMap layout first).ReachableUnder (fun _ event ↦ event.Incapable) mm ↔
      mm = first ∨ mm.map.Sound layout ∧
        (mm.savedAuxv = first.savedAuxv ∨ NullTerminated w mm.savedAuxv) ∧
        mm.exeFile = first.exeFile := by
  constructor
  · intro hreach
    refine hreach.invariant (Or.inl rfl) ?_
    intro state event next hstate hincapable hstep
    obtain rfl := Option.some.inj hstep
    obtain hsame | ⟨hsound, hauxv, hexe⟩ := (state.after_moves event).of_incapable hincapable
    · rwa [hsame]
    · refine Or.inr ⟨hsound, ?_⟩
      obtain rfl | ⟨-, hearlier, hfile⟩ := hstate
      · exact ⟨hauxv, hexe⟩
      · refine ⟨?_, hexe.trans hfile⟩
        obtain hkept | hnull := hauxv
        · rwa [hkept]
        · exact Or.inr hnull
  · rintro (rfl | ⟨hsound, hauxv, hexe⟩)
    · exact .initial
    · obtain ⟨dataLimit, haccepted⟩ := hsound.accepted
      have hreach : ∀ auxv : Option (Fin n → UInt8),
          (∀ vector ∈ auxv, NullTerminated w vector) → auxv.getD first.savedAuxv = mm.savedAuxv →
            (memoryMap layout first).ReachableUnder (fun _ event ↦ event.Incapable) mm := by
        intro auxv hnull hvector
        have hafter := after_request hw hn hrestore hsize hsound haccepted hnull first
        rw [hvector, ← hexe] at hafter
        exact .step .initial ⟨rfl, rfl⟩ (congrArg some hafter)
      obtain hsame | hnull := hauxv
      · exact hreach none (fun _ hvector ↦ absurd hvector (Option.not_mem_none _)) hsame.symm
      · exact hreach (some mm.savedAuxv)
          (fun _ hvector ↦ Option.mem_some_iff.mp hvector ▸ hnull) rfl

/-- `check_data_rlimit` of a 32-bit kernel: without a limit anything is accepted, and else the heap
and the data together must not exceed it. -/
def dataWithin (rlim new start endData startData : BitVec 32) : Bool :=
  rlim = rlimInfinity 32 ∨ new - start + (endData - startData) ≤ rlim

/-- A 32-bit kernel with three gigabytes for the tasks. -/
def layout32 : MmLayout 32 :=
  { taskSize := 0xC0000000, mmapMinAddr := 0x10000, checkDataRlimit := dataWithin, mapSize := 100
    checkpointRestore := true }

/-- The fields of a small program. -/
def smallMap : MmMap 32
  | .startCode => 0x8048000
  | .endCode => 0x8049000
  | .startData => 0x804A000
  | .endData => 0x804B000
  | .startBrk => 0x9000000
  | .brk => 0x9021000
  | .startStack => 0xBFFFF000
  | .argStart => 0xBFFFF100
  | .argEnd => 0xBFFFF110
  | .envStart => 0xBFFFF110
  | .envEnd => 0xBFFFF200

/-- The program, started with an auxiliary vector of two empty entries. -/
def smallMm : Mm 32 16 :=
  { map := smallMap, savedAuxv := fun _ ↦ 0, exeFile := some ⟨1, true, false⟩ }

/-- The fields of the program with an empty heap in front of the code. -/
def heapFirst : MmMap 32 :=
  Function.update (Function.update smallMap .startBrk 0x20000) .brk 0x20000

/-- The check that the heap is behind the data does not hold up a 32-bit program. -/
theorem reachable_incapable_heapFirst :
    (memoryMap layout32 smallMm).ReachableUnder (fun _ event ↦ event.Incapable)
      { smallMm with map := heapFirst } := by
  have hrange : ∀ field, layout32.Contains (heapFirst field) := by
    intro field
    cases field <;> decide
  have hsound : heapFirst.Sound layout32 :=
    ⟨hrange, by decide, ⟨rlimInfinity 32, by decide⟩, fun hword ↦ absurd hword (by decide)⟩
  exact (reachable_incapable_iff (by decide) (by decide) rfl (by decide) smallMm _).mpr
    (Or.inr ⟨hsound, Or.inl rfl, rfl⟩)

/-! ### The states that are reached -/

/-- A file that may be executed: a regular one on a file system from which files are executed. -/
def OpenFile.Executable (exe : OpenFile) : Prop := exe.regular = true ∧ exe.noexec = false

/-- What `prctl_set_mm_exe_file` has checked when it accepts a file. -/
theorem prctlSetMmExeFile_eq_ok {answers : MmAnswers w} {exeFile : Option OpenFile} {fd : UInt32}
    {exe : OpenFile} (hset : prctlSetMmExeFile answers exeFile fd = .ok exe) :
    answers.file fd = some exe ∧ exe.Executable ∧
      ∀ old ∈ exeFile, some old.path ∉ answers.mapped := by
  unfold prctlSetMmExeFile at hset
  cases hfile : answers.file fd with
  | none =>
    rw [hfile] at hset
    injection hset
  | some found =>
    rw [hfile] at hset
    obtain ⟨⟨hregular, hnoexec⟩, hset⟩ := require_seq_eq_ok_iff.mp hset
    obtain ⟨⟨⟩, -, hset⟩ := seq_eq_ok_iff.mp hset
    obtain ⟨hunmapped, hset⟩ := require_seq_eq_ok_iff.mp hset
    obtain rfl := Except.ok.inj hset
    exact ⟨rfl, ⟨hregular, Bool.eq_false_iff.mpr hnoexec⟩, hunmapped⟩

/-- What every call keeps: the fields are the first ones or sound, the auxiliary vector ends in
zeros, and the file is the first one or may be executed. -/
structure Mm.Kept (layout : MmLayout w) (mm first : Mm w n) : Prop where
  map : mm.map = first.map ∨ mm.map.Sound layout
  auxv : NullTerminated w mm.savedAuxv
  exe : mm.exeFile = first.exeFile ∨ ∃ exe, mm.exeFile = some exe ∧ exe.Executable

theorem Mm.Moves.kept {answers : MmAnswers w} {first mm next : Mm w n}
    (hmoves : mm.Moves layout answers next) (hkept : mm.Kept layout first) :
    next.Kept layout first := by
  cases hmoves with
  | same => exact hkept
  | whole _ dataSize hset =>
    obtain ⟨hsound, hauxv, hexe⟩ := setWholeMap_eq_ok hset
    refine ⟨Or.inr hsound, ?_, ?_⟩
    · obtain hsame | hnull := hauxv
      · exact hsame ▸ hkept.auxv
      · exact hnull
    · obtain hsame | ⟨fd, exe, hnew, hfile, -⟩ := hexe
      · exact hsame ▸ hkept.exe
      · exact Or.inr ⟨exe, hnew, (prctlSetMmExeFile_eq_ok hfile).2.1⟩
  | exeFile exe fd _ hset =>
    exact ⟨hkept.map, hkept.auxv, Or.inr ⟨exe, rfl, (prctlSetMmExeFile_eq_ok hset).2.1⟩⟩
  | auxv _ len _ hset =>
    obtain ⟨hbytes, hnext⟩ := prctlSetAuxv_eq_ok hset
    rw [hnext]
    refine ⟨hkept.map, fun i hlast ↦ ?_, hkept.exe⟩
    obtain hsame | ⟨bytes, hsealed⟩ := hbytes i
    · exact hsame.trans (hkept.auxv i hlast)
    · exact hsealed.trans (nullTerminated_sealAuxv w bytes i hlast)
  | field _ field addr _ hset =>
    obtain ⟨hsound, hnext⟩ := setField_eq_ok hset
    rw [hnext]
    exact ⟨Or.inr hsound, hkept.auxv, hkept.exe⟩

/-- What a capable caller finds that sets the auxiliary vector or the file. -/
def setting (auxv : Fin n → UInt8) (exe : Option OpenFile) : MmAnswers w where
  capable := true
  nsCapable := false
  dataLimit := 0
  request := none
  bytes := List.ofFn auxv
  putUser := true
  file _ := exe
  mayExec := none
  mapped := []
  vma := true

/-- The state after a call that sets the auxiliary vector. -/
theorem after_auxv (hn : n < 2 ^ w) (mm : Mm w n) {auxv : Fin n → UInt8}
    (hnull : NullTerminated w auxv) :
    mm.after layout ⟨.auxv, 0, BitVec.ofNat w n, 0, setting auxv none⟩ =
      { mm with savedAuxv := auxv } := by
  have hlength : (BitVec.ofNat w n).toNat = n := by rw [BitVec.toNat_ofNat, Nat.mod_eq_of_lt hn]
  have hbytes : (fun i : Fin n ↦ if (i : ℕ) < (BitVec.ofNat w n).toNat then
      sealAuxv w (fun i : Fin n ↦ (List.ofFn auxv).getD i 0) i else mm.savedAuxv i) = auxv := by
    have hall : (fun i : Fin n ↦ (List.ofFn auxv).getD i 0) = auxv := by
      funext i
      simp
    funext i
    rw [hlength, if_pos i.isLt, hall, hnull.sealAuxv_eq]
  have hset : prctlSetAuxv (setting auxv none) mm (BitVec.ofNat w n) =
      .ok { mm with savedAuxv := auxv } := by
    refine require_seq_eq_ok_iff.mpr ⟨hlength.le, require_seq_eq_ok_iff.mpr ⟨?_, ?_⟩⟩
    · have hall : (List.ofFn auxv).length = n := List.length_ofFn
      rw [hlength]
      exact hall.ge
    · exact congrArg (fun vector ↦ Except.ok { mm with savedAuxv := vector }) hbytes
  have hok : prctlSetMm layout (setting auxv none) mm .auxv 0 (BitVec.ofNat w n) 0 =
      .ok (none, { mm with savedAuxv := auxv }) := by
    refine require_seq_eq_ok_iff.mpr ⟨⟨rfl, fun _ ↦ Or.inl rfl⟩, ?_⟩
    rw [if_neg (by simp)]
    exact require_seq_eq_ok_iff.mpr ⟨rfl, seq_eq_ok_iff.mpr ⟨_, hset, rfl⟩⟩
  exact Mm.after_of_ok hok

/-- The state after a call that sets the file. -/
theorem after_exe (mm : Mm w n) {exe : OpenFile} (hexe : exe.Executable) :
    mm.after layout ⟨.exeFile, 0, 0, 0, setting mm.savedAuxv (some exe)⟩ =
      { mm with exeFile := some exe } := by
  have hset : ∀ fd,
      prctlSetMmExeFile (setting mm.savedAuxv (some exe) : MmAnswers w) mm.exeFile fd =
        .ok exe := by
    intro fd
    refine require_seq_eq_ok_iff.mpr ⟨⟨hexe.1, by simp [hexe.2]⟩, seq_eq_ok_iff.mpr ⟨(), rfl, ?_⟩⟩
    exact require_seq_eq_ok_iff.mpr ⟨fun _ _ ↦ List.not_mem_nil, rfl⟩
  have hok : prctlSetMm layout (setting mm.savedAuxv (some exe)) mm .exeFile 0 0 0 =
      .ok (none, { mm with exeFile := some exe }) := by
    refine require_seq_eq_ok_iff.mpr ⟨⟨rfl, fun hzero ↦ absurd rfl hzero⟩, ?_⟩
    rw [if_neg (by simp)]
    exact require_seq_eq_ok_iff.mpr ⟨rfl, seq_eq_ok_iff.mpr ⟨_, hset _, rfl⟩⟩
  exact Mm.after_of_ok hok

/-- The states that a task reaches with any capabilities are exactly those that have the first
fields or sound ones, an auxiliary vector that ends in zeros, and the first file or one that may be
executed. Assumes: as before, and the first auxiliary vector ends in zeros and a word can hold its
size. -/
theorem reachable_mm_iff (hw : w ≤ 64) (hn : n < UInt32.size) (hword : n < 2 ^ w)
    (hrestore : layout.checkpointRestore = true) (hsize : layout.mapSize < 2 ^ w)
    {first : Mm w n} (hfirst : NullTerminated w first.savedAuxv) (mm : Mm w n) :
    (memoryMap layout first).Reachable mm ↔ mm.Kept layout first := by
  constructor
  · intro hreach
    refine hreach.invariant ⟨Or.inl rfl, hfirst, Or.inl rfl⟩ ?_
    intro state event next hkept hstep
    obtain rfl := Option.some.inj hstep
    exact (state.after_moves event).kept hkept
  · rintro ⟨hmap, hauxv, hexe⟩
    have hvector : (memoryMap layout first).Reachable { first with savedAuxv := mm.savedAuxv } :=
      .step .initial trivial (congrArg some (after_auxv hword first hauxv))
    have hfile : (memoryMap layout first).Reachable
        { first with savedAuxv := mm.savedAuxv, exeFile := mm.exeFile } := by
      obtain hsame | ⟨exe, hnew, hexecutable⟩ := hexe
      · rwa [hsame]
      · rw [hnew]
        exact .step hvector trivial (congrArg some (after_exe _ hexecutable))
    obtain hsame | hsound := hmap
    · rwa [← hsame] at hfile
    · obtain ⟨dataLimit, haccepted⟩ := hsound.accepted
      have hnone : ∀ vector ∈ (none : Option (Fin n → UInt8)), NullTerminated w vector :=
        fun _ hvector ↦ absurd hvector (Option.not_mem_none _)
      exact .step hfile trivial (congrArg some
        (after_request hw hn hrestore hsize hsound haccepted hnone _))

/-- The small program can be given another file and another auxiliary vector, and keeps its fields.
-/
theorem reachable_mm_smallMm :
    (memoryMap layout32 smallMm).Reachable
      { smallMm with exeFile := some ⟨2, true, false⟩ } :=
  (reachable_mm_iff (by decide) (by decide) (by decide) rfl (by decide) (fun _ _ ↦ rfl) _).mpr
    ⟨Or.inl rfl, fun _ _ ↦ rfl, Or.inr ⟨⟨2, true, false⟩, rfl, rfl, rfl⟩⟩

/-- When the file is another one at the end of a run, some call on the way was made with one of the
capabilities, at a moment when the file before it was not mapped. -/
theorem exists_capable_of_exe_changed {first final : Mm w n} {events : List (MmEvent w)}
    (hrun : (memoryMap layout first).run first events = some final)
    (hchanged : final.exeFile ≠ first.exeFile) :
    ∃ before event rest between, events = before ++ event :: rest ∧
      (memoryMap layout first).run first before = some between ∧
      (event.answers.capable = true ∨ event.answers.nsCapable = true) ∧
      ∀ old ∈ between.exeFile, some old.path ∉ event.answers.mapped := by
  obtain ⟨before, event, rest, between, next, hevents, hbefore, hstep, hnext⟩ :=
    System.exists_change_of_run Mm.exeFile hrun hchanged
  refine ⟨before, event, rest, between, hevents, hbefore, ?_⟩
  obtain rfl := Option.some.inj hstep
  have hmoves : between.Moves layout event.answers (between.after layout event) :=
    between.after_moves event
  generalize between.after layout event = next at hmoves hnext
  cases hmoves with
  | same => exact absurd rfl hnext
  | whole _ dataSize hset =>
    obtain ⟨-, -, hsame | ⟨fd, exe, -, hfile, hgranted⟩⟩ := setWholeMap_eq_ok hset
    · exact absurd hsame hnext
    · exact ⟨Or.inr hgranted, (prctlSetMmExeFile_eq_ok hfile).2.2⟩
  | exeFile exe fd hgranted hset =>
    exact ⟨Or.inl hgranted, (prctlSetMmExeFile_eq_ok hset).2.2⟩
  | auxv _ len _ hset => exact absurd (congrArg Mm.exeFile (prctlSetAuxv_eq_ok hset).2) hnext
  | field _ field addr _ hset => exact absurd (congrArg Mm.exeFile (setField_eq_ok hset).2) hnext

/-- The small program is given another file once. -/
theorem exists_capable_smallMm :
    ∃ before event rest between,
      [(⟨.exeFile, 0, 0, 0, setting smallMm.savedAuxv (some ⟨2, true, false⟩)⟩ : MmEvent 32)] =
        before ++ event :: rest ∧
      (memoryMap layout32 smallMm).run smallMm before = some between ∧
      (event.answers.capable = true ∨ event.answers.nsCapable = true) ∧
      ∀ old ∈ between.exeFile, some old.path ∉ event.answers.mapped := by
  have hrun : (memoryMap layout32 smallMm).run smallMm
      [⟨.exeFile, 0, 0, 0, setting smallMm.savedAuxv (some ⟨2, true, false⟩)⟩] =
        some { smallMm with exeFile := some ⟨2, true, false⟩ } :=
    congrArg some (after_exe smallMm ⟨rfl, rfl⟩)
  exact exists_capable_of_exe_changed hrun (by decide)

/-! ### One field and all the fields -/

/-- The words of a request that changes one field. -/
theorem words_withField (hw : w ≤ 64) (mm : Mm w n) (field : MmField) (addr : BitVec w) :
    ((mm.withField field addr).words : MmMap w) = Function.update mm.map field addr := by
  funext other
  change (((mm.withField field addr).map other).setWidth w : BitVec w) = _
  unfold Mm.withField
  dsimp only
  by_cases hsame : other = field
  · subst hsame
    rw [Function.update_self, Function.update_self, BitVec.setWidth_setWidth_of_le _ hw,
      BitVec.setWidth_eq]
  · rw [Function.update_of_ne hsame, Function.update_of_ne hsame,
      BitVec.setWidth_setWidth_of_le _ hw, BitVec.setWidth_eq]

/-- What a call for one field takes to succeed. -/
theorem prctlSetMm_field_iff {answers : MmAnswers w} {mm next : Mm w n} {field : MmField}
    {addr : BitVec w} :
    prctlSetMm layout answers mm (.field field) addr 0 0 = .ok (none, next) ↔
      answers.capable = true ∧ layout.Contains addr ∧
        validatePrctlMap n layout answers (mm.withField field addr) = .ok () ∧
        (field.needsMapping = true → answers.vma = true) ∧
        { mm with map := (mm.withField field addr).words } = next := by
  have hset : setField layout answers mm field addr = .ok next ↔
      validatePrctlMap n layout answers (mm.withField field addr) = .ok () ∧
        (field.needsMapping = true → answers.vma = true) ∧
        { mm with map := (mm.withField field addr).words } = next := by
    unfold setField
    rw [seq_eq_ok_iff]
    constructor
    · rintro ⟨⟨⟩, hvalid, hrest⟩
      obtain ⟨hmapping, hnext⟩ := require_seq_eq_ok_iff.mp hrest
      exact ⟨hvalid, hmapping, Except.ok.inj hnext⟩
    · rintro ⟨hvalid, hmapping, hnext⟩
      exact ⟨(), hvalid, require_seq_eq_ok_iff.mpr ⟨hmapping, congrArg Except.ok hnext⟩⟩
  rw [← hset]
  unfold prctlSetMm
  rw [require_seq_eq_ok_iff, if_neg (by simp), require_seq_eq_ok_iff, require_seq_eq_ok_iff,
    seq_eq_ok_iff]
  constructor
  · rintro ⟨-, hcapable, hcontains, other, hother, hnext⟩
    obtain ⟨-, rfl⟩ := Prod.mk.inj (Except.ok.inj hnext)
    exact ⟨hcapable, hcontains, hother⟩
  · rintro ⟨hcapable, hcontains, hnext⟩
    exact ⟨⟨rfl, fun hzero ↦ absurd rfl hzero⟩, hcapable, hcontains, next, hnext, rfl⟩

/-- What a call for all the fields takes to succeed that changes one of them. -/
theorem prctlSetMm_map_iff (hrestore : layout.checkpointRestore = true)
    (hsize : layout.mapSize < 2 ^ w) {answers : MmAnswers w} {mm next : Mm w n} {field : MmField}
    {addr : BitVec w} (hrequest : answers.request = some (mm.withField field addr)) :
    prctlSetMm layout answers mm .map addr (BitVec.ofNat w layout.mapSize) 0 = .ok (none, next) ↔
      validatePrctlMap n layout answers (mm.withField field addr) = .ok () ∧
        { mm with map := (mm.withField field addr).words } = next := by
  have hlength : (BitVec.ofNat w layout.mapSize).toNat = layout.mapSize := by
    rw [BitVec.toNat_ofNat, Nat.mod_eq_of_lt hsize]
  have hset : setWholeMap layout answers mm (BitVec.ofNat w layout.mapSize) = .ok next ↔
      validatePrctlMap n layout answers (mm.withField field addr) = .ok () ∧
        { mm with map := (mm.withField field addr).words } = next := by
    unfold setWholeMap
    rw [require_seq_eq_ok_iff, hrequest]
    constructor
    · rintro ⟨-, hset⟩
      obtain ⟨⟨⟩, hvalid, hnext⟩ := seq_eq_ok_iff.mp hset
      exact ⟨hvalid, Except.ok.inj hnext⟩
    · rintro ⟨hvalid, hnext⟩
      exact ⟨hlength, seq_eq_ok_iff.mpr ⟨(), hvalid, congrArg Except.ok hnext⟩⟩
  rw [← hset]
  unfold prctlSetMm
  rw [require_seq_eq_ok_iff, if_pos ⟨hrestore, Or.inl rfl⟩]
  unfold prctlSetMmMap
  rw [if_neg (by decide), seq_eq_ok_iff]
  constructor
  · rintro ⟨-, other, hother, hnext⟩
    obtain ⟨-, rfl⟩ := Prod.mk.inj (Except.ok.inj hnext)
    exact hother
  · intro hnext
    exact ⟨⟨rfl, fun _ ↦ Or.inr (Or.inl rfl)⟩, next, hnext, rfl⟩

/-- The two interfaces agree: a call for one field succeeds exactly when a call for all the fields
does that changes only this one, the caller is capable and an address that needs a mapping has one;
and then both leave the same `mm_struct`. -/
theorem setField_iff_setWhole (hw : w ≤ 64) (hrestore : layout.checkpointRestore = true)
    (hsize : layout.mapSize < 2 ^ w) (answers : MmAnswers w) (mm next : Mm w n) (field : MmField)
    (addr : BitVec w) :
    prctlSetMm layout answers mm (.field field) addr 0 0 = .ok (none, next) ↔
      answers.capable = true ∧ (field.needsMapping = true → answers.vma = true) ∧
        prctlSetMm layout { answers with request := some (mm.withField field addr) } mm .map addr
          (BitVec.ofNat w layout.mapSize) 0 = .ok (none, next) := by
  rw [prctlSetMm_field_iff, prctlSetMm_map_iff hrestore hsize rfl]
  constructor
  · rintro ⟨hcapable, -, hvalid, hmapping, hnext⟩
    exact ⟨hcapable, hmapping, hvalid, hnext⟩
  · rintro ⟨hcapable, hmapping, hvalid, hnext⟩
    refine ⟨hcapable, ?_, hvalid, hmapping, hnext⟩
    have hcontains := (validatePrctlMap_eq_ok_iff.mp hvalid).1 field
    rwa [words_withField hw, Function.update_self] at hcontains

/-- What a capable caller finds that has no limit for its data. -/
def unlimited : MmAnswers 32 :=
  { (setting smallMm.savedAuxv none : MmAnswers 32) with dataLimit := rlimInfinity 32 }

/-- The small program grows its heap by a page in either way. -/
theorem setField_iff_smallMm :
    prctlSetMm layout32 { unlimited with request := some (smallMm.withField .brk 0x9022000) }
      smallMm .map 0x9022000 100 0 =
        .ok (none, { smallMm with map := (smallMm.withField .brk 0x9022000).words }) := by
  have hfield : prctlSetMm layout32 unlimited smallMm (.field .brk) 0x9022000 0 0 =
      .ok (none, { smallMm with map := (smallMm.withField .brk 0x9022000).words }) :=
    prctlSetMm_field_iff.mpr ⟨rfl, by decide, by decide, fun _ ↦ rfl, rfl⟩
  exact ((setField_iff_setWhole (by decide) rfl (by decide) unlimited smallMm _ .brk
    0x9022000).mp hfield).2.2

end Apes.Kernel
