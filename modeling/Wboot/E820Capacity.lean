import Wboot.E820Linking

/-! The one capacity test of `wboot_translate_memmap`, made at the descriptor that
needs entry 129. What it asks for keeps every later entry inside the buffer. It
asks for more than the node takes: the header it adds is the wrong one. -/

namespace Wboot.E820Translation
open StateProgram ByteMemory Machine LinuxBoot RangeMerge

/-! ### The merged list -/

/-- One descriptor, without the capacity test. -/
def mergeStep (kept : List (Range Nat)) : Option (Range Nat) → List (Range Nat)
  | none => kept
  | some range => if grows kept range then grown kept range else range :: kept

/-- The merged list of the first `count` descriptors, newest first. -/
def mergedEntries (memory : Memory) (params count : Nat) : List (Range Nat) :=
  (inputRanges memory params count).foldl mergeStep []

/-- The descriptor that needs entry 129, if there is one. -/
def overflowIndex (memory : Memory) (params : Nat) : Option Nat :=
  (List.range (descriptorCount memory params)).find? fun i =>
    decide (e820MaxEntriesZeropage < (mergedEntries memory params (i + 1)).length)

theorem grown_length (kept : List (Range Nat)) (range : Range Nat) :
    (grown kept range).length = kept.length := by
  cases kept <;> rfl

theorem mergeStep_length (kept : List (Range Nat)) (range : Option (Range Nat)) :
    kept.length ≤ (mergeStep kept range).length ∧ (mergeStep kept range).length ≤ kept.length + 1 := by
  cases range with
  | none => exact ⟨Nat.le_refl _, Nat.le_succ _⟩
  | some range =>
      simp only [mergeStep]
      split
      · rw [grown_length]
        exact ⟨Nat.le_refl _, Nat.le_succ _⟩
      · exact ⟨Nat.le_succ _, Nat.le_refl _⟩

/-- The test stops the loop exactly where the table is full and the list grows. -/
theorem mergeDescriptor_step (refused : Bool) (kept : List (Range Nat)) (range : Option (Range Nat)) :
    mergeDescriptor refused kept range =
      if refused = true ∧ kept.length = e820MaxEntriesZeropage ∧
          (mergeStep kept range).length = e820MaxEntriesZeropage + 1
      then none else some (mergeStep kept range) := by
  cases range with
  | none =>
      rw [if_neg]
      · rfl
      · rintro ⟨-, full, longer⟩
        simp only [mergeStep] at longer
        omega
  | some range =>
      simp only [mergeDescriptor, mergeRange, mergeStep]
      by_cases touch : grows kept range = true
      · simp only [touch, ↓reduceIte, grown_length]
        rw [if_neg]
        rintro ⟨-, full, longer⟩
        omega
      · simp only [touch, Bool.false_eq_true, ↓reduceIte, List.length_cons, Nat.add_right_cancel_iff,
          and_self]
        exact if_congr and_comm rfl rfl

theorem mergeFrom_some {refused : Nat → Bool} {i : Nat} {kept final : List (Range Nat)}
    {ranges : List (Option (Range Nat))} (merged : mergeFrom refused i kept ranges = some final) :
    final = ranges.foldl mergeStep kept := by
  induction ranges generalizing i kept with
  | nil => exact (Option.some.inj merged).symm
  | cons range rest ih =>
      rw [mergeFrom, mergeDescriptor_step] at merged
      split at merged
      · cases merged
      · rename_i next step
        split at step
        · cases step
        · cases step
          exact ih merged

theorem mergeFrom_none_iff (refused : Nat → Bool) (i : Nat) (kept : List (Range Nat))
    (ranges : List (Option (Range Nat))) :
    mergeFrom refused i kept ranges = none ↔ ∃ j < ranges.length, refused (i + j) = true ∧
      ((ranges.take j).foldl mergeStep kept).length = e820MaxEntriesZeropage ∧
      ((ranges.take (j + 1)).foldl mergeStep kept).length = e820MaxEntriesZeropage + 1 := by
  induction ranges generalizing i kept with
  | nil => simp [mergeFrom]
  | cons range rest ih =>
      rw [mergeFrom, mergeDescriptor_step]
      by_cases stops : refused i = true ∧ kept.length = e820MaxEntriesZeropage ∧
          (mergeStep kept range).length = e820MaxEntriesZeropage + 1
      · rw [if_pos stops]
        exact ⟨fun _ => ⟨0, Nat.zero_lt_succ _, stops⟩, fun _ => rfl⟩
      · rw [if_neg stops]
        dsimp only
        rw [ih]
        constructor
        · rintro ⟨j, bound, here⟩
          have index : i + 1 + j = i + (j + 1) := by omega
          exact ⟨j + 1, Nat.succ_lt_succ bound, index ▸ here⟩
        · rintro ⟨j, bound, here⟩
          cases j with
          | zero => exact absurd here stops
          | succ j =>
              have index : i + 1 + j = i + (j + 1) := by omega
              exact ⟨j, Nat.lt_of_succ_lt_succ bound, index ▸ here⟩

section Merged
variable (memory : Memory) (params : Nat)

theorem inputRanges_take {count j : Nat} (early : j ≤ count) :
    (inputRanges memory params count).take j = inputRanges memory params j := by
  rw [inputRanges, ← List.map_take, List.take_range, Nat.min_eq_left early, inputRanges]

theorem mergedEntries_succ (count : Nat) :
    mergedEntries memory params (count + 1) = mergeStep (mergedEntries memory params count)
      (rangeOf memory (descriptorAt memory params count)) := by
  rw [mergedEntries, inputRanges, List.range_succ, List.map_append, List.foldl_append]
  rfl

theorem mergedEntries_mono {first count : Nat} (early : first ≤ count) :
    (mergedEntries memory params first).length ≤ (mergedEntries memory params count).length := by
  induction count, early using Nat.le_induction with
  | base => exact Nat.le_refl _
  | succ count _ ih =>
      rw [mergedEntries_succ]
      exact Nat.le_trans ih (mergeStep_length _ _).1

theorem mergedEntries_length (count : Nat) : (mergedEntries memory params count).length ≤ count := by
  induction count with
  | zero => exact Nat.le_refl 0
  | succ count ih =>
      rw [mergedEntries_succ]
      exact (mergeStep_length _ _).2.trans (Nat.succ_le_succ ih)

/-- Entry 129 is needed once, by the descriptor that finds the table full. -/
theorem overflowIndex_iff (i : Nat) :
    overflowIndex memory params = some i ↔ i < descriptorCount memory params ∧
      (mergedEntries memory params i).length = e820MaxEntriesZeropage ∧
      (mergedEntries memory params (i + 1)).length = e820MaxEntriesZeropage + 1 := by
  have steps := mergeStep_length (mergedEntries memory params i)
    (rangeOf memory (descriptorAt memory params i))
  rw [← mergedEntries_succ] at steps
  simp only [overflowIndex, List.find?_range_eq_some, decide_eq_true_eq, List.mem_range,
    Bool.not_eq_eq_eq_not, Bool.not_true, decide_eq_false_iff_not, Nat.not_lt]
  constructor
  · rintro ⟨exceeds, bound, first⟩
    have full : (mergedEntries memory params i).length ≤ e820MaxEntriesZeropage := by
      cases i with
      | zero => exact Nat.zero_le _
      | succ i => exact first i (Nat.lt_succ_self i)
    exact ⟨bound, by omega, by omega⟩
  · rintro ⟨bound, full, exceeds⟩
    refine ⟨by omega, bound, fun j early => ?_⟩
    have before := mergedEntries_mono memory params (show j + 1 ≤ i from early)
    omega

theorem mergeFrom_refused_iff (refused : Nat → Bool) :
    mergeFrom refused 0 [] (inputRanges memory params (descriptorCount memory params)) = none ↔
      ∃ i, overflowIndex memory params = some i ∧ refused i = true := by
  have length : (inputRanges memory params (descriptorCount memory params)).length =
      descriptorCount memory params := by simp [inputRanges]
  rw [mergeFrom_none_iff, length]
  constructor
  · rintro ⟨i, bound, refuses, full, exceeds⟩
    rw [inputRanges_take memory params (Nat.le_of_lt bound)] at full
    rw [inputRanges_take memory params bound] at exceeds
    exact ⟨i, (overflowIndex_iff memory params i).mpr ⟨bound, full, exceeds⟩, Nat.zero_add i ▸ refuses⟩
  · rintro ⟨i, overflows, refuses⟩
    obtain ⟨bound, full, exceeds⟩ := (overflowIndex_iff memory params i).mp overflows
    refine ⟨i, bound, (Nat.zero_add i).symm ▸ refuses, ?_, ?_⟩
    · rwa [inputRanges_take memory params (Nat.le_of_lt bound)]
    · rwa [inputRanges_take memory params bound]

end Merged

/-! ### The whole function -/

/-- An entry of the table, or 20 bytes of the buffer behind its header. -/
def InBuffers (params e820ext e820extSize entry : Nat) : Prop :=
  (∃ k < e820MaxEntriesZeropage, entry = params + Params.e820Table + k * sizeofBootE820Entry) ∨
    (e820ext ≠ 0 ∧ e820ext + sizeofSetupData ≤ entry ∧
      entry + sizeofBootE820Entry ≤ e820ext + e820extSize)

section Whole
variable {start : Ram} {params e820ext e820extSize : Nat}

theorem slot_inBuffers {k : Nat} (room : InRoom e820ext e820extSize k) :
    InBuffers params e820ext e820extSize (slot params e820ext k) := by
  unfold slot
  split
  · rename_i inTable
    exact Or.inl ⟨k, inTable, rfl⟩
  · rename_i past
    obtain tooEarly | ⟨present, fits⟩ := room
    · exact absurd tooEarly past
    · refine Or.inr ⟨present, ?_⟩
      simp only [sizeofBootE820Entry, sizeofSetupData] at *
      omega

/-- Linking the node creates and grows no entry, so the loop's log is the whole log. -/
theorem Course.logged {outcome : Option EfiStatus × Ram}
    (course : Course start params e820ext e820extSize outcome) (entry : Nat)
    (member : Access.e820Entry entry ∈ outcome.2.accesses) :
    Access.e820Entry entry ∈ start.accesses ∨ InBuffers params e820ext e820extSize entry := by
  have tracked {ram : Ram} {cursor : Cursor} {i : Nat} {kept : List (Range Nat)}
      (tracks : Tracks start ram params e820ext e820extSize (descriptorCount start.mem params) i cursor kept)
      (logged : Access.e820Entry entry ∈ ram.accesses) :
      Access.e820Entry entry ∈ start.accesses ∨ InBuffers params e820ext e820extSize entry := by
    rcases tracks.logged entry logged with old | ⟨k, room, rfl⟩
    · exact Or.inl old
    · exact Or.inr (slot_inBuffers room)
  cases course with
  | refused full tracks => exact tracked tracks member
  | short merged loop tracks fits => exact tracked tracks member
  | linked merged loop tracks long walk => exact tracked tracks member
  | stuck merged loop tracks long walk => exact tracked tracks member

theorem mergedMap_none_iff (memory : Memory) (params e820ext e820extSize : Nat) :
    mergedMap memory params e820ext e820extSize = none ↔ ∃ i, overflowIndex memory params = some i ∧
      refusedAt e820ext e820extSize (descriptorCount memory params) i = true :=
  mergeFrom_refused_iff memory params _

theorem mergedMap_some {memory : Memory} {kept : List (Range Nat)}
    (merged : mergedMap memory params e820ext e820extSize = some kept) :
    mergedEntries memory params (descriptorCount memory params) = kept :=
  (mergeFrom_some merged).symm

/-- The count is stored last, so what the link did to memory does not matter. -/
theorem translation_count (layout : Layout start.mem params e820ext e820extSize)
    (success : (wbootTranslateMemmap params e820ext e820extSize start).1 = some efiSuccess) :
    Params.e820Entries.get (wbootTranslateMemmap params e820ext e820extSize start).2.mem params =
      min (mergedEntries start.mem params (descriptorCount start.mem params)).length
        e820MaxEntriesZeropage := by
  have course := wbootTranslateMemmap_course layout
  generalize wbootTranslateMemmap params e820ext e820extSize start = outcome at course success ⊢
  have counted (memory : Memory) (kept : List (Range Nat)) :
      Params.e820Entries.get (Params.e820Entries.set memory params
        (kept.length - (kept.length - e820MaxEntriesZeropage))) params =
      min kept.length e820MaxEntriesZeropage := by
    rw [Field.get_set_same]
    simp only [Params.e820Entries, e820MaxEntriesZeropage]
    omega
  cases course with
  | refused full tracks => cases success
  | short merged loop tracks fits =>
      rw [mergedMap_some merged]
      exact counted _ _
  | linked merged loop tracks long walk =>
      rw [mergedMap_some merged]
      exact counted _ _
  | stuck merged loop tracks long walk => cases success

/-- The setup_data list that `add_e820ext` walks ends, when it has a node to link. -/
def WalkEnds (start : Ram) (params e820ext e820extSize : Nat) : Prop :=
  ∀ nrEntries, e820MaxEntriesZeropage + nrEntries =
      (mergedEntries start.mem params (descriptorCount start.mem params)).length → 0 < nrEntries →
    ∃ nodes, SetupList (walkedMemory start params e820ext e820extSize nrEntries)
      (Hdr.setupData.get (walkedMemory start params e820ext e820extSize nrEntries)
        (params + Params.hdr)) nodes

theorem walkEnds_iff {kept : List (Range Nat)} (long : e820MaxEntriesZeropage < kept.length)
    (merged : mergedEntries start.mem params (descriptorCount start.mem params) = kept) :
    WalkEnds start params e820ext e820extSize ↔ ∃ last, lastSetupNode start params e820ext e820extSize
      (kept.length - e820MaxEntriesZeropage) = some last := by
  have head : Hdr.setupData.get (walkedMemory start params e820ext e820extSize
      (kept.length - e820MaxEntriesZeropage)) (params + Params.hdr) < 2 ^ 64 :=
    lt_of_lt_of_eq (load_lt _ _ 8) (by norm_num)
  unfold lastSetupNode walkFrom
  rw [← walkedMemory, walk_ends_iff head]
  subst merged
  constructor
  · exact fun every => every _ (by omega) (by omega)
  · intro list nrEntries total _
    have same : nrEntries = (mergedEntries start.mem params
        (descriptorCount start.mem params)).length - e820MaxEntriesZeropage := by omega
    rw [same]
    exact list

/-- A call that refuses nothing succeeds, unless the list to link to runs in a circle. -/
theorem translation_succeeds_iff (layout : Layout start.mem params e820ext e820extSize)
    (accepted : ∀ i, overflowIndex start.mem params = some i →
      refusedAt e820ext e820extSize (descriptorCount start.mem params) i = false) :
    (wbootTranslateMemmap params e820ext e820extSize start).1 = some efiSuccess ↔
      WalkEnds start params e820ext e820extSize := by
  have course := wbootTranslateMemmap_course layout
  generalize wbootTranslateMemmap params e820ext e820extSize start = outcome at course ⊢
  cases course with
  | refused full tracks =>
      obtain ⟨i, overflows, refused⟩ := (mergedMap_none_iff _ _ _ _).mp full
      exact Bool.noConfusion (refused.symm.trans (accepted i overflows))
  | short merged loop tracks fits =>
      rw [← mergedMap_some merged] at fits
      exact ⟨fun _ nrEntries total some => by omega, fun _ => rfl⟩
  | linked merged loop tracks long walk =>
      exact ⟨fun _ => (walkEnds_iff long (mergedMap_some merged)).mpr ⟨_, walk⟩, fun _ => rfl⟩
  | stuck merged loop tracks long walk =>
      refine ⟨fun never => (by cases never), fun ends => ?_⟩
      obtain ⟨last, found⟩ := (walkEnds_iff long (mergedMap_some merged)).mp ends
      rw [walk] at found
      cases found

end Whole

/-! A map of 129 one-page descriptors that never merge, all at address 0, for a zero
page at 0x10000. The node at 0x30000 has one entry to take. -/

def crowdedMap : Memory := fun x =>
  if 0x20000 ≤ x ∧ x < 0x20000 + 129 * 40 ∧ (x - 0x20000) % 40 = 24 then 1
  else Params.efiMemmapSize.set (Params.efiMemdescSize.set
    (Params.efiMemmap.set (fun _ => 0) 0x10000 0x20000) 0x10000 40) 0x10000 (129 * 40) x

theorem crowdedMap_layout (e820extSize : Nat) (bounded : e820extSize ≤ 0x10000) :
    Layout crowdedMap 0x10000 0x30000 e820extSize where
  descSize := by decide +kernel
  mapBounded := by decide +kernel
  extBounded := by omega
  extApart := fun _ => Or.inl (by decide)
  mapApart := Or.inr (by decide +kernel)
  mapExtApart := fun _ => Or.inl (by decide +kernel)

theorem crowdedMap_overflows : overflowIndex crowdedMap 0x10000 = some 128 :=
  (overflowIndex_iff crowdedMap 0x10000 128).mpr (by decide +kernel)

section Capacity
variable {start : Ram} {params e820ext e820extSize : Nat}

/-- Each entry the call creates or grows is in the table or in the buffer, also
when it gives up; `need` is an exact sum; and the stored count is the number of
merged entries, or 128 if there are more. -/
theorem translation_stays_in_buffers {memory : Memory}
    (layout : Layout memory params e820ext e820extSize) :
    (∀ entry, Access.e820Entry entry ∈
        (wbootTranslateMemmap params e820ext e820extSize ⟨memory, []⟩).2.accesses →
      InBuffers params e820ext e820extSize entry) ∧
    (∀ i, needBytes (descriptorCount memory params) i =
      (descriptorCount memory params - i) * sizeofBootE820Entry + sizeofSetupHeader) ∧
    ((wbootTranslateMemmap params e820ext e820extSize ⟨memory, []⟩).1 = some efiSuccess →
      Params.e820Entries.get
          (wbootTranslateMemmap params e820ext e820extSize ⟨memory, []⟩).2.mem params =
        min (mergedEntries memory params (descriptorCount memory params)).length
          e820MaxEntriesZeropage) := by
  refine ⟨fun entry member => ?_, needBytes_exact layout, @translation_count ⟨memory, []⟩ _ _ _ layout⟩
  have course := @wbootTranslateMemmap_course params e820ext e820extSize ⟨memory, []⟩ layout
  exact (course.logged entry member).resolve_left List.not_mem_nil

theorem crowded_map_stays_in_buffers :
    (∀ entry, Access.e820Entry entry ∈
        (wbootTranslateMemmap 0x10000 0x30000 143 ⟨crowdedMap, []⟩).2.accesses →
      InBuffers 0x10000 0x30000 143 entry) ∧
    (∀ i, needBytes (descriptorCount crowdedMap 0x10000) i =
      (descriptorCount crowdedMap 0x10000 - i) * sizeofBootE820Entry + sizeofSetupHeader) ∧
    ((wbootTranslateMemmap 0x10000 0x30000 143 ⟨crowdedMap, []⟩).1 = some efiSuccess →
      Params.e820Entries.get (wbootTranslateMemmap 0x10000 0x30000 143 ⟨crowdedMap, []⟩).2.mem
          0x10000 =
        min (mergedEntries crowdedMap 0x10000 (descriptorCount crowdedMap 0x10000)).length
          e820MaxEntriesZeropage) :=
  translation_stays_in_buffers (crowdedMap_layout 143 (by decide))

/-- The map needs a 129th entry at a descriptor for which the node has no room, nor
for those after it. -/
def LacksRoom (memory : Memory) (params e820ext e820extSize : Nat) : Prop :=
  ∃ i, overflowIndex memory params = some i ∧ (e820ext = 0 ∨ e820extSize <
    sizeofSetupData + sizeofBootE820Entry * (descriptorCount memory params - i))

/-- The test adds the size of the kernel's setup header in place of the node's own. -/
theorem tooSmall_iff (layout : Layout start.mem params e820ext e820extSize) :
    (wbootTranslateMemmap params e820ext e820extSize start).1 = some efiBufferTooSmall ↔
      ∃ i, overflowIndex start.mem params = some i ∧ (e820ext = 0 ∨ e820extSize <
        sizeofSetupHeader + sizeofBootE820Entry * (descriptorCount start.mem params - i)) := by
  have need (i : Nat) : refusedAt e820ext e820extSize (descriptorCount start.mem params) i = true ↔
      e820ext = 0 ∨ e820extSize <
        sizeofSetupHeader + sizeofBootE820Entry * (descriptorCount start.mem params - i) := by
    rw [refusedAt, decide_eq_true_eq, needBytes_exact layout, Nat.mul_comm sizeofBootE820Entry,
      Nat.add_comm sizeofSetupHeader]
  simp only [← need, ← mergedMap_none_iff]
  have course := wbootTranslateMemmap_course layout
  generalize wbootTranslateMemmap params e820ext e820extSize start = outcome at course ⊢
  cases course with
  | refused full tracks => exact ⟨fun _ => full, fun _ => rfl⟩
  | short merged loop tracks fits =>
      exact ⟨fun small => (by cases small), fun full => (by rw [full] at merged; cases merged)⟩
  | linked merged loop tracks long walk =>
      exact ⟨fun small => (by cases small), fun full => (by rw [full] at merged; cases merged)⟩
  | stuck merged loop tracks long walk =>
      exact ⟨fun small => (by cases small), fun full => (by rw [full] at merged; cases merged)⟩

/-- The status tells whether there is room, unless the buffer has room for the node
but not for the larger header. -/
theorem tooSmall_lacksRoom_iff (layout : Layout start.mem params e820ext e820extSize) :
    ((wbootTranslateMemmap params e820ext e820extSize start).1 = some efiBufferTooSmall ↔
      LacksRoom start.mem params e820ext e820extSize) ↔
    ∀ i, overflowIndex start.mem params = some i → e820ext = 0 ∨
      e820extSize < sizeofSetupData + sizeofBootE820Entry * (descriptorCount start.mem params - i) ∨
      sizeofSetupHeader + sizeofBootE820Entry * (descriptorCount start.mem params - i) ≤ e820extSize := by
  rw [tooSmall_iff layout, LacksRoom]
  cases overflows : overflowIndex start.mem params with
  | none => simp
  | some i =>
      simp only [Option.some.injEq, exists_eq_left', forall_eq', sizeofSetupHeader, sizeofSetupData]
      omega

/-- The node takes 36 bytes and the test asks for 143. -/
theorem crowded_map_judged_with_room :
    (wbootTranslateMemmap 0x10000 0x30000 143 ⟨crowdedMap, []⟩).1 = some efiBufferTooSmall ↔
      LacksRoom crowdedMap 0x10000 0x30000 143 :=
  (@tooSmall_lacksRoom_iff ⟨crowdedMap, []⟩ 0x10000 0x30000 143
    (crowdedMap_layout 143 (by decide))).mpr fun i overflows => by
      rw [crowdedMap_overflows] at overflows
      cases overflows
      exact Or.inr (Or.inr (by decide +kernel))

end Capacity

def EveryRoomJudged : Prop :=
  ∀ (start : Ram) (params e820ext e820extSize : Nat), Layout start.mem params e820ext e820extSize →
    ((wbootTranslateMemmap params e820ext e820extSize start).1 = some efiBufferTooSmall ↔
      LacksRoom start.mem params e820ext e820extSize)

theorem exact_room_refused : ¬ EveryRoomJudged := by
  intro every
  have layout := crowdedMap_layout 36 (by decide)
  have refused := (@tooSmall_iff ⟨crowdedMap, []⟩ _ _ _ layout).mpr
    ⟨128, crowdedMap_overflows, Or.inr (by decide +kernel)⟩
  obtain ⟨i, overflows, lacking⟩ := (every ⟨crowdedMap, []⟩ 0x10000 0x30000 36 layout).mp refused
  rw [crowdedMap_overflows] at overflows
  cases overflows
  exact absurd lacking (by decide +kernel)

end Wboot.E820Translation
