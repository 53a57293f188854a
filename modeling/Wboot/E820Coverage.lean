import Wboot.E820Frame

/-! What a successful translation means byte by byte: each address is covered by
as many result entries of a type as there are descriptors the switch maps to
that type. The list machine computes on 64-bit sums; while every descriptor ends
inside the address space it is plain coalescing. -/

namespace Wboot.E820Translation
open StateProgram ByteMemory Machine LinuxBoot RangeMerge RangeMerge.Range
open CString (addressSpace)

/-! ### Reading the result -/

def entriesAt (memory : Memory) (start count : Nat) : List (Range Nat) :=
  (List.range count).map fun k => entryRange memory (start + k * sizeofBootE820Entry)

theorem entriesAt_zero (memory : Memory) (start : Nat) : entriesAt memory start 0 = [] := rfl

/-- More than 128 entries were merged, so `add_e820ext` links the node. -/
def nodeLinked (memory : Memory) (params : Nat) : Prop :=
  e820MaxEntriesZeropage < (mergedEntries memory params (descriptorCount memory params)).length

instance (memory : Memory) (params : Nat) : Decidable (nodeLinked memory params) :=
  inferInstanceAs (Decidable (_ < _))

/-- The table up to `e820_entries`, then the linked node up to its `len`. -/
def resultEntries (before after : Memory) (params e820ext : Nat) : List (Range Nat) :=
  entriesAt after (params + Params.e820Table) (Params.e820Entries.get after params) ++
    if nodeLinked before params
    then entriesAt after (e820ext + sizeofSetupData)
      (Node.len.get after e820ext / sizeofBootE820Entry)
    else []

theorem resultEntries_table (before after : Memory) (params e820ext : Nat) {k : Nat}
    (inTable : k < Params.e820Entries.get after params) :
    (resultEntries before after params e820ext)[k]? =
      some (entryRange after (params + Params.e820Table + k * sizeofBootE820Entry)) := by
  unfold resultEntries
  rw [List.getElem?_append_left (by simpa [entriesAt] using inTable), entriesAt, List.getElem?_map,
    List.getElem?_range inTable]
  rfl

/-- The `next` field of the last node of the setup_data list, which gets the address of
the e820ext node, holds no part of the result. -/
def LinkSpares (start : Ram) (params e820ext e820extSize : Nat) : Prop :=
  ∀ nrEntries last, e820MaxEntriesZeropage + nrEntries =
      (mergedEntries start.mem params (descriptorCount start.mem params)).length → 0 < nrEntries →
    lastSetupNode start params e820ext e820extSize nrEntries = some last → last ≠ 0 →
    Spared params e820ext nrEntries (last + Node.next.offset)

def descriptorEnd (memory : Memory) (d : Nat) : Nat :=
  Desc.physicalStart.get memory d + Desc.numberOfPages.get memory d * efiPageSize

/-- The descriptor at `d` describes address `x` and the switch maps it to `e820Type`. -/
def describes (memory : Memory) (e820Type x d : Nat) : Bool :=
  decide (e820TypeOf (Desc.type.get memory d) = some e820Type ∧
    Desc.physicalStart.get memory d ≤ x ∧ x < descriptorEnd memory d)

def descriptors (memory : Memory) (params : Nat) : List Nat :=
  (List.range (descriptorCount memory params)).map (descriptorAt memory params)

/-! ### The list machine coalesces -/

theorem grows_touches (last range : Range Nat) (older : List (Range Nat))
    (bound : last.stop < 2 ^ 64) : grows (last :: older) range = decide (Touches last range) := by
  unfold stop at bound
  simp only [grows, u64, Nat.mod_eq_of_lt bound]
  exact decide_eq_decide.mpr Iff.rfl

theorem mergeRange_absorb {kept next : List (Range Nat)} (refused : Bool) (range : Range Nat)
    (bounded : ∀ old ∈ kept, old.stop < 2 ^ 64) (bound : range.stop < 2 ^ 64)
    (merged : mergeRange refused kept range = some next) :
    next = absorb kept range ∧ ∀ old ∈ next, old.stop < 2 ^ 64 := by
  unfold mergeRange at merged
  cases kept with
  | nil =>
      have fresh : next = [range] := by simpa [grows, e820MaxEntriesZeropage] using merged.symm
      subst fresh
      exact ⟨rfl, by simpa using bound⟩
  | cons last older =>
      have first := bounded last List.mem_cons_self
      rw [grows_touches last range older first] at merged
      by_cases touch : Touches last range
      -- touching ranges below the end of the address space do not overflow their sum
      · have sum : last.size + range.size < 2 ^ 64 := by
          have meets := touch.2
          unfold stop at *
          omega
        simp only [touch, decide_true, ↓reduceIte, grown, u64, Nat.mod_eq_of_lt sum,
          Option.some.injEq] at merged
        subst merged
        refine ⟨by simp [absorb, touch], fun old member => ?_⟩
        rcases List.mem_cons.mp member with same | older
        · subst same
          have meets := touch.2
          unfold stop at *
          simp only
          omega
        · exact bounded old (List.mem_cons_of_mem last older)
      · simp only [touch, decide_false, Bool.false_eq_true, ↓reduceIte] at merged
        split at merged
        · cases merged
        · cases merged
          refine ⟨by simp [absorb, touch], fun old member => ?_⟩
          rcases List.mem_cons.mp member with same | older
          · exact same ▸ bound
          · exact bounded old older

theorem mergeFrom_absorb (refused : Nat → Bool) (ranges : List (Option (Range Nat))) (i : Nat)
    {kept final : List (Range Nat)} (bounded : ∀ old ∈ kept, old.stop < 2 ^ 64)
    (bound : ∀ range ∈ ranges.filterMap id, range.stop < 2 ^ 64)
    (merged : mergeFrom refused i kept ranges = some final) :
    final = (ranges.filterMap id).foldl absorb kept := by
  induction ranges generalizing i kept with
  | nil => simpa [mergeFrom] using merged.symm
  | cons range rest ih =>
      cases range with
      | none => exact ih (i + 1) bounded bound merged
      | some range =>
          simp only [mergeFrom, mergeDescriptor] at merged
          cases step : mergeRange (refused i) kept range with
          | none => simp [step] at merged
          | some next =>
              simp only [step] at merged
              have first := bound range (by simp)
              obtain ⟨same, inside⟩ := mergeRange_absorb (refused i) range bounded first step
              subst same
              exact ih (i + 1) inside
                (fun later member => bound later (by simp at member ⊢; exact Or.inr member)) merged

/-- A descriptor's range covers what the descriptor describes. -/
theorem covers_rangeOf (memory : Memory) (d e820Type x : Nat)
    (bound : descriptorEnd memory d < 2 ^ 64) :
    (rangeOf memory d).any (covers e820Type x) = describes memory e820Type x d := by
  have shift : Desc.numberOfPages.get memory d <<< 12 =
      Desc.numberOfPages.get memory d * efiPageSize := Nat.shiftLeft_eq _ _
  unfold descriptorEnd at bound
  have pages : u64 (Desc.numberOfPages.get memory d <<< 12) =
      Desc.numberOfPages.get memory d * efiPageSize := by
    rw [shift, u64, Nat.mod_eq_of_lt (by omega)]
  unfold rangeOf describes descriptorEnd
  cases maps : e820TypeOf (Desc.type.get memory d) with
  | none => simp
  | some other =>
      simp only [Option.map_some, Option.any_some, covers, stop, pages, Option.some.injEq]
      exact decide_eq_decide.mpr Iff.rfl

theorem rangeOf_stop (memory : Memory) (d : Nat) (range : Range Nat)
    (bound : descriptorEnd memory d < 2 ^ 64) (same : rangeOf memory d = some range) :
    range.stop < 2 ^ 64 := by
  have shift : Desc.numberOfPages.get memory d <<< 12 =
      Desc.numberOfPages.get memory d * efiPageSize := Nat.shiftLeft_eq _ _
  unfold descriptorEnd at bound
  unfold rangeOf at same
  obtain ⟨tag, -, here⟩ := Option.map_eq_some_iff.mp same
  subst here
  unfold stop u64
  rw [shift, Nat.mod_eq_of_lt (by omega)]
  exact bound

theorem countP_filterMap_any {α β : Type} (f : α → Option β) (p : β → Bool) (items : List α) :
    (items.filterMap f).countP p = items.countP fun item => (f item).any p := by
  induction items with
  | nil => rfl
  | cons item rest ih =>
      cases image : f item with
      | none => simp [image, ih]
      | some value => simp [image, ih, List.countP_cons]

theorem inputRanges_count (memory : Memory) (params e820Type x : Nat)
    (bounded : ∀ d ∈ descriptors memory params, descriptorEnd memory d < 2 ^ 64) :
    ((inputRanges memory params (descriptorCount memory params)).filterMap id).countP
        (covers e820Type x) =
      (descriptors memory params).countP (describes memory e820Type x) := by
  have same : (inputRanges memory params (descriptorCount memory params)).filterMap id =
      (descriptors memory params).filterMap (rangeOf memory) := by
    simp [inputRanges, descriptors, List.filterMap_map]
  rw [same, countP_filterMap_any]
  apply List.countP_congr
  intro d member
  rw [covers_rangeOf memory d e820Type x (bounded d member)]

/-! ### The result is the kept list, oldest first -/

theorem Recorded.entries {memory : Memory} {slotOf : Nat → Nat} {kept : List (Range Nat)}
    (recorded : Recorded memory slotOf kept) :
    (List.range kept.length).map (fun k => entryRange memory (slotOf k)) = kept.reverse := by
  induction kept with
  | nil => rfl
  | cons range older ih =>
      obtain ⟨newest, rest⟩ := recorded
      simp [List.range_succ, ih rest, newest]

theorem Recorded.entry {memory : Memory} {slotOf : Nat → Nat} {kept : List (Range Nat)}
    (recorded : Recorded memory slotOf kept) {k : Nat} {range : Range Nat}
    (here : kept.reverse[k]? = some range) : entryRange memory (slotOf k) = range := by
  obtain ⟨bound, -⟩ := List.getElem?_eq_some_iff.mp here
  rw [List.length_reverse] at bound
  rw [← recorded.entries, List.getElem?_map, List.getElem?_range bound] at here
  exact Option.some.inj here

/-- The slots of `kept`, split where the table ends. -/
theorem slots_split {memory : Memory} {params e820ext : Nat} {kept : List (Range Nat)}
    (recorded : Recorded memory (slot params e820ext) kept) :
    entriesAt memory (params + Params.e820Table)
        (kept.length - (kept.length - e820MaxEntriesZeropage)) ++
      entriesAt memory (e820ext + sizeofSetupData) (kept.length - e820MaxEntriesZeropage) =
        kept.reverse := by
  rw [← recorded.entries]
  have whole : kept.length = (kept.length - (kept.length - e820MaxEntriesZeropage)) +
      (kept.length - e820MaxEntriesZeropage) := by omega
  conv => rhs; rw [whole, List.range_add, List.map_append, List.map_map]
  unfold entriesAt
  refine congrArg₂ (· ++ ·) ?_ ?_
  · apply List.map_congr_left
    intro k member
    have early : k < e820MaxEntriesZeropage := by
      have bound := List.mem_range.mp member
      omega
    simp [slot, early]
  · apply List.map_congr_left
    intro k member
    have bound := List.mem_range.mp member
    have first : kept.length - (kept.length - e820MaxEntriesZeropage) = e820MaxEntriesZeropage := by
      omega
    have late : ¬ e820MaxEntriesZeropage + k < e820MaxEntriesZeropage := by omega
    simp [slot, first]

/-- An empty list is linked from boot_params, in front of the table. -/
theorem LinkSpares.linkField {start : Ram} {params e820ext e820extSize : Nat}
    (spares : LinkSpares start params e820ext e820extSize) {nrEntries last : Nat}
    (total : e820MaxEntriesZeropage + nrEntries =
      (mergedEntries start.mem params (descriptorCount start.mem params)).length) (more : 0 < nrEntries)
    (walk : lastSetupNode start params e820ext e820extSize nrEntries = some last)
    (room : sizeofSetupData + nrEntries * sizeofBootE820Entry ≤ e820extSize)
    (separate : Apart params sizeofBootParams e820ext e820extSize) :
    Spared params e820ext nrEntries (linkField params last) := by
  unfold E820Translation.linkField
  by_cases empty : last = 0
  · rw [if_pos empty]
    simp only [Spared, Apart, Node.len, Params.e820Table, Params.hdr, Hdr.setupData, sizeofBootE820Entry,
      sizeofBootParams, sizeofSetupData, e820MaxEntriesZeropage] at *
    omega
  · rw [if_neg empty]
    exact spares nrEntries last total more walk empty

/-- What the kernel will read is the merged list, oldest first. -/
theorem translation_result {start : Ram} {params e820ext e820extSize : Nat}
    (layout : Layout start.mem params e820ext e820extSize)
    (spares : LinkSpares start params e820ext e820extSize)
    (success : (wbootTranslateMemmap params e820ext e820extSize start).1 = some efiSuccess) :
    ∃ kept, mergedMap start.mem params e820ext e820extSize = some kept ∧
      resultEntries start.mem (wbootTranslateMemmap params e820ext e820extSize start).2.mem params
        e820ext = kept.reverse := by
  have count := translation_count layout success
  have course := wbootTranslateMemmap_course layout
  generalize wbootTranslateMemmap params e820ext e820extSize start = outcome at course success count ⊢
  cases course with
  | refused full tracks => cases success
  | @short looped cursor kept merged loop tracks fits =>
      refine ⟨kept, merged, ?_⟩
      have same := mergedMap_some merged
      have alone : ¬ nodeLinked start.mem params := by
        unfold nodeLinked
        rw [same]
        omega
      have recorded : Recorded (Params.e820Entries.set looped.mem params
          (kept.length - (kept.length - e820MaxEntriesZeropage))) (slot params e820ext) kept :=
        tracks.count_spares layout _
      have split := slots_split recorded
      have none : kept.length - e820MaxEntriesZeropage = 0 := by omega
      rw [none, Nat.sub_zero, entriesAt_zero] at split
      rw [resultEntries, count, same, if_neg alone, Nat.min_eq_left fits]
      simpa only [none, Nat.sub_zero] using split
  | @linked looped cursor kept last merged loop tracks long walk =>
      refine ⟨kept, merged, ?_⟩
      have same := mergedMap_some merged
      obtain ⟨present, room⟩ := tracks.ahead long
      have linked : nodeLinked start.mem params := by
        unfold nodeLinked
        rw [same]
        exact long
      have total : e820MaxEntriesZeropage + (kept.length - e820MaxEntriesZeropage) =
          (mergedEntries start.mem params (descriptorCount start.mem params)).length := by
        rw [same]
        omega
      have spared := spares.linkField total (by omega) walk
        (by simp only [sizeofBootE820Entry] at *; omega) (layout.extApart present)
      -- the length field of the node has 32 bits
      have few : kept.length * 40 < 2 ^ 32 := by
        have early := tracks.early
        have small := descriptorCount_small layout
        omega
      have split := slots_split (linkedMemory_recorded layout tracks long spared)
      have len := @linkedMemory_len _ _ _ looped.mem _ _ few (by omega) (layout.extApart present) spared
      have table : kept.length - (kept.length - e820MaxEntriesZeropage) = e820MaxEntriesZeropage := by
        omega
      rw [table] at split
      rw [resultEntries, count, same, if_pos linked, len, Nat.mul_div_cancel _ (by decide),
        Nat.min_eq_right (Nat.le_of_lt long)]
      exact split
  | stuck merged loop tracks long walk => cases success

/-- A successful call leaves the coalesced ranges of the descriptors, oldest first. -/
theorem translation_coalesces {start : Ram} {params e820ext e820extSize : Nat}
    (layout : Layout start.mem params e820ext e820extSize)
    (spares : LinkSpares start params e820ext e820extSize)
    (bounded : ∀ d ∈ descriptors start.mem params, descriptorEnd start.mem d < 2 ^ 64)
    (success : (wbootTranslateMemmap params e820ext e820extSize start).1 = some efiSuccess) :
    resultEntries start.mem (wbootTranslateMemmap params e820ext e820extSize start).2.mem params
        e820ext =
      (coalesce ((inputRanges start.mem params (descriptorCount start.mem params)).filterMap id)).reverse := by
  obtain ⟨kept, merged, result⟩ := translation_result layout spares success
  have inside : ∀ range ∈ (inputRanges start.mem params
      (descriptorCount start.mem params)).filterMap id, range.stop < 2 ^ 64 := by
    intro range member
    obtain ⟨item, here, image⟩ := List.mem_filterMap.mp member
    obtain ⟨i, index, same⟩ := List.mem_map.mp here
    refine rangeOf_stop start.mem (descriptorAt start.mem params i) range ?_ (same.trans image)
    exact bounded _ (List.mem_map.mpr ⟨i, index, rfl⟩)
  rw [result, mergeFrom_absorb _ _ 0 (by simp) inside merged]
  rfl

/-- Every address is covered by as many entries of a type as descriptors describe it. -/
theorem translation_keeps_coverage {start : Ram} {params e820ext e820extSize : Nat}
    (layout : Layout start.mem params e820ext e820extSize)
    (spares : LinkSpares start params e820ext e820extSize)
    (bounded : ∀ d ∈ descriptors start.mem params, descriptorEnd start.mem d < 2 ^ 64)
    (success : (wbootTranslateMemmap params e820ext e820extSize start).1 = some efiSuccess)
    (e820Type x : Nat) :
    (resultEntries start.mem (wbootTranslateMemmap params e820ext e820extSize start).2.mem params
        e820ext).countP (covers e820Type x) =
      (descriptors start.mem params).countP (describes start.mem e820Type x) := by
  rw [translation_coalesces layout spares bounded success, (List.reverse_perm _).countP_eq,
    coalesce_count]
  exact inputRanges_count start.mem params e820Type x bounded

theorem chained_map_keeps_coverage :
    (resultEntries chainedMap (wbootTranslateMemmap 0x10000 0x30000 143 ⟨chainedMap, []⟩).2.mem 0x10000
        0x30000).countP (covers e820TypeReserved 0x800) =
      (descriptors chainedMap 0x10000).countP (describes chainedMap e820TypeReserved 0x800) := by
  refine @translation_keeps_coverage ⟨chainedMap, []⟩ 0x10000 0x30000 143 chainedMap_layout ?_
    (by decide +kernel) chainedMap_succeeds e820TypeReserved 0x800
  intro nrEntries last total more walk some
  have few := mergedEntries_length chainedMap 0x10000 (descriptorCount chainedMap 0x10000)
  have count : descriptorCount chainedMap 0x10000 = 129 := by decide +kernel
  rw [chainedMap_walk] at walk
  cases walk
  simp only [Spared, Apart, Node.next, Node.len, Params.e820Table, sizeofBootE820Entry,
    e820MaxEntriesZeropage] at *
  omega

/-! ### A list that leads into the table -/

/-- The setup_data list is headed by the first entry of the table, and the loop puts a
range at address 0 there, so the entry reads as a node without a next one. -/
structure Overlaid (start : Ram) (params e820ext e820extSize : Nat) (kept : List (Range Nat))
    (first : Range Nat) : Prop where
  layout : Layout start.mem params e820ext e820extSize
  head : Hdr.setupData.get start.mem (params + Params.hdr) = params + Params.e820Table
  merged : mergedMap start.mem params e820ext e820extSize = some kept
  long : e820MaxEntriesZeropage < kept.length
  oldest : kept.reverse[0]? = some first
  low : first.start = 0

section Overlaid
variable {start : Ram} {params e820ext e820extSize : Nat} {kept : List (Range Nat)} {first : Range Nat}

theorem Overlaid.walk (overlaid : Overlaid start params e820ext e820extSize kept first)
    {looped : Memory} (frame : Framed start.mem looped params e820ext e820extSize)
    (recorded : Recorded looped (slot params e820ext) kept) (present : e820ext ≠ 0)
    (room : sizeofSetupData ≤ e820extSize) (nrEntries : Nat) :
    walkFrom looped params e820ext nrEntries = some (params + Params.e820Table) := by
  have apart := overlaid.layout.extApart present
  have entry := recorded.entry overlaid.oldest
  have head : Hdr.setupData.get (headerWritten looped e820ext nrEntries) (params + Params.hdr) =
      params + Params.e820Table := by
    rw [← overlaid.head]
    apply Field.get_congr
    intro x lower upper
    simp only [Apart, Params.hdr, Hdr.setupData, sizeofBootParams, sizeofSetupData] at *
    rw [headerWritten_frame _ _ _ (by simp only [sizeofSetupData]; omega)]
    exact frame x (fixed_params overlaid.layout x (by omega) (by simp only [Params.e820Table]; omega))
  have next : Node.next.get (headerWritten looped e820ext nrEntries) (params + Params.e820Table) = 0 := by
    have addr : Entry.addr.get looped (params + Params.e820Table) = 0 :=
      (congrArg Range.start entry).trans overlaid.low
    rw [← addr]
    refine load_congr fun x lower upper => headerWritten_frame _ _ _ ?_
    simp only [Apart, Node.next, Params.e820Table, sizeofBootParams, sizeofSetupData] at *
    omega
  have list : SetupList (headerWritten looped e820ext nrEntries) (params + Params.e820Table)
      [params + Params.e820Table] := ⟨rfl, by simp [Params.e820Table], next⟩
  unfold walkFrom
  rw [head]
  refine list.lastNode (list.length_lt ?_)
  rw [← overlaid.head]
  exact lt_of_lt_of_eq (load_lt _ _ 8) (by norm_num)

/-- The first entry begins where the node is, the others stand. -/
theorem Overlaid.runs (overlaid : Overlaid start params e820ext e820extSize kept first) :
    ∃ after : Ram, wbootTranslateMemmap params e820ext e820extSize start = (some efiSuccess, after) ∧
      entryRange after.mem (slot params e820ext 0) = { first with start := e820ext } ∧
      ∀ k range, 0 < k → kept.reverse[k]? = some range →
        entryRange after.mem (slot params e820ext k) = range := by
  have course := wbootTranslateMemmap_course overlaid.layout
  generalize wbootTranslateMemmap params e820ext e820extSize start = outcome at course ⊢
  have long := overlaid.long
  cases course with
  | refused full tracks =>
      rw [overlaid.merged] at full
      cases full
  | short merged loop tracks fits =>
      rw [overlaid.merged] at merged
      cases merged
      omega
  | stuck merged loop tracks _ walk =>
      rw [overlaid.merged] at merged
      cases merged
      obtain ⟨present, room⟩ := tracks.ahead long
      rw [lastSetupNode, loop, overlaid.walk tracks.frame tracks.recorded present (by omega)] at walk
      cases walk
  | @linked looped cursor list last merged loop tracks _ walk =>
      rw [overlaid.merged] at merged
      cases merged
      obtain ⟨present, room⟩ := tracks.ahead long
      have apart := overlaid.layout.extApart present
      have bounded := overlaid.layout.extBounded
      rw [lastSetupNode, loop, overlaid.walk tracks.frame tracks.recorded present (by omega)] at walk
      have same : linkField params last = params + Params.e820Table := by
        rw [← Option.some.inj walk]
        rfl
      rw [same]
      have untouched (x : Nat) (inHeader : x < e820ext ∨ e820ext + 16 ≤ x)
          (inLink : x < params + 720 ∨ params + 728 ≤ x) (counted : x ≠ params + 488) :
          linkedMemory looped.mem params e820ext (params + Params.e820Table) kept.length x =
            looped.mem x := by
        unfold linkedMemory
        rw [Field.set_frame, store_frame, headerWritten_frame]
        · exact inHeader
        · exact inLink
        · simp only [Params.e820Entries]
          omega
      simp only [Apart, sizeofBootParams, sizeofSetupData] at apart room bounded
      refine ⟨_, rfl, ?_, fun k range later here => ?_⟩
      -- the link is the address of the first entry, whose size and type are behind it
      · have narrow : e820ext < 256 ^ 8 := by norm_num; omega
        have addr : Entry.addr.get (linkedMemory looped.mem params e820ext (params + Params.e820Table)
            kept.length) (params + Params.e820Table) = e820ext := by
          unfold linkedMemory
          rw [Field.get_set_apart _ _ _ _ _ _
            (Or.inl (by simp only [Params.e820Entries, Params.e820Table]; omega))]
          exact (load_store_same _ _ 8 _).trans (Nat.mod_eq_of_lt narrow)
        have behind (part : Field) (lower : 8 ≤ part.offset) (upper : part.offset + part.width ≤ 20) :
            part.get (linkedMemory looped.mem params e820ext (params + Params.e820Table) kept.length)
              (params + Params.e820Table) = part.get looped.mem (params + Params.e820Table) := by
          refine Field.get_congr _ fun x low high => untouched x ?_ ?_ ?_ <;>
            simp only [Params.e820Table] at low high <;> omega
        have old := tracks.recorded.entry overlaid.oldest
        change entryRange looped.mem (params + Params.e820Table) = first at old
        change entryRange _ (params + Params.e820Table) = _
        rw [← old, entryRange, addr, behind Entry.size (by decide) (by decide),
          behind Entry.type (by decide) (by decide)]
        rfl
      · rw [← tracks.recorded.entry here]
        obtain ⟨bound, -⟩ := List.getElem?_eq_some_iff.mp here
        rw [List.length_reverse] at bound
        apply entryRange_congr
        intro x lower upper
        have place := slot_place params e820ext k
        have inside := tracks.inRoom k bound
        simp only [InRoom, sizeofBootE820Entry, sizeofSetupData, e820MaxEntriesZeropage] at inside upper
        exact untouched x (by omega) (by omega) (by omega)

end Overlaid

/-- The same whatever the setup_data list is. -/
def EveryMapCovered : Prop :=
  ∀ (start : Ram) (params e820ext e820extSize : Nat), Layout start.mem params e820ext e820extSize →
    (∀ d ∈ descriptors start.mem params, descriptorEnd start.mem d < 2 ^ 64) →
    (wbootTranslateMemmap params e820ext e820extSize start).1 = some efiSuccess → ∀ e820Type x,
    (resultEntries start.mem (wbootTranslateMemmap params e820ext e820extSize start).2.mem params
        e820ext).countP (covers e820Type x) =
      (descriptors start.mem params).countP (describes start.mem e820Type x)

/-- The crowded map, whose 129 entries begin at address 0. -/
def overlaidMap : Memory :=
  Hdr.setupData.set crowdedMap (0x10000 + Params.hdr) (0x10000 + Params.e820Table)

theorem overlaidMap_overlaid : Overlaid ⟨overlaidMap, []⟩ 0x10000 0x30000 143
    (List.replicate 129 ⟨0, 4096, e820TypeReserved⟩) ⟨0, 4096, e820TypeReserved⟩ where
  layout :=
    { descSize := by decide +kernel
      mapBounded := by decide +kernel
      extBounded := by decide
      extApart := fun _ => Or.inl (by decide)
      mapApart := Or.inr (by decide +kernel)
      mapExtApart := fun _ => Or.inl (by decide +kernel) }
  head := by decide +kernel
  merged := by decide +kernel
  long := by decide +kernel
  oldest := rfl
  low := rfl

/-- The first entry gets the address of the node, and with it a page no descriptor has. -/
theorem entry_in_list_moved : ¬ EveryMapCovered := by
  intro every
  have overlaid := overlaidMap_overlaid
  obtain ⟨after, run, moved, -⟩ := overlaid.runs
  have success := congrArg Prod.fst run
  have same := every _ _ _ _ overlaid.layout (by decide +kernel) success e820TypeReserved 0x30000
  have count := translation_count overlaid.layout success
  rw [mergedMap_some overlaid.merged, run] at count
  rw [run] at same
  have first := resultEntries_table overlaidMap after.mem 0x10000 0x30000 (k := 0)
    (by rw [count]; decide +kernel)
  have covered : covers e820TypeReserved 0x30000 (entryRange after.mem (0x10000 + Params.e820Table)) := by
    change entryRange after.mem (0x10000 + Params.e820Table) = _ at moved
    rw [moved]
    decide
  have found := List.countP_pos_iff.mpr ⟨_, List.mem_of_getElem? first, covered⟩
  have none : (descriptors overlaidMap 0x10000).countP (describes overlaidMap e820TypeReserved 0x30000) = 0 := by
    decide +kernel
  rw [same, none] at found
  exact absurd found (Nat.lt_irrefl 0)

end Wboot.E820Translation
