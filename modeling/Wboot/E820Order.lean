import Wboot.E820Coverage

/-! The e820 list of a sorted memory map. Its entries ascend and stay apart, and
no two neighbours could have been merged, wherever the table ends. -/

namespace Wboot.E820Translation
open StateProgram ByteMemory Machine LinuxBoot RangeMerge RangeMerge.Range

/-- The descriptors ascend and stay apart. -/
def SortedMap (memory : Memory) (params : Nat) : Prop :=
  (descriptors memory params).Pairwise fun earlier later =>
    descriptorEnd memory earlier ≤ Desc.physicalStart.get memory later

instance (memory : Memory) (params : Nat) : Decidable (SortedMap memory params) :=
  inferInstanceAs (Decidable (List.Pairwise _ _))

theorem rangeOf_before {memory : Memory} {earlier later : Nat} {first second : Range Nat}
    (apart : descriptorEnd memory earlier ≤ Desc.physicalStart.get memory later)
    (filled : Desc.numberOfPages.get memory earlier ≠ 0) (bound : descriptorEnd memory earlier < 2 ^ 64)
    (left : rangeOf memory earlier = some first) (right : rangeOf memory later = some second) :
    Before first second := by
  have shift : Desc.numberOfPages.get memory earlier <<< 12 =
      Desc.numberOfPages.get memory earlier * efiPageSize := Nat.shiftLeft_eq _ _
  unfold descriptorEnd at apart bound
  have pages : u64 (Desc.numberOfPages.get memory earlier <<< 12) =
      Desc.numberOfPages.get memory earlier * efiPageSize := by
    rw [shift, u64, Nat.mod_eq_of_lt (by omega)]
  unfold rangeOf at left right
  obtain ⟨tag, -, here⟩ := Option.map_eq_some_iff.mp left
  obtain ⟨other, -, there⟩ := Option.map_eq_some_iff.mp right
  subst here there
  simp only [Before, stop, pages]
  have positive : 0 < Desc.numberOfPages.get memory earlier * efiPageSize :=
    Nat.mul_pos (Nat.pos_of_ne_zero filled) (by decide)
  omega

theorem inputRanges_ascending {memory : Memory} {params : Nat} (sorted : SortedMap memory params)
    (filled : ∀ d ∈ descriptors memory params, Desc.numberOfPages.get memory d ≠ 0)
    (bounded : ∀ d ∈ descriptors memory params, descriptorEnd memory d < 2 ^ 64) :
    ((inputRanges memory params (descriptorCount memory params)).filterMap id).Pairwise Before := by
  have same : (inputRanges memory params (descriptorCount memory params)).filterMap id =
      (descriptors memory params).filterMap (rangeOf memory) := by
    simp [inputRanges, descriptors, List.filterMap_map]
  rw [same]
  apply List.Pairwise.filterMap (rangeOf memory) _ (sorted.imp_of_mem fun member _ apart =>
    And.intro member apart)
  rintro earlier later ⟨member, apart⟩ first left second right
  exact rangeOf_before apart (filled earlier member) (bounded earlier member) left right

/-- The list for a sorted map of non-empty ranges ascends, its entries stay apart,
and no entry ends where a next one of its type begins. -/
theorem translation_sorted_and_maximal {start : Ram} {params e820ext e820extSize : Nat}
    (layout : Layout start.mem params e820ext e820extSize)
    (spares : LinkSpares start params e820ext e820extSize) (sorted : SortedMap start.mem params)
    (filled : ∀ d ∈ descriptors start.mem params, Desc.numberOfPages.get start.mem d ≠ 0)
    (bounded : ∀ d ∈ descriptors start.mem params, descriptorEnd start.mem d < 2 ^ 64)
    (success : (wbootTranslateMemmap params e820ext e820extSize start).1 = some efiSuccess) :
    (resultEntries start.mem (wbootTranslateMemmap params e820ext e820extSize start).2.mem params
        e820ext).Pairwise Before ∧
      (resultEntries start.mem (wbootTranslateMemmap params e820ext e820extSize start).2.mem params
        e820ext).IsChain fun earlier later => ¬ Touches earlier later := by
  rw [translation_coalesces layout spares bounded success]
  exact ⟨coalesce_ascending (inputRanges_ascending sorted filled bounded), coalesce_maximal _⟩

/-! A map of 129 pages, one in every 0x2000 bytes, for a zero page at 0x10000 and a node
at 0x30000. -/

def gappedMap (setupData : Nat) : Memory :=
  let header := Params.efiMemmapSize.set (Params.efiMemdescSize.set
    (Params.efiMemmap.set (fun _ => 0) 0x10000 0x20000) 0x10000 40) 0x10000 (129 * 40)
  Hdr.setupData.set (fun x =>
    if 0x20000 ≤ x ∧ x < 0x20000 + 129 * 40 then
      match (x - 0x20000) % 40 with
      | 9 => UInt8.ofNat ((x - 0x20000) / 40 * 32)
      | 10 => UInt8.ofNat ((x - 0x20000) / 40 / 8)
      | 24 => 1
      | _ => 0
    else header x) (0x10000 + Params.hdr) setupData

/-- The first `k` merged entries of the gapped map, newest first. -/
def gappedEntries (k : Nat) : List (Range Nat) :=
  ((List.range k).map fun i => ⟨i * 0x2000, 0x1000, e820TypeReserved⟩).reverse

theorem gappedMap_layout : Layout (gappedMap 0x40000) 0x10000 0x30000 143 where
  descSize := by decide +kernel
  mapBounded := by decide +kernel
  extBounded := by decide
  extApart := fun _ => Or.inl (by decide)
  mapApart := Or.inr (by decide +kernel)
  mapExtApart := fun _ => Or.inl (by decide +kernel)

theorem gappedMap_walk (nrEntries : Nat) :
    lastSetupNode ⟨gappedMap 0x40000, []⟩ 0x10000 0x30000 143 nrEntries = some 0x40000 :=
  @lastSetupNode_of_node ⟨gappedMap 0x40000, []⟩ _ _ _ gappedMap_layout 0x40000 (by decide +kernel)
    (by decide) (by change Node.next.get (gappedMap 0x40000) _ = 0; decide +kernel) (by decide)
    (by decide) (by decide) (by decide) nrEntries

theorem gappedMap_succeeds :
    (wbootTranslateMemmap 0x10000 0x30000 143 ⟨gappedMap 0x40000, []⟩).1 = some efiSuccess := by
  have overflows : overflowIndex (gappedMap 0x40000) 0x10000 = some 128 :=
    (overflowIndex_iff _ 0x10000 128).mpr (by decide +kernel)
  refine (@translation_succeeds_iff ⟨gappedMap 0x40000, []⟩ _ _ _ gappedMap_layout
    fun i here => ?_).mpr (walkEnds_of_last gappedMap_walk)
  obtain rfl := Option.some.inj (overflows.symm.trans here)
  decide +kernel

theorem gapped_map_sorted :
    (resultEntries (gappedMap 0x40000) (wbootTranslateMemmap 0x10000 0x30000 143
        ⟨gappedMap 0x40000, []⟩).2.mem 0x10000 0x30000).Pairwise Before ∧
      (resultEntries (gappedMap 0x40000) (wbootTranslateMemmap 0x10000 0x30000 143
        ⟨gappedMap 0x40000, []⟩).2.mem 0x10000 0x30000).IsChain
          fun earlier later => ¬ Touches earlier later := by
  refine @translation_sorted_and_maximal ⟨gappedMap 0x40000, []⟩ 0x10000 0x30000 143 gappedMap_layout ?_
    (by decide +kernel) (by decide +kernel) (by decide +kernel) gappedMap_succeeds
  intro nrEntries last total more walk _
  have few := mergedEntries_length (gappedMap 0x40000) 0x10000 (descriptorCount (gappedMap 0x40000) 0x10000)
  have count : descriptorCount (gappedMap 0x40000) 0x10000 = 129 := by decide +kernel
  rw [gappedMap_walk] at walk
  cases walk
  simp only [Spared, Apart, Node.next, Node.len, Params.e820Table, sizeofBootE820Entry,
    e820MaxEntriesZeropage] at *
  omega

/-- The same whatever the setup_data list is. -/
def EveryListSorted : Prop :=
  ∀ (start : Ram) (params e820ext e820extSize : Nat), Layout start.mem params e820ext e820extSize →
    SortedMap start.mem params →
    (∀ d ∈ descriptors start.mem params, Desc.numberOfPages.get start.mem d ≠ 0) →
    (∀ d ∈ descriptors start.mem params, descriptorEnd start.mem d < 2 ^ 64) →
    (wbootTranslateMemmap params e820ext e820extSize start).1 = some efiSuccess →
    (resultEntries start.mem (wbootTranslateMemmap params e820ext e820extSize start).2.mem params
        e820ext).Pairwise Before ∧
      (resultEntries start.mem (wbootTranslateMemmap params e820ext e820extSize start).2.mem params
        e820ext).IsChain fun earlier later => ¬ Touches earlier later

theorem gappedMap_overlaid : Overlaid ⟨gappedMap (0x10000 + Params.e820Table), []⟩ 0x10000 0x30000 143
    (gappedEntries 129) ⟨0, 0x1000, e820TypeReserved⟩ where
  layout :=
    { descSize := by decide +kernel
      mapBounded := by decide +kernel
      extBounded := by decide
      extApart := fun _ => Or.inl (by decide)
      mapApart := Or.inr (by decide +kernel)
      mapExtApart := fun _ => Or.inl (by decide +kernel) }
  head := by decide +kernel
  merged := by decide +kernel
  long := by decide +kernel
  oldest := by decide +kernel
  low := rfl

/-- The first entry is moved to the address of the node, behind the second. -/
theorem entry_in_list_unsorted : ¬ EveryListSorted := by
  intro every
  have overlaid := gappedMap_overlaid
  obtain ⟨after, run, moved, kept⟩ := overlaid.runs
  have success := congrArg Prod.fst run
  obtain ⟨ascending, -⟩ := every _ _ _ _ overlaid.layout (by decide +kernel) (by decide +kernel)
    (by decide +kernel) success
  have count := translation_count overlaid.layout success
  rw [mergedMap_some overlaid.merged, run] at count
  rw [run] at ascending
  have first := resultEntries_table (gappedMap (0x10000 + Params.e820Table)) after.mem 0x10000 0x30000
    (k := 0) (by rw [count]; decide +kernel)
  have second := resultEntries_table (gappedMap (0x10000 + Params.e820Table)) after.mem 0x10000 0x30000
    (k := 1) (by rw [count]; decide +kernel)
  have later := kept 1 ⟨0x2000, 0x1000, e820TypeReserved⟩ (by decide) (by decide +kernel)
  change entryRange after.mem (0x10000 + Params.e820Table + 0 * sizeofBootE820Entry) = _ at moved
  change entryRange after.mem (0x10000 + Params.e820Table + 1 * sizeofBootE820Entry) = _ at later
  rw [moved] at first
  rw [later] at second
  obtain ⟨bound, head⟩ := List.getElem?_eq_some_iff.mp first
  obtain ⟨bound', next⟩ := List.getElem?_eq_some_iff.mp second
  have before := List.pairwise_iff_getElem.mp ascending 0 1 bound bound' (by decide)
  rw [head, next] at before
  simp only [Before, stop] at before
  omega

end Wboot.E820Translation
