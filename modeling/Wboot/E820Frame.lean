import Wboot.E820Capacity

/-! What a successful translation changes, also when the setup_data list is not
what it should be: the slots, the node, the count, and the one field that gets the
address of the node, wherever the walk of `add_e820ext` found its last node. -/

namespace Wboot.E820Translation
open StateProgram ByteMemory Machine LinuxBoot RangeMerge
open CString (addressSpace)

section Linking
variable {start : Ram} {params e820ext e820extSize : Nat}

/-- What a successful call did to memory, whatever hangs off the setup_data list. -/
theorem translation_links (layout : Layout start.mem params e820ext e820extSize)
    (success : (wbootTranslateMemmap params e820ext e820extSize start).1 = some efiSuccess) :
    let count := (mergedEntries start.mem params (descriptorCount start.mem params)).length
    Framed start.mem (loopedMemory start params e820ext e820extSize) params e820ext e820extSize ∧
      ((count ≤ e820MaxEntriesZeropage ∧ (wbootTranslateMemmap params e820ext e820extSize start).2.mem =
          Params.e820Entries.set (loopedMemory start params e820ext e820extSize) params count) ∨
        (e820MaxEntriesZeropage < count ∧ e820ext ≠ 0 ∧ sizeofSetupData ≤ e820extSize ∧ ∃ last,
          lastSetupNode start params e820ext e820extSize (count - e820MaxEntriesZeropage) = some last ∧
          (wbootTranslateMemmap params e820ext e820extSize start).2.mem =
            linkedMemory (loopedMemory start params e820ext e820extSize) params e820ext
              (linkField params last) count)) := by
  have course := wbootTranslateMemmap_course layout
  generalize wbootTranslateMemmap params e820ext e820extSize start = outcome at course success ⊢
  cases course with
  | refused full tracks => cases success
  | @short looped cursor kept merged loop tracks fits =>
      have count : kept.length - (kept.length - e820MaxEntriesZeropage) = kept.length := by omega
      rw [mergedMap_some merged, loop, count]
      exact ⟨tracks.frame, Or.inl ⟨fits, rfl⟩⟩
  | @linked looped cursor kept last merged loop tracks long walk =>
      obtain ⟨present, room⟩ := tracks.ahead long
      rw [mergedMap_some merged, loop]
      exact ⟨tracks.frame, Or.inr ⟨long, present, by omega, last, walk, rfl⟩⟩
  | stuck merged loop tracks long walk => cases success

/-- A byte that is no slot, not the count, not in the header of the node and not in the
field the node is linked at. -/
theorem translation_frame (layout : Layout start.mem params e820ext e820extSize)
    (success : (wbootTranslateMemmap params e820ext e820extSize start).1 = some efiSuccess) {x : Nat}
    (fixed : ¬ Writable params e820ext e820extSize x) (other : x ≠ params + Params.e820Entries.offset)
    (away : ∀ nrEntries, e820MaxEntriesZeropage + nrEntries =
        (mergedEntries start.mem params (descriptorCount start.mem params)).length → 0 < nrEntries →
      (x < e820ext ∨ e820ext + sizeofSetupData ≤ x) ∧
        ∀ last, lastSetupNode start params e820ext e820extSize nrEntries = some last →
          x < linkField params last ∨ linkField params last + 8 ≤ x) :
    (wbootTranslateMemmap params e820ext e820extSize start).2.mem x = start.mem x := by
  have counted : x < params + Params.e820Entries.offset ∨
      params + Params.e820Entries.offset + Params.e820Entries.width ≤ x := by
    simp only [Params.e820Entries] at *
    omega
  obtain ⟨framed, ⟨-, stored⟩ | ⟨long, -, -, last, walk, stored⟩⟩ := translation_links layout success
  · rw [stored, Field.set_frame _ _ _ _ _ counted, framed x fixed]
  · obtain ⟨inHeader, inLink⟩ := away _ (Nat.add_sub_cancel' (Nat.le_of_lt long)) (by omega)
    rw [stored, linkedMemory, Field.set_frame _ _ _ _ _ counted, store_frame _ _ _ _ _ (inLink last walk)]
    exact (headerWritten_frame _ _ _ inHeader).trans (framed x fixed)

theorem loopedMemory_framed (layout : Layout start.mem params e820ext e820extSize) :
    Framed start.mem (loopedMemory start params e820ext e820extSize) params e820ext e820extSize := by
  have loop := translateLoop_tracks layout (descriptorCount start.mem params) (by omega)
    (tracks_begin start params e820ext e820extSize)
  unfold loopedMemory
  split at loop
  · obtain ⟨later, j, after, held, runs, tracks⟩ := loop
    rw [runs]
    exact tracks.frame
  · obtain ⟨after, later, runs, tracks⟩ := loop
    rw [runs]
    exact tracks.frame

theorem walkedMemory_fixed (layout : Layout start.mem params e820ext e820extSize) (nrEntries : Nat)
    {x : Nat} (untouched : ¬ Writable params e820ext e820extSize x)
    (outside : x < e820ext ∨ e820ext + sizeofSetupData ≤ x) :
    walkedMemory start params e820ext e820extSize nrEntries x = start.mem x :=
  (headerWritten_frame _ _ _ outside).trans (loopedMemory_framed layout x untouched)

/-- The head of the list is neither in the table nor in the node. -/
theorem walkedMemory_head (layout : Layout start.mem params e820ext e820extSize)
    (apart : Apart params sizeofBootParams e820ext sizeofSetupData) (nrEntries : Nat) :
    Hdr.setupData.get (walkedMemory start params e820ext e820extSize nrEntries) (params + Params.hdr) =
      Hdr.setupData.get start.mem (params + Params.hdr) := by
  apply Field.get_congr
  intro x lower upper
  simp only [Apart, Params.hdr, Hdr.setupData, sizeofBootParams] at lower upper apart
  refine walkedMemory_fixed layout nrEntries (fixed_params layout x (by omega) ?_) (by omega)
  simp only [Params.e820Table]
  omega

/-- A list whose links are not written to is walked to its end. -/
theorem lastSetupNode_of_list (layout : Layout start.mem params e820ext e820extSize) {nodes : List Nat}
    (list : SetupList start.mem (Hdr.setupData.get start.mem (params + Params.hdr)) nodes)
    (fixed : ∀ node ∈ nodes, ∀ x, node ≤ x → x < node + 8 →
      ¬ Writable params e820ext e820extSize x ∧ (x < e820ext ∨ e820ext + sizeofSetupData ≤ x))
    (apart : Apart params sizeofBootParams e820ext sizeofSetupData) (nrEntries : Nat) :
    lastSetupNode start params e820ext e820extSize nrEntries = some (nodes.getLastD 0) := by
  have head : Hdr.setupData.get start.mem (params + Params.hdr) < 2 ^ 64 :=
    lt_of_lt_of_eq (load_lt start.mem _ 8) (by norm_num)
  unfold lastSetupNode walkFrom
  rw [← walkedMemory, walkedMemory_head layout apart]
  refine (list.congr fun node member => ?_).lastNode (list.length_lt head)
  apply Field.get_congr
  intro x lower upper
  obtain ⟨untouched, outside⟩ := fixed node member x lower upper
  exact walkedMemory_fixed layout nrEntries untouched outside

theorem lastSetupNode_of_node (layout : Layout start.mem params e820ext e820extSize) {node : Nat}
    (head : Hdr.setupData.get start.mem (params + Params.hdr) = node) (some : node ≠ 0)
    (ended : Node.next.get start.mem node = 0) (offPage : Apart node 8 params sizeofBootParams)
    (offNode : Apart node 8 e820ext e820extSize) (room : sizeofSetupData ≤ e820extSize)
    (present : e820ext ≠ 0) (nrEntries : Nat) :
    lastSetupNode start params e820ext e820extSize nrEntries = Option.some node := by
  have apart := layout.extApart present
  refine @lastSetupNode_of_list _ _ _ _ layout [node] ⟨head, some, ended⟩ ?_ ?_ nrEntries
  · intro other member x lower upper
    rw [List.mem_singleton.mp member] at lower upper
    simp only [Writable, Apart, Params.e820Table, e820MaxEntriesZeropage, sizeofBootE820Entry,
      sizeofSetupData, sizeofBootParams] at *
    omega
  · simp only [Apart] at *
    omega

/-- A walk that was seen to end, ends. -/
theorem walkEnds_of_last {last : Nat} (walk : ∀ nrEntries,
      lastSetupNode start params e820ext e820extSize nrEntries = some last) :
    WalkEnds start params e820ext e820extSize := by
  intro nrEntries total more
  have long : e820MaxEntriesZeropage <
      (mergedEntries start.mem params (descriptorCount start.mem params)).length := by omega
  exact (walkEnds_iff long rfl).mpr ⟨last, walk _⟩ nrEntries total more

end Linking

/-! The crowded map with one node in the list, an empty one at 0x40000. -/

def chainedMap : Memory := Hdr.setupData.set crowdedMap (0x10000 + Params.hdr) 0x40000

theorem chainedMap_layout : Layout chainedMap 0x10000 0x30000 143 where
  descSize := by decide +kernel
  mapBounded := by decide +kernel
  extBounded := by decide
  extApart := fun _ => Or.inl (by decide)
  mapApart := Or.inr (by decide +kernel)
  mapExtApart := fun _ => Or.inl (by decide +kernel)

theorem chainedMap_walk (nrEntries : Nat) :
    lastSetupNode ⟨chainedMap, []⟩ 0x10000 0x30000 143 nrEntries = some 0x40000 := by
  exact @lastSetupNode_of_node ⟨chainedMap, []⟩ _ _ _ chainedMap_layout 0x40000 (by decide +kernel)
    (by decide) (by change Node.next.get chainedMap _ = 0; decide +kernel) (by decide) (by decide)
    (by decide) (by decide) nrEntries

theorem chainedMap_succeeds :
    (wbootTranslateMemmap 0x10000 0x30000 143 ⟨chainedMap, []⟩).1 = some efiSuccess := by
  have overflows : overflowIndex chainedMap 0x10000 = some 128 :=
    (overflowIndex_iff chainedMap 0x10000 128).mpr (by decide +kernel)
  refine (@translation_succeeds_iff ⟨chainedMap, []⟩ _ _ _ chainedMap_layout fun i here => ?_).mpr
    (walkEnds_of_last chainedMap_walk)
  obtain rfl := Option.some.inj (overflows.symm.trans here)
  decide +kernel

end Wboot.E820Translation
