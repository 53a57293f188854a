import Wboot.E820Capacity
import Wboot.E820Coverage

/-! The setup_data list after a translation. With more than 128 merged entries the
node becomes its last element; otherwise the list is the one that was there. The
nodes that were there keep everything but the `next` of the last. -/

namespace Wboot.E820Translation
open StateProgram ByteMemory Machine LinuxBoot RangeMerge

theorem SetupList.ended {memory : Memory} {head node : Nat} {nodes : List Nat}
    (list : SetupList memory head (nodes ++ [node])) : Node.next.get memory node = 0 := by
  induction nodes generalizing head with
  | nil =>
      obtain ⟨-, -, last⟩ := list
      exact last
  | cons first rest ih =>
      obtain ⟨-, -, later⟩ := list
      exact ih later

section Nodes
variable {start after : Ram} {params e820ext e820extSize : Nat} {nodes : List Nat}
  {kept : List (Range Nat)}

/-- Type, len and data of the old nodes stay; without a link so does `next`. -/
theorem Translated.nodes_kept
    (chain : SetupChain start.mem params e820ext e820extSize nodes)
    (translated : Translated start after params e820ext e820extSize nodes kept) (node : Nat)
    (member : node ∈ nodes) (x : Nat) (lower : node ≤ x) (upper : x < node + nodeSize start.mem node)
    (past : e820MaxEntriesZeropage < kept.length → node + 8 ≤ x) : after.mem x = start.mem x := by
  have fromParams := chain.paramsApart node member
  apply translated.frame x (chain_fixed chain node member x lower upper)
  · intro long
    have beyond := past long
    have present : e820ext ≠ 0 := by
      obtain ⟨_, _, found⟩ := (translated.linked long).1.suffix e820ext (by simp)
      exact found.2.1
    have room := (translated.linked long).2.2.2
    have fromExt := chain.extApart node member present
    constructor
    · simp only [Apart, sizeofSetupData] at *
      omega
    · unfold linkAddress
      split
      · simp only [Apart, sizeofBootParams, Params.hdr, Hdr.setupData] at *
        omega
      · rename_i some
        have last : nodes.getLastD 0 ∈ nodes := by
          cases nodes with
          | nil => exact absurd rfl some
          | cons first rest => rw [List.getLastD_cons]; exact List.getLastD_mem_cons
        -- the link is the first field of the last node, which is this one or apart from it
        by_cases here : node = nodes.getLastD 0
        · rw [← here]
          simp only [Node.next]
          omega
        · have apart := chain.apart_of_ne member last here
          simp only [Apart, nodeSize, sizeofSetupData, Node.next] at *
          omega
  · simp only [Apart, sizeofBootParams, Params.e820Entries] at *
    omega

end Nodes

/-- A successful translation with `N` merged entries. -/
structure Extended (before after : Memory) (params e820ext e820extSize N : Nat) (nodes : List Nat) : Prop where
  long : e820MaxEntriesZeropage < N →
    Params.e820Entries.get after params = e820MaxEntriesZeropage ∧
    SetupList after (Hdr.setupData.get after (params + Params.hdr)) (nodes ++ [e820ext]) ∧
    Node.type.get after e820ext = setupE820Ext ∧
    Node.next.get after e820ext = 0 ∧
    Node.len.get after e820ext = sizeofBootE820Entry * (N - e820MaxEntriesZeropage) ∧
    sizeofSetupData + Node.len.get after e820ext ≤ e820extSize
  kept : ∀ node ∈ nodes, SameOn after before (node + 8) (8 + Node.len.get before node)
  short : N ≤ e820MaxEntriesZeropage →
    Params.e820Entries.get after params = N ∧
    SetupList after (Hdr.setupData.get after (params + Params.hdr)) nodes ∧
    ∀ node ∈ nodes, SameOn after before node (nodeSize before node)

theorem translation_extends_list {start : Ram} {params e820ext e820extSize : Nat} {nodes : List Nat}
    (layout : Layout start.mem params e820ext e820extSize)
    (chain : SetupChain start.mem params e820ext e820extSize nodes)
    (success : (wbootTranslateMemmap params e820ext e820extSize start).1 = some efiSuccess) :
    Extended start.mem (wbootTranslateMemmap params e820ext e820extSize start).2.mem params e820ext
      e820extSize (mergedEntries start.mem params (descriptorCount start.mem params)).length nodes := by
  have spec := wbootTranslateMemmap_spec layout chain
  -- the merged list is refused exactly when the translation fails
  cases merged : mergedMap start.mem params e820ext e820extSize with
  | none =>
      simp only [merged] at spec
      obtain ⟨later, runs⟩ := spec
      rw [runs] at success
      cases success
  | some kept =>
      simp only [merged] at spec
      obtain ⟨later, runs, translated⟩ := spec
      have entries := mergedMap_some merged
      have count := translated.count
      rw [runs, entries]
      constructor
      case long =>
        intro long
        obtain ⟨list, type, len, room⟩ := translated.linked long
        refine ⟨by rw [count]; omega, list, type, list.ended, by rw [len, Nat.mul_comm], ?_⟩
        rw [len]
        exact room
      case kept =>
        intro node member x lower upper
        refine translated.nodes_kept chain node member x (by omega) ?_ fun _ => lower
        simp only [nodeSize, sizeofSetupData]
        omega
      case short =>
        intro short
        refine ⟨by rw [count]; omega, translated.unlinked short, fun node member x lower upper => ?_⟩
        exact translated.nodes_kept chain node member x lower upper fun long => by omega

/-! The node at 0x40000 is empty. -/

theorem chainedMap_chain : SetupChain chainedMap 0x10000 0x30000 143 [0x40000] where
  chain := by
    refine ⟨by decide +kernel, by decide, ?_⟩
    change Node.next.get chainedMap _ = 0
    decide +kernel
  paramsApart := by decide +kernel
  extApart := by
    intro node member present
    obtain rfl := List.mem_singleton.mp member
    exact Or.inr (by decide)
  separate := List.pairwise_singleton _ _

theorem crowded_map_extends_list :
    Extended chainedMap (wbootTranslateMemmap 0x10000 0x30000 143 ⟨chainedMap, []⟩).2.mem 0x10000 0x30000
      143 (mergedEntries chainedMap 0x10000 (descriptorCount chainedMap 0x10000)).length [0x40000] :=
  @translation_extends_list ⟨chainedMap, []⟩ 0x10000 0x30000 143 [0x40000] chainedMap_layout
    chainedMap_chain chainedMap_succeeds

end Wboot.E820Translation
