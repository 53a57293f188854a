import Mathlib.Data.List.Pairwise
import Wboot.E820Loop

/-! `add_e820ext` over an acyclic setup_data list, and `wboot_translate_memmap` as
a whole: the loop, then the link behind the last node, then the entry count. -/

namespace Wboot.E820Translation
open StateProgram ByteMemory Machine LinuxBoot RangeMerge
open CString (addressSpace)

variable {memory base : Memory} {params e820ext e820extSize : Nat}

/-! ### The setup_data list -/

/-- The list that starts at `head` runs through exactly `nodes` and ends. -/
def SetupList (memory : Memory) : Nat → List Nat → Prop
  | head, [] => head = 0
  | head, node :: rest => head = node ∧ node ≠ 0 ∧ SetupList memory (Node.next.get memory node) rest

def nodeSize (memory : Memory) (node : Nat) : Nat := sizeofSetupData + Node.len.get memory node

/-- The list off `hdr.setup_data`, its nodes apart from each other, from
boot_params and from the e820ext buffer. -/
structure SetupChain (memory : Memory) (params e820ext e820extSize : Nat) (nodes : List Nat) :
    Prop where
  chain : SetupList memory (Hdr.setupData.get memory (params + Params.hdr)) nodes
  paramsApart : ∀ node ∈ nodes, Apart node (nodeSize memory node) params sizeofBootParams
  extApart : ∀ node ∈ nodes, e820ext ≠ 0 → Apart node (nodeSize memory node) e820ext e820extSize
  separate : nodes.Pairwise fun left right =>
    Apart left (nodeSize memory left) right (nodeSize memory right)

theorem SetupList.unique {head : Nat} {left right : List Nat} (first : SetupList memory head left)
    (second : SetupList memory head right) : left = right := by
  induction left generalizing head right with
  | nil =>
      cases right with
      | nil => rfl
      | cons node rest => exact absurd (first.symm.trans second.1).symm second.2.1
  | cons node rest ih =>
      obtain ⟨here, present, later⟩ := first
      cases right with
      | nil => exact absurd (here.symm.trans second) present
      | cons other tail =>
          obtain ⟨same, -, after⟩ := second
          obtain rfl : node = other := here.symm.trans same
          exact congrArg (List.cons node) (ih later after)

theorem SetupList.suffix {head : Nat} {nodes : List Nat} (list : SetupList memory head nodes)
    (node : Nat) (member : node ∈ nodes) :
    ∃ rest, rest.length < nodes.length ∧ SetupList memory node (node :: rest) := by
  induction nodes generalizing head with
  | nil => simp at member
  | cons first rest ih =>
      obtain ⟨-, present, later⟩ := list
      rcases List.mem_cons.mp member with same | older
      · subst same
        exact ⟨rest, by simp, rfl, present, later⟩
      · obtain ⟨tail, shorter, found⟩ := ih later older
        exact ⟨tail, by simp only [List.length_cons]; omega, found⟩

/-- A list that ends cannot pass a node twice. -/
theorem SetupList.nodup {head : Nat} {nodes : List Nat} (list : SetupList memory head nodes) :
    nodes.Nodup := by
  induction nodes generalizing head with
  | nil => exact List.nodup_nil
  | cons first rest ih =>
      obtain ⟨-, present, later⟩ := list
      refine List.nodup_cons.mpr ⟨fun again => ?_, ih later⟩
      obtain ⟨tail, shorter, found⟩ := later.suffix first again
      have here : SetupList memory first (first :: rest) := ⟨rfl, present, later⟩
      have same := SetupList.unique found here
      simp only [List.cons.injEq, true_and] at same
      subst same
      omega

theorem SetupList.bounded {head : Nat} {nodes : List Nat} (list : SetupList memory head nodes)
    (start : head < 2 ^ 64) : ∀ node ∈ nodes, node < 2 ^ 64 := by
  induction nodes generalizing head with
  | nil => simp
  | cons first rest ih =>
      obtain ⟨here, -, later⟩ := list
      have next : Node.next.get memory first < 2 ^ 64 :=
        lt_of_lt_of_eq (load_lt memory _ 8) (by norm_num)
      intro node member
      rcases List.mem_cons.mp member with same | older
      · omega
      · exact ih later next node older

theorem SetupList.present {head : Nat} {nodes : List Nat} (list : SetupList memory head nodes) :
    ∀ node ∈ nodes, node ≠ 0 := by
  intro node member
  obtain ⟨rest, -, -, present, -⟩ := list.suffix node member
  exact present

/-- NULL ends a list, so it is one more address than the list has nodes. -/
theorem SetupList.length_lt {head : Nat} {nodes : List Nat} (list : SetupList memory head nodes)
    (start : head < 2 ^ 64) : nodes.length < addressSpace := by
  have inside : 0 :: nodes ⊆ List.range addressSpace := by
    intro node member
    rw [List.mem_range, CString.addressSpace_eq]
    rcases List.mem_cons.mp member with null | older
    · omega
    · exact list.bounded start node older
  have distinct : (0 :: nodes).Nodup :=
    List.nodup_cons.mpr ⟨fun null => list.present 0 null rfl, list.nodup⟩
  have short := distinct.length_le_of_subset inside
  rw [List.length_cons, List.length_range] at short
  exact short

theorem SetupList.lastNode {fuel head : Nat} {nodes : List Nat}
    (list : SetupList memory head nodes) (enough : nodes.length < fuel) :
    lastNodeFrom memory fuel head = some (nodes.getLastD 0) := by
  induction nodes generalizing head fuel with
  | nil =>
      have ended : head = 0 := list
      cases fuel with
      | zero => simp at enough
      | succ fuel => simp [lastNodeFrom, ended]
  | cons first rest ih =>
      obtain ⟨here, present, later⟩ := list
      subst here
      cases fuel with
      | zero => simp at enough
      | succ fuel =>
          cases rest with
          | nil =>
              have ended : Node.next.get memory head = 0 := later
              simp [lastNodeFrom, ended]
          | cons second tail =>
              have next : Node.next.get memory head ≠ 0 := later.1 ▸ later.2.1
              have walk := ih later (by simpa using enough)
              simp only [lastNodeFrom, ne_eq, present, next, not_false_eq_true, and_self, ↓reduceIte,
                walk]
              simp

/-- A walk that ends has gone through a list. -/
theorem lastNodeFrom_list {fuel head last : Nat} (walk : lastNodeFrom memory fuel head = some last) :
    ∃ nodes, SetupList memory head nodes ∧ last = nodes.getLastD 0 := by
  induction fuel generalizing head with
  | zero => cases walk
  | succ fuel ih =>
      unfold lastNodeFrom at walk
      split at walk
      · rename_i goes
        obtain ⟨nodes, list, end_⟩ := ih walk
        cases nodes with
        | nil => exact absurd list goes.2
        | cons second tail => exact ⟨head :: second :: tail, ⟨rfl, goes.1, list⟩, by simpa using end_⟩
      · rename_i stops
        obtain rfl : last = head := (Option.some.inj walk).symm
        by_cases null : last = 0
        · exact ⟨[], null, by simpa using null⟩
        · exact ⟨[last], ⟨rfl, null, not_not.mp fun more => stops ⟨null, more⟩⟩, rfl⟩

/-- The walk ends with the tests it is given exactly when the list ends, so a walk
that used them up would use up any number. -/
theorem walk_ends_iff {head : Nat} (start : head < 2 ^ 64) :
    (∃ last, lastNodeFrom memory addressSpace head = some last) ↔
      ∃ nodes, SetupList memory head nodes := by
  constructor
  · rintro ⟨last, walk⟩
    obtain ⟨nodes, list, -⟩ := lastNodeFrom_list walk
    exact ⟨nodes, list⟩
  · rintro ⟨nodes, list⟩
    exact ⟨_, list.lastNode (list.length_lt start)⟩

/-- Redirecting the last node to a new node lengthens the list by that node. -/
theorem SetupList.link {after : Memory} {head node : Nat} {nodes : List Nat}
    (list : SetupList memory head nodes) (some : nodes ≠ [])
    (others : ∀ old ∈ nodes, old ≠ nodes.getLastD 0 → Node.next.get after old = Node.next.get memory old)
    (redirected : Node.next.get after (nodes.getLastD 0) = node)
    (present : node ≠ 0) (ended : Node.next.get after node = 0) :
    SetupList after head (nodes ++ [node]) := by
  induction nodes generalizing head with
  | nil => exact absurd rfl some
  | cons first rest ih =>
      have distinct := list.nodup
      obtain ⟨here, nonnull, later⟩ := list
      cases rest with
      | nil => exact ⟨here, nonnull, redirected, present, ended⟩
      | cons second tail =>
          have last : (first :: second :: tail).getLastD 0 = (second :: tail).getLastD 0 := by simp
          have notLast : first ≠ (second :: tail).getLastD 0 := by
            intro same
            apply (List.nodup_cons.mp distinct).1
            rw [same, List.getLastD_cons]
            exact List.getLastD_mem_cons
          rw [last] at others redirected
          have kept := others first List.mem_cons_self notLast
          refine ⟨here, nonnull, ?_⟩
          rw [kept]
          exact ih later (by simp)
            (fun old member => others old (List.mem_cons_of_mem first member)) redirected

theorem SetupList.congr {after : Memory} {head : Nat} {nodes : List Nat}
    (same : ∀ node ∈ nodes, Node.next.get after node = Node.next.get memory node)
    (list : SetupList memory head nodes) : SetupList after head nodes := by
  induction nodes generalizing head with
  | nil => exact list
  | cons first rest ih =>
      obtain ⟨here, present, later⟩ := list
      refine ⟨here, present, ?_⟩
      rw [same first List.mem_cons_self]
      exact ih (fun node member => same node (List.mem_cons_of_mem first member)) later

/-- `addE820ext`, with the header of the node as one memory and the link as the next. -/
def headerWritten (memory : Memory) (e820ext nrEntries : Nat) : Memory :=
  Node.next.set (Node.len.set (Node.type.set memory e820ext setupE820Ext) e820ext
    (nrEntries * sizeofBootE820Entry)) e820ext 0

theorem headerWritten_frame (e820ext nrEntries x : Nat)
    (outside : x < e820ext ∨ e820ext + sizeofSetupData ≤ x) :
    headerWritten memory e820ext nrEntries x = memory x := by
  unfold headerWritten
  simp only [sizeofSetupData] at outside
  rw [Field.set_frame, Field.set_frame, Field.set_frame] <;>
    simp only [Node.next, Node.len, Node.type] <;> omega

theorem headerWritten_fields (memory : Memory) (e820ext nrEntries : Nat) :
    Node.type.get (headerWritten memory e820ext nrEntries) e820ext = setupE820Ext ∧
    Node.len.get (headerWritten memory e820ext nrEntries) e820ext =
      u32 (nrEntries * sizeofBootE820Entry) ∧
    Node.next.get (headerWritten memory e820ext nrEntries) e820ext = 0 := by
  unfold headerWritten
  refine ⟨?_, ?_, ?_⟩
  · rw [Field.get_set_apart _ _ _ _ _ _ (by unfold Apart; simp [Node.next, Node.type]),
      Field.get_set_apart _ _ _ _ _ _ (by unfold Apart; simp [Node.len, Node.type]),
      Field.get_set_same]
    rfl
  · rw [Field.get_set_apart _ _ _ _ _ _ (by unfold Apart; simp [Node.next, Node.len]),
      Field.get_set_same]
    rfl
  · rw [Field.get_set_same]
    rfl

/-- The field that gets the address of the new node: the last node's, or the list head. -/
def linkField (params last : Nat) : Nat :=
  if last = 0 then params + Params.hdr + Hdr.setupData.offset else last + Node.next.offset

/-- The walk over the list in the memory that `add_e820ext` has left by then. -/
def walkFrom (memory : Memory) (params e820ext nrEntries : Nat) : Option Nat :=
  lastNodeFrom (headerWritten memory e820ext nrEntries) addressSpace
    (Hdr.setupData.get (headerWritten memory e820ext nrEntries) (params + Params.hdr))

/-- Whatever hangs off the list head: the header, and the link if the walk ends. -/
theorem addE820ext_run (params e820ext nrEntries : Nat) (ram : Ram) :
    addE820ext params e820ext nrEntries ram =
      match walkFrom ram.mem params e820ext nrEntries with
      | none => (none, ⟨headerWritten ram.mem e820ext nrEntries, ram.accesses⟩)
      | some last => (some (), ⟨store (headerWritten ram.mem e820ext nrEntries)
          (linkField params last) 8 e820ext, ram.accesses⟩) := by
  have steps : addE820ext params e820ext nrEntries ram =
      (match walkFrom ram.mem params e820ext nrEntries with
        | none => (pure none : Prog Ram (Option Unit))
        | some data =>
            if data ≠ 0 then storeField data Node.next e820ext >>= fun _ => pure (some ())
            else storeField (params + Params.hdr) Hdr.setupData e820ext >>= fun _ => pure (some ()))
      { ram with mem := headerWritten ram.mem e820ext nrEntries } := rfl
  rw [steps]
  cases walkFrom ram.mem params e820ext nrEntries with
  | none => rfl
  | some last =>
      unfold linkField
      by_cases empty : last = 0
      · simp only [empty, ne_eq, not_true_eq_false, ↓reduceIte]
        rfl
      · simp only [empty, ne_eq, not_false_eq_true, ↓reduceIte]
        rfl

/-- The field the new node is stored into: the last node's, or the list head. -/
def linkAddress (params : Nat) (nodes : List Nat) : Nat :=
  if nodes = [] then params + Params.hdr + Hdr.setupData.offset
  else nodes.getLastD 0 + Node.next.offset

theorem SetupList.linkField {head : Nat} {nodes : List Nat} (list : SetupList memory head nodes)
    (params : Nat) : linkField params (nodes.getLastD 0) = linkAddress params nodes := by
  unfold E820Translation.linkField linkAddress
  cases nodes with
  | nil => rfl
  | cons first rest =>
      have member : (first :: rest).getLastD 0 ∈ first :: rest := by
        rw [List.getLastD_cons]; exact List.getLastD_mem_cons
      rw [if_neg (list.present _ member), if_neg (List.cons_ne_nil first rest)]

/-- A list apart from the page and the buffer is walked to its last node. -/
theorem SetupChain.walk {nodes : List Nat} (chain : SetupChain memory params e820ext e820extSize nodes)
    (nrEntries : Nat) (present : e820ext ≠ 0) (room : sizeofSetupData ≤ e820extSize)
    (apart : Apart params sizeofBootParams e820ext e820extSize) :
    walkFrom memory params e820ext nrEntries = some (nodes.getLastD 0) := by
  -- writing the header of the node changes nothing that the walk reads
  have outside (x n : Nat) (split : Apart x n e820ext e820extSize) :
      SameOn (headerWritten memory e820ext nrEntries) memory x n := by
    intro y lower upper
    apply headerWritten_frame
    unfold Apart at split
    omega
  have head : Hdr.setupData.get (headerWritten memory e820ext nrEntries) (params + Params.hdr) =
      Hdr.setupData.get memory (params + Params.hdr) := by
    apply Field.get_congr
    apply outside
    simp only [Apart, sizeofBootParams, Params.hdr, Hdr.setupData] at *
    omega
  have list : SetupList (headerWritten memory e820ext nrEntries)
      (Hdr.setupData.get memory (params + Params.hdr)) nodes := by
    apply chain.chain.congr
    intro node member
    apply Field.get_congr
    apply outside
    have split := chain.extApart node member present
    simp only [Apart, nodeSize, sizeofSetupData, Node.next] at *
    omega
  have start : Hdr.setupData.get memory (params + Params.hdr) < 2 ^ 64 :=
    lt_of_lt_of_eq (load_lt memory _ 8) (by norm_num)
  unfold walkFrom
  rw [head]
  exact list.lastNode (list.length_lt start)

/-! ### The whole function -/

/-- Memory after the loop over the descriptors. -/
def loopedMemory (start : Ram) (params e820ext e820extSize : Nat) : Memory :=
  (translateLoop params e820ext e820extSize (descriptorCount start.mem params)
    (descriptorCount start.mem params) ⟨params + Params.e820Table, 0, 0⟩ start).2.mem

/-- Memory as the walk of `add_e820ext` meets it, with `nrEntries` entries in the node. -/
def walkedMemory (start : Ram) (params e820ext e820extSize nrEntries : Nat) : Memory :=
  headerWritten (loopedMemory start params e820ext e820extSize) e820ext nrEntries

/-- The node the walk stops at, 0 when the list is empty; `none` when it never stops. -/
def lastSetupNode (start : Ram) (params e820ext e820extSize nrEntries : Nat) : Option Nat :=
  walkFrom (loopedMemory start params e820ext e820extSize) params e820ext nrEntries

/-- Memory after the node got its header, its address was stored at `link`, and the
count was stored. -/
def linkedMemory (memory : Memory) (params e820ext link count : Nat) : Memory :=
  Params.e820Entries.set
    (store (headerWritten memory e820ext (count - e820MaxEntriesZeropage)) link 8 e820ext)
    params (count - (count - e820MaxEntriesZeropage))

/-- The list machine on the descriptors of the map. -/
def mergedMap (memory : Memory) (params e820ext e820extSize : Nat) : Option (List (Range Nat)) :=
  mergeFrom (refusedAt e820ext e820extSize (descriptorCount memory params)) 0 []
    (inputRanges memory params (descriptorCount memory params))

/-- Everything a call can do, for any setup_data list. The loop leaves `looped`, with
`kept` the entries newest first. -/
inductive Course (start : Ram) (params e820ext e820extSize : Nat) : Option EfiStatus × Ram → Prop
  | refused {later : Ram} {j : Nat} {cursor : Cursor} {held : List (Range Nat)}
      (full : mergedMap start.mem params e820ext e820extSize = none)
      (tracks : Tracks start later params e820ext e820extSize (descriptorCount start.mem params) j
        cursor held) :
      Course start params e820ext e820extSize (some efiBufferTooSmall, later)
  | short {looped : Ram} {cursor : Cursor} {kept : List (Range Nat)}
      (merged : mergedMap start.mem params e820ext e820extSize = some kept)
      (loop : loopedMemory start params e820ext e820extSize = looped.mem)
      (tracks : Tracks start looped params e820ext e820extSize (descriptorCount start.mem params)
        (descriptorCount start.mem params) cursor kept)
      (fits : kept.length ≤ e820MaxEntriesZeropage) :
      Course start params e820ext e820extSize (some efiSuccess,
        ⟨Params.e820Entries.set looped.mem params
          (kept.length - (kept.length - e820MaxEntriesZeropage)), looped.accesses⟩)
  | linked {looped : Ram} {cursor : Cursor} {kept : List (Range Nat)} {last : Nat}
      (merged : mergedMap start.mem params e820ext e820extSize = some kept)
      (loop : loopedMemory start params e820ext e820extSize = looped.mem)
      (tracks : Tracks start looped params e820ext e820extSize (descriptorCount start.mem params)
        (descriptorCount start.mem params) cursor kept)
      (long : e820MaxEntriesZeropage < kept.length)
      (walk : lastSetupNode start params e820ext e820extSize
        (kept.length - e820MaxEntriesZeropage) = some last) :
      Course start params e820ext e820extSize (some efiSuccess,
        ⟨linkedMemory looped.mem params e820ext (linkField params last) kept.length, looped.accesses⟩)
  | stuck {looped : Ram} {cursor : Cursor} {kept : List (Range Nat)}
      (merged : mergedMap start.mem params e820ext e820extSize = some kept)
      (loop : loopedMemory start params e820ext e820extSize = looped.mem)
      (tracks : Tracks start looped params e820ext e820extSize (descriptorCount start.mem params)
        (descriptorCount start.mem params) cursor kept)
      (long : e820MaxEntriesZeropage < kept.length)
      (walk : lastSetupNode start params e820ext e820extSize
        (kept.length - e820MaxEntriesZeropage) = none) :
      Course start params e820ext e820extSize (none,
        ⟨headerWritten looped.mem e820ext (kept.length - e820MaxEntriesZeropage), looped.accesses⟩)

theorem wbootTranslateMemmap_course {start : Ram} (layout : Layout start.mem params e820ext e820extSize) :
    Course start params e820ext e820extSize (wbootTranslateMemmap params e820ext e820extSize start) := by
  have loop := translateLoop_tracks layout (descriptorCount start.mem params) (by omega)
    (tracks_begin start params e820ext e820extSize)
  rw [← List.range_eq_range', ← inputRanges, ← mergedMap] at loop
  have whole : wbootTranslateMemmap params e820ext e820extSize start = _ := bind_apply _ _ start
  simp only [readState_apply, bind_apply] at whole
  cases merged : mergedMap start.mem params e820ext e820extSize with
  | none =>
      simp only [merged] at loop
      obtain ⟨later, j, after, held, runs, tracks⟩ := loop
      rw [runs] at whole
      exact whole ▸ .refused merged tracks
  | some kept =>
      simp only [merged] at loop
      obtain ⟨cursor, looped, runs, tracks⟩ := loop
      have same : loopedMemory start params e820ext e820extSize = looped.mem := by
        unfold loopedMemory
        rw [runs]
      rw [runs] at whole
      simp only [branch_apply, tracks.count] at whole
      -- past 128 entries the node is linked behind the last one, if there is a last one
      by_cases long : kept.length > e820MaxEntriesZeropage
      · rw [if_pos long, bind_apply, addE820ext_run] at whole
        have walked : lastSetupNode start params e820ext e820extSize
            (kept.length - e820MaxEntriesZeropage) =
            walkFrom looped.mem params e820ext (kept.length - e820MaxEntriesZeropage) := by
          rw [lastSetupNode, same]
        cases walk : walkFrom looped.mem params e820ext (kept.length - e820MaxEntriesZeropage) with
        | none =>
            rw [walk] at whole
            exact whole ▸ .stuck merged same tracks long (walked.trans walk)
        | some last =>
            rw [walk] at whole
            have finished := Course.linked merged same tracks long (walked.trans walk)
            exact whole ▸ finished
      · rw [if_neg long] at whole
        exact whole ▸ .short merged same tracks (by omega)

/-- What a successful call leaves, with `kept` the entries newest first. -/
structure Translated (start after : Ram) (params e820ext e820extSize : Nat) (nodes : List Nat)
    (kept : List (Range Nat)) : Prop where
  entries : Recorded after.mem (slot params e820ext) kept
  count : Params.e820Entries.get after.mem params =
    kept.length - (kept.length - e820MaxEntriesZeropage)
  linked : e820MaxEntriesZeropage < kept.length →
    SetupList after.mem (Hdr.setupData.get after.mem (params + Params.hdr)) (nodes ++ [e820ext]) ∧
    Node.type.get after.mem e820ext = setupE820Ext ∧
    Node.len.get after.mem e820ext =
      (kept.length - e820MaxEntriesZeropage) * sizeofBootE820Entry ∧
    sizeofSetupData + (kept.length - e820MaxEntriesZeropage) * sizeofBootE820Entry ≤ e820extSize
  unlinked : kept.length ≤ e820MaxEntriesZeropage →
    SetupList after.mem (Hdr.setupData.get after.mem (params + Params.hdr)) nodes
  frame : ∀ x, ¬ Writable params e820ext e820extSize x →
    (e820MaxEntriesZeropage < kept.length → (x < e820ext ∨ e820ext + sizeofSetupData ≤ x) ∧
      (x < linkAddress params nodes ∨ linkAddress params nodes + 8 ≤ x)) →
    x ≠ params + Params.e820Entries.offset → after.mem x = start.mem x
  logged : ∀ entry, Access.e820Entry entry ∈ after.accesses →
    Access.e820Entry entry ∈ start.accesses ∨
      ∃ k, InRoom e820ext e820extSize k ∧ entry = slot params e820ext k

/-- The link field lies in boot_params before the table, or in an old node. -/
theorem linkAddress_cases {nodes : List Nat}
    (chain : SetupChain memory params e820ext e820extSize nodes) :
    linkAddress params nodes = params + 592 ∨
      (Apart (linkAddress params nodes) 8 params sizeofBootParams ∧
        (e820ext ≠ 0 → Apart (linkAddress params nodes) 8 e820ext e820extSize)) := by
  unfold linkAddress
  cases nodes with
  | nil => exact Or.inl rfl
  | cons first rest =>
      have member : (first :: rest).getLastD 0 ∈ first :: rest := by
        rw [List.getLastD_cons]; exact List.getLastD_mem_cons
      have fromParams := chain.paramsApart _ member
      have fromExt := chain.extApart _ member
      refine Or.inr ⟨?_, fun present => ?_⟩
      · simp only [Apart, nodeSize, sizeofSetupData, Node.next, reduceCtorEq, ↓reduceIte] at *
        omega
      · have split := fromExt present
        simp only [Apart, nodeSize, sizeofSetupData, Node.next, reduceCtorEq, ↓reduceIte] at *
        omega

section Whole
variable {start : Ram} {nodes : List Nat}

/-- The old nodes are outside what the loop writes. -/
theorem chain_fixed (chain : SetupChain start.mem params e820ext e820extSize nodes) (node : Nat)
    (member : node ∈ nodes) (x : Nat) (lower : node ≤ x)
    (upper : x < node + nodeSize start.mem node) : ¬ Writable params e820ext e820extSize x := by
  rintro (inTable | ⟨present, inExt⟩)
  · have split := chain.paramsApart node member
    simp only [Apart, sizeofBootParams, Params.e820Table, e820MaxEntriesZeropage,
      sizeofBootE820Entry] at *
    omega
  · have split := chain.extApart node member present
    unfold Apart at split
    omega

theorem SetupChain.later {after : Memory}
    (chain : SetupChain start.mem params e820ext e820extSize nodes)
    (layout : Layout start.mem params e820ext e820extSize)
    (frame : Framed start.mem after params e820ext e820extSize) :
    SetupChain after params e820ext e820extSize nodes := by
  have field (part : Field) (inside : part.offset + part.width ≤ sizeofSetupData) (node : Nat)
      (member : node ∈ nodes) : part.get after node = part.get start.mem node := by
    apply part.get_congr
    intro x lower upper
    apply frame x
    apply chain_fixed chain node member x (by omega)
    unfold nodeSize
    omega
  -- the lengths are read from the nodes, so they have to be kept before the ranges are
  have sizes (node : Nat) (member : node ∈ nodes) : nodeSize after node = nodeSize start.mem node := by
    unfold nodeSize
    rw [field Node.len (by decide) node member]
  have head : Hdr.setupData.get after (params + Params.hdr) =
      Hdr.setupData.get start.mem (params + Params.hdr) := by
    apply Field.get_congr
    intro x lower upper
    apply frame x
    simp only [Params.hdr, Hdr.setupData] at lower upper
    exact fixed_params layout x (by omega) (by simp only [Params.e820Table]; omega)
  refine ⟨?_, ?_, ?_, ?_⟩
  · rw [head]
    exact chain.chain.congr fun node member => field Node.next (by decide) node member
  · intro node member
    rw [sizes node member]
    exact chain.paramsApart node member
  · intro node member
    rw [sizes node member]
    exact chain.extApart node member
  · apply chain.separate.imp_of_mem
    intro left right leftMember rightMember apart
    rwa [sizes left leftMember, sizes right rightMember]

theorem SetupChain.apart_of_ne {left right : Nat}
    (chain : SetupChain memory params e820ext e820extSize nodes) (leftMember : left ∈ nodes)
    (rightMember : right ∈ nodes) (other : left ≠ right) :
    Apart left (nodeSize memory left) right (nodeSize memory right) :=
  @List.Pairwise.forall _ _ _ ⟨fun _ _ apart => Or.symm apart⟩ chain.separate _ leftMember _
    rightMember other

/-- A store that misses every slot in use leaves the recorded entries. -/
theorem Recorded.store {kept : List (Range Nat)}
    (recorded : Recorded memory (slot params e820ext) kept) (address width value : Nat)
    (misses : ∀ k, k < kept.length →
      Apart address width (slot params e820ext k) sizeofBootE820Entry) :
    Recorded (store memory address width value) (slot params e820ext) kept := by
  apply recorded.congr
  intro k bound x lower upper
  have split := misses k bound
  unfold Apart at split
  exact (store_frame memory address width value x (by omega)).symm

theorem slot_place (params e820ext k : Nat) :
    (k < 128 ∧ slot params e820ext k = params + 720 + k * 20) ∨
      (128 ≤ k ∧ slot params e820ext k = e820ext + 16 + (k - 128) * 20) := by
  by_cases inTable : k < 128
  · exact Or.inl ⟨inTable, if_pos inTable⟩
  · exact Or.inr ⟨by omega, if_neg inTable⟩

/-- Every slot is in boot_params from the table on, or in e820ext behind the header. -/
theorem slot_cases (params k : Nat) (room : InRoom e820ext e820extSize k) :
    (params + 720 ≤ slot params e820ext k ∧ slot params e820ext k + 20 ≤ params + 3280) ∨
    (e820ext ≠ 0 ∧ e820ext + 16 ≤ slot params e820ext k ∧
      slot params e820ext k + 20 ≤ e820ext + e820extSize) := by
  unfold InRoom at room
  simp only [e820MaxEntriesZeropage, sizeofBootE820Entry, sizeofSetupData] at room
  rcases slot_place params e820ext k with ⟨inTable, here⟩ | ⟨past, here⟩
  · exact Or.inl (by omega)
  · obtain tooEarly | ⟨present, fits⟩ := room
    · omega
    · exact Or.inr ⟨present, by omega, by omega⟩

/-- The count lies in the page in front of the table. -/
theorem Tracks.count_spares {later : Ram} {kept : List (Range Nat)} {cursor : Cursor} {nrDesc i : Nat}
    (tracks : Tracks start later params e820ext e820extSize nrDesc i cursor kept)
    (layout : Layout start.mem params e820ext e820extSize) (count : Nat) :
    Recorded (Params.e820Entries.set later.mem params count) (slot params e820ext) kept := by
  apply tracks.recorded.store
  intro k bound
  have place := slot_cases params k (tracks.inRoom k bound)
  have separate := layout.extApart
  simp only [Apart, Params.e820Entries, sizeofBootE820Entry, sizeofBootParams] at *
  omega

/-- Up to 128 entries only the count is stored after the loop. -/
theorem finish_unlinked {later : Ram} {kept : List (Range Nat)} {cursor : Cursor} {nrDesc i : Nat}
    (layout : Layout start.mem params e820ext e820extSize)
    (chain : SetupChain start.mem params e820ext e820extSize nodes)
    (tracks : Tracks start later params e820ext e820extSize nrDesc i cursor kept)
    (short : kept.length ≤ e820MaxEntriesZeropage) :
    Translated start ⟨Params.e820Entries.set later.mem params
      (kept.length - (kept.length - e820MaxEntriesZeropage)), later.accesses⟩
      params e820ext e820extSize nodes kept := by
  have chained := chain.later layout tracks.frame
  -- the count lies in the page beside the list head too, so it disturbs neither
  refine ⟨?_, ?_, fun long => absurd long (by omega), fun _ => ?_, ?_, tracks.logged⟩
  · exact tracks.count_spares layout _
  · rw [Field.get_set_same]
    simp only [e820MaxEntriesZeropage, Params.e820Entries] at *
    omega
  · have head : Hdr.setupData.get (Params.e820Entries.set later.mem params
        (kept.length - (kept.length - e820MaxEntriesZeropage))) (params + Params.hdr) =
        Hdr.setupData.get later.mem (params + Params.hdr) := by
      apply Field.get_set_apart
      simp only [Apart, Params.e820Entries, Params.hdr, Hdr.setupData]
      omega
    rw [head]
    apply chained.chain.congr
    intro node member
    apply Field.get_set_apart
    have split := chained.paramsApart node member
    simp only [Apart, Params.e820Entries, Node.next, nodeSize, sizeofSetupData,
      sizeofBootParams] at *
    omega
  · intro x fixed _ other
    dsimp only
    rw [Field.set_frame, tracks.frame x fixed]
    simp only [Params.e820Entries] at *
    omega

/-- A field that the count and the link miss is as the header write left it. -/
theorem linkedMemory_get (memory : Memory) {link : Nat} (count base : Nat) (field : Field)
    (atCount : Apart (params + 488) 1 (base + field.offset) field.width)
    (atLink : Apart link 8 (base + field.offset) field.width) :
    field.get (linkedMemory memory params e820ext link count) base =
      field.get (headerWritten memory e820ext (count - e820MaxEntriesZeropage)) base := by
  unfold linkedMemory
  rw [Field.get_set_apart _ _ _ _ _ _ atCount]
  exact load_store_apart _ _ _ _ _ _ atLink

theorem linkedMemory_old (memory : Memory) {link : Nat} (count base : Nat) (field : Field)
    (atCount : Apart (params + 488) 1 (base + field.offset) field.width)
    (atLink : Apart link 8 (base + field.offset) field.width)
    (atHeader : Apart e820ext sizeofSetupData (base + field.offset) field.width) :
    field.get (linkedMemory memory params e820ext link count) base = field.get memory base := by
  rw [linkedMemory_get memory count base field atCount atLink]
  apply field.get_congr
  intro x lower upper
  apply headerWritten_frame
  unfold Apart at atHeader
  omega

/-- The eight bytes at `link` hold no entry of the table and not the `len` of the node
nor one of its entries. -/
def Spared (params e820ext nrEntries link : Nat) : Prop :=
  Apart link 8 (params + Params.e820Table) (e820MaxEntriesZeropage * sizeofBootE820Entry) ∧
    Apart link 8 (e820ext + Node.len.offset) (Node.len.width + nrEntries * sizeofBootE820Entry)

theorem linkedMemory_recorded {later : Ram} {kept : List (Range Nat)} {cursor : Cursor} {nrDesc i : Nat}
    (layout : Layout start.mem params e820ext e820extSize)
    (tracks : Tracks start later params e820ext e820extSize nrDesc i cursor kept)
    (long : e820MaxEntriesZeropage < kept.length) {link : Nat}
    (spared : Spared params e820ext (kept.length - e820MaxEntriesZeropage) link) :
    Recorded (linkedMemory later.mem params e820ext link kept.length) (slot params e820ext) kept := by
  obtain ⟨present, room⟩ := tracks.ahead long
  have separate := layout.extApart present
  obtain ⟨table, node⟩ := spared
  apply tracks.recorded.congr
  intro k bound x lower upper
  have place := slot_place params e820ext k
  generalize slot params e820ext k = entry at lower upper place
  simp only [Apart, Node.len, Params.e820Table, sizeofBootE820Entry, sizeofBootParams, sizeofSetupData,
    e820MaxEntriesZeropage] at *
  -- entries in the table and in the node both survive the header, the link and the count
  symm
  unfold linkedMemory
  rw [Field.set_frame, store_frame, headerWritten_frame]
  · simp only [sizeofSetupData]
    omega
  · omega
  · simp only [Params.e820Entries]
    omega

theorem linkedMemory_len {memory : Memory} {count link : Nat} (few : count * 40 < 2 ^ 32)
    (room : sizeofSetupData ≤ e820extSize) (separate : Apart params sizeofBootParams e820ext e820extSize)
    (spared : Spared params e820ext (count - e820MaxEntriesZeropage) link) :
    Node.len.get (linkedMemory memory params e820ext link count) e820ext =
      (count - e820MaxEntriesZeropage) * sizeofBootE820Entry := by
  rw [linkedMemory_get]
  · rw [(headerWritten_fields memory e820ext _).2.1]
    unfold u32 sizeofBootE820Entry
    exact Nat.mod_eq_of_lt (by omega)
  · simp only [Apart, Node.len, sizeofBootParams, sizeofSetupData] at *
    omega
  · obtain ⟨-, node⟩ := spared
    simp only [Apart, Node.len] at *
    omega

/-- A list apart from the page and the buffer has no link among the entries. -/
theorem SetupChain.spared (chain : SetupChain memory params e820ext e820extSize nodes) {nrEntries : Nat}
    (present : e820ext ≠ 0) (room : sizeofSetupData + nrEntries * sizeofBootE820Entry ≤ e820extSize)
    (separate : Apart params sizeofBootParams e820ext e820extSize) :
    Spared params e820ext nrEntries (linkAddress params nodes) := by
  unfold Spared
  rcases linkAddress_cases chain with inHeader | ⟨fromParams, fromExt⟩
  · simp only [Apart, Node.len, Params.e820Table, sizeofBootE820Entry, sizeofBootParams, sizeofSetupData,
      e820MaxEntriesZeropage] at *
    omega
  · have split := fromExt present
    simp only [Apart, Node.len, Params.e820Table, sizeofBootE820Entry, sizeofBootParams, sizeofSetupData,
      e820MaxEntriesZeropage] at *
    omega

theorem linkedMemory_node (memory : Memory) (count : Nat)
    (chain : SetupChain start.mem params e820ext e820extSize nodes) (present : e820ext ≠ 0)
    (room : sizeofSetupData ≤ e820extSize)
    (separate : Apart params sizeofBootParams e820ext e820extSize) (field : Field)
    (inside : field.offset + field.width ≤ sizeofSetupData) :
    field.get (linkedMemory memory params e820ext (linkAddress params nodes) count) e820ext =
      field.get (headerWritten memory e820ext (count - e820MaxEntriesZeropage)) e820ext := by
  apply linkedMemory_get
  · simp only [Apart, sizeofBootParams, sizeofSetupData] at *
    omega
  · rcases linkAddress_cases chain with inHeader | ⟨-, fromExt⟩
    · simp only [Apart, sizeofBootParams, sizeofSetupData] at *
      omega
    · have split := fromExt present
      simp only [Apart, sizeofSetupData] at *
      omega

/-- The list through the new node, whether it is the first or follows older ones. -/
theorem linkedMemory_list (memory : Memory) (count : Nat)
    (chain : SetupChain memory params e820ext e820extSize nodes) (present : e820ext ≠ 0)
    (narrow : e820ext < 2 ^ 64) (room : sizeofSetupData ≤ e820extSize)
    (separate : Apart params sizeofBootParams e820ext e820extSize)
    (ended : Node.next.get (linkedMemory memory params e820ext (linkAddress params nodes) count) e820ext = 0) :
    SetupList (linkedMemory memory params e820ext (linkAddress params nodes) count)
      (Hdr.setupData.get (linkedMemory memory params e820ext (linkAddress params nodes) count) (params + Params.hdr))
      (nodes ++ [e820ext]) := by
  have linked : Apart (params + 488) 1 (linkAddress params nodes) 8 →
      load (linkedMemory memory params e820ext (linkAddress params nodes) count) (linkAddress params nodes) 8 =
        e820ext := by
    intro atCount
    have stored := load_store_same (headerWritten memory e820ext (count - e820MaxEntriesZeropage))
      (linkAddress params nodes) 8 e820ext
    unfold linkedMemory Field.set
    rw [load_store_apart _ (params + Params.e820Entries.offset) Params.e820Entries.width _ _ _ atCount,
      stored, Nat.mod_eq_of_lt]
    exact lt_of_lt_of_eq narrow (by norm_num)
  -- the link is the list head of the page or the next field of the last node
  by_cases none : nodes = []
  · subst none
    exact ⟨linked (by simp only [Apart, linkAddress, ↓reduceIte, Params.hdr, Hdr.setupData]; omega),
      present, ended⟩
  · have last : nodes.getLastD 0 ∈ nodes := by
      cases nodes with
      | nil => exact absurd rfl none
      | cons first rest => rw [List.getLastD_cons]; exact List.getLastD_mem_cons
    have place : linkAddress params nodes = nodes.getLastD 0 := by
      simp [linkAddress, none, Node.next]
    have lastParams := chain.paramsApart _ last
    have head : Hdr.setupData.get (linkedMemory memory params e820ext (linkAddress params nodes) count)
        (params + Params.hdr) = Hdr.setupData.get memory (params + Params.hdr) := by
      apply linkedMemory_old <;>
        simp only [Apart, place, Params.hdr, Hdr.setupData, nodeSize, sizeofSetupData,
          sizeofBootParams] at * <;> omega
    rw [head]
    apply chain.chain.link none ?_ ?_ present ended
    -- the nodes before the last one are neither the new node nor the rewritten field
    · intro old member other
      have oldParams := chain.paramsApart old member
      have oldExt := chain.extApart old member present
      have oldLast := chain.apart_of_ne member last other
      apply linkedMemory_old <;>
        simp only [Apart, place, Node.next, nodeSize, sizeofSetupData, sizeofBootParams] at * <;>
        omega
    · have field : Node.next.get (linkedMemory memory params e820ext (linkAddress params nodes) count)
          (nodes.getLastD 0) = load (linkedMemory memory params e820ext (linkAddress params nodes) count)
            (linkAddress params nodes) 8 := by
        rw [place]
        rfl
      refine field.trans (linked ?_)
      simp only [Apart, place, nodeSize, sizeofSetupData, sizeofBootParams] at *
      omega

/-- Past 128 entries the node gets its header, is linked last, and the count is 128. -/
theorem finish_linked {later : Ram} {kept : List (Range Nat)} {cursor : Cursor} {nrDesc i : Nat}
    (layout : Layout start.mem params e820ext e820extSize)
    (chain : SetupChain start.mem params e820ext e820extSize nodes)
    (tracks : Tracks start later params e820ext e820extSize nrDesc i cursor kept)
    (few : kept.length * 40 < 2 ^ 32) (long : e820MaxEntriesZeropage < kept.length) :
    Translated start
      ⟨linkedMemory later.mem params e820ext (linkAddress params nodes) kept.length, later.accesses⟩
      params e820ext e820extSize nodes kept := by
  have chained := chain.later layout tracks.frame
  obtain ⟨present, room⟩ := tracks.ahead long
  have separate := layout.extApart present
  have link := linkAddress_cases chain
  have fields := headerWritten_fields later.mem e820ext (kept.length - e820MaxEntriesZeropage)
  have header : sizeofSetupData ≤ e820extSize := by omega
  have spared : Spared params e820ext (kept.length - e820MaxEntriesZeropage) (linkAddress params nodes) :=
    chain.spared present (by simp only [sizeofBootE820Entry] at *; omega) separate
  -- the link holds 64 bits, and the node lies below the end of the address space
  have narrow : e820ext < 2 ^ 64 := by
    have bounded := layout.extBounded
    simp only [sizeofSetupData] at header
    omega
  have node := linkedMemory_node later.mem kept.length chain present header separate
  have ended := (node Node.next (by decide)).trans fields.2.2
  refine ⟨?_, ?_, fun _ => ⟨?_, ?_, ?_, ?_⟩, fun short => absurd short (by omega), ?_, tracks.logged⟩
  · exact linkedMemory_recorded layout tracks long spared
  · unfold linkedMemory
    rw [Field.get_set_same]
    simp only [e820MaxEntriesZeropage, Params.e820Entries] at *
    omega
  · exact linkedMemory_list later.mem kept.length chained present narrow header separate ended
  · rw [node Node.type (by decide)]
    exact fields.1
  · exact linkedMemory_len few header separate spared
  · simp only [sizeofBootE820Entry] at *
    omega
  · intro x fixed away other
    obtain ⟨inHeader, inLink⟩ := away long
    unfold linkedMemory
    dsimp only
    rw [Field.set_frame, store_frame _ _ _ _ _ inLink, headerWritten_frame _ _ _ inHeader,
      tracks.frame x fixed]
    simp only [Params.e820Entries] at *
    omega

theorem wbootTranslateMemmap_spec (layout : Layout start.mem params e820ext e820extSize)
    (chain : SetupChain start.mem params e820ext e820extSize nodes) :
    match mergedMap start.mem params e820ext e820extSize with
    | none => ∃ later, wbootTranslateMemmap params e820ext e820extSize start =
        (some efiBufferTooSmall, later)
    | some kept => ∃ later,
        wbootTranslateMemmap params e820ext e820extSize start = (some efiSuccess, later) ∧
        Translated start later params e820ext e820extSize nodes kept := by
  -- past 128 entries the walk ends at the last of `nodes`, in the memory the loop leaves
  have walked {looped : Ram} {cursor : Cursor} {kept : List (Range Nat)}
      (tracks : Tracks start looped params e820ext e820extSize (descriptorCount start.mem params)
        (descriptorCount start.mem params) cursor kept) (long : e820MaxEntriesZeropage < kept.length)
      (nrEntries : Nat) :
      walkFrom looped.mem params e820ext nrEntries = some (nodes.getLastD 0) := by
    obtain ⟨present, room⟩ := tracks.ahead long
    exact (chain.later layout tracks.frame).walk nrEntries present (by omega) (layout.extApart present)
  have course := wbootTranslateMemmap_course layout
  generalize wbootTranslateMemmap params e820ext e820extSize start = outcome at course
  cases course with
  | refused full tracks =>
      rw [full]
      exact ⟨_, rfl⟩
  | @short looped cursor kept merged loop tracks fits =>
      rw [merged]
      exact ⟨_, rfl, finish_unlinked layout chain tracks fits⟩
  | @linked looped cursor kept last merged loop tracks long walk =>
      obtain ⟨present, room⟩ := tracks.ahead long
      -- the length field of the node has 32 bits
      have few : kept.length * 40 < 2 ^ 32 := by
        have early := tracks.early
        have small := descriptorCount_small layout
        omega
      have same : last = nodes.getLastD 0 := by
        unfold lastSetupNode at walk
        rw [loop, walked tracks long] at walk
        exact (Option.some.inj walk).symm
      rw [merged, same, chain.chain.linkField params]
      exact ⟨_, rfl, finish_linked layout chain tracks few long⟩
  | @stuck looped cursor kept merged loop tracks long walk =>
      unfold lastSetupNode at walk
      rw [loop, walked tracks long] at walk
      cases walk
end Whole

end Wboot.E820Translation
