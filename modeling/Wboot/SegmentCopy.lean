import Wboot.ByteMemory

/-! Loading segments one after another inside one memory. A segment copies
`fileSize` bytes from its source to its destination and clears the rest of its
destination; each copy by itself is safe under overlap, but an earlier segment
may land on the source of a later one. With destinations apart, everything is
loaded as intended exactly when no earlier segment changes a byte that a later
one still copies. -/

namespace SegmentCopy
open ByteMemory

structure Segment where
  dest : Nat
  src : Nat
  fileSize : Nat
  memSize : Nat
  deriving DecidableEq

variable (original : Memory)

namespace Segment

def covers (segment : Segment) (x : Nat) : Prop :=
  segment.dest ≤ x ∧ x < segment.dest + segment.memSize

instance (segment : Segment) (x : Nat) : Decidable (segment.covers x) :=
  inferInstanceAs (Decidable (_ ∧ _))

/-- The part of the segment that is copied from its source. -/
def copied (segment : Segment) : Segment := { segment with memSize := segment.fileSize }

/-- The byte the segment is meant to put at `x`. -/
def byte (segment : Segment) (x : Nat) : UInt8 :=
  if x < segment.dest + segment.fileSize then original (segment.src + (x - segment.dest)) else 0

end Segment

open Segment

/-- Laying reads its source from `original`, whatever the memory laid on. -/
def lay (memory : Memory) (segment : Segment) : Memory :=
  fun x => if segment.covers x then segment.byte original x else memory x

/-- Placing reads its source from the memory it changes. -/
def place (memory : Memory) (segment : Segment) : Memory := lay memory memory segment

def Loaded (final : Memory) (segment : Segment) : Prop :=
  ∀ x, segment.covers x → final x = segment.byte original x

/-- What the segment puts on the range is what the range holds anyway. -/
def Harmless (segment : Segment) (address count : Nat) : Prop :=
  ∀ x, address ≤ x → x < address + count → segment.covers x → segment.byte original x = original x

def DestsApart (segments : List Segment) : Prop :=
  segments.Pairwise fun earlier later => ∀ x, ¬ (earlier.covers x ∧ later.covers x)

/-- No segment changes what a later one copies. -/
def SourcesKept (segments : List Segment) : Prop :=
  segments.Pairwise fun earlier later => Harmless original earlier later.src later.fileSize

variable {original}

theorem lay_outside (memory : Memory) (segments : List Segment) (x : Nat)
    (outside : ∀ segment ∈ segments, ¬ segment.covers x) :
    segments.foldl (lay original) memory x = memory x := by
  induction segments generalizing memory with
  | nil => rfl
  | cons segment rest ih =>
      have first := outside segment List.mem_cons_self
      rw [List.foldl_cons, ih _ fun later member => outside later (List.mem_cons_of_mem _ member)]
      simp only [lay, first, ↓reduceIte]

theorem lay_covered (memory : Memory) (segments : List Segment) (apart : DestsApart segments)
    (segment : Segment) (member : segment ∈ segments) (x : Nat) (inside : segment.covers x) :
    segments.foldl (lay original) memory x = segment.byte original x := by
  induction segments generalizing memory with
  | nil => simp at member
  | cons first rest ih =>
      obtain ⟨head, tail⟩ := List.pairwise_cons.mp apart
      rw [List.foldl_cons]
      rcases List.mem_cons.mp member with same | later
      · subst same
        rw [lay_outside _ rest x fun later here clash => head later here x ⟨inside, clash⟩]
        simp only [lay, inside, ↓reduceIte]
      · exact ih _ tail later

/-- On a range that every segment leaves as it is, laying changes nothing. -/
theorem lay_harmless (segments : List Segment) (apart : DestsApart segments) (address count : Nat)
    (harmless : ∀ segment ∈ segments, Harmless original segment address count) :
    SameOn (segments.foldl (lay original) original) original address count := by
  intro x lower upper
  by_cases hit : ∃ segment ∈ segments, segment.covers x
  · obtain ⟨segment, member, inside⟩ := hit
    rw [lay_covered original segments apart segment member x inside]
    exact harmless segment member x lower upper inside
  · exact lay_outside original segments x fun segment member inside => hit ⟨segment, member, inside⟩

theorem harmless_of_same (segments : List Segment) (apart : DestsApart segments)
    (address count : Nat)
    (same : SameOn (segments.foldl (lay original) original) original address count)
    (segment : Segment) (member : segment ∈ segments) : Harmless original segment address count := by
  intro x lower upper inside
  rw [← lay_covered original segments apart segment member x inside]
  exact same x lower upper

/-- Placing is laying when the source still holds its original bytes. -/
theorem place_eq_lay (memory : Memory) (segment : Segment)
    (intact : SameOn memory original segment.src segment.fileSize) :
    place memory segment = lay original memory segment := by
  funext x
  by_cases inside : segment.covers x
  · simp only [place, lay, inside, ↓reduceIte, Segment.byte]
    by_cases copied : x < segment.dest + segment.fileSize
    · have lower := inside.1
      rw [if_pos copied, if_pos copied]
      exact intact _ (by omega) (by omega)
    · rw [if_neg copied, if_neg copied]
  · simp only [place, lay, inside, ↓reduceIte]

/-- The two loops of a loader, one after the other, are one placement. -/
theorem place_loops (memory : Memory) (segment : Segment)
    (fits : segment.fileSize ≤ segment.memSize) :
    setLoop (moved memory segment.dest segment.src segment.fileSize)
        (segment.dest + segment.fileSize) 0 (segment.memSize - segment.fileSize) =
      place memory segment := by
  funext x
  rw [setLoop_apply]
  simp only [moved, place, lay, covers, Segment.byte]
  by_cases copied : x < segment.dest + segment.fileSize
  · have inside : x < segment.dest + segment.memSize := by omega
    have uncleared : ¬ segment.dest + segment.fileSize ≤ x := by omega
    simp only [copied, inside, uncleared, false_and, and_true, ↓reduceIte]
  · have cleared : segment.dest + segment.fileSize ≤ x ∧
        x < segment.dest + segment.fileSize + (segment.memSize - segment.fileSize) ↔
        segment.dest ≤ x ∧ x < segment.dest + segment.memSize := by omega
    simp only [copied, cleared, and_false, ↓reduceIte]

theorem place_copied (memory : Memory) (segment : Segment) :
    place memory segment.copied = moved memory segment.dest segment.src segment.fileSize := by
  funext x
  simp only [moved, place, lay, covers, Segment.byte, Segment.copied]
  by_cases copied : segment.dest ≤ x ∧ x < segment.dest + segment.fileSize
  · simp only [copied, and_self, ↓reduceIte]
  · simp only [copied, ↓reduceIte]

theorem place_outside (memory : Memory) (segments : List Segment) (x : Nat)
    (outside : ∀ segment ∈ segments, ¬ segment.covers x) :
    segments.foldl place memory x = memory x := by
  induction segments generalizing memory with
  | nil => rfl
  | cons segment rest ih =>
      have first := outside segment List.mem_cons_self
      rw [List.foldl_cons, ih _ fun later member => outside later (List.mem_cons_of_mem _ member)]
      simp only [place, lay, first, ↓reduceIte]

/-- While no source was changed, what has been placed is what has been laid. -/
theorem foldl_place_lay (before rest : List Segment) (apart : DestsApart (before ++ rest))
    (kept : SourcesKept original (before ++ rest)) :
    rest.foldl place (before.foldl (lay original) original) =
      (before ++ rest).foldl (lay original) original := by
  induction rest generalizing before with
  | nil => simp
  | cons segment rest ih =>
      have split : before ++ segment :: rest = (before ++ [segment]) ++ rest := by simp
      have early := List.pairwise_append.mp kept
      have intact := lay_harmless before (List.pairwise_append.mp apart).1 segment.src
        segment.fileSize fun earlier member => early.2.2 earlier member segment List.mem_cons_self
      rw [List.foldl_cons, place_eq_lay _ segment intact]
      have next := ih (before ++ [segment]) (split ▸ apart) (split ▸ kept)
      rw [List.foldl_append] at next
      rw [split]
      exact next

/-- A segment that ended up right was copied from an unchanged source. -/
theorem kept_of_loaded (before rest : List Segment) (apart : DestsApart (before ++ rest))
    (fits : ∀ segment ∈ rest, segment.fileSize ≤ segment.memSize)
    (done : SourcesKept original before)
    (loaded : ∀ segment ∈ rest,
      Loaded original (rest.foldl place (before.foldl (lay original) original)) segment) :
    SourcesKept original (before ++ rest) := by
  induction rest generalizing before with
  | nil => simpa using done
  | cons segment rest ih =>
      have split : before ++ segment :: rest = (before ++ [segment]) ++ rest := by simp
      have parts := List.pairwise_append.mp apart
      have alone := (List.pairwise_cons.mp parts.2.1).1
      have intact : SameOn (before.foldl (lay original) original) original segment.src
          segment.fileSize := by
        intro x lower upper
        have room := fits segment List.mem_cons_self
        -- the byte from x lands at dest + (x - src), and nothing later lands there
        have inside : segment.covers (segment.dest + (x - segment.src)) := ⟨by omega, by omega⟩
        have right := loaded segment List.mem_cons_self _ inside
        have source : segment.src + (segment.dest + (x - segment.src) - segment.dest) = x := by omega
        have copied : segment.dest + (x - segment.src) < segment.dest + segment.fileSize := by omega
        rw [List.foldl_cons, place_outside _ rest _ fun later member clash =>
          alone later member _ ⟨inside, clash⟩] at right
        simpa only [place, lay, inside, ↓reduceIte, Segment.byte, copied, source] using right
      have kept : SourcesKept original (before ++ [segment]) := by
        refine List.pairwise_append.mpr ⟨done, by simp, ?_⟩
        intro earlier member later last
        obtain rfl := List.mem_singleton.mp last
        exact harmless_of_same before parts.1 _ _ intact earlier member
      rw [split]
      apply ih (before ++ [segment]) (split ▸ apart)
        (fun later member => fits later (List.mem_cons_of_mem _ member)) kept
      intro later member
      have here := loaded later (List.mem_cons_of_mem _ member)
      rw [List.foldl_cons, place_eq_lay _ segment intact] at here
      rw [List.foldl_append]
      exact here

/-- Every segment is loaded as intended exactly when every source was kept. -/
theorem loaded_iff_kept (segments : List Segment) (apart : DestsApart segments)
    (fits : ∀ segment ∈ segments, segment.fileSize ≤ segment.memSize) :
    (∀ segment ∈ segments, Loaded original (segments.foldl place original) segment) ↔
      SourcesKept original segments := by
  constructor
  · exact kept_of_loaded [] segments apart fits List.Pairwise.nil
  · intro kept segment member x inside
    have laid := foldl_place_lay [] segments apart kept
    simp only [List.foldl_nil, List.nil_append] at laid
    rw [laid]
    exact lay_covered original segments apart segment member x inside

end SegmentCopy
