import Wboot.ByteMemory

/-! Terminated strings in byte memory, and the scanning loops of a C library
over them. A loop that meets no byte to stop at in a whole 64-bit address space
does not end; here it stops there, and no result speaks about that case. -/

namespace CString
open ByteMemory

-- Decided over the characters of the text, not over every value a character can have.
instance (priority := 1100) decidableOnText {Symbol : Type} (holds : Symbol → Prop)
    [DecidablePred holds] (text : List Symbol) : Decidable (∀ c ∈ text, holds c) :=
  List.decidableBAll holds text

@[irreducible] def addressSpace : Nat := 2 ^ 64

theorem addressSpace_eq : addressSpace = 2 ^ 64 := by
  unfold addressSpace
  rfl

/-- `while (go(*p)) p++;` -/
def scanFrom (go : UInt8 → Bool) (memory : Memory) : Nat → Nat → Nat
  | 0, p => p
  | fuel + 1, p => if go (memory p) then scanFrom go memory fuel (p + 1) else p

def scan (go : UInt8 → Bool) (memory : Memory) (p : Nat) : Nat :=
  scanFrom go memory addressSpace p

def stringFrom (memory : Memory) : Nat → Nat → List UInt8
  | 0, _ => []
  | fuel + 1, p =>
      if memory p = 0 then [] else memory p :: stringFrom memory fuel (p + 1)

/-- The bytes a terminated string at `p` consists of. -/
def cstring (memory : Memory) (p : Nat) : List UInt8 := stringFrom memory addressSpace p

def wideFrom (memory : Memory) : Nat → Nat → List UInt16
  | 0, _ => []
  | fuel + 1, p =>
      if load memory p 2 = 0 then []
      else UInt16.ofNat (load memory p 2) :: wideFrom memory fuel (p + 2)

def wideString (memory : Memory) (p : Nat) : List UInt16 := wideFrom memory addressSpace p

/-- The bytes `text` stand at `p`, with no claim about what follows. -/
def TextAt (memory : Memory) : Nat → List UInt8 → Prop
  | _, [] => True
  | p, c :: rest => memory p = c ∧ TextAt memory (p + 1) rest

/-- `text` stands at `p` as a terminated string. -/
def StringAt (memory : Memory) : Nat → List UInt8 → Prop
  | p, [] => memory p = 0
  | p, c :: rest => memory p = c ∧ c ≠ 0 ∧ StringAt memory (p + 1) rest

theorem scanFrom_text (go : UInt8 → Bool) (memory : Memory) (fuel p : Nat) (text : List UInt8)
    (enough : text.length < fuel) (here : TextAt memory p text)
    (goes : ∀ c ∈ text, go c = true) (stops : go (memory (p + text.length)) = false) :
    scanFrom go memory fuel p = p + text.length := by
  induction text generalizing fuel p with
  | nil =>
      cases fuel with
      | zero => rfl
      | succ fuel =>
          have now : go (memory p) = false := by simpa using stops
          simp [scanFrom, now]
  | cons c rest ih =>
      cases fuel with
      | zero => simp at enough
      | succ fuel =>
          obtain ⟨first, later⟩ := here
          have now : go (memory p) = true := by rw [first]; exact goes c List.mem_cons_self
          have shifted : p + 1 + rest.length = p + (c :: rest).length := by
            simp only [List.length_cons]; omega
          rw [scanFrom, if_pos now, ih fuel (p + 1) (by simpa using enough) later
            (fun d member => goes d (List.mem_cons_of_mem c member)) (by rwa [shifted]), shifted]

theorem scan_text (go : UInt8 → Bool) (memory : Memory) (p : Nat) (text : List UInt8)
    (bounded : text.length < addressSpace) (here : TextAt memory p text)
    (goes : ∀ c ∈ text, go c = true) (stops : go (memory (p + text.length)) = false) :
    scan go memory p = p + text.length :=
  scanFrom_text go memory addressSpace p text bounded here goes stops

theorem textAt_append (memory : Memory) (p : Nat) (left right : List UInt8) :
    TextAt memory p (left ++ right) ↔
      TextAt memory p left ∧ TextAt memory (p + left.length) right := by
  induction left generalizing p with
  | nil => simp [TextAt]
  | cons c rest ih =>
      have shifted : p + 1 + rest.length = p + (c :: rest).length := by
        simp only [List.length_cons]; omega
      simp only [List.cons_append, TextAt, ih, shifted, and_assoc]

theorem textAt_getD {memory : Memory} {p : Nat} {text : List UInt8} (here : TextAt memory p text)
    (i : Nat) (bound : i < text.length) : memory (p + i) = text.getD i 0 := by
  induction text generalizing p i with
  | nil => exact absurd bound (Nat.not_lt_zero i)
  | cons c rest ih =>
      obtain ⟨first, later⟩ := here
      cases i with
      | zero => exact first
      | succ i =>
          have tail := ih later i (Nat.lt_of_succ_lt_succ bound)
          have shifted : p + (i + 1) = p + 1 + i := by omega
          rw [shifted, tail]
          rfl

theorem load_textAt {memory : Memory} {p : Nat} {text : List UInt8} (here : TextAt memory p text)
    (count : Nat) (long : count ≤ text.length) :
    load memory p count = load (fun x => text.getD x 0) 0 count := by
  have shifted := load_shift memory p 0 count
  rw [Nat.add_zero] at shifted
  rw [shifted]
  exact load_congr fun x _ upper => textAt_getD here x (by omega)

theorem bytesAt_textAt {memory : Memory} {p : Nat} {text : List UInt8} (here : TextAt memory p text)
    (count : Nat) (long : count ≤ text.length) : bytesAt memory p count = text.take count := by
  apply List.ext_getElem
  · simp only [bytesAt, List.length_map, List.length_range, List.length_take]
    omega
  · intro i left right
    simp only [bytesAt, List.length_map, List.length_range] at left
    have byte := textAt_getD here i (by omega)
    simp only [bytesAt, List.getElem_map, List.getElem_range, byte, List.getElem_take,
      List.getD_eq_getElem?_getD]
    rw [List.getElem?_eq_getElem (by omega), Option.getD_some]

theorem stringAt_iff (memory : Memory) (p : Nat) (text : List UInt8) :
    StringAt memory p text ↔
      TextAt memory p text ∧ (∀ c ∈ text, c ≠ 0) ∧ memory (p + text.length) = 0 := by
  induction text generalizing p with
  | nil => simp [StringAt, TextAt]
  | cons c rest ih =>
      have shifted : p + 1 + rest.length = p + (c :: rest).length := by
        simp only [List.length_cons]; omega
      simp only [StringAt, TextAt, ih, shifted, List.forall_mem_cons]
      tauto

theorem stringFrom_at (memory : Memory) (fuel p : Nat) (text : List UInt8)
    (enough : text.length < fuel) (here : StringAt memory p text) :
    stringFrom memory fuel p = text := by
  induction text generalizing fuel p with
  | nil =>
      cases fuel with
      | zero => simp at enough
      | succ fuel =>
          have ended : memory p = 0 := here
          simp [stringFrom, ended]
  | cons c rest ih =>
      cases fuel with
      | zero => simp at enough
      | succ fuel =>
          obtain ⟨first, nonzero, later⟩ := here
          have tail := ih fuel (p + 1) (by simpa using enough) later
          simp [stringFrom, first, nonzero, tail]

theorem stringFrom_nonzero (memory : Memory) (fuel p : Nat) : ∀ c ∈ stringFrom memory fuel p, c ≠ 0 := by
  induction fuel generalizing p with
  | zero => simp [stringFrom]
  | succ fuel ih =>
      unfold stringFrom
      split
      · simp
      · rename_i present
        exact List.forall_mem_cons.mpr ⟨present, ih (p + 1)⟩

/-- The bytes of a string and the one behind it decide it. -/
theorem stringFrom_congr {left right : Memory} {fuel p : Nat}
    (same : SameOn left right p ((stringFrom right fuel p).length + 1)) :
    stringFrom left fuel p = stringFrom right fuel p := by
  induction fuel generalizing p with
  | zero => rfl
  | succ fuel ih =>
      have first := same p (Nat.le_refl _) (by omega)
      rw [stringFrom] at same ⊢
      rw [stringFrom, first]
      split
      · rfl
      · rename_i present
        rw [if_neg present, List.length_cons] at same
        rw [ih fun x lower upper => same x (by omega) (by omega)]

theorem cstring_congr {left right : Memory} {p : Nat} (same : SameOn left right p ((cstring right p).length + 1)) :
    cstring left p = cstring right p :=
  stringFrom_congr same

/-- A zero ahead ends the string, there or before. -/
theorem stringFrom_ended {memory : Memory} {fuel p count : Nat} (ended : memory (p + count) = 0) :
    (stringFrom memory fuel p).length ≤ count ∧
      (count < fuel → StringAt memory p (stringFrom memory fuel p)) := by
  induction fuel generalizing p count with
  | zero => exact ⟨Nat.zero_le _, fun more => absurd more (Nat.not_lt_zero _)⟩
  | succ fuel ih =>
      rw [stringFrom]
      by_cases here : memory p = 0
      · rw [if_pos here]
        exact ⟨Nat.zero_le _, fun _ => here⟩
      · rw [if_neg here]
        cases count with
        | zero => exact absurd ended here
        | succ count =>
            have shifted : p + (count + 1) = p + 1 + count := by omega
            obtain ⟨short, later⟩ := ih (shifted ▸ ended)
            exact ⟨Nat.succ_le_succ short, fun more => ⟨rfl, here, later (Nat.lt_of_succ_lt_succ more)⟩⟩

theorem cstring_at {memory : Memory} {p : Nat} {text : List UInt8}
    (bounded : text.length < addressSpace) (here : StringAt memory p text) :
    cstring memory p = text :=
  stringFrom_at memory addressSpace p text bounded here

theorem wideFrom_length_le (memory : Memory) (fuel p count : Nat)
    (ended : load memory (p + 2 * count) 2 = 0) : (wideFrom memory fuel p).length ≤ count := by
  induction count generalizing fuel p with
  | zero =>
      cases fuel with
      | zero => exact Nat.le_refl _
      | succ fuel => simp_all [wideFrom]
  | succ count ih =>
      cases fuel with
      | zero => exact Nat.zero_le _
      | succ fuel =>
          have shifted : p + 2 * (count + 1) = p + 2 + 2 * count := by ring
          unfold wideFrom
          split
          · exact Nat.zero_le _
          · exact Nat.succ_le_succ (ih fuel (p + 2) (by rwa [← shifted]))

theorem wideFrom_length (memory : Memory) (fuel p count : Nat) (enough : count < fuel)
    (body : ∀ i, i < count → load memory (p + 2 * i) 2 ≠ 0) (ended : load memory (p + 2 * count) 2 = 0) :
    (wideFrom memory fuel p).length = count := by
  induction count generalizing fuel p with
  | zero => exact Nat.le_zero.mp (wideFrom_length_le memory fuel p 0 ended)
  | succ count ih =>
      obtain ⟨fuel, rfl⟩ : ∃ less, fuel = less + 1 := ⟨fuel - 1, by omega⟩
      have first : load memory p 2 ≠ 0 := body 0 (Nat.succ_pos count)
      have shifted (i : Nat) : p + 2 * (i + 1) = p + 2 + 2 * i := by ring
      have later := ih fuel (p + 2) (by omega) (fun i bound => shifted i ▸ body (i + 1) (by omega))
        (shifted count ▸ ended)
      rw [wideFrom, if_neg first, List.length_cons, later]

theorem textAt_congr {left right : Memory} {p : Nat} {text : List UInt8}
    (same : SameOn left right p text.length) : TextAt left p text ↔ TextAt right p text := by
  induction text generalizing p with
  | nil => rfl
  | cons c rest ih =>
      have first := same p (Nat.le_refl _) (by simp)
      have later : TextAt left (p + 1) rest ↔ TextAt right (p + 1) rest :=
        ih fun x lower upper => same x (by omega) (by simp only [List.length_cons]; omega)
      simp only [TextAt, first, later]

theorem stringAt_congr {left right : Memory} {p : Nat} {text : List UInt8}
    (same : SameOn left right p (text.length + 1)) :
    StringAt left p text ↔ StringAt right p text := by
  have ended := same (p + text.length) (by omega) (by omega)
  have body : TextAt left p text ↔ TextAt right p text :=
    textAt_congr fun x lower upper => same x lower (by omega)
  rw [stringAt_iff, stringAt_iff, body, ended]

theorem stringAt_append {memory : Memory} {p : Nat} {left right : List UInt8} :
    StringAt memory p (left ++ right) ↔
      TextAt memory p left ∧ (∀ c ∈ left, c ≠ 0) ∧ StringAt memory (p + left.length) right := by
  simp only [stringAt_iff, textAt_append, List.forall_mem_append, List.length_append, Nat.add_assoc]
  tauto

theorem stringAt_head {memory : Memory} {p : Nat} {text : List UInt8} (here : StringAt memory p text) :
    memory p = text.headD 0 := by
  cases text with
  | nil => exact here
  | cons c rest => exact here.1

theorem StringAt.nonzero {memory : Memory} {p : Nat} {text : List UInt8}
    (here : StringAt memory p text) : ∀ c ∈ text, c ≠ 0 :=
  ((stringAt_iff memory p text).mp here).2.1

/-- A loop over a string stops where the first part ends. -/
theorem scan_string {go : UInt8 → Bool} {memory : Memory} {p : Nat} {left right : List UInt8}
    (bounded : left.length < addressSpace) (here : StringAt memory p (left ++ right))
    (goes : ∀ c ∈ left, go c = true) (stops : go (right.headD 0) = false) :
    scan go memory p = p + left.length := by
  obtain ⟨first, -, later⟩ := stringAt_append.mp here
  exact scan_text go memory p left bounded first goes (by rw [stringAt_head later]; exact stops)

/-- A terminator stored over a character leaves two strings. -/
theorem stringAt_cut {memory : Memory} {p : Nat} {left right : List UInt8} {c : UInt8}
    (here : StringAt memory p (left ++ c :: right)) :
    StringAt (poke memory (p + left.length) 0) p left ∧
      StringAt (poke memory (p + left.length) 0) (p + left.length + 1) right := by
  obtain ⟨first, nonzero, later⟩ := stringAt_append.mp here
  have writes := poke_writesIn memory (p + left.length) 0
  constructor
  · refine (stringAt_iff _ _ _).mpr ⟨(textAt_congr ?_).mpr first, nonzero, poke_same _ _ _⟩
    exact writes.sameOn (Or.inr (Nat.le_refl _))
  · exact (stringAt_congr (writes.sameOn (Or.inl (Nat.le_refl _)))).mpr later.2.2

theorem textAt_storeBytes (memory : Memory) (p : Nat) (text : List UInt8) :
    TextAt (storeBytes memory p text) p text := by
  have walk : ∀ (done rest : List UInt8), done ++ rest = text →
      TextAt (storeBytes memory p text) (p + done.length) rest := by
    intro done rest split
    induction rest generalizing done with
    | nil => trivial
    | cons c rest ih =>
        have bound : done.length < text.length := by rw [← split]; simp
        refine ⟨?_, ?_⟩
        · rw [storeBytes_at memory p text done.length bound, ← split]
          simp
        · have next := ih (done ++ [c]) (by simpa using split)
          simpa [Nat.add_assoc] using next
  simpa using walk [] text rfl

end CString
