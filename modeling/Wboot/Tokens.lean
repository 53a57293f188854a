import Mathlib.Data.List.TakeWhile

/-! Splitting at runs of separators, and the one cut that a tokenizer makes at a
time: skip separators, take a word, drop the separator behind it. -/

namespace Tokens

variable {Symbol : Type} {delim : Symbol → Bool}

/-- The nonempty pieces between separators. -/
def tokens (delim : Symbol → Bool) (text : List Symbol) : List (List Symbol) :=
  (text.splitOnP delim).filter (!·.isEmpty)

theorem tokens_nil : tokens delim [] = [] := rfl

theorem tokens_skip {skipped : List Symbol} (separators : ∀ c ∈ skipped, delim c = true)
    (text : List Symbol) : tokens delim (skipped ++ text) = tokens delim text := by
  induction skipped with
  | nil => rfl
  | cons c rest ih =>
      obtain ⟨first, later⟩ := List.forall_mem_cons.mp separators
      have tail := ih later
      unfold tokens at tail ⊢
      rw [List.cons_append, List.splitOnP_cons_eq_if_modifyHead, if_pos first]
      simpa using tail

theorem tokens_word {word : List Symbol} (present : word ≠ []) (body : ∀ c ∈ word, delim c = false) :
    tokens delim word = [word] := by
  unfold tokens
  rw [List.splitOnP_eq_singleton body]
  simp [present]

theorem tokens_cut {word : List Symbol} (present : word ≠ []) (body : ∀ c ∈ word, delim c = false)
    {separator : Symbol} (ends : delim separator = true) (rest : List Symbol) :
    tokens delim (word ++ separator :: rest) = word :: tokens delim rest := by
  unfold tokens
  rw [List.splitOnP_append_cons_of_forall_mem body separator ends]
  simp [present]

/-- A place where a text can be cut without cutting a word. -/
def Boundary (delim : Symbol → Bool) (done : List Symbol) : Prop :=
  ∀ later, tokens delim (done ++ later) = tokens delim done ++ tokens delim later

theorem boundary_nil : Boundary delim [] := fun _ => rfl

section Advance
variable {done skipped word : List Symbol} {separator : Symbol}

theorem Boundary.skip (boundary : Boundary delim done) (separators : ∀ c ∈ skipped, delim c = true) :
    tokens delim (done ++ skipped) = tokens delim done := by
  have none := tokens_skip separators []
  rw [List.append_nil] at none
  rw [boundary, none, tokens_nil, List.append_nil]

theorem Boundary.cut (boundary : Boundary delim done) (separators : ∀ c ∈ skipped, delim c = true)
    (present : word ≠ []) (body : ∀ c ∈ word, delim c = false) (ends : delim separator = true)
    (later : List Symbol) :
    tokens delim (done ++ (skipped ++ (word ++ separator :: later))) =
      (tokens delim done ++ [word]) ++ tokens delim later := by
  rw [boundary, tokens_skip separators, tokens_cut present body ends, List.append_assoc, List.singleton_append]

theorem Boundary.advance (boundary : Boundary delim done) (separators : ∀ c ∈ skipped, delim c = true)
    (present : word ≠ []) (body : ∀ c ∈ word, delim c = false) (ends : delim separator = true) :
    tokens delim (done ++ (skipped ++ (word ++ [separator]))) = tokens delim done ++ [word] ∧
      Boundary delim (done ++ (skipped ++ (word ++ [separator]))) := by
  have next := boundary.cut separators present body ends
  have whole := next []
  rw [tokens_nil, List.append_nil] at whole
  refine ⟨whole, fun later => ?_⟩
  rw [whole, ← next later]
  simp only [List.append_assoc, List.singleton_append]

end Advance

theorem splitOnP_length_le (text : List Symbol) :
    ∀ piece ∈ text.splitOnP delim, piece.length ≤ text.length := by
  induction text with
  | nil => simp
  | cons c rest ih =>
      rw [List.splitOnP_cons_eq_if_modifyHead]
      obtain ⟨first, others, split⟩ := List.exists_cons_of_ne_nil (List.splitOnP_ne_nil delim rest)
      rw [split] at ih ⊢
      obtain ⟨head, tail⟩ := List.forall_mem_cons.mp ih
      by_cases ends : delim c = true
      · simp only [ends, ↓reduceIte, List.forall_mem_cons, List.length_nil, List.length_cons]
        exact ⟨by omega, by omega, fun piece later => Nat.le_succ_of_le (tail piece later)⟩
      · simp only [ends, Bool.false_eq_true, ↓reduceIte, List.modifyHead_cons, List.forall_mem_cons,
          List.length_cons]
        exact ⟨by omega, fun piece later => Nat.le_succ_of_le (tail piece later)⟩

theorem splitOnP_subset (text : List Symbol) :
    ∀ piece ∈ text.splitOnP delim, ∀ c ∈ piece, c ∈ text := by
  induction text with
  | nil => simp
  | cons d rest ih =>
      rw [List.splitOnP_cons_eq_if_modifyHead]
      obtain ⟨first, others, split⟩ := List.exists_cons_of_ne_nil (List.splitOnP_ne_nil delim rest)
      rw [split] at ih ⊢
      obtain ⟨head, tail⟩ := List.forall_mem_cons.mp ih
      have later (piece : List Symbol) (member : piece ∈ others) : ∀ c ∈ piece, c ∈ d :: rest :=
        fun c inside => List.mem_cons_of_mem d (tail piece member c inside)
      have began : ∀ c ∈ first, c ∈ d :: rest := fun c inside => List.mem_cons_of_mem d (head c inside)
      by_cases ends : delim d = true
      · simp only [ends, ↓reduceIte]
        exact List.forall_mem_cons.mpr ⟨by simp, List.forall_mem_cons.mpr ⟨began, later⟩⟩
      · simp only [ends, Bool.false_eq_true, ↓reduceIte, List.modifyHead_cons]
        exact List.forall_mem_cons.mpr ⟨List.forall_mem_cons.mpr ⟨List.mem_cons_self, began⟩, later⟩

/-- No piece has a separator in it. -/
theorem splitOnP_pieces (text : List Symbol) :
    ∀ piece ∈ text.splitOnP delim, ∀ c ∈ piece, delim c = false := by
  induction text with
  | nil => simp
  | cons d rest ih =>
      rw [List.splitOnP_cons_eq_if_modifyHead]
      obtain ⟨first, others, split⟩ := List.exists_cons_of_ne_nil (List.splitOnP_ne_nil delim rest)
      rw [split] at ih ⊢
      obtain ⟨head, tail⟩ := List.forall_mem_cons.mp ih
      by_cases ends : delim d = true
      · simp only [ends, ↓reduceIte]
        exact List.forall_mem_cons.mpr ⟨by simp, List.forall_mem_cons.mpr ⟨head, tail⟩⟩
      · simp only [ends, Bool.false_eq_true, ↓reduceIte, List.modifyHead_cons]
        have began : ∀ c ∈ d :: first, delim c = false :=
          List.forall_mem_cons.mpr ⟨Bool.eq_false_iff.mpr ends, head⟩
        exact List.forall_mem_cons.mpr ⟨began, tail⟩

theorem tokens_length_le (text word : List Symbol) (member : word ∈ tokens delim text) :
    word.length ≤ text.length :=
  splitOnP_length_le text word (List.mem_filter.mp member).1

theorem tokens_count_le (text : List Symbol) : (tokens delim text).length ≤ text.length + 1 := by
  have pieces : (text.splitOnP delim).length ≤ text.length + 1 := by
    induction text with
    | nil => simp
    | cons c rest ih =>
        rw [List.splitOnP_cons_eq_if_modifyHead]
        split <;> simp <;> omega
  exact Nat.le_trans (List.length_filter_le _ _) pieces

/-- What one cut finds. -/
inductive Cut (delim : Symbol → Bool) (text : List Symbol) : Prop
  | none (separators : ∀ c ∈ text, delim c = true)
  | last (skipped word : List Symbol) (split : text = skipped ++ word)
      (separators : ∀ c ∈ skipped, delim c = true) (present : word ≠ [])
      (body : ∀ c ∈ word, delim c = false)
  | more (skipped word : List Symbol) (separator : Symbol) (rest : List Symbol)
      (split : text = skipped ++ (word ++ separator :: rest))
      (separators : ∀ c ∈ skipped, delim c = true) (present : word ≠ [])
      (body : ∀ c ∈ word, delim c = false) (ends : delim separator = true)

theorem cut (delim : Symbol → Bool) (text : List Symbol) : Cut delim text := by
  have skipped (c : Symbol) (member : c ∈ text.takeWhile delim) : delim c = true :=
    List.mem_takeWhile_imp member
  have split : text = text.takeWhile delim ++ text.dropWhile delim :=
    (List.takeWhile_append_dropWhile).symm
  cases found : text.dropWhile delim with
  | nil =>
      rw [found, List.append_nil] at split
      exact .none fun c member => skipped c (split ▸ member)
  | cons first later =>
      have fresh : delim first = false := by
        have stopped := @List.head_dropWhile_not _ delim text (by rw [found]; simp)
        simpa [found] using stopped
      -- the word is nonempty because the skipping stopped at its first symbol
      have word (c : Symbol) (member : c ∈ (first :: later).takeWhile (!delim ·)) : delim c = false := by
        simpa using List.mem_takeWhile_imp member
      have present : (first :: later).takeWhile (!delim ·) ≠ [] := by simp [fresh]
      have parts : first :: later =
          (first :: later).takeWhile (!delim ·) ++ (first :: later).dropWhile (!delim ·) :=
        (List.takeWhile_append_dropWhile).symm
      rw [found] at split
      cases left : (first :: later).dropWhile (!delim ·) with
      | nil =>
          rw [left, List.append_nil] at parts
          exact .last _ _ (parts ▸ split) skipped present word
      | cons separator rest =>
          have ends : delim separator = true := by
            have stopped := @List.head_dropWhile_not _ (!delim ·) (first :: later) (by rw [left]; simp)
            simpa [left] using stopped
          rw [left] at parts
          exact .more _ _ separator rest (parts ▸ split) skipped present word ends

end Tokens
