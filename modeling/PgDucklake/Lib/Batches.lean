import Mathlib.Data.List.Basic

/-!
# Rows written in batches

A producer fills the slots of a buffer and writes them out whenever the buffer is full, and once more at the end.
`produce_finish` says that nothing but the rows themselves is left of this: what is written is what the producer would
`collect`, whatever the size of the buffer.
-/

namespace Lib

variable {R σ : Type}

structure Buffer (R : Type) where
  slots : List R := []
  written : List R := []
  rowsInserted : Nat := 0

/-- Writes the filled slots out. -/
def Buffer.flush (b : Buffer R) : Buffer R where
  written := b.written ++ b.slots
  rowsInserted := b.rowsInserted + b.slots.length

/-- Fills the next slot; without one, this is a store behind the buffer. -/
def Buffer.add (size : Nat) (isFull : Nat → Bool) (b : Buffer R) (r : R) : Option (Buffer R) :=
  if b.slots.length < size then
    let filled := { b with slots := b.slots ++ [r] }
    some (if isFull filled.slots.length then filled.flush else filled)
  else none

/-- Writes the remaining slots out. -/
def Buffer.finish (b : Buffer R) : Buffer R := if b.slots.length > 0 then b.flush else b

/-- The loop over the rows `i`, `i + 1`, … of which there are `n`, with a state of its own. -/
def produce (size : Nat) (isFull : Nat → Bool) (row : σ → Nat → Option (R × σ)) :
    Buffer R → σ → Nat → Nat → Option (Buffer R × σ)
  | b, s, _, 0 => some (b, s)
  | b, s, i, n + 1 => do
    let (r, s) ← row s i
    let b ← b.add size isFull r
    produce size isFull row b s (i + 1) n

/-- The rows alone. -/
def collect (row : σ → Nat → Option (R × σ)) : σ → Nat → Nat → Option (List R × σ)
  | s, _, 0 => some ([], s)
  | s, i, n + 1 => do
    let (r, s) ← row s i
    let (rs, s) ← collect row s (i + 1) n
    some (r :: rs, s)

/-- The buffer has taken `rows` and has a free slot. -/
structure Buffer.Holds (size : Nat) (b : Buffer R) (rows : List R) : Prop where
  rows_eq : b.written ++ b.slots = rows
  counted : b.rowsInserted = b.written.length
  free : b.slots.length < size

variable {size : Nat} {isFull : Nat → Bool} {b : Buffer R} {rows : List R}

theorem Buffer.holds_empty (hsize : 0 < size) : Buffer.Holds size ({} : Buffer R) [] := ⟨rfl, rfl, hsize⟩

theorem Buffer.Holds.add (h : b.Holds size rows) (hfull : isFull size = true) (r : R) :
    ∃ b', b.add size isFull r = some b' ∧ b'.Holds size (rows ++ [r]) := by
  refine ⟨_, by rw [Buffer.add, if_pos h.free], ?_⟩
  by_cases hcase : isFull (b.slots ++ [r]).length = true
  · rw [if_pos hcase]
    have hfree := h.free
    exact ⟨by simp [Buffer.flush, ← h.rows_eq], by simp [Buffer.flush, h.counted], by simp [Buffer.flush]; omega⟩
  · rw [if_neg hcase]
    refine ⟨by simp [← h.rows_eq], h.counted, ?_⟩
    -- with the last slot filled the buffer would be full
    have hne : (b.slots ++ [r]).length ≠ size := fun heq => hcase (heq ▸ hfull)
    have hfree := h.free
    simp only [List.length_append, List.length_singleton] at hne ⊢
    omega

theorem Buffer.Holds.finish (h : b.Holds size rows) :
    b.finish.written = rows ∧ b.finish.rowsInserted = rows.length := by
  have hlength := congrArg List.length h.rows_eq
  rw [List.length_append] at hlength
  by_cases hcase : b.slots.length > 0
  · rw [Buffer.finish, if_pos hcase]
    exact ⟨h.rows_eq, by simp only [Buffer.flush, h.counted]; omega⟩
  · rw [Buffer.finish, if_neg hcase]
    have hslots : b.slots = [] := List.length_eq_zero_iff.mp (by omega)
    have hrows := h.rows_eq
    rw [hslots, List.append_nil] at hrows
    exact ⟨hrows, by rw [h.counted, hrows]⟩

theorem Buffer.Holds.produce (row : σ → Nat → Option (R × σ)) (hfull : isFull size = true) (s : σ) (i n : Nat)
    (h : b.Holds size rows) :
    (collect row s i n = none ∧ Lib.produce size isFull row b s i n = none) ∨
    ∃ rs s' b', collect row s i n = some (rs, s') ∧ Lib.produce size isFull row b s i n = some (b', s') ∧
      b'.Holds size (rows ++ rs) := by
  induction n generalizing b rows s i with
  | zero => exact .inr ⟨[], s, b, rfl, rfl, by rwa [List.append_nil]⟩
  | succ n ih =>
    cases hrow : row s i with
    | none => exact .inl ⟨by simp [collect, hrow], by simp [Lib.produce, hrow]⟩
    | some next =>
      obtain ⟨r, s₁⟩ := next
      obtain ⟨b₁, hadd, hb₁⟩ := h.add hfull r
      rcases ih s₁ (i + 1) hb₁ with ⟨hcollect, hproduce⟩ | ⟨rs, s', b', hcollect, hproduce, hb'⟩
      · exact .inl ⟨by simp [collect, hrow, hcollect], by simp [Lib.produce, hrow, hadd, hproduce]⟩
      · refine .inr ⟨r :: rs, s', b', by simp [collect, hrow, hcollect], by simp [Lib.produce, hrow, hadd, hproduce], ?_⟩
        rwa [List.append_assoc] at hb'

/-- **Batches leave no trace.** What a producer has written and counted at the end is what it would collect. -/
theorem produce_finish (isFull : Nat → Bool) (row : σ → Nat → Option (R × σ)) (hfull : isFull size = true) (hsize : 0 < size) (s : σ)
    (n : Nat) :
    (produce size isFull row {} s 0 n).map (fun p => (p.1.finish.written, p.1.finish.rowsInserted)) =
      (collect row s 0 n).map fun p => (p.1, p.1.length) := by
  rcases (Buffer.holds_empty hsize).produce row hfull s 0 n with ⟨hcollect, hproduce⟩ | ⟨rs, s', b', hcollect, hproduce, hb'⟩
  · rw [hcollect, hproduce]
    rfl
  · obtain ⟨hwritten, hcounted⟩ := hb'.finish
    rw [hcollect, hproduce, Option.map_some, Option.map_some, hwritten, hcounted, List.nil_append]

theorem collect_path {row : σ → Nat → Option (R × σ)} {state : Nat → σ} {content : Nat → R}
    (hrow : ∀ i, row (state i) i = some (content i, state (i + 1))) (i n : Nat) :
    collect row (state i) i n = some ((List.range' i n).map content, state (i + n)) := by
  induction n generalizing i with
  | zero => rfl
  | succ n ih =>
    have hnext : i + 1 + n = i + (n + 1) := by omega
    simp [collect, hrow, ih, List.range'_succ, hnext]

/-! ## Numbered rows -/

/-- Rows made from contents and a running number. -/
def number {C : Type} (mk : σ → C → R) (next : σ → σ) : σ → List C → List R
  | _, [] => []
  | s, c :: cs => mk s c :: number mk next (next s) cs

theorem collect_number {C : Type} (mk : σ → C → R) (next : σ → σ) (content : Nat → Option C) (s : σ) (i n : Nat) :
    (collect (fun s i => (content i).bind fun c => some (mk s c, next s)) s i n).map (·.1) =
      ((List.range' i n).mapM content).map (number mk next s) := by
  induction n generalizing s i with
  | zero => rfl
  | succ n ih =>
    rw [collect, List.range'_succ, List.mapM_cons]
    have hrest := ih (next s) (i + 1)
    cases content i with
    | none => rfl
    | some c =>
      cases hcollect : collect (fun s i => (content i).bind fun c => some (mk s c, next s)) (next s) (i + 1) n <;>
        cases hmap : (List.range' (i + 1) n).mapM content <;> simp_all [number]

end Lib
