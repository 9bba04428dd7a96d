import PgDucklake.Types.Columns
import PgDucklake.Lib.Options
import PgDucklake.Lib.Regions

/-!
# Vectors of DuckDB

A flat vector is a region of bytes and a validity mask. A value is written as wide as the C++ type of its converter is, at
its index times that width, and read as wide as the vector's elements are. A LIST vector is a region of entries over a
child. `Vec.read` follows the entries down from a row; `Vec.KeptOutside` says what a write left alone, on all levels.

`writeRows_spec` is about the loop that both a column of a chunk and the elements of an array are written by.
-/

namespace PgDucklake.Types

open Lib

/-! ## Flat vectors -/

/-- `idx_t`, the type of rows. -/
def idxLimit : Nat := 2 ^ 64

/-- One byte of an element. -/
structure Byte where
  element : Element
  index : Nat
  deriving DecidableEq, Repr

def Element.bytes (e : Element) : List Byte := (List.range e.width).map fun k => ⟨e, k⟩

structure FlatVector where
  bytes : Region (Option Byte)
  valid : Region Bool

namespace FlatVector

/-- `Append<T>`: `data[offset] = value`. -/
def append (vec : FlatVector) (offset : Nat) (e : Element) : Option FlatVector :=
  (vec.bytes.fill idxLimit (offset * e.width) (e.bytes.map fun b _ => some b)).map fun bytes => { vec with bytes }

/-- `SetInvalid`. -/
def setInvalid (vec : FlatVector) (row : Nat) : Option FlatVector :=
  (vec.valid.put idxLimit row fun _ => false).map fun valid => { vec with valid }

/-- NULL clears the validity bit and leaves the bytes, a value sets the bytes and leaves the bit. -/
def set (vec : FlatVector) (row : Nat) : Option Element → Option FlatVector
  | none => vec.setInvalid row
  | some e => vec.append row e

/-- The element at a row, of so many bytes. -/
def Holds (vec : FlatVector) (width row : Nat) (e : Element) : Prop :=
  e.width = width ∧ ∀ k < width, vec.bytes.cell (row * width + k) = some ⟨e, k⟩

instance (vec : FlatVector) (width row : Nat) (e : Element) : Decidable (vec.Holds width row e) :=
  inferInstanceAs (Decidable (_ ∧ _))

/-- What is read at a row: bytes that are not those of one element are none. -/
def element (vec : FlatVector) (width row : Nat) : Option Element :=
  (vec.bytes.cell (row * width)).bind fun b => if vec.Holds width row b.element then some b.element else none

/-- The element at a row is as it was, and its bit. -/
def SameAt (width row : Nat) (vec vec' : FlatVector) : Prop :=
  vec'.valid.cell row = vec.valid.cell row ∧
    ∀ k < width, vec'.bytes.cell (row * width + k) = vec.bytes.cell (row * width + k)

/-- The row was set to the value. -/
def Has (width row : Nat) (vec vec' : FlatVector) : Option Element → Prop
  | none => vec'.valid.cell row = false
  | some e => vec'.valid.cell row = vec.valid.cell row ∧ vec'.Holds width row e

/-- Room for as many elements as there are validity bits. -/
def Sized (width : Nat) (vec : FlatVector) : Prop := vec.bytes.cap = vec.valid.cap * width

variable {vec vec' vec'' : FlatVector} {width row : Nat} {e : Element}

theorem Holds.element (h : vec.Holds width row e) (hpos : 0 < width) : vec.element width row = some e := by
  have hfirst := h.2 0 hpos
  rw [Nat.add_zero] at hfirst
  rw [FlatVector.element, hfirst, Option.bind_some, if_pos h]

theorem SameAt.trans (h : SameAt width row vec vec') (h' : SameAt width row vec' vec'') : SameAt width row vec vec'' :=
  ⟨h'.1.trans h.1, fun k hk => (h'.2 k hk).trans (h.2 k hk)⟩

/-- What a write of one row leaves: its own element, and all else as it was. -/
structure Written (width row : Nat) (value : Option Element) (vec vec' : FlatVector) : Prop where
  bytesCap : vec'.bytes.cap = vec.bytes.cap
  validCap : vec'.valid.cap = vec.valid.cap
  outside : ∀ k ≠ row, SameAt width k vec vec'
  inside : Has width row vec vec' value

theorem mul_add_lt_or {width row k j : Nat} (hj : j < width) (hne : k ≠ row) :
    k * width + j < row * width ∨ row * width + width ≤ k * width + j := by
  rcases Nat.lt_or_gt_of_ne hne with hlt | hgt
  · have hstep := Nat.mul_le_mul_right width (Nat.succ_le_of_lt hlt)
    rw [Nat.succ_mul] at hstep
    omega
  · have hstep := Nat.mul_le_mul_right width (Nat.succ_le_of_lt hgt)
    rw [Nat.succ_mul] at hstep
    omega

theorem append_written (hsized : vec.Sized width) (hrow : row < vec.valid.cap) (hlimit : (row + 1) * width ≤ idxLimit)
    (hwidth : e.width = width) : ∃ vec', vec.append row e = some vec' ∧ Written width row (some e) vec vec' := by
  have hlength : (e.bytes.map fun b (_ : Option Byte) => some b).length = width := by
    simp [Element.bytes, hwidth]
  have hcap : row * width + (e.bytes.map fun b (_ : Option Byte) => some b).length ≤ vec.bytes.cap := by
    rw [hlength, hsized, ← Nat.succ_mul]
    exact Nat.mul_le_mul_right width (Nat.succ_le_of_lt hrow)
  have hindex : row * width + (e.bytes.map fun b (_ : Option Byte) => some b).length ≤ idxLimit := by
    rwa [hlength, ← Nat.succ_mul]
  obtain ⟨bytes, hfill⟩ := vec.bytes.exists_fill _ hindex hcap
  have hfilled := Region.fill_spec hfill
  refine ⟨{ vec with bytes }, by rw [append, hwidth, hfill]; rfl, hfilled.cap, rfl, ?_, rfl, hwidth, ?_⟩
  · refine fun k hk => ⟨rfl, fun j hj => hfilled.outside _ ?_⟩
    rw [hlength]
    exact mul_add_lt_or hj hk
  · intro k hk
    refine hfilled.inside k (fun _ => some ⟨e, k⟩) ?_
    simp [Element.bytes, hwidth, hk]

theorem setInvalid_written (hrow : row < vec.valid.cap) (hlimit : row < idxLimit) :
    ∃ vec', vec.setInvalid row = some vec' ∧ Written width row none vec vec' := by
  refine ⟨⟨vec.bytes, { vec.valid with cell := Function.update vec.valid.cell row false }⟩, ?_, rfl, rfl,
    fun k hk => ⟨Function.update_of_ne hk _ _, fun _ _ => rfl⟩, Function.update_self ..⟩
  rw [setInvalid, Region.put, if_pos ⟨hlimit, hrow⟩]
  rfl

theorem set_written {value : Option Element} (hsized : vec.Sized width) (hpos : 0 < width) (hrow : row < vec.valid.cap)
    (hlimit : (row + 1) * width ≤ idxLimit) (hwidth : ∀ e, value = some e → e.width = width) :
    ∃ vec', vec.set row value = some vec' ∧ Written width row value vec vec' := by
  cases value with
  | none =>
    have hle := Nat.le_mul_of_pos_right (row + 1) hpos
    exact setInvalid_written hrow (by omega)
  | some e => exact append_written hsized hrow hlimit (hwidth e rfl)

end FlatVector

/-! ## Rows of values -/

inductive AppendError (ε : Type*)
  | moreDimensions
  | fewerDimensions
  | element (error : ε)
  /-- A write to a place that its index type cannot hold or that is not in the buffer. -/
  | fault
  deriving DecidableEq, Repr

section Rows

variable {α ε : Type*}

/-- One value, NULL or converted where it stands, at a place that is an index of the given type. -/
def writeRow (limit : Nat) (convert : α → Except ε Element) (vec : FlatVector) (row : Nat) (slot : Option α) :
    Except (AppendError ε) FlatVector :=
  if row < limit then
    match slot.mapM convert with
    | .error e => .error (.element e)
    | .ok value =>
      match vec.set row value with
      | none => .error .fault
      | some vec => .ok vec
  else .error .fault

/-- The rows from `row` on. -/
def writeRows (limit : Nat) (convert : α → Except ε Element) (vec : FlatVector) (row : Nat) :
    List (Option α) → Except (AppendError ε) FlatVector
  | [] => .ok vec
  | slot :: slots =>
    match writeRow limit convert vec row slot with
    | .error e => .error e
    | .ok vec => writeRows limit convert vec (row + 1) slots

/-- Each value converts, to the one at its place. -/
def Converts (convert : α → Except ε Element) (slots : List (Option α)) (values : List (Option Element)) : Prop :=
  List.Forall₂ (fun slot value => slot.mapM convert = .ok value) slots values

/-- What the loop leaves: the values, and all else as it was. -/
structure FlatVector.Filled (width row : Nat) (values : List (Option Element)) (vec vec' : FlatVector) : Prop where
  bytesCap : vec'.bytes.cap = vec.bytes.cap
  validCap : vec'.valid.cap = vec.valid.cap
  outside : ∀ k, k < row ∨ row + values.length ≤ k → SameAt width k vec vec'
  inside : ∀ (i : Nat) value, values[i]? = some value → Has width (row + i) vec vec' value

variable {limit width row : Nat} {convert : α → Except ε Element} {vec vec' : FlatVector} {slot : Option α}
  {slots : List (Option α)} {values values' : List (Option Element)}

theorem width_of_mapM (hwidth : ∀ a e, slot = some a → convert a = .ok e → e.width = width) {value : Option Element}
    (h : slot.mapM convert = .ok value) : ∀ e, value = some e → e.width = width := by
  rintro e rfl
  cases slot with
  | none => cases h
  | some a =>
    cases ha : convert a with
    | error => simp [ha, Functor.map, Except.map] at h
    | ok e' =>
      have hvalue : e' = e := by simpa [ha, Functor.map, Except.map] using h
      exact hvalue ▸ hwidth a e' rfl ha

theorem writeRow_spec (hwidth : ∀ a e, slot = some a → convert a = .ok e → e.width = width) (hpos : 0 < width)
    (hsized : vec.Sized width) (hrow : row < vec.valid.cap) (hlimit : row < limit) (hidx : (row + 1) * width ≤ idxLimit) :
    (∃ e, slot.mapM convert = .error e ∧ writeRow limit convert vec row slot = .error (.element e)) ∨
      ∃ value vec', slot.mapM convert = .ok value ∧ writeRow limit convert vec row slot = .ok vec' ∧
        FlatVector.Written width row value vec vec' := by
  cases hvalue : slot.mapM convert with
  | error e => exact .inl ⟨e, rfl, by rw [writeRow, if_pos hlimit, hvalue]⟩
  | ok value =>
    obtain ⟨vec', hset, hwritten⟩ := FlatVector.set_written hsized hpos hrow hidx (width_of_mapM hwidth hvalue)
    exact .inr ⟨value, vec', rfl, by simp only [writeRow, if_pos hlimit, hvalue, hset], hwritten⟩

theorem FlatVector.Filled.cons {value : Option Element} {mid : FlatVector} (h : Written width row value vec mid)
    (hrest : Filled width (row + 1) values mid vec') : Filled width row (value :: values) vec vec' := by
  refine ⟨hrest.bytesCap.trans h.bytesCap, hrest.validCap.trans h.validCap, ?_, ?_⟩
  · intro k hk
    rw [List.length_cons] at hk
    exact (h.outside k (by omega)).trans (hrest.outside k (by omega))
  · intro i v hv
    cases i with
    | zero =>
      cases hv
      have hsame := hrest.outside row (by omega)
      have hhas := h.inside
      cases value with
      | none => exact hsame.1.trans hhas
      | some e => exact ⟨hsame.1.trans hhas.1, hhas.2.1, fun k hk => (hsame.2 k hk).trans (hhas.2.2 k hk)⟩
    | succ i =>
      have hhas := hrest.inside i v hv
      rw [show row + 1 + i = row + (i + 1) by omega] at hhas
      cases v with
      | none => exact hhas
      | some e => exact ⟨hhas.1.trans (h.outside _ (by omega)).1, hhas.2⟩

theorem writeRows_spec (hwidth : ∀ a e, some a ∈ slots → convert a = .ok e → e.width = width) (hpos : 0 < width)
    (hsized : vec.Sized width) (hroom : row + slots.length ≤ vec.valid.cap) (hlimit : row + slots.length ≤ limit)
    (hidx : (row + slots.length) * width ≤ idxLimit) :
    (∃ e, (∃ slot ∈ slots, slot.mapM convert = .error e) ∧ writeRows limit convert vec row slots = .error (.element e)) ∨
      ∃ values vec', Converts convert slots values ∧ writeRows limit convert vec row slots = .ok vec' ∧
        FlatVector.Filled width row values vec vec' := by
  induction slots generalizing vec row with
  | nil => exact .inr ⟨[], vec, .nil, rfl, rfl, rfl, fun _ _ => ⟨rfl, fun _ _ => rfl⟩, by simp⟩
  | cons slot slots ih =>
    rw [List.length_cons] at hroom hlimit hidx
    have hidx' : (row + 1) * width ≤ idxLimit := (Nat.mul_le_mul_right width (by omega)).trans hidx
    obtain ⟨e, hslot, herror⟩ | ⟨value, mid, hslot, hmid, hwritten⟩ :=
      writeRow_spec (fun a e ha => hwidth a e (ha ▸ List.mem_cons_self)) hpos hsized
        (show row < vec.valid.cap by omega) (show row < limit by omega) hidx'
    · exact .inl ⟨e, ⟨slot, List.mem_cons_self, hslot⟩, by rw [writeRows, herror]⟩
    rw [writeRows, hmid]
    have hsized' : mid.Sized width := by rw [FlatVector.Sized, hwritten.bytesCap, hwritten.validCap, hsized]
    have hroom' : row + 1 + slots.length ≤ mid.valid.cap := by
      rw [hwritten.validCap]
      omega
    have hlimit' : row + 1 + slots.length ≤ limit := by omega
    have hnext : (row + 1 + slots.length) * width ≤ idxLimit := by rwa [Nat.add_right_comm, Nat.add_assoc]
    obtain ⟨e, ⟨slot', hmem, hslot'⟩, herror⟩ | ⟨values, vec', hvalues, hvec', hfilled⟩ :=
      ih (fun a e ha => hwidth a e (List.mem_cons_of_mem _ ha)) hsized' hroom' hlimit' hnext
    · exact .inl ⟨e, ⟨slot', List.mem_cons_of_mem _ hmem, hslot'⟩, herror⟩
    · exact .inr ⟨value :: values, vec', .cons hslot hvalues, hvec', hfilled.cons hwritten⟩

theorem writeRows_limit (h : writeRows limit convert vec row slots = .ok vec') (hne : slots ≠ []) :
    row + slots.length ≤ limit := by
  induction slots generalizing vec row with
  | nil => exact absurd rfl hne
  | cons slot slots ih =>
    rw [writeRows] at h
    cases hmid : writeRow limit convert vec row slot with
    | error => simp [hmid] at h
    | ok mid =>
      rw [hmid] at h
      have hrow : row < limit := by
        by_contra hnot
        rw [writeRow, if_neg hnot] at hmid
        cases hmid
      by_cases hnil : slots = []
      · rw [hnil]
        exact hrow
      · have hrest := ih h hnil
        rw [List.length_cons]
        omega

theorem Converts.unique (h : Converts convert slots values) (h' : Converts convert slots values') : values' = values := by
  induction h generalizing values' with
  | nil =>
    cases h'
    rfl
  | cons hslot _ ih =>
    cases h' with
    | cons hslot' hrest =>
      rw [hslot] at hslot'
      cases hslot'
      rw [ih hrest]

end Rows

/-! ## Nested vectors -/

/-- An entry of a LIST vector, with its bit of the validity mask. Memory that was not written holds no payload. -/
structure Cell (γ : Type*) where
  payload : Option γ := none
  valid : Bool := true
  deriving DecidableEq, Repr

/-- `list_entry_t`. -/
structure ListEntry where
  offset : Nat
  length : Nat
  deriving DecidableEq, Repr

/-- A vector of a type: elements of a width, or lists. -/
inductive Vec
  | flat (width : Nat) (vec : FlatVector)
  | list (entries : Region (Cell ListEntry)) (size : Nat) (child : Vec)

/-- How a buffer grows: from a capacity and what is needed to a capacity that has both. -/
structure Growth where
  next : Nat → Nat → Nat
  covers : ∀ cap needed, needed ≤ next cap needed

inductive Nested
  | elem (value : Option Element)
  | list (items : List Nested)

namespace Vec

def depth : Vec → Nat
  | .flat .. => 0
  | .list _ _ child => child.depth + 1

def cap : Vec → Nat
  | .flat _ vec => vec.valid.cap
  | .list entries _ _ => entries.cap

/-- `ListVector::Reserve`, on the child it is for. -/
def reserve (growth : Growth) (needed : Nat) : Vec → Vec
  | .flat width vec =>
    let cap := growth.next vec.valid.cap needed
    .flat width ⟨{ vec.bytes with cap := cap * width }, { vec.valid with cap := cap }⟩
  | .list entries size child => .list { entries with cap := growth.next entries.cap needed } size child

/-- What stands at a row. A list that was not written, or that reaches past the end of the child, is nothing. -/
def read : Vec → Nat → Option Nested
  | .flat width vec, i =>
    if vec.valid.cell i then (vec.element width i).map fun e => .elem (some e) else some (.elem none)
  | .list entries size child, i =>
    if (entries.cell i).valid then
      (entries.cell i).payload.bind fun e =>
        if e.offset + e.length ≤ size then
          ((List.range e.length).mapM fun k => child.read (e.offset + k)).map .list
        else none
    else some (.elem none)

/-- The elements have the width, and room for each. -/
def Sized (width : Nat) : Vec → Prop
  | .flat width' vec => width' = width ∧ vec.Sized width
  | .list _ _ child => child.Sized width

/-- Nothing was written yet: at the top the rows `fresh`, below everything from the size on. -/
def Fresh : (Nat → Prop) → Vec → Prop
  | fresh, .flat _ vec => ∀ k, fresh k → vec.valid.cell k = true
  | fresh, .list entries size child => (∀ k, fresh k → entries.cell k = {}) ∧ child.Fresh (size ≤ ·)

/-- All but the rows from `lo` to before `hi` is as it was, and below all but what lies between the old and the new
size. -/
def KeptOutside : (lo hi : Nat) → Vec → Vec → Prop
  | lo, hi, .flat width vec, .flat width' vec' =>
    width' = width ∧ ∀ k, k < lo ∨ hi ≤ k → FlatVector.SameAt width k vec vec'
  | lo, hi, .list entries size child, .list entries' size' child' =>
    (∀ k, k < lo ∨ hi ≤ k → entries'.cell k = entries.cell k) ∧ size ≤ size' ∧ child.KeptOutside size size' child'
  | _, _, _, _ => False

/-- The entries in use point inside their child, at the top those of the rows `used`. -/
def EntriesInside : (Nat → Prop) → Vec → Prop
  | _, .flat .. => True
  | used, .list entries size child =>
    (∀ k, used k → ∃ e, (entries.cell k).payload = some e ∧ e.offset + e.length ≤ size) ∧
      child.EntriesInside (· < size)

end Vec

/-! ## Reading back -/

theorem mapM_some_of_forall {γ δ : Type*} {f : γ → Option δ} {g : γ → δ} {l : List γ}
    (h : ∀ x ∈ l, f x = some (g x)) : l.mapM f = some (l.map g) := by
  induction l with
  | nil => rfl
  | cons x l ih =>
    rw [List.mapM_cons, h x List.mem_cons_self, ih fun y hy => h y (List.mem_cons_of_mem x hy)]
    rfl

theorem forall_isSome_of_mapM {γ δ : Type*} {f : γ → Option δ} {l : List γ} (h : (l.mapM f).isSome) :
    ∀ x ∈ l, (f x).isSome := by
  induction l with
  | nil => nofun
  | cons x l ih =>
    rw [List.mapM_cons] at h
    cases hx : f x with
    | none => simp [hx] at h
    | some y =>
      cases hl : l.mapM f with
      | none => simp [hx, hl] at h
      | some ys =>
        rw [List.forall_mem_cons]
        exact ⟨by simp [hx], ih (by simp [hl])⟩

namespace Vec

variable {vec vec' : Vec} {width n lo hi i : Nat} {p q used : Nat → Prop} {growth : Growth}
  {entries : Region (Cell ListEntry)} {size : Nat} {child : Vec}

theorem read_list {e : ListEntry} (hcell : entries.cell i = { payload := some e })
    (hinside : e.offset + e.length ≤ size) :
    (Vec.list entries size child).read i =
      ((List.range e.length).mapM fun k => child.read (e.offset + k)).map .list := by
  simp only [read, hcell, if_true, Option.bind_some, if_pos hinside]

theorem not_isSome_read_of_unset (hcell : entries.cell i = {}) : ¬ ((Vec.list entries size child).read i).isSome := by
  simp [read, hcell]

theorem Fresh.mono (h : vec.Fresh p) (hpq : ∀ k, q k → p k) : vec.Fresh q := by
  cases vec with
  | flat => exact fun k hk => h k (hpq k hk)
  | list entries size child => exact ⟨fun k hk => h.1 k (hpq k hk), h.2⟩

theorem Fresh.reserve (h : vec.Fresh p) (growth : Growth) (n : Nat) : (vec.reserve growth n).Fresh p := by
  cases vec <;> exact h

theorem Sized.reserve (h : vec.Sized width) (growth : Growth) (n : Nat) : (vec.reserve growth n).Sized width := by
  cases vec with
  | flat width' vec =>
    obtain ⟨rfl, -⟩ := h
    exact ⟨rfl, rfl⟩
  | list => exact h

theorem depth_reserve (vec : Vec) (growth : Growth) (n : Nat) : (vec.reserve growth n).depth = vec.depth := by
  cases vec <;> rfl

theorem le_cap_reserve (vec : Vec) (growth : Growth) (n : Nat) : n ≤ (vec.reserve growth n).cap := by
  cases vec <;> exact growth.covers _ _

theorem keptOutside_reserve (h : (vec.reserve growth n).KeptOutside lo hi vec') : vec.KeptOutside lo hi vec' := by
  cases vec <;> cases vec' <;> exact h

theorem entriesInside_reserve (growth : Growth) (n : Nat) (h : vec.EntriesInside used) :
    (vec.reserve growth n).EntriesInside used := by
  cases vec <;> exact h

theorem EntriesInside.mono (h : vec.EntriesInside p) (hqp : ∀ k, q k → p k) : vec.EntriesInside q := by
  cases vec with
  | flat => trivial
  | list entries size child => exact ⟨fun k hk => h.1 k (hqp k hk), h.2⟩

end Vec

end PgDucklake.Types
