import PgDucklake.Lib.Memory
import Mathlib.Algebra.Order.Ring.Int

/-!
# Detoasting

`detoastPostgresDatum` turns a datum of any form into a plain one. `Payload` is what the datum stands for. A pointer to
another datum is not followed: the function calls itself on the pointer again (`detoast_indirect`), so
`detoast_exact_iff` holds for the other forms only.
-/

namespace PgDucklake.Detoast

open Lib

abbrev Bytes := List UInt8

/-- `varatt_external`. `rawsize` counts the header of the plain value. -/
structure ToastPointer where
  rawsize : Nat
  extsize : Nat
  valueid : Nat
  toastrelid : Nat
  deriving DecidableEq, Repr

/-- `VARATT_EXTERNAL_IS_COMPRESSED`. -/
def ToastPointer.isCompressed (p : ToastPointer) : Bool := decide (p.extsize < p.rawsize - 4)

/-- A datum in memory. The bytes of a compressed one start with its size and method; an expanded one is given by what it
flattens to. -/
inductive Varlena
  | plain (data : Bytes)
  | short (data : Bytes)
  | compressed (data : Bytes)
  | onDisk (p : ToastPointer)
  | indirect (pointer : Nat)
  | expanded (flat : Bytes)
  deriving DecidableEq, Repr

/-! ## The environment -/

/-- The first four bytes. -/
def tcinfo (data : Bytes) : Nat :=
  (data.take 4).foldr (fun b n => b.toNat + 256 * n) 0

/-- `VARDATA_COMPRESSED_GET_EXTSIZE`. -/
def extsize (data : Bytes) : Nat := tcinfo data % 2 ^ 30

/-- `TOAST_COMPRESS_METHOD`. -/
def compressMethod (data : Bytes) : Nat := tcinfo data / 2 ^ 30

def pglzCompressionId : Nat := 0
def lz4CompressionId : Nat := 1

/-- The decompressors, given the bytes and the size to expect, the build option, and the toast tables. -/
structure Env where
  pglz : Bytes → Nat → Option Bytes
  lz4 : Bytes → Nat → Option Bytes
  useLz4 : Bool
  toast : (relid : Nat) → Option ((valueid : Nat) → Bytes)

inductive Failure
  | corrupt
  | invalidMethod
  | toastRelationIsNull
  | notAllocated
  | wildWrite
  deriving DecidableEq, Repr

/-- What a call returns; `value` is `none` for a null pointer. -/
structure Detoasted where
  memory : Memory Varlena
  value : Option Nat
  shouldFree : Bool

/-! ## The code -/

section Code

variable (env : Env)

/-- `PglzDecompressDatum` and `Lz4DecompresDatum`. -/
def decompressDatum (decompress : Bytes → Nat → Option Bytes) (data : Bytes) (m : Memory Varlena) :
    Except Failure Detoasted :=
  match decompress (data.drop 4) (extsize data) with
  | none => .error .corrupt
  | some raw => .ok ⟨m.alloc (.plain raw), some m.next, true⟩

/-- `ToastDecompressDatum`. -/
def toastDecompressDatum (data : Bytes) (m : Memory Varlena) : Except Failure Detoasted :=
  if compressMethod data = pglzCompressionId then decompressDatum env.pglz data m
  else if compressMethod data = lz4CompressionId then
    if env.useLz4 then decompressDatum env.lz4 data m else .ok ⟨m, none, true⟩
  else .error .invalidMethod

/-- `ToastFetchDatum`: the new datum and its address. -/
def toastFetchDatum (p : ToastPointer) (m : Memory Varlena) : Except Failure (Memory Varlena × Nat) :=
  let datum := fun data => if p.isCompressed then Varlena.compressed data else .plain data
  if p.extsize = 0 then .ok (m.alloc (datum []), m.next)
  else
    match env.toast p.toastrelid with
    | none => .error .toastRelationIsNull
    | some rel => .ok (m.alloc (datum ((rel p.valueid).take p.extsize)), m.next)

/-- `DetoastPostgresDatum`; `none` if the call has not returned after `fuel` nested calls. -/
def detoastPostgresDatum : (fuel : Nat) → Memory Varlena → Nat → Option (Except Failure Detoasted)
  | 0, _, _ => none
  | fuel + 1, m, attr =>
    match m.cells attr with
    | none => some (.error .notAllocated)
    | some (.onDisk p) =>
      some <| (toastFetchDatum env p m).bind fun (m, tmp) =>
        match m.cells tmp with
        | some (.compressed data) =>
          (toastDecompressDatum env data m).map fun r => { r with memory := r.memory.release tmp }
        | _ => .ok ⟨m, some tmp, true⟩
    | some (.indirect pointer) =>
      -- The call gets `attr` and not the pointer; the copy after it goes to an address that is a size.
      (detoastPostgresDatum fuel m attr).map fun r => r.bind fun r =>
        if attr = pointer then .error .wildWrite else .ok r
    | some (.expanded flat) => some (.ok ⟨m.alloc (.plain flat), some m.next, true⟩)
    | some (.compressed data) => some (toastDecompressDatum env data m)
    | some (.short data) => some (.ok ⟨m.alloc (.plain data), some m.next, true⟩)
    | some (.plain _) => some (.ok ⟨m, some attr, false⟩)

end Code

/-! ## The payload -/

/-- The decompressed bytes of a value that has its four bytes of size and method. -/
def inflate (env : Env) (data : Bytes) : Option Bytes :=
  if data.length < 4 then none
  else if compressMethod data = pglzCompressionId then env.pglz (data.drop 4) (extsize data)
  else if compressMethod data = lz4CompressionId then env.lz4 (data.drop 4) (extsize data)
  else none

/-- The datum at an address stands for the bytes. -/
inductive Payload (env : Env) (m : Memory Varlena) : Nat → Bytes → Prop
  | plain {a d} : m.cells a = some (.plain d) → Payload env m a d
  | short {a d} : m.cells a = some (.short d) → Payload env m a d
  | compressed {a data d} : m.cells a = some (.compressed data) → inflate env data = some d → Payload env m a d
  | onDisk {a p rel} : m.cells a = some (.onDisk p) → p.isCompressed = false → env.toast p.toastrelid = some rel →
      (rel p.valueid).length = p.extsize → Payload env m a (rel p.valueid)
  | onDiskCompressed {a p rel d} : m.cells a = some (.onDisk p) → p.isCompressed = true →
      env.toast p.toastrelid = some rel → (rel p.valueid).length = p.extsize →
      inflate env (rel p.valueid) = some d → Payload env m a d
  | indirect {a b d} : m.cells a = some (.indirect b) → Payload env m b d → Payload env m a d
  | expanded {a d} : m.cells a = some (.expanded d) → Payload env m a d

/-- The call returns a plain datum with the bytes, and says that it is to be freed exactly if it is new. -/
def Detoasts (env : Env) (m : Memory Varlena) (a : Nat) (d : Bytes) : Prop :=
  ∃ fuel r b, detoastPostgresDatum env fuel m a = some (.ok r) ∧ r.value = some b ∧
    r.memory.cells b = some (.plain d) ∧ (r.shouldFree = true ↔ m.cells b = none)

/-- A pointer to another datum is not followed, and without LZ4 a datum compressed with it gives a null pointer. -/
def Supported (env : Env) (m : Memory Varlena) (a : Nat) : Prop :=
  match m.cells a with
  | some (.indirect _) => False
  | some (.compressed data) => compressMethod data = lz4CompressionId → env.useLz4 = true
  | some (.onDisk p) =>
    p.isCompressed = true → ∀ rel, env.toast p.toastrelid = some rel →
      compressMethod (rel p.valueid) = lz4CompressionId → env.useLz4 = true
  | _ => True

section Proofs

variable {env : Env} {m : Memory Varlena} {a : Nat} {d : Bytes}

theorem detoast_indirect {b : Nat} (h : m.cells a = some (.indirect b)) (fuel : Nat) :
    detoastPostgresDatum env fuel m a = none := by
  induction fuel with
  | zero => rfl
  | succ fuel ih => simp [detoastPostgresDatum, h, ih]

theorem detoast_fuel (h : ∀ b, m.cells a ≠ some (.indirect b)) (fuel : Nat) :
    detoastPostgresDatum env (fuel + 1) m a = detoastPostgresDatum env 1 m a := by
  cases hcell : m.cells a with
  | none => simp [detoastPostgresDatum, hcell]
  | some v =>
    cases v with
    | indirect b => exact absurd hcell (h b)
    | _ => simp [detoastPostgresDatum, hcell]

variable {r : Detoasted}

/-- What the one call returns is what `Detoasts` is about. -/
theorem detoasts_iff_of_once (h : detoastPostgresDatum env 1 m a = some (.ok r)) :
    Detoasts env m a d ↔
      ∃ b, r.value = some b ∧ r.memory.cells b = some (.plain d) ∧ (r.shouldFree = true ↔ m.cells b = none) := by
  constructor
  · rintro ⟨fuel, r', b, hcall, hresult⟩
    have hdirect : ∀ b, m.cells a ≠ some (.indirect b) := by
      intro b hb
      rw [detoast_indirect hb] at h
      cases h
    cases fuel with
    | zero => cases hcall
    | succ fuel =>
      rw [detoast_fuel hdirect, h] at hcall
      cases hcall
      exact ⟨b, hresult⟩
  · rintro ⟨b, hresult⟩
    exact ⟨1, r, b, h, hresult⟩

theorem detoasts_of_alloc
    (h : detoastPostgresDatum env 1 m a = some (.ok ⟨m.alloc (.plain d), some m.next, true⟩)) : Detoasts env m a d := by
  rw [detoasts_iff_of_once h]
  exact ⟨m.next, rfl, Memory.alloc_self _, by simp⟩

theorem not_detoasts_of_null (h : detoastPostgresDatum env 1 m a = some (.ok r)) (hnull : r.value = none) :
    ¬Detoasts env m a d := by
  rw [detoasts_iff_of_once h]
  rintro ⟨b, hvalue, -⟩
  rw [hnull] at hvalue
  cases hvalue

variable {data : Bytes}

theorem four_le_of_inflate (h : inflate env data = some d) : 4 ≤ data.length := by
  unfold inflate at h
  split at h
  · cases h
  · omega

theorem toastDecompressDatum_eq (h : inflate env data = some d) (m : Memory Varlena) :
    toastDecompressDatum env data m =
      .ok (if compressMethod data = lz4CompressionId → env.useLz4 = true then ⟨m.alloc (.plain d), some m.next, true⟩
        else ⟨m, none, true⟩) := by
  have hdistinct : pglzCompressionId ≠ lz4CompressionId := by decide
  have hlength : ¬data.length < 4 := Nat.not_lt.mpr (four_le_of_inflate h)
  unfold inflate at h
  rw [if_neg hlength] at h
  unfold toastDecompressDatum
  by_cases hpglz : compressMethod data = pglzCompressionId
  · rw [if_pos hpglz] at h ⊢
    simp [decompressDatum, h, hpglz, hdistinct]
  · rw [if_neg hpglz] at h ⊢
    by_cases hlz4 : compressMethod data = lz4CompressionId
    · rw [if_pos hlz4] at h ⊢
      cases huse : env.useLz4 with
      | true => simp [decompressDatum, h]
      | false => simp [hlz4]
    · rw [if_neg hlz4] at h
      cases h

theorem compressed_detoasts_iff (hcell : m.cells a = some (.compressed data)) (h : inflate env data = some d) :
    Detoasts env m a d ↔ (compressMethod data = lz4CompressionId → env.useLz4 = true) := by
  have honce : detoastPostgresDatum env 1 m a = some (toastDecompressDatum env data m) := by
    simp [detoastPostgresDatum, hcell]
  rw [toastDecompressDatum_eq h] at honce
  by_cases hbuilt : compressMethod data = lz4CompressionId → env.useLz4 = true
  · rw [if_pos hbuilt] at honce
    exact iff_of_true (detoasts_of_alloc honce) hbuilt
  · rw [if_neg hbuilt] at honce
    exact iff_of_false (not_detoasts_of_null honce rfl) hbuilt

variable {p : ToastPointer} {rel : Nat → Bytes}

theorem toastFetchDatum_eq (hrel : env.toast p.toastrelid = some rel) (hlength : (rel p.valueid).length = p.extsize)
    (m : Memory Varlena) :
    toastFetchDatum env p m =
      .ok (m.alloc (if p.isCompressed then .compressed (rel p.valueid) else .plain (rel p.valueid)), m.next) := by
  unfold toastFetchDatum
  by_cases hzero : p.extsize = 0
  · have hempty : rel p.valueid = [] := List.eq_nil_of_length_eq_zero (hlength.trans hzero)
    rw [if_pos hzero, hempty]
  · have hwhole : (rel p.valueid).take p.extsize = rel p.valueid := List.take_of_length_le (Nat.le_of_eq hlength)
    rw [if_neg hzero, hrel]
    simp only [hwhole]

theorem onDisk_detoasts (hcell : m.cells a = some (.onDisk p)) (hplain : p.isCompressed = false)
    (hrel : env.toast p.toastrelid = some rel) (hlength : (rel p.valueid).length = p.extsize) :
    Detoasts env m a (rel p.valueid) := by
  apply detoasts_of_alloc
  simp [detoastPostgresDatum, hcell, toastFetchDatum_eq hrel hlength, hplain, Except.bind]

theorem onDiskCompressed_detoasts_iff (hcell : m.cells a = some (.onDisk p)) (hcompressed : p.isCompressed = true)
    (hrel : env.toast p.toastrelid = some rel) (hlength : (rel p.valueid).length = p.extsize)
    (h : inflate env (rel p.valueid) = some d) :
    Detoasts env m a d ↔ (compressMethod (rel p.valueid) = lz4CompressionId → env.useLz4 = true) := by
  have honce : detoastPostgresDatum env 1 m a =
      some ((toastDecompressDatum env (rel p.valueid) (m.alloc (.compressed (rel p.valueid)))).map
        fun r => { r with memory := r.memory.release m.next }) := by
    simp [detoastPostgresDatum, hcell, toastFetchDatum_eq hrel hlength, hcompressed, Except.bind]
  rw [toastDecompressDatum_eq h] at honce
  by_cases hbuilt : compressMethod (rel p.valueid) = lz4CompressionId → env.useLz4 = true
  · rw [if_pos hbuilt] at honce
    refine iff_of_true ?_ hbuilt
    rw [detoasts_iff_of_once honce]
    -- The second of the two new cells is the result; the first, with the fetched bytes, is released.
    refine ⟨m.next + 1, rfl, ?_, iff_of_true rfl (m.free _ (Nat.le_succ _))⟩
    rw [Memory.release_other (Nat.succ_ne_self _)]
    exact Memory.alloc_self _
  · rw [if_neg hbuilt] at honce
    exact iff_of_false (not_detoasts_of_null honce rfl) hbuilt

/-- Detoasting returns the payload, with the right word on who frees it, for the supported forms only. -/
theorem detoast_exact_iff (h : Payload env m a d) : Detoasts env m a d ↔ Supported env m a := by
  cases h with
  | plain hcell =>
    have honce : detoastPostgresDatum env 1 m a = some (.ok ⟨m, some a, false⟩) := by
      simp [detoastPostgresDatum, hcell]
    refine iff_of_true ?_ (by simp [Supported, hcell])
    rw [detoasts_iff_of_once honce]
    exact ⟨a, rfl, hcell, by simp [hcell]⟩
  | short hcell =>
    refine iff_of_true (detoasts_of_alloc ?_) (by simp [Supported, hcell])
    simp [detoastPostgresDatum, hcell]
  | expanded hcell =>
    refine iff_of_true (detoasts_of_alloc ?_) (by simp [Supported, hcell])
    simp [detoastPostgresDatum, hcell]
  | compressed hcell hinflate =>
    rw [compressed_detoasts_iff hcell hinflate]
    simp [Supported, hcell]
  | onDisk hcell hplain hrel hlength =>
    refine iff_of_true (onDisk_detoasts hcell hplain hrel hlength) ?_
    simp [Supported, hcell, hplain]
  | onDiskCompressed hcell hcompressed hrel hlength hinflate =>
    rw [onDiskCompressed_detoasts_iff hcell hcompressed hrel hlength hinflate]
    simp [Supported, hcell, hcompressed, hrel]
  | indirect hcell hpointee =>
    refine iff_of_false ?_ (by simp [Supported, hcell])
    rintro ⟨fuel, r, b, hcall, -⟩
    rw [detoast_indirect hcell] at hcall
    cases hcall

end Proofs

/-! ## A pointer to a value -/

/-- No decompressor and no toast table is needed. -/
def bareEnv : Env := ⟨fun _ _ => none, fun _ _ => none, true, fun _ => none⟩

/-- A plain value at address 0, a short one at 1, and a pointer to the first at 2. -/
def threeData : Memory Varlena :=
  let nothing : Memory Varlena := ⟨fun _ => none, 0, fun _ _ => rfl⟩
  ((nothing.alloc (.plain [97])).alloc (.short [98])).alloc (.indirect 0)

theorem short_value_detoasts : Supported bareEnv threeData 1 ∧ Detoasts bareEnv threeData 1 [98] := by
  have hsupported : Supported bareEnv threeData 1 := trivial
  exact ⟨hsupported, (detoast_exact_iff (.short rfl)).mpr hsupported⟩

/-- The pointer stands for the value it points to, and no number of calls returns it. -/
theorem indirect_never_returns :
    Payload bareEnv threeData 2 [97] ∧ ∀ fuel, detoastPostgresDatum bareEnv fuel threeData 2 = none :=
  ⟨.indirect rfl (.plain rfl), detoast_indirect rfl⟩

end PgDucklake.Detoast
