import PgDucklake.Types.Vectors
import Mathlib.Algebra.BigOperators.Group.List.Basic
import Mathlib.Algebra.Order.BigOperators.GroupWithZero.List
import Mathlib.Tactic.Ring

/-!
# Arrays into nested lists

`AppendList` makes of one array the entries of all levels of a LIST vector in one descent. Each level writes as many
entries as the dimension before it says, at the end of what the level above had, and the elements follow in the last
vector. What is read back at a row (`Vec.read`) follows the entries down and must stay inside each child.

The entries a level needs are as many as all dimensions before it multiply to. `appendList_stores_iff` says that an array
of another element type than `"char"` is stored exactly when that is what each level writes, and no place is past what an
`int` counts to. The elements of a `"char"` array are written twice as wide as they are read (`char_array_overlaps`).
-/

namespace PgDucklake.Types

open Lib

/-! ## Arrays -/

/-- `ArrayGetNItems`. -/
def arrayGetNItems (dims : List Nat) : Nat := if dims = [] then 0 else dims.prod

/-- An array of PostgreSQL as `deconstruct_array` gives it, its elements in row-major order. An empty array has no
dimensions. -/
structure PgArray (α : Type*) where
  dims : List Nat
  elems : List (Option α)
  positive : ∀ d ∈ dims, 0 < d
  nelems : elems.length = arrayGetNItems dims

/-- The places of entries and elements are `int`s. -/
def intLimit : Nat := 2 ^ 31

section AppendList

variable {α ε : Type*}

def setEntry (e : ListEntry) (cell : Cell ListEntry) : Cell ListEntry := { cell with payload := some e }

/-- The entries of one level: lists of `dimension` elements, one after the other from `childOffset` on. -/
def levelEntries (childOffset dimension previousDimension : Nat) : List (Cell ListEntry → Cell ListEntry) :=
  (List.range previousDimension).map fun entry => setEntry ⟨childOffset + dimension * entry, dimension⟩

/-- The loop over the dimensions, then the elements. -/
def appendDims (growth : Growth) (convert : α → Except ε Element) (elems : List (Option α)) :
    Vec → (previousDimension writeOffset : Nat) → List Nat → Except (AppendError ε) Vec
  | .list entries size child, previousDimension, writeOffset, dimension :: dims =>
    match entries.fill intLimit writeOffset (levelEntries size dimension previousDimension) with
    | none => .error .fault
    | some entries =>
      let newChildSize := size + dimension * previousDimension
      match appendDims growth convert elems (child.reserve growth newChildSize) dimension size dims with
      | .error e => .error e
      | .ok child => .ok (.list entries newChildSize child)
  | .flat .., _, _, _ :: _ => .error .moreDimensions
  | .list .., _, _, [] => .error .fewerDimensions
  | .flat width vec, _, writeOffset, [] => (writeRows intLimit convert vec writeOffset elems).map (.flat width)
termination_by structural _ _ _ dims => dims

/-- The vector is a LIST here: the converter was chosen by that. -/
def appendList (growth : Growth) (convert : α → Except ε Element) (array : PgArray α) (result : Vec) (offset : Nat) :
    Except (AppendError ε) Vec :=
  match array.dims, result with
  | [], .list entries size child =>
    match entries.fill intLimit offset (levelEntries size 0 1) with
    | none => .error .fault
    | some entries => .ok (.list entries size child)
  | [], .flat .. => .error .fault
  | dims@(_ :: _), result => appendDims growth convert array.elems result 1 offset dims

end AppendList

/-! ## The nested list of an array -/

/-- The nested list of an array: the element at `(i₁, .., iₙ)` is that at its row-major place. -/
def nestFrom (value : Nat → Option Element) : List Nat → Nat → Nested
  | [], place => .elem (value place)
  | d :: dims, place => .list ((List.range d).map fun i => nestFrom value dims (place + i * dims.prod))

def nested (dims : List Nat) (values : List (Option Element)) : Nested :=
  if dims = [] then .list [] else nestFrom (fun i => values[i]?.join) dims 0

/-- The array stands at the row, all else is as it was, and the entries in use still point inside. -/
structure Stored (dims : List Nat) (values : List (Option Element)) (row : Nat) (vec vec' : Vec) : Prop where
  value : vec'.read row = some (nested dims values)
  kept : vec.KeptOutside row (row + 1) vec'
  inside : ∀ used, vec.EntriesInside used → vec'.EntriesInside fun k => used k ∨ k = row

/-- As many dimensions as the vector has levels. An empty array has none and fits any LIST. -/
def Fits {α : Type*} (array : PgArray α) (vec : Vec) : Prop :=
  if array.dims = [] then 0 < vec.depth else vec.depth = array.dims.length

/-- The vector as the scan finds it: of the array's depth, with room for the row, and nothing written there yet. -/
structure Ready {α : Type*} (width : Nat) (array : PgArray α) (row : Nat) (vec : Vec) : Prop where
  depth : Fits array vec
  sized : vec.Sized width
  room : row < vec.cap
  fresh : vec.Fresh (· = row)

/-- The places each level writes to are `int`s. -/
def Indexed (nelems : Nat) : Vec → (previousDimension writeOffset : Nat) → List Nat → Prop
  | .list _ size child, previousDimension, writeOffset, dimension :: dims =>
    writeOffset + previousDimension ≤ intLimit ∧ Indexed nelems child dimension size dims
  | _, _, writeOffset, _ => writeOffset + nelems ≤ intLimit

/-! ## Counting the entries

A level needs `want` entries and writes `previousDimension`. -/

def Counted : (want previousDimension : Nat) → List Nat → Prop
  | _, _, [] => True
  | want, previousDimension, d :: dims => want = previousDimension ∧ Counted (want * d) d dims

theorem counted_self_iff (p : Nat) (dims : List Nat) (hpos : ∀ d ∈ dims, 0 < d) :
    Counted p p dims ↔ ∀ d ∈ (p :: dims).dropLast.dropLast, d = 1 := by
  induction dims generalizing p with
  | nil => simp [Counted]
  | cons d dims ih =>
    cases dims with
    | nil => simp [Counted]
    | cons e dims =>
      have hd : 0 < d := hpos d List.mem_cons_self
      have hmul : p * d = d ↔ p = 1 := by
        rw [Nat.mul_eq_right (by omega)]
      have htail := ih d fun x hx => hpos x (List.mem_cons_of_mem d hx)
      simp only [Counted, true_and] at htail ⊢
      rw [show (p :: d :: e :: dims).dropLast.dropLast = p :: (d :: e :: dims).dropLast.dropLast from rfl,
        List.forall_mem_cons, ← htail, hmul]
      constructor
      · rintro ⟨rfl, hcounted⟩
        exact ⟨rfl, by simpa using hcounted⟩
      · rintro ⟨rfl, hcounted⟩
        exact ⟨rfl, by simpa using hcounted⟩

/-- The first level writes the one entry it needs, the second as many as the first dimension says; from the third on
the count is right only if all dimensions but the last two are 1. -/
theorem counted_iff (dims : List Nat) (hpos : ∀ d ∈ dims, 0 < d) :
    Counted 1 1 dims ↔ ∀ d ∈ dims.dropLast.dropLast, d = 1 := by
  rw [counted_self_iff 1 dims hpos]
  match dims with
  | [] => simp
  | [_] => simp
  | d :: e :: dims =>
    rw [show (1 :: d :: e :: dims).dropLast.dropLast = 1 :: (d :: e :: dims).dropLast.dropLast from rfl,
      List.forall_mem_cons]
    simp

/-! ## One array -/

section Append

/-- What a converter writes is as wide as the elements of the vector. -/
structure WidthOf {α ε : Type*} (width : Nat) (convert : α → Except ε Element) : Prop where
  pos : 0 < width
  le : width ≤ 16
  eq : ∀ a e, convert a = .ok e → e.width = width

variable {α ε : Type*} {growth : Growth} {convert : α → Except ε Element} {elems : List (Option α)}
  {values : List (Option Element)} {width : Nat}

theorem getElem?_levelEntries {childOffset d n i : Nat} (hi : i < n) :
    (levelEntries childOffset d n)[i]? = some (setEntry ⟨childOffset + d * i, d⟩) := by
  simp [levelEntries, hi]

theorem length_levelEntries (childOffset d n : Nat) : (levelEntries childOffset d n).length = n := by
  simp [levelEntries]

theorem appendDims_list_ok {entries : Region (Cell ListEntry)} {size prev off d : Nat} {child vec' : Vec}
    {dims : List Nat} :
    appendDims growth convert elems (.list entries size child) prev off (d :: dims) = .ok vec' ↔
      ∃ entries' child', entries.fill intLimit off (levelEntries size d prev) = some entries' ∧
        appendDims growth convert elems (child.reserve growth (size + d * prev)) d size dims = .ok child' ∧
        vec' = .list entries' (size + d * prev) child' := by
  rw [appendDims]
  cases entries.fill intLimit off (levelEntries size d prev) with
  | none => simp
  | some entries' =>
    cases hchild : appendDims growth convert elems (child.reserve growth (size + d * prev)) d size dims with
    | error => simp [hchild]
    | ok child' => simp [hchild, eq_comm]

theorem appendDims_flat_ok {vec : FlatVector} {prev off : Nat} {vec' : Vec} :
    appendDims growth convert elems (.flat width vec) prev off [] = .ok vec' ↔
      ∃ flat, writeRows intLimit convert vec off elems = .ok flat ∧ vec' = .flat width flat := by
  rw [appendDims]
  cases writeRows intLimit convert vec off elems with
  | error => simp [Except.map]
  | ok => simp [Except.map, eq_comm]

theorem Converts.length_eq (hconv : Converts convert elems values) : values.length = elems.length :=
  (List.Forall₂.length_eq hconv).symm

theorem WidthOf.filled (hwidth : WidthOf width convert) (hconv : Converts convert elems values) {vec : FlatVector} {off : Nat}
    (hsized : vec.Sized width) (hroom : off + values.length ≤ vec.valid.cap) (hindex : off + values.length ≤ intLimit) :
    ∃ flat, writeRows intLimit convert vec off elems = .ok flat ∧ FlatVector.Filled width off values vec flat := by
  have hidx : (off + values.length) * width ≤ idxLimit :=
    calc (off + values.length) * width ≤ intLimit * 16 := Nat.mul_le_mul hindex hwidth.le
      _ ≤ idxLimit := by norm_num [intLimit, idxLimit]
  rw [hconv.length_eq] at hroom hindex hidx
  obtain ⟨e, ⟨slot, hslot, herror⟩, -⟩ | ⟨values', flat, hconv', hflat, hfilled⟩ :=
    writeRows_spec (fun a e _ => hwidth.eq a e) hwidth.pos hsized hroom hindex hidx
  · obtain ⟨i, hi, rfl⟩ := List.getElem_of_mem hslot
    have hok := List.Forall₂.get hconv hi (hconv.length_eq ▸ hi)
    rw [List.get_eq_getElem, herror] at hok
    cases hok
  · exact ⟨flat, hflat, hconv.unique hconv' ▸ hfilled⟩

/-- Entries that no level writes are not read as lists: if all that is needed at this level can be read, then it wrote
all of it, and so did the levels below. -/
theorem counted_of_reads {dims : List Nat} {vec vec' : Vec} {want prev off : Nat}
    (h : appendDims growth convert elems vec prev off dims = .ok vec')
    (hfresh : vec.Fresh fun k => off ≤ k ∧ k < off + want) (hpos : ∀ d ∈ dims, 0 < d) (hwant : 0 < want)
    (hprev : prev ≤ want) (hreads : ∀ i < want, (vec'.read (off + i)).isSome) : Counted want prev dims := by
  induction dims generalizing vec vec' want prev off with
  | nil => trivial
  | cons d dims ih =>
    cases vec with
    | flat cells => cases h
    | list entries size child =>
      obtain ⟨entries', child', hfill, hchild, rfl⟩ := appendDims_list_ok.mp h
      have hfilled := Region.fill_spec hfill
      rw [List.forall_mem_cons] at hpos
      have hcount : want = prev := by
        by_contra hne
        refine Vec.not_isSome_read_of_unset ?_ (hreads prev (by omega))
        rw [hfilled.outside _ (.inr (by rw [length_levelEntries])), hfresh.1 _ (by omega)]
      subst hcount
      refine ⟨rfl, ih hchild ?_ hpos.2 (Nat.mul_pos hwant hpos.1) (Nat.le_mul_of_pos_left d hwant) ?_⟩
      · exact (hfresh.2.mono fun k hk => hk.1).reserve growth _
      · intro j hj
        -- the place `j` of the child belongs to the entry `j / d`
        have hi : j / d < want := Nat.div_lt_of_lt_mul (by rwa [Nat.mul_comm] at hj)
        have hentry := hfilled.inside (j / d) _ (getElem?_levelEntries hi)
        rw [hfresh.1 (off + j / d) ⟨Nat.le_add_right off _, Nat.add_lt_add_left hi off⟩] at hentry
        have hread := hreads (j / d) hi
        have hinside : size + d * (j / d) + d ≤ size + d * want := by
          have := Nat.mul_le_mul_left d (Nat.succ_le_of_lt hi)
          rw [Nat.mul_succ] at this
          omega
        rw [Vec.read_list hentry hinside, Option.isSome_map] at hread
        have hk := forall_isSome_of_mapM hread (j % d) (List.mem_range.mpr (Nat.mod_lt j hpos.1))
        rwa [Nat.add_assoc, Nat.div_add_mod] at hk

theorem indexed_reserve {nelems n prev off : Nat} {vec : Vec} {dims : List Nat} :
    Indexed nelems (vec.reserve growth n) prev off dims ↔ Indexed nelems vec prev off dims := by
  cases vec <;> cases dims <;> rfl

theorem indexed_of_ok {dims : List Nat} {vec vec' : Vec} {prev off : Nat}
    (h : appendDims growth convert elems vec prev off dims = .ok vec') (hpos : ∀ d ∈ dims, 0 < d) (hprev : 0 < prev)
    (helems : elems ≠ []) : Indexed elems.length vec prev off dims := by
  induction dims generalizing vec vec' prev off with
  | nil =>
    cases vec with
    | list => cases h
    | flat =>
      obtain ⟨flat, hflat, -⟩ := appendDims_flat_ok.mp h
      exact writeRows_limit hflat helems
  | cons d dims ih =>
    cases vec with
    | flat cells => cases h
    | list entries size child =>
      obtain ⟨entries', child', hfill, hchild, rfl⟩ := appendDims_list_ok.mp h
      rw [List.forall_mem_cons] at hpos
      have hroom := (Region.fill_spec hfill).room (List.ne_nil_of_length_pos (by rwa [length_levelEntries]))
      rw [length_levelEntries] at hroom
      exact ⟨hroom.1, indexed_reserve.mp (ih hchild hpos.2 hpos.1)⟩

/-- `want` lists of one shape, one after the other from `off` on, and all else as it was. -/
structure Laid (value : Nat → Option Element) (dims : List Nat) (off want : Nat) (vec vec' : Vec) : Prop where
  reads : ∀ i < want, vec'.read (off + i) = some (nestFrom value dims (i * dims.prod))
  kept : vec.KeptOutside off (off + want) vec'
  inside : ∀ used, vec.EntriesInside used → vec'.EntriesInside fun k => used k ∨ (off ≤ k ∧ k < off + want)

theorem laid_elems (hpos : 0 < width) {vec vec' : FlatVector} {off : Nat} (h : FlatVector.Filled width off values vec vec')
    (hfresh : ∀ k, off ≤ k ∧ k < off + values.length → vec.valid.cell k = true) :
    Laid (fun i => values[i]?.join) [] off values.length (.flat width vec) (.flat width vec') := by
  refine ⟨?_, ⟨rfl, h.outside⟩, fun _ _ => trivial⟩
  intro i hi
  have hhas := h.inside i _ (List.getElem?_eq_getElem hi)
  have hvalid := hfresh (off + i) (by omega)
  rw [Vec.read, nestFrom, List.prod_nil, Nat.mul_one, List.getElem?_eq_getElem hi]
  cases hvalue : values[i] with
  | none =>
    rw [hvalue] at hhas
    simp [show vec'.valid.cell (off + i) = false from hhas]
  | some e =>
    rw [hvalue] at hhas
    obtain ⟨hsame, hholds⟩ := hhas
    simp [hsame, hvalid, hholds.element hpos]

/-- One level over children that are laid out: each entry spans its own `d` of them. -/
theorem laid_level {value : Nat → Option Element} {entries entries' : Region (Cell ListEntry)} {size off want d : Nat}
    {child child' : Vec} {dims : List Nat}
    (hfill : entries.fill intLimit off (levelEntries size d want) = some entries')
    (hfresh : ∀ k, off ≤ k ∧ k < off + want → entries.cell k = {})
    (hchild : Laid value dims size (want * d) child child') :
    Laid value (d :: dims) off want (.list entries size child) (.list entries' (size + d * want) child') := by
  have hfilled := Region.fill_spec hfill
  have hcell : ∀ i < want, entries'.cell (off + i) = { payload := some ⟨size + d * i, d⟩ } := by
    intro i hi
    rw [hfilled.inside i _ (getElem?_levelEntries hi), hfresh (off + i) (by omega)]
    rfl
  have hend : ∀ i < want, size + d * i + d ≤ size + d * want := by
    intro i hi
    have := Nat.mul_le_mul_left d (Nat.succ_le_of_lt hi)
    rw [Nat.mul_succ] at this
    omega
  refine ⟨?_, ⟨?_, by omega, ?_⟩, ?_⟩
  · intro i hi
    have hitems : ∀ k ∈ List.range d, child'.read (size + d * i + k) =
        some (nestFrom value dims (i * (d * dims.prod) + k * dims.prod)) := by
      intro k hk
      rw [List.mem_range] at hk
      have hplace : d * i + k < want * d := by
        have := hend i hi
        rw [Nat.mul_comm want d]
        omega
      rw [Nat.add_assoc, hchild.reads _ hplace]
      congr 2
      ring
    rw [Vec.read_list (hcell i hi) (hend i hi), mapM_some_of_forall hitems, nestFrom, List.prod_cons]
    rfl
  · intro k hk
    exact hfilled.outside k (by rwa [length_levelEntries])
  · rw [Nat.mul_comm d want]
    exact hchild.kept
  · intro used hinside
    refine ⟨?_, ?_⟩
    · intro k hk
      by_cases hin : off ≤ k ∧ k < off + want
      · obtain ⟨i, rfl⟩ := Nat.exists_eq_add_of_le hin.1
        have hi : i < want := by omega
        exact ⟨_, by rw [hcell i hi], hend i hi⟩
      · obtain ⟨e, he, hle⟩ := hinside.1 k (hk.resolve_right hin)
        refine ⟨e, ?_, by omega⟩
        rw [hfilled.outside k (by rw [length_levelEntries]; omega)]
        exact he
    · refine (hchild.inside _ hinside.2).mono fun k hk => ?_
      rw [Nat.mul_comm d want] at hk
      omega

theorem Laid.of_reserve {value : Nat → Option Element} {dims : List Nat} {off want n : Nat} {vec vec' : Vec}
    (h : Laid value dims off want (vec.reserve growth n) vec') : Laid value dims off want vec vec' :=
  ⟨h.reads, Vec.keptOutside_reserve h.kept, fun used hused => h.inside used (Vec.entriesInside_reserve growth n hused)⟩

/-- Where each level writes what it needs, in places an `int` can hold, the array is laid out. -/
theorem appendDims_laid (growth : Growth) (hwidth : WidthOf width convert) (hconv : Converts convert elems values)
    {dims : List Nat} {vec : Vec} {want prev off : Nat} (hsized : vec.Sized width)
    (hcounted : Counted want prev dims) (hfresh : vec.Fresh fun k => off ≤ k ∧ k < off + want)
    (hdepth : vec.depth = dims.length) (hroom : off + want ≤ vec.cap)
    (hindexed : Indexed values.length vec prev off dims) (hlen : values.length = want * dims.prod) :
    ∃ vec', appendDims growth convert elems vec prev off dims = .ok vec' ∧
      Laid (fun i => values[i]?.join) dims off want vec vec' := by
  induction dims generalizing vec want prev off with
  | nil =>
    cases vec with
    | list => cases hdepth
    | flat width' vec =>
      obtain ⟨rfl, hsized⟩ := hsized
      rw [List.prod_nil, Nat.mul_one] at hlen
      subst hlen
      obtain ⟨flat, hflat, hfilled⟩ := hwidth.filled hconv hsized hroom hindexed
      exact ⟨_, appendDims_flat_ok.mpr ⟨flat, hflat, rfl⟩, laid_elems hwidth.pos hfilled hfresh⟩
  | cons d dims ih =>
    cases vec with
    | flat cells => cases hdepth
    | list entries size child =>
      obtain ⟨rfl, hcounted⟩ := hcounted
      obtain ⟨hindex, hindexed⟩ := hindexed
      have hlength := length_levelEntries size d want
      obtain ⟨entries', hfill⟩ :=
        entries.exists_fill (levelEntries size d want) (hlength.symm ▸ hindex) (hlength.symm ▸ hroom)
      have hchildFresh : (child.reserve growth (size + d * want)).Fresh fun k => size ≤ k ∧ k < size + want * d :=
        (hfresh.2.mono fun k hk => hk.1).reserve growth _
      have hchildRoom : size + want * d ≤ (child.reserve growth (size + d * want)).cap := by
        rw [Nat.mul_comm want d]
        exact Vec.le_cap_reserve child growth _
      obtain ⟨child', hchild, hlaid⟩ := ih (Vec.Sized.reserve (show child.Sized width from hsized) growth _) hcounted hchildFresh
        (by rw [Vec.depth_reserve]; exact Nat.succ.inj hdepth) hchildRoom (indexed_reserve.mpr hindexed)
        (by rw [hlen, List.prod_cons, Nat.mul_assoc])
      exact ⟨_, appendDims_list_ok.mpr ⟨entries', child', hfill, hchild, rfl⟩,
        laid_level hfill hfresh.1 hlaid.of_reserve⟩

theorem appendList_of_dims {array : PgArray α} (hdims : array.dims ≠ []) (vec : Vec) (row : Nat) :
    appendList growth convert array vec row = appendDims growth convert array.elems vec 1 row array.dims := by
  unfold appendList
  cases h : array.dims with
  | nil => exact absurd h hdims
  | cons => rfl

theorem appendList_empty_ok {array : PgArray α} (hdims : array.dims = []) {entries : Region (Cell ListEntry)}
    {size row : Nat} {child vec' : Vec} :
    appendList growth convert array (.list entries size child) row = .ok vec' ↔
      ∃ entries', entries.fill intLimit row (levelEntries size 0 1) = some entries' ∧
        vec' = .list entries' (size + 0 * 1) child := by
  simp only [appendList, hdims]
  cases entries.fill intLimit row (levelEntries size 0 1) with
  | none => simp
  | some => simp [eq_comm]

theorem Laid.refl_zero (value : Nat → Option Element) (off : Nat) (vec : Vec) : Laid value [] off 0 vec vec := by
  refine ⟨nofun, ?_, fun used hused => hused.mono fun k hk => hk.resolve_right (by omega)⟩
  clear value
  induction vec generalizing off with
  | flat => exact ⟨rfl, fun _ _ => ⟨rfl, fun _ _ => rfl⟩⟩
  | list entries size child ih => exact ⟨fun _ _ => rfl, le_rfl, ih size⟩

theorem Laid.stored {dims : List Nat} {row : Nat} {vec vec' : Vec} (hdims : dims ≠ [])
    (h : Laid (fun i => values[i]?.join) dims row 1 vec vec') : Stored dims values row vec vec' := by
  refine ⟨?_, h.kept, fun used hused => (h.inside used hused).mono fun k hk => hk.imp_right (by omega)⟩
  have hread := h.reads 0 Nat.one_pos
  rw [Nat.zero_mul, Nat.add_zero] at hread
  rw [nested, if_neg hdims]
  exact hread

theorem Laid.stored_empty {row : Nat} {vec vec' : Vec} {value : Nat → Option Element} (h : Laid value [0] row 1 vec vec') :
    Stored [] values row vec vec' :=
  ⟨h.reads 0 Nat.one_pos, h.kept, fun used hused => (h.inside used hused).mono fun k hk => hk.imp_right (by omega)⟩

theorem PgArray.nelems_of_dims {array : PgArray α} (hdims : array.dims ≠ []) :
    array.elems.length = array.dims.prod := by
  rw [array.nelems, arrayGetNItems, if_neg hdims]

theorem PgArray.elems_ne_nil {array : PgArray α} (hdims : array.dims ≠ []) : array.elems ≠ [] := by
  apply List.ne_nil_of_length_pos
  rw [PgArray.nelems_of_dims hdims]
  exact List.prod_pos array.positive

theorem Vec.eq_list_of_depth_pos {vec : Vec} (h : 0 < vec.depth) :
    ∃ entries size child, vec = .list entries size child := by
  cases vec with
  | flat => cases h
  | list entries size child => exact ⟨entries, size, child, rfl⟩

theorem Vec.Fresh.row {vec : Vec} {row : Nat} (h : vec.Fresh (· = row)) :
    vec.Fresh fun k => row ≤ k ∧ k < row + 1 :=
  h.mono fun k hk => by omega

theorem appendList_stores_empty (values : List (Option Element)) {array : PgArray α} (hdims : array.dims = []) {row : Nat} {vec : Vec}
    (hready : Ready width array row vec) :
    (∃ vec', appendList growth convert array vec row = .ok vec' ∧ Stored [] values row vec vec') ↔
      row < intLimit := by
  have hdepth := hready.depth
  rw [Fits, if_pos hdims] at hdepth
  obtain ⟨entries, size, child, rfl⟩ := Vec.eq_list_of_depth_pos hdepth
  constructor
  · rintro ⟨vec', hok, -⟩
    obtain ⟨entries', hfill, -⟩ := (appendList_empty_ok hdims).mp hok
    exact ((Region.fill_spec hfill).room (List.ne_nil_of_length_pos (by rw [length_levelEntries]; decide))).1
  · intro hrow
    have hlimit : row + (levelEntries size 0 1).length ≤ intLimit := hrow
    obtain ⟨entries', hfill⟩ := entries.exists_fill (levelEntries size 0 1) hlimit hready.room
    exact ⟨_, (appendList_empty_ok hdims).mpr ⟨entries', hfill, rfl⟩,
      (laid_level hfill hready.fresh.row.1 (.refl_zero (fun _ => none) size child)).stored_empty⟩

theorem appendList_stores_dims (hwidth : WidthOf width convert) {array : PgArray α} (hdims : array.dims ≠ []) {row : Nat}
    {vec : Vec} (hconv : Converts convert array.elems values) (hready : Ready width array row vec) :
    (∃ vec', appendList growth convert array vec row = .ok vec' ∧ Stored array.dims values row vec vec') ↔
      Counted 1 1 array.dims ∧ Indexed array.elems.length vec 1 row array.dims := by
  have hdepth := hready.depth
  rw [Fits, if_neg hdims] at hdepth
  have hnelems := hconv.length_eq
  rw [appendList_of_dims hdims]
  constructor
  · rintro ⟨vec', hok, hstored⟩
    refine ⟨counted_of_reads hok hready.fresh.row array.positive Nat.one_pos le_rfl ?_,
      indexed_of_ok hok array.positive Nat.one_pos (PgArray.elems_ne_nil hdims)⟩
    intro i hi
    obtain rfl : i = 0 := by omega
    rw [Nat.add_zero, hstored.value]
    rfl
  · rintro ⟨hcounted, hindexed⟩
    rw [← hnelems] at hindexed
    have hlen : values.length = 1 * array.dims.prod := by
      rw [hnelems, PgArray.nelems_of_dims hdims, Nat.one_mul]
    obtain ⟨vec', hok, hlaid⟩ := appendDims_laid growth hwidth hconv hready.sized hcounted hready.fresh.row hdepth
      hready.room hindexed hlen
    exact ⟨vec', hok, hlaid.stored hdims⟩

theorem Indexed.row_lt {nelems row : Nat} {vec : Vec} {dims : List Nat} (h : Indexed nelems vec 1 row dims)
    (hdepth : vec.depth = dims.length) (hdims : dims ≠ []) : row < intLimit := by
  cases dims with
  | nil => exact absurd rfl hdims
  | cons d dims =>
    cases vec with
    | flat => cases hdepth
    | list => exact h.1

theorem stores_iff (growth : Growth) (hwidth : WidthOf width convert) (array : PgArray α) {row : Nat} {vec : Vec}
    (hconv : Converts convert array.elems values) (hready : Ready width array row vec) :
    (∃ vec', appendList growth convert array vec row = .ok vec' ∧ Stored array.dims values row vec vec') ↔
      (∀ d ∈ array.dims.dropLast.dropLast, d = 1) ∧ row < intLimit ∧
        Indexed array.elems.length vec 1 row array.dims := by
  by_cases hdims : array.dims = []
  · have hnelems : array.elems.length = 0 := by rw [array.nelems, arrayGetNItems, if_pos hdims]
    rw [hdims, appendList_stores_empty values hdims hready, hnelems]
    constructor
    · intro hrow
      refine ⟨nofun, hrow, ?_⟩
      cases vec <;> exact Nat.le_of_lt hrow
    · exact fun h => h.2.1
  · have hdepth := hready.depth
    rw [Fits, if_neg hdims] at hdepth
    rw [appendList_stores_dims hwidth hdims hconv hready, ← counted_iff array.dims array.positive]
    constructor
    · exact fun h => ⟨h.1, h.2.row_lt hdepth hdims, h.2⟩
    · exact fun h => ⟨h.1, h.2.2⟩

end Append

section Columns

variable {J : Type}

theorem ScannedColumn.widthOf (api : Api J) {c : ScannedColumn} (hchar : c.column.type ≠ .char) :
    WidthOf c.logical.width (c.convert api) :=
  ⟨c.logical.width_pos, c.logical.width_le, c.convert_width hchar⟩

end Columns

/-! ## Two and three dimensions -/

/-- Buffers that grow to what is needed. -/
def Growth.exact : Growth := ⟨max, fun cap needed => le_max_right cap needed⟩

/-- Levels of a new chunk, and the elements below. -/
def newVec (width : Nat) : Nat → Vec
  | 0 => .flat width ⟨⟨2048 * width, fun _ => none⟩, ⟨2048, fun _ => true⟩⟩
  | depth + 1 => .list ⟨2048, fun _ => {}⟩ 0 (newVec width depth)

theorem newVec_sized (width depth : Nat) : (newVec width depth).Sized width := by
  induction depth with
  | zero => exact ⟨rfl, rfl⟩
  | succ depth ih => exact ih

theorem newVec_fresh (width depth : Nat) (p : Nat → Prop) : (newVec width depth).Fresh p := by
  induction depth generalizing p with
  | zero => exact fun _ _ => rfl
  | succ depth ih => exact ⟨fun _ _ => rfl, ih _⟩

/-- Functions that a column of integers or of `"char"` does not call. -/
def idleApi : Api Unit where
  stringIsValid _ := true
  toBit _ := none
  encodeMicros m := m <<< 24
  encodeOffset o := (57599 - o).setWidth 64
  jsonbToCString _ := []
  jsonbBytes _ := []
  doubles := ⟨fun _ => 0, fun _ _ => 0, fun _ _ => 0, fun _ _ => 0, id, fun _ => 0⟩
  numericPointer _ := 0

def intColumn : ScannedColumn := ⟨{ type := .int4 }, false, .integer, rfl⟩

def charColumn : ScannedColumn := ⟨{ type := .char }, false, .tinyint, rfl⟩

def intValue (w : BitVec 64) : intColumn.Value Unit := ⟨.word w, trivial, by rintro _ _ ⟨⟩, by rintro _ ⟨⟩⟩

def charValue (w : BitVec 64) : charColumn.Value Unit := ⟨.word w, trivial, by rintro _ _ ⟨⟩, by rintro _ ⟨⟩⟩

/-- `{{1,2},{3,NULL}}`. -/
def pairs : PgArray (intColumn.Value Unit) :=
  ⟨[2, 2], [some (intValue 1), some (intValue 2), some (intValue 3), none], by decide, rfl⟩

/-- `{{{1,2},{3,4}},{{5,6},{7,8}}}`. -/
def cube : PgArray (intColumn.Value Unit) :=
  ⟨[2, 2, 2], [1, 2, 3, 4, 5, 6, 7, 8].map fun w => some (intValue w), by decide, rfl⟩

/-- `{a,b}`. -/
def twoChars : PgArray (charColumn.Value Unit) := ⟨[2], [some (charValue 97), some (charValue 98)], by decide, rfl⟩

def fixed (width : Nat) (values : List Nat) : List (Option Element) := values.map fun v => some (.fixed width v)

/-- `{a,b}` of type `"char"[]`: the second element is the second byte of the first. -/
theorem char_array_overlaps :
    ∃ vec', appendList Growth.exact (charColumn.convert idleApi) twoChars (newVec 1 1) 0 = .ok vec' ∧ vec'.read 0 = none :=
  ⟨_, rfl, rfl⟩

end PgDucklake.Types
