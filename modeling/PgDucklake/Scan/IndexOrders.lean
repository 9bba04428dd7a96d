import PgDucklake.Lib.Ranks
import PgDucklake.Scan.Pushdown

/-!
# Orders that an index yields

An index returns the rows of its table in the order of its keys when it is read forward, and in the opposite order when
it is read backward. The pushdown takes an index for one that puts NULLs first wherever it runs backwards, and a column
for the attribute of the next number, which it is only if no column before it was dropped. `order_sound_iff` says for
which relations every pushed order is the order of an index all the same.
-/

namespace PgDucklake.Scan

open Lib Std

variable {V : Type}

/-- A table with its attributes, dropped ones included. -/
structure Relation (V : Type) where
  dropped : List Bool
  table : Table V

/-- The attribute numbers of the columns that are left; DuckDB numbers the columns by this list. -/
def liveAttnos (dropped : List Bool) : List Nat := keptFrom (fun d => !d) 1 dropped

/-- A key that rows are sorted by. -/
structure SortKey where
  attno : Int
  descending : Bool
  nullsFirst : Bool
  deriving DecidableEq, Repr

def SortKey.flip (k : SortKey) : SortKey := ⟨k.attno, !k.descending, !k.nullsFirst⟩

/-- The keys of an index, for a scan in one direction. An index column has its NULLs first exactly if its flag says
so. -/
def sortKeysFrom (backward : Bool) : List Int → List IndOption → List SortKey
  | [], _ => []
  | attno :: indkey, options =>
    let option := options.headD ⟨false, false⟩
    ⟨attno, option.desc != backward, option.nullsFirst != backward⟩ :: sortKeysFrom backward indkey options.tail

def Index.sortKeys (index : Index) (backward : Bool) : List SortKey :=
  sortKeysFrom backward (index.indkey.take index.nKeyAtts) index.options

/-- A valid btree over the whole table. -/
def Index.Usable (index : Index) : Prop := index.isValid = true ∧ index.isBtree = true ∧ index.isPartial = false

/-- Some index of the relation, read in one direction, returns its rows in the order of the keys. -/
def Relation.Yields (r : Relation V) (keys : List SortKey) : Prop :=
  ∃ index ∈ r.table.indexes, index.Usable ∧ ∃ backward, keys <+: index.sortKeys backward

/-! ## Pushed orders -/

/-- The keys that a pushed order asks for. -/
def requestedKeys (dropped : List Bool) (g : LogicalGet V) : List PostgresOrderBySpec → Option (List SortKey)
  | [] => some []
  | spec :: specs =>
    match (g.column spec.columnIndex).bind fun column => (liveAttnos dropped)[column]? with
    | none => none
    | some attno => (requestedKeys dropped g specs).map
        (⟨attno, pgDescending spec.orderType, pgNullsFirst spec.orderType spec.nullOrder⟩ :: ·)

/-- The attempt on the order nodes over the stack `c` pushes `specs` to its scan of the relation, which reads columns
that are there. -/
structure Pushes (r : Relation V) (c : Plan V) (g : LogicalGet V) (orders : List (BoundOrderByNode V))
    (specs : List PostgresOrderBySpec) : Prop where
  scan : findUnderlyingGet c = some g
  rel : g.rel = r.table
  columns : ∀ primary hasChildren, .column primary hasChildren ∈ g.columnIds → primary < (liveAttnos r.dropped).length
  supported : ∃ attrs, pushedOrders c g orders = some (specs, attrs) ∧
    indexSupportsOrder g.rel.indexes attrs specs = true

/-- Every order that is pushed to a scan of the relation is yielded by one of its indexes. -/
def OrderSound (r : Relation V) : Prop :=
  ∀ (c : Plan V) (g : LogicalGet V) (orders : List (BoundOrderByNode V)) (specs : List PostgresOrderBySpec),
    Pushes r c g orders specs → ∃ keys, requestedKeys r.dropped g specs = some keys ∧ r.Yields keys

/-- The order that the pushdown takes the first columns of an index for. -/
def takenKeys (dropped : List Bool) : List Int → List IndOption → Option (List SortKey)
  | [], _ => some []
  | attno :: indkey, options =>
    let option := options.headD ⟨false, false⟩
    if 0 < attno then
      match (liveAttnos dropped)[(attno - 1).toNat]? with
      | none => none
      | some own => (takenKeys dropped indkey options.tail).map
          (⟨own, option.desc, option.nullsFirst || option.desc⟩ :: ·)
    else none

/-! ## From a pushed order to an index -/

section Sound

variable {r : Relation V} {g : LogicalGet V}

/-- Each pushed key is a position of the scan with the number that is looked for in an index. -/
def AttrOf (g : LogicalGet V) (spec : PostgresOrderBySpec) (attr : Int) : Prop :=
  ∃ column, g.columnIds[spec.columnIndex]? = some (.column column false) ∧ attr = column + 1

theorem pushedOrders_attrs {c : Plan V} : ∀ {orders : List (BoundOrderByNode V)} {specs : List PostgresOrderBySpec}
    {attrs : List Int}, pushedOrders c g orders = some (specs, attrs) → List.Forall₂ (AttrOf g) specs attrs
  | [], specs, attrs, h => by
    cases h
    exact .nil
  | node :: orders, specs, attrs, h => by
    simp only [pushedOrders] at h
    split at h
    · cases h
    split at h
    · rename_i i _ primary hcolumn
      obtain ⟨⟨specs', attrs'⟩, hrest, hmk⟩ := Option.map_eq_some_iff.mp h
      cases hmk
      exact .cons ⟨primary, hcolumn, rfl⟩ (pushedOrders_attrs hrest)
    · cases h

variable {o : IndOption} {spec : PostgresOrderBySpec}

theorem matchesForward_iff : matchesForward o spec = true ↔
    pgDescending spec.orderType = o.desc ∧ pgNullsFirst spec.orderType spec.nullOrder = (o.nullsFirst || o.desc) := by
  simp only [matchesForward, Bool.and_eq_true, beq_iff_eq]
  cases spec.nullOrder <;> exact Iff.rfl

theorem matchesBackward_iff : matchesBackward o spec = true ↔
    pgDescending spec.orderType = (!o.desc) ∧
      pgNullsFirst spec.orderType spec.nullOrder = !(o.nullsFirst || o.desc) := by
  simp only [matchesBackward, Bool.and_eq_true, beq_iff_eq]
  cases spec.nullOrder <;> exact Iff.rfl

theorem keysMatch_requested
    (hlive : ∀ primary hasChildren, .column primary hasChildren ∈ g.columnIds → primary < (liveAttnos r.dropped).length)
    {specs : List PostgresOrderBySpec} {attrs : List Int} (hattrs : List.Forall₂ (AttrOf g) specs attrs) :
    ∀ {indkey : List Int} {options : List IndOption} {forward backward : Bool}, attrs.length ≤ indkey.length →
      keysMatch indkey options attrs specs forward backward = true →
      ∃ keys, takenKeys r.dropped (indkey.take attrs.length) options = some keys ∧
        (forward = true ∧ requestedKeys r.dropped g specs = some keys ∨
          backward = true ∧ requestedKeys r.dropped g specs = some (keys.map SortKey.flip)) := by
  induction hattrs with
  | nil =>
    intro indkey options forward backward _ h
    refine ⟨[], rfl, ?_⟩
    simp only [keysMatch, Bool.or_eq_true] at h
    exact h.imp (fun hf => ⟨hf, rfl⟩) fun hb => ⟨hb, rfl⟩
  | @cons spec attr specs attrs hattr _ ih =>
    intro indkey options forward backward hlength h
    obtain ⟨column, hcolumn, rfl⟩ := hattr
    cases indkey with
    | nil => simp at hlength
    | cons attno indkey =>
      simp only [keysMatch, Bool.and_eq_true, decide_eq_true_eq, beq_iff_eq] at h
      obtain ⟨⟨⟨hpos, rfl⟩, -⟩, hrest⟩ := h
      obtain ⟨keys, htaken, hkeys⟩ := ih (by simpa using hlength) hrest
      -- the column's own attribute
      obtain ⟨own, hown⟩ : ∃ own, (liveAttnos r.dropped)[column]? = some own :=
        ⟨_, List.getElem?_eq_getElem (hlive column false (List.mem_of_getElem? hcolumn))⟩
      have hnum : ((column + 1 : Int) - 1).toNat = column := by omega
      have hrequested : ∀ keys', requestedKeys r.dropped g specs = some keys' →
          requestedKeys r.dropped g (spec :: specs) =
            some (⟨own, pgDescending spec.orderType, pgNullsFirst spec.orderType spec.nullOrder⟩ :: keys') := by
        intro keys' hkeys'
        simp [requestedKeys, LogicalGet.column, hcolumn, hown, hkeys']
      have htakenCons : takenKeys r.dropped ((column + 1 : Int) :: indkey.take attrs.length) options =
          some (⟨own, (options.headD ⟨false, false⟩).desc,
            (options.headD ⟨false, false⟩).nullsFirst || (options.headD ⟨false, false⟩).desc⟩ :: keys) := by
        simp only [takenKeys, if_pos hpos, hnum, hown, htaken, Option.map_some]
      refine ⟨_, htakenCons, ?_⟩
      rcases hkeys with ⟨hforward, hkeys⟩ | ⟨hbackward, hkeys⟩
      · rw [Bool.and_eq_true, matchesForward_iff] at hforward
        obtain ⟨hf, hdesc, hnulls⟩ := hforward
        exact Or.inl ⟨hf, by rw [hrequested _ hkeys, hdesc, hnulls]⟩
      · rw [Bool.and_eq_true, matchesBackward_iff] at hbackward
        obtain ⟨hb, hdesc, hnulls⟩ := hbackward
        exact Or.inr ⟨hb, by rw [hrequested _ hkeys, hdesc, hnulls]; rfl⟩

theorem sortKeysFrom_not (backward : Bool) : ∀ (indkey : List Int) (options : List IndOption),
    sortKeysFrom (!backward) indkey options = (sortKeysFrom backward indkey options).map SortKey.flip
  | [], _ => rfl
  | attno :: indkey, options => by
    have ih := sortKeysFrom_not backward indkey options.tail
    simp [sortKeysFrom, SortKey.flip, ih]

theorem Relation.Yields.flip {keys : List SortKey} (h : r.Yields keys) : r.Yields (keys.map SortKey.flip) := by
  obtain ⟨index, hmem, husable, backward, hprefix⟩ := h
  refine ⟨index, hmem, husable, !backward, ?_⟩
  rw [Index.sortKeys, sortKeysFrom_not]
  exact hprefix.map SortKey.flip

end Sound

/-! ## From an index to a pushed order -/

section Complete

variable {r : Relation V} {g : LogicalGet V}

/-- The order that an index column is taken for, read forward, as an order node asks for it. -/
def takenType (o : IndOption) : OrderType := if o.desc then .descending else .ascending

def takenNulls (o : IndOption) : OrderByNullType := if o.nullsFirst || o.desc then .nullsFirst else .nullsLast

theorem pgDescending_takenType (o : IndOption) : pgDescending (takenType o) = o.desc := by
  obtain ⟨desc, nullsFirst⟩ := o
  cases desc <;> rfl

theorem pgNullsFirst_takenNulls (orderType : OrderType) (o : IndOption) :
    pgNullsFirst orderType (takenNulls o) = (o.nullsFirst || o.desc) := by
  obtain ⟨desc, nullsFirst⟩ := o
  cases desc <;> cases nullsFirst <;> rfl

/-- Order nodes for the columns of an index, which stand in the scan from a position on. -/
def ordersFrom : Nat → List Int → List IndOption → List (BoundOrderByNode V)
  | _, [], _ => []
  | i, _ :: indkey, options =>
    let option := options.headD ⟨false, false⟩
    ⟨.boundRef i, takenType option, takenNulls option⟩ :: ordersFrom (i + 1) indkey options.tail

def specsFrom : Nat → List Int → List IndOption → List PostgresOrderBySpec
  | _, [], _ => []
  | i, _ :: indkey, options =>
    let option := options.headD ⟨false, false⟩
    ⟨i, takenType option, takenNulls option⟩ :: specsFrom (i + 1) indkey options.tail

/-- The scan that reads the columns which the pushdown takes the index columns for. -/
def scanOf (r : Relation V) (indkey : List Int) : LogicalGet V where
  tableIndex := 0
  columnIds := indkey.map fun attno => .column (attno - 1).toNat false
  projectionIds := []
  filter _ := true
  rel := r.table
  bindData := {}

variable {dropped : List Bool} {attno : Int} {indkey : List Int}

theorem takenKeys_cons {options : List IndOption} {keys : List SortKey}
    (h : takenKeys dropped (attno :: indkey) options = some keys) :
    ∃ own keys', 0 < attno ∧ (liveAttnos dropped)[(attno - 1).toNat]? = some own ∧
      takenKeys dropped indkey options.tail = some keys' ∧
      keys = ⟨own, (options.headD ⟨false, false⟩).desc,
        (options.headD ⟨false, false⟩).nullsFirst || (options.headD ⟨false, false⟩).desc⟩ :: keys' := by
  simp only [takenKeys] at h
  split at h
  · rename_i hpos
    split at h
    · cases h
    · rename_i own hown
      obtain ⟨keys', hkeys', rfl⟩ := Option.map_eq_some_iff.mp h
      exact ⟨own, keys', hpos, hown, hkeys', rfl⟩
  · cases h

theorem takenKeys_lt : ∀ {options : List IndOption}
    {keys : List SortKey}, takenKeys dropped indkey options = some keys → attno ∈ indkey →
      (attno - 1).toNat < (liveAttnos dropped).length := by
  induction indkey with
  | nil =>
    intro options keys _ hmem
    cases hmem
  | cons attno' indkey ih =>
    intro options keys htaken hmem
    obtain ⟨own, keys', -, hown, hrest, -⟩ := takenKeys_cons htaken
    rcases List.mem_cons.mp hmem with rfl | hmem
    · exact (List.getElem?_eq_some_iff.mp hown).1
    · exact ih hrest hmem

theorem pushedOrders_from (hprojection : g.projectionIds = []) :
    ∀ {base : List ColumnIndex} {options : List IndOption} {keys : List SortKey},
      g.columnIds = base ++ indkey.map (fun attno => .column (attno - 1).toNat false) →
      takenKeys r.dropped indkey options = some keys →
      pushedOrders (.get g) g (ordersFrom base.length indkey options) =
        some (specsFrom base.length indkey options, indkey) := by
  induction indkey with
  | nil => intro base options keys _ _; rfl
  | cons attno indkey ih =>
    intro base options keys hcolumns htaken
    obtain ⟨own, keys', hpos, -, hrest, -⟩ := takenKeys_cons htaken
    have hcolumn : g.columnIds[base.length]? = some (.column (attno - 1).toNat false) := by simp [hcolumns]
    have hresolved : resolveColumnIndex (.boundRef base.length) g (.get g) = some base.length := by
      simp [resolveColumnIndex, extractColumnIndex, hprojection, hcolumn]
    have hnext := @ih (base ++ [.column (attno - 1).toNat false]) _ _ (by simp [hcolumns]) hrest
    rw [List.length_append, List.length_singleton] at hnext
    have hattno : ((attno - 1).toNat : Int) + 1 = attno := by omega
    simp only [ordersFrom, specsFrom, pushedOrders, hresolved, hcolumn, hnext, Option.map_some, hattno]

theorem requestedKeys_from : ∀ {base : List ColumnIndex} {options : List IndOption}
    {keys : List SortKey}, g.columnIds = base ++ indkey.map (fun attno => .column (attno - 1).toNat false) →
      takenKeys r.dropped indkey options = some keys →
      requestedKeys r.dropped g (specsFrom base.length indkey options) = some keys := by
  induction indkey with
  | nil =>
    intro base options keys _ htaken
    cases htaken
    rfl
  | cons attno indkey ih =>
    intro base options keys hcolumns htaken
    obtain ⟨own, keys', hpos, hown, hrest, rfl⟩ := takenKeys_cons htaken
    have hcolumn : g.columnIds[base.length]? = some (.column (attno - 1).toNat false) := by simp [hcolumns]
    have hnext := @ih (base ++ [.column (attno - 1).toNat false]) _ _ (by simp [hcolumns]) hrest
    rw [List.length_append, List.length_singleton] at hnext
    have hbind : ((g.column base.length).bind fun column => (liveAttnos r.dropped)[column]?) = some own := by
      have hown' : g.column base.length = some (attno - 1).toNat := by simp only [LogicalGet.column, hcolumn]
      rw [hown', Option.bind_some, hown]
    simp only [specsFrom, requestedKeys, hbind, hnext, Option.map_some, pgDescending_takenType,
      pgNullsFirst_takenNulls]

theorem keysMatch_from (rest : List Int) : ∀ (i : Nat) {options : List IndOption}
    {keys : List SortKey} (backward : Bool), takenKeys dropped indkey options = some keys →
      keysMatch (indkey ++ rest) options indkey (specsFrom i indkey options) true backward = true := by
  induction indkey with
  | nil =>
    intro i options keys backward _
    cases rest <;> simp [keysMatch, specsFrom]
  | cons attno indkey ih =>
    intro i options keys backward htaken
    obtain ⟨own, keys', hpos, -, hrest, -⟩ := takenKeys_cons htaken
    have hforward : matchesForward (options.headD ⟨false, false⟩)
        ⟨i, takenType (options.headD ⟨false, false⟩), takenNulls (options.headD ⟨false, false⟩)⟩ = true :=
      matchesForward_iff.mpr ⟨pgDescending_takenType _, pgNullsFirst_takenNulls _ _⟩
    simp only [List.cons_append, specsFrom, keysMatch, hforward, hpos, Bool.and_true, decide_true, beq_self_eq_true,
      Bool.true_or, Bool.true_and]
    exact ih (i + 1) _ hrest

end Complete

/-! ## The relations whose pushed orders are yielded -/

/-- For every index, whatever order its first columns are taken for is the order of some index. -/
def TakenRightly (r : Relation V) : Prop :=
  ∀ index ∈ r.table.indexes, index.Usable → ∀ m, 0 < m → m ≤ index.nKeyAtts → m ≤ index.indkey.length →
    ∀ keys, takenKeys r.dropped (index.indkey.take m) index.options = some keys → r.Yields keys

theorem order_sound_iff (r : Relation V) : OrderSound r ↔ TakenRightly r := by
  constructor
  · intro hsound index hmem husable m hm hkeys hlength keys htaken
    have hcolumns : (scanOf r (index.indkey.take m)).columnIds =
        [] ++ (index.indkey.take m).map fun attno => .column (attno - 1).toNat false := rfl
    have hne : (index.indkey.take m).length = m := by simp [hlength]
    have hpushes : Pushes r (.get (scanOf r (index.indkey.take m))) (scanOf r (index.indkey.take m))
        (ordersFrom 0 (index.indkey.take m) index.options) (specsFrom 0 (index.indkey.take m) index.options) := by
      refine ⟨rfl, rfl, ?_, index.indkey.take m, pushedOrders_from rfl hcolumns htaken, ?_⟩
      · intro primary hasChildren hcolumn
        obtain ⟨attno, hattno, heq⟩ := List.mem_map.mp hcolumn
        cases heq
        exact takenKeys_lt htaken hattno
      · have hmatch := keysMatch_from (index.indkey.drop m) 0 true htaken
        rw [List.take_append_drop] at hmatch
        simp only [indexSupportsOrder, Bool.and_eq_true, List.any_eq_true, decide_eq_true_eq]
        refine ⟨?_, index, hmem, ⟨⟨⟨⟨husable.1, husable.2.1⟩, ?_⟩, ?_⟩, ?_⟩, hmatch⟩
        · cases htake : index.indkey.take m with
          | nil =>
            rw [htake] at hne
            exact absurd hne (by simp; omega)
          | cons _ _ => rfl
        · rwa [hne]
        · rwa [hne]
        · rw [husable.2.2]
          rfl
    obtain ⟨keys', hrequested, hyields⟩ := hsound _ _ _ _ hpushes
    have hkeys' : requestedKeys r.dropped (scanOf r (index.indkey.take m))
        (specsFrom 0 (index.indkey.take m) index.options) = some keys := requestedKeys_from hcolumns htaken
    rw [hkeys'] at hrequested
    cases hrequested
    exact hyields
  · intro htaken c g orders specs hpushes
    obtain ⟨attrs, horders, hindex⟩ := hpushes.supported
    have hattrs := pushedOrders_attrs horders
    simp only [indexSupportsOrder, Bool.and_eq_true, List.any_eq_true, decide_eq_true_eq] at hindex
    obtain ⟨hne, index, hmem, ⟨⟨⟨⟨hvalid, hbtree⟩, hkeyatts⟩, hlength⟩, hpartial⟩, hmatch⟩ := hindex
    obtain ⟨keys, hkeys, hrequested⟩ := keysMatch_requested hpushes.columns hattrs hlength hmatch
    have hpos : 0 < attrs.length := by
      cases attrs with
      | nil => simp at hne
      | cons _ _ => simp
    have hyields := htaken index (hpushes.rel ▸ hmem) ⟨hvalid, hbtree, by simpa using hpartial⟩ attrs.length hpos
      hkeyatts hlength keys hkeys
    rcases hrequested with ⟨-, hrequested⟩ | ⟨-, hrequested⟩
    · exact ⟨keys, hrequested, hyields⟩
    · exact ⟨_, hrequested, hyields.flip⟩

/-! ## Relations with an unyielded order -/

/-- A table with an index on its column `DESC NULLS LAST`. -/
def descNullsLast : Relation Nat := ⟨[false], ⟨[], [⟨true, true, 1, [1], false, [⟨true, false⟩]⟩]⟩⟩

/-- A table that lost its first column, with an index on the next one. -/
def firstDropped : Relation Nat := ⟨[true, false, false], ⟨[], [⟨true, true, 1, [2], false, [⟨false, false⟩]⟩]⟩⟩

/-- `ORDER BY a DESC NULLS FIRST` is pushed over the one, and an order by the column after the indexed one over the
other. -/
theorem unyielded_orders_pushed : ¬OrderSound descNullsLast ∧ ¬OrderSound firstDropped := by
  constructor
  · intro hsound
    have hpushes : Pushes descNullsLast (.get (scanOf descNullsLast [1])) (scanOf descNullsLast [1])
        [⟨.boundRef 0, .descending, .nullsFirst⟩] [⟨0, .descending, .nullsFirst⟩] := by
      refine ⟨rfl, rfl, ?_, [1], rfl, by decide⟩
      intro primary hasChildren hcolumn
      obtain ⟨rfl, -⟩ : primary = 0 ∧ hasChildren = false := by simpa [scanOf] using hcolumn
      decide
    obtain ⟨keys, hkeys, index, hmem, -, backward, hprefix⟩ := hsound _ _ _ _ hpushes
    obtain rfl : [⟨1, true, true⟩] = keys := Option.some.inj hkeys
    obtain rfl := List.mem_singleton.mp hmem
    revert hprefix
    cases backward <;> decide
  · intro hsound
    have hpushes : Pushes firstDropped (.get (scanOf firstDropped [2])) (scanOf firstDropped [2])
        [⟨.boundRef 0, .ascending, .nullsLast⟩] [⟨0, .ascending, .nullsLast⟩] := by
      refine ⟨rfl, rfl, ?_, [2], rfl, by decide⟩
      intro primary hasChildren hcolumn
      obtain ⟨rfl, -⟩ : primary = 1 ∧ hasChildren = false := by simpa [scanOf] using hcolumn
      decide
    obtain ⟨keys, hkeys, index, hmem, -, backward, hprefix⟩ := hsound _ _ _ _ hpushes
    obtain rfl : [⟨3, false, false⟩] = keys := Option.some.inj hkeys
    obtain rfl := List.mem_singleton.mp hmem
    revert hprefix
    cases backward <;> decide

end PgDucklake.Scan
