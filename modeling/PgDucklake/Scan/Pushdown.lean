import PgDucklake.Scan.Chains

/-!
# The pushdown keeps the results of a plan

Whether an ordering operator is pushed can be told from the plan: below it are a scan, projections and ordering operators
that are pushed themselves (`Plan.pushed`), and an index of the table produces its order (`Plan.indexed`). Of a stack of
such operators only the last leaves its order, limit and offset in the bind data.

`pushdown_preserves` says when a plan keeps its results: in each such stack the operators below the last leave no row out,
and the keys of the last are safe if it is pushed. Where a `TOP_N` below leaves rows out, its limit is lost
(`stacked_limit_lost`).
-/

namespace PgDucklake.Scan

open Lib Std

variable {V : Type}

/-! ## Which operators are pushed -/

/-- The projections over the scan, without the ordering operators. -/
def Plan.chain : Plan V → Plan V
  | .get g => .get g
  | .projection tableIndex expressions child => .projection tableIndex expressions child.chain
  | .orderBy _ child => child.chain
  | .topN _ _ _ child => child.chain
  | .other op children => .other op children

/-- The columns of the scan that the keys are taken for, if an index of the table has their order. -/
def Plan.indexed (child : Plan V) (orders : List (BoundOrderByNode V)) : Option (List PostgresOrderBySpec) :=
  match findUnderlyingGet child.chain with
  | none => none
  | some g =>
    match pushedOrders child.chain g orders with
    | none => none
    | some (specs, attrs) => if indexSupportsOrder g.rel.indexes attrs specs then some specs else none

/-- A scan under projections and ordering operators, all of them pushed. -/
def Plan.pushed : Plan V → Bool
  | .get _ => true
  | .projection _ _ child => child.pushed
  | .orderBy orders child => child.pushed && (child.indexed orders).isSome
  | .topN orders _ _ child => child.pushed && (child.indexed orders).isSome
  | .other _ _ => false

/-- The number of rows of such a plan, if its scan has `n`. -/
def Plan.rowCount (n : Nat) : Plan V → Nat
  | .get _ => n
  | .projection _ _ child => child.rowCount n
  | .orderBy _ child => child.rowCount n
  | .topN _ limit offset child => min limit (child.rowCount n - offset)
  | .other _ _ => 0

/-- The tuples that a scan reads. -/
abbrev LogicalGet.tuples (g : LogicalGet V) : List (Nat → Option V) := g.rel.tuples.filter g.filter

/-- The operators below leave no row of the table out. -/
def Plan.AllRows (child : Plan V) : Prop :=
  ∀ g, findUnderlyingGet child.chain = some g → child.rowCount g.tuples.length = g.tuples.length

/-- The last ordering operator over a pushed child. -/
structure OrderSafe (sys : Engines V) (orders : List (BoundOrderByNode V)) (child : Plan V) : Prop where
  rows : child.AllRows
  keys : (child.indexed orders).isSome → ∀ g, findUnderlyingGet child.chain = some g →
    ∀ n ∈ orders, ∀ e, child.chain.scanExpr n.expression = some e → KeySafe sys g n e

mutual

def Plan.Safe (sys : Engines V) : Plan V → Prop
  | .get _ => True
  | .projection _ _ child => child.Safe sys
  | .orderBy orders child => if child.pushed then OrderSafe sys orders child else child.Safe sys
  | .topN orders _ _ child => if child.pushed then OrderSafe sys orders child else child.Safe sys
  | .other _ children => AllSafe sys children

def AllSafe (sys : Engines V) : List (Plan V) → Prop
  | [] => True
  | child :: children => child.Safe sys ∧ AllSafe sys children

end

mutual

/-- The plan as it comes to the optimizer: the bind data of its scans is as constructed. -/
def Plan.Unpushed : Plan V → Prop
  | .get g => g.bindData = {}
  | .projection _ _ child => child.Unpushed
  | .orderBy _ child => child.Unpushed
  | .topN _ _ _ child => child.Unpushed
  | .other _ children => AllUnpushed children

def AllUnpushed : List (Plan V) → Prop
  | [] => True
  | child :: children => child.Unpushed ∧ AllUnpushed children

end

/-! ## The scan query of what is pushed -/

theorem scanKeys_pushedOrders {c : Plan V} {g g' : LogicalGet V} (hg : findUnderlyingGet c = some g') :
    ∀ {orders : List (BoundOrderByNode V)} {specs : List PostgresOrderBySpec} {attrs : List Int},
      pushedOrders c g orders = some (specs, attrs) →
        ∃ keys, g.scanKeys specs = some keys ∧ List.Forall₂ (KeyOf c g) orders keys ∧ keys.length = attrs.length
  | [], specs, attrs, h => by
    cases h
    exact ⟨[], rfl, .nil, rfl⟩
  | n :: orders, specs, attrs, h => by
    simp only [pushedOrders] at h
    split at h
    · cases h
    · rename_i i hi
      split at h
      · rename_i primary hcol
        obtain ⟨⟨specs', attrs'⟩, hrest, hmk⟩ := Option.map_eq_some_iff.mp h
        cases hmk
        obtain ⟨keys, hkeys, hall, hlen⟩ := scanKeys_pushedOrders hg hrest
        obtain ⟨e, he, hext⟩ := resolveColumnIndex_scanExpr hg hi
        refine ⟨⟨primary, n.type, n.nullOrder⟩ :: keys, ?_, .cons ⟨⟨e, i, he, hext, hcol⟩, rfl, rfl⟩ hall, ?_⟩
        · simp [LogicalGet.scanKeys, LogicalGet.column, hcol, hkeys]
        · simp [hlen]
      · cases h

theorem scanKeys_bindData (g : LogicalGet V) (b : BindData) (specs : List PostgresOrderBySpec) :
    ({ g with bindData := b } : LogicalGet V).scanKeys specs = g.scanKeys specs := by
  induction specs with
  | nil => rfl
  | cons s specs ih => simp only [LogicalGet.scanKeys, LogicalGet.column, ih]

variable {c : Plan V} {orders : List (BoundOrderByNode V)} {g : LogicalGet V}

theorem constructTableScanQuery_indexed {specs : List PostgresOrderBySpec} (hg : findUnderlyingGet c.chain = some g)
    (h : c.indexed orders = some specs) :
    ∃ keys, List.Forall₂ (KeyOf c.chain g) orders keys ∧ ∀ limit offset,
      ({ g with bindData := ⟨specs, limit, offset⟩ } : LogicalGet V).constructTableScanQuery =
        some ⟨keys, limit, offset⟩ := by
  rw [Plan.indexed, hg] at h
  simp only at h
  split at h
  · cases h
  rename_i specs' attrs hp
  split at h
  · rename_i hindex
    cases h
    obtain ⟨keys, hkeys, hall, hlen⟩ := scanKeys_pushedOrders hg hp
    refine ⟨keys, hall, fun limit offset => ?_⟩
    cases hall with
    | nil =>
      rw [List.length_nil] at hlen
      rw [List.length_eq_zero_iff.mp hlen.symm] at hindex
      simp [indexSupportsOrder] at hindex
    | cons hkey _ =>
      -- a scan that only counts has no column that a key could have been resolved to
      obtain ⟨e, i, -, -, hcol⟩ := hkey.resolved
      have hcount : g.columnIds ≠ [.rowId] := by
        intro heq
        rw [heq] at hcol
        cases i <;> simp at hcol
      simp [LogicalGet.constructTableScanQuery, hcount, scanKeys_bindData, hkeys]
  · cases h

theorem constructTableScanQuery_cleared (g : LogicalGet V) :
    ({ g with bindData := {} } : LogicalGet V).constructTableScanQuery = some ⟨[], none, 0⟩ := by
  simp [LogicalGet.constructTableScanQuery, LogicalGet.scanKeys]

theorem constructTableScanQuery_unpushed (h : g.bindData = {}) :
    g.constructTableScanQuery = some ⟨[], none, 0⟩ := by
  simp [LogicalGet.constructTableScanQuery, h, LogicalGet.scanKeys]

/-! ## The rewrite of a plan -/

theorem Plan.pushed_scan : ∀ {c : Plan V}, c.pushed = true → ∃ g, findUnderlyingGet c.chain = some g
  | .get g, _ => ⟨g, rfl⟩
  | .projection _ _ child, h => Plan.pushed_scan (c := child) h
  | .orderBy _ child, h => Plan.pushed_scan (c := child) (Bool.and_eq_true_iff.mp h).1
  | .topN _ _ _ child, h => Plan.pushed_scan (c := child) (Bool.and_eq_true_iff.mp h).1

theorem resolveColumnIndex_withBindData (b : BindData) (g : LogicalGet V) : ∀ (c : Plan V) (e : Expr V),
    resolveColumnIndex e { g with bindData := b } (c.withBindData b) = resolveColumnIndex e g c
  | .get _, _ => rfl
  | .projection tableIndex expressions child, e => by
    simp only [Plan.withBindData, resolveColumnIndex]
    cases throughProjection tableIndex expressions e with
    | none => rfl
    | some below => exact resolveColumnIndex_withBindData b g child below
  | .orderBy _ _, _ => rfl
  | .topN _ _ _ _, _ => rfl
  | .other _ _, _ => rfl

theorem pushedOrders_withBindData (b : BindData) (g : LogicalGet V) (c : Plan V) (orders : List (BoundOrderByNode V)) :
    pushedOrders (c.withBindData b) { g with bindData := b } orders = pushedOrders c g orders := by
  induction orders with
  | nil => rfl
  | cons n orders ih => simp only [pushedOrders, resolveColumnIndex_withBindData, ih]

theorem withBindData_withBindData (b b' : BindData) : ∀ c : Plan V, (c.withBindData b).withBindData b' = c.withBindData b'
  | .get _ => rfl
  | .projection _ _ child => congrArg (Plan.projection _ _) (withBindData_withBindData b b' child)
  | .orderBy _ _ => rfl
  | .topN _ _ _ _ => rfl
  | .other _ _ => rfl

theorem tryPushdown_chain {orders : List (BoundOrderByNode V)} {limit : Option Nat} {offset : Nat} {c : Plan V}
    {rebuild : Plan V → Plan V} (hp : c.pushed = true) (b : BindData) :
    tryPushdown orders limit offset (c.chain.withBindData b) rebuild =
      match c.indexed orders with
      | none => rebuild (c.chain.withBindData {})
      | some specs => c.chain.withBindData ⟨specs, limit, offset⟩ := by
  obtain ⟨g, hg⟩ := Plan.pushed_scan hp
  rw [tryPushdown, findUnderlyingGet_withBindData, Plan.indexed, hg]
  simp only [Option.map_some, pushedOrders_withBindData, withBindData_withBindData]
  cases pushedOrders c.chain g orders with
  | none => rfl
  | some pair =>
    obtain ⟨specs, attrs⟩ := pair
    dsimp only
    split_ifs <;> rfl

/-- What the rewrite leaves of `c`: its projections over the scan if `c` is pushed, no chain over a scan otherwise. -/
def RewritesTo (c : Plan V) (pushed : Bool) (p : Plan V) : Prop :=
  (pushed = true ∧ ∃ b, p = c.chain.withBindData b) ∨ (pushed = false ∧ findUnderlyingGet p = none)

theorem RewritesTo.tryPushdown {orders : List (BoundOrderByNode V)} {limit : Option Nat} {offset : Nat} {child : Plan V}
    {rebuild : Plan V → Plan V} (h : RewritesTo child child.pushed (pushdownRecursive child))
    (hre : ∀ p, findUnderlyingGet (rebuild p) = none) :
    RewritesTo child (child.pushed && (child.indexed orders).isSome)
      (tryPushdown orders limit offset (pushdownRecursive child) rebuild) := by
  obtain ⟨hp, b, hb⟩ | ⟨hp, hnone⟩ := h
  · rw [hb, tryPushdown_chain hp, hp]
    cases child.indexed orders with
    | none => exact .inr ⟨rfl, hre _⟩
    | some specs => exact .inl ⟨rfl, _, rfl⟩
  · refine .inr ⟨by rw [hp]; rfl, ?_⟩
    rw [Scan.tryPushdown, hnone]
    exact hre _

theorem pushdown_rewritesTo : ∀ c : Plan V, RewritesTo c c.pushed (pushdownRecursive c)
  | .get g => .inl ⟨rfl, g.bindData, by rw [pushdownRecursive]; rfl⟩
  | .projection tableIndex expressions child => by
    rw [pushdownRecursive]
    obtain ⟨hp, b, hb⟩ | ⟨hp, hnone⟩ := pushdown_rewritesTo child
    · exact .inl ⟨hp, b, by rw [hb]; rfl⟩
    · exact .inr ⟨hp, hnone⟩
  | .orderBy orders child => by
    rw [pushdownRecursive, tryPushdownOrder]
    exact (pushdown_rewritesTo child).tryPushdown fun _ => rfl
  | .topN orders limit offset child => by
    rw [pushdownRecursive, tryPushdownOrder]
    exact (pushdown_rewritesTo child).tryPushdown fun _ => rfl
  | .other op children => .inr ⟨rfl, by rw [pushdownRecursive]; rfl⟩

/-! ## What a pushed plan returns -/

variable {α : Type}

theorem cut_sublist (limit : Option Nat) (offset : Nat) (l : List α) : (cut limit offset l).Sublist l := by
  cases limit with
  | none => exact .refl l
  | some n => exact (List.take_sublist n _).trans (List.drop_sublist offset l)

theorem cut_map {β : Type} (limit : Option Nat) (offset : Nat) (f : α → β) (l : List α) :
    (cut limit offset l).map f = cut limit offset (l.map f) := by
  cases limit with
  | none => rfl
  | some n => simp [cut, List.map_take, List.map_drop]

section Rows

variable (sys : Engines V) {c : Plan V} {g : LogicalGet V}

theorem returns_subperm : ∀ {c : Plan V} {out : List (Row V)}, c.Unpushed → findUnderlyingGet c.chain = some g →
    c.returns sys out → out.Subperm (g.tuples.map c.chain.chainRow) ∧ out.length = c.rowCount g.tuples.length
  | .get _, out, hu, hg, h => by
    cases hg
    obtain ⟨q, hq, _, ⟨sorted, hs, rfl⟩, rfl⟩ := h
    rw [constructTableScanQuery_unpushed hu] at hq
    cases hq
    exact ⟨(hs.perm.map g.row).subperm, by rw [List.length_map]; exact hs.perm.length_eq⟩
  | .projection tableIndex expressions child, out, hu, hg, h => by
    obtain ⟨input, hin, rfl⟩ := h
    obtain ⟨⟨rows, hperm, hsub⟩, hlen⟩ := returns_subperm (c := child) hu hg hin
    have hmap := hsub.map (projectRow tableIndex expressions)
    rw [List.map_map] at hmap
    exact ⟨⟨_, hperm.map _, hmap⟩, by rw [List.length_map]; exact hlen⟩
  | .orderBy orders child, out, hu, hg, h => by
    obtain ⟨input, hin, hs⟩ := h
    obtain ⟨hsub, hlen⟩ := returns_subperm (c := child) hu hg hin
    exact ⟨hs.perm.subperm.trans hsub, hs.perm.length_eq.trans hlen⟩
  | .topN orders limit offset child, out, hu, hg, h => by
    obtain ⟨input, hin, sorted, hs, rfl⟩ := h
    obtain ⟨hsub, hlen⟩ := returns_subperm (c := child) hu hg hin
    refine ⟨((cut_sublist _ _ _).subperm.trans hs.perm.subperm).trans hsub, ?_⟩
    rw [cut, List.length_take, List.length_drop, hs.perm.length_eq, hlen]
    rfl

theorem unpushed_answerable_chain : ∀ {c : Plan V}, c.Unpushed → findUnderlyingGet c.chain = some g → c.Answerable
  | .get _, hu, _ => by
    rw [Plan.Answerable, constructTableScanQuery_unpushed hu]
    rfl
  | .projection _ _ child, hu, hg => unpushed_answerable_chain (c := child) hu hg
  | .orderBy _ child, hu, hg => unpushed_answerable_chain (c := child) hu hg
  | .topN _ _ _ child, hu, hg => unpushed_answerable_chain (c := child) hu hg

theorem returns_all (hu : c.Unpushed) (hg : findUnderlyingGet c.chain = some g)
    (hall : c.rowCount g.tuples.length = g.tuples.length) :
    ∃ out, c.returns sys out ∧ out.Perm (g.tuples.map c.chain.chainRow) := by
  obtain ⟨out, hout⟩ := c.returns_exists sys (unpushed_answerable_chain hu hg)
  obtain ⟨hsub, hlen⟩ := returns_subperm sys hu hg hout
  exact ⟨out, hout, hsub.perm_of_length_le (by rw [hlen, hall, List.length_map])⟩

variable {out : List (Row V)}

theorem cleared_returns (hg : findUnderlyingGet c = some g) :
    (c.withBindData {}).returns sys out → out.Perm (g.tuples.map c.chainRow) := by
  intro h
  have hg' : findUnderlyingGet (c.withBindData {}) = some { g with bindData := {} } := by simp [hg]
  obtain ⟨q, hq, tuples, ⟨sorted, hs, rfl⟩, rfl⟩ := (chain_returns sys hg').mp h
  rw [constructTableScanQuery_cleared] at hq
  cases hq
  simpa [cut] using hs.perm.map c.chainRow

variable {orders : List (BoundOrderByNode V)}

theorem keys_cmp_eq (hg : findUnderlyingGet c = some g) {s t : Nat → Option V} (hs : s ∈ g.rel.tuples.filter g.filter)
    (ht : t ∈ g.rel.tuples.filter g.filter) {keys : List ScanKey} (h : List.Forall₂ (KeyOf c g) orders keys)
    (hsafe : ∀ n ∈ orders, ∀ e, c.scanExpr n.expression = some e → KeySafe sys g n e) :
    ordersCmp sys orders (c.chainRow s) (c.chainRow t) = lexCmp (keys.map (ScanKey.cmp sys)) s t := by
  induction h with
  | nil => rfl
  | @cons n k orders keys hk _ ih =>
    have hn := hk.cmp_eq hg (hsafe n List.mem_cons_self) hs ht
    have hrest := ih fun m hm => hsafe m (List.mem_cons_of_mem _ hm)
    have heq : (n.cmp sys (c.chainRow s) (c.chainRow t)).then (ordersCmp sys orders (c.chainRow s) (c.chainRow t)) =
        (k.cmp sys s t).then (lexCmp (keys.map (ScanKey.cmp sys)) s t) := by rw [hn, hrest]
    exact heq

theorem pushed_returns {specs : List PostgresOrderBySpec} (hg : findUnderlyingGet c.chain = some g)
    (h : c.indexed orders = some specs) {limit : Option Nat} {offset : Nat}
    (hout : (c.chain.withBindData ⟨specs, limit, offset⟩).returns sys out) :
    ∃ keys sorted, List.Forall₂ (KeyOf c.chain g) orders keys ∧
      Arranged (lexCmp (keys.map (ScanKey.cmp sys))) g.tuples sorted ∧
      out = cut limit offset (sorted.map c.chain.chainRow) := by
  have hg' : findUnderlyingGet (c.chain.withBindData ⟨specs, limit, offset⟩) =
      some { g with bindData := ⟨specs, limit, offset⟩ } := by simp [hg]
  obtain ⟨keys, hall, hquery⟩ := constructTableScanQuery_indexed hg h
  rw [chain_returns sys hg', chainRow_withBindData] at hout
  obtain ⟨q, hq, _, ⟨sorted, hs, rfl⟩, rfl⟩ := hout
  rw [hquery] at hq
  cases hq
  exact ⟨keys, sorted, hall, hs, cut_map limit offset _ sorted⟩

end Rows

/-! ## One attempt -/

section Attempt

variable (sys : Engines V) {orders : List (BoundOrderByNode V)} {limit : Option Nat} {offset : Nat} {c : Plan V}
  {rebuild : Plan V → Plan V}

/-- `rebuild` is an ordering operator with these keys, limit and offset. -/
def Orders (orders : List (BoundOrderByNode V)) (limit : Option Nat) (offset : Nat) (rebuild : Plan V → Plan V) :
    Prop :=
  ∀ child out, (rebuild child).returns sys out ↔ ∃ input, child.returns sys input ∧
    ∃ sorted, Arranged (ordersCmp sys orders) input sorted ∧ out = cut limit offset sorted

theorem orders_orderBy : Orders sys orders none 0 (.orderBy orders) := by
  intro child out
  constructor
  · rintro ⟨input, hin, hs⟩
    exact ⟨input, hin, out, hs, rfl⟩
  · rintro ⟨input, hin, sorted, hs, rfl⟩
    exact ⟨input, hin, hs⟩

theorem orders_topN {limit : Nat} : Orders sys orders (some limit) offset (.topN orders limit offset) :=
  fun _ _ => Iff.rfl

variable {sys}

theorem OrderSafe.attempt_returns (hs : OrderSafe sys orders c) (ho : Orders sys orders limit offset rebuild)
    (hu : c.Unpushed) (hp : c.pushed = true) (b : BindData) {out : List (Row V)}
    (h : (tryPushdown orders limit offset (c.chain.withBindData b) rebuild).returns sys out) :
    (rebuild c).returns sys out := by
  obtain ⟨g, hg⟩ := Plan.pushed_scan hp
  obtain ⟨rows, hrows, hperm⟩ := returns_all sys hu hg (hs.rows g hg)
  rw [tryPushdown_chain hp] at h
  cases hindexed : c.indexed orders with
  | none =>
    rw [hindexed] at h
    obtain ⟨input, hin, sorted, hsorted, rfl⟩ := (ho _ _).mp h
    exact (ho c _).mpr ⟨rows, hrows, sorted, hsorted.of_perm ((cleared_returns sys hg hin).trans hperm.symm), rfl⟩
  | some specs =>
    rw [hindexed] at h
    obtain ⟨keys, sorted, hall, hsorted, rfl⟩ := pushed_returns sys hg hindexed h
    have hmapped : Arranged (ordersCmp sys orders) (g.tuples.map c.chain.chainRow) (sorted.map c.chain.chainRow) :=
      hsorted.map fun s hs' t ht => keys_cmp_eq sys hg hs' ht hall (hs.keys (by rw [hindexed]; rfl) g hg)
    exact (ho c _).mpr ⟨rows, hrows, _, hmapped.of_perm hperm.symm, rfl⟩

theorem tryPushdown_returns (ho : Orders sys orders limit offset rebuild) (hu : c.Unpushed)
    (hs : if c.pushed then OrderSafe sys orders c else c.Safe sys)
    (ih : ∀ input, c.Safe sys → (pushdownRecursive c).returns sys input → c.returns sys input) {out : List (Row V)}
    (h : (tryPushdown orders limit offset (pushdownRecursive c) rebuild).returns sys out) :
    (rebuild c).returns sys out := by
  obtain ⟨hp, b, hb⟩ | ⟨hp, hnone⟩ := pushdown_rewritesTo c
  · rw [if_pos hp] at hs
    rw [hb] at h
    exact hs.attempt_returns ho hu hp b h
  · rw [if_neg (by rw [hp]; exact Bool.false_ne_true)] at hs
    rw [tryPushdown, hnone] at h
    obtain ⟨input, hin, hsorted⟩ := (ho _ _).mp h
    exact (ho _ _).mpr ⟨input, ih input hs hin, hsorted⟩

end Attempt

/-! ## Whole plans -/

mutual

theorem pushdown_returns (sys : Engines V) : ∀ {p : Plan V} {out : List (Row V)}, p.Unpushed → p.Safe sys →
    (pushdownRecursive p).returns sys out → p.returns sys out
  | .get g, out, _, _, h => by rwa [pushdownRecursive] at h
  | .projection tableIndex expressions child, out, hu, hs, h => by
    rw [pushdownRecursive] at h
    obtain ⟨input, hin, rfl⟩ := h
    exact ⟨input, pushdown_returns sys (p := child) hu hs hin, rfl⟩
  | .orderBy orders child, out, hu, hs, h => by
    rw [pushdownRecursive, tryPushdownOrder] at h
    rw [Plan.Safe] at hs
    exact tryPushdown_returns (c := child) (orders_orderBy sys) hu hs (fun _ => pushdown_returns sys hu) h
  | .topN orders limit offset child, out, hu, hs, h => by
    rw [pushdownRecursive, tryPushdownOrder] at h
    rw [Plan.Safe] at hs
    exact tryPushdown_returns (c := child) (orders_topN sys) hu hs (fun _ => pushdown_returns sys hu) h
  | .other op children, out, hu, hs, h => by
    rw [pushdownRecursive] at h
    obtain ⟨inputs, hin, hop⟩ := h
    exact ⟨inputs, pushdownChildren_returns sys hu hs hin, hop⟩

theorem pushdownChildren_returns (sys : Engines V) : ∀ {ps : List (Plan V)} {inputs : List (List (Row V))},
    AllUnpushed ps → AllSafe sys ps → returnsAll sys (pushdownChildren ps) inputs → returnsAll sys ps inputs
  | [], inputs, _, _, h => by rwa [pushdownChildren] at h
  | child :: children, inputs, hu, hs, h => by
    rw [pushdownChildren] at h
    obtain ⟨input, rest, hin, hrest, rfl⟩ := h
    exact ⟨input, rest, pushdown_returns sys hu.1 hs.1 hin, pushdownChildren_returns sys hu.2 hs.2 hrest, rfl⟩

end

theorem answerable_chain : ∀ {c : Plan V} {g : LogicalGet V}, findUnderlyingGet c = some g →
    g.constructTableScanQuery.isSome → c.Answerable
  | .get _, g, hg, h => by
    cases hg
    exact h
  | .projection _ _ child, g, hg, h => answerable_chain (c := child) hg h

theorem tryPushdown_answerable {limit : Option Nat} {offset : Nat} {rebuild : Plan V → Plan V}
    (hre : ∀ p, (rebuild p).Answerable ↔ p.Answerable) (h : (pushdownRecursive c).Answerable) :
    (tryPushdown orders limit offset (pushdownRecursive c) rebuild).Answerable := by
  obtain ⟨hp, b, hb⟩ | ⟨-, hnone⟩ := pushdown_rewritesTo c
  · obtain ⟨g, hg⟩ := Plan.pushed_scan hp
    have hscan : ∀ b : BindData, findUnderlyingGet (c.chain.withBindData b) = some { g with bindData := b } := by
      simp [hg]
    rw [hb, tryPushdown_chain hp]
    cases hindexed : c.indexed orders with
    | none => exact (hre _).mpr (answerable_chain (hscan _) (by rw [constructTableScanQuery_cleared]; rfl))
    | some specs =>
      obtain ⟨keys, -, hquery⟩ := constructTableScanQuery_indexed hg hindexed
      exact answerable_chain (hscan _) (by rw [hquery]; rfl)
  · rw [tryPushdown, hnone]
    exact (hre _).mpr h

mutual

theorem pushdown_answerable : ∀ {p : Plan V}, p.Unpushed → (pushdownRecursive p).Answerable
  | .get g, h => by
    rw [pushdownRecursive]
    rw [Plan.Answerable, constructTableScanQuery_unpushed h]
    rfl
  | .projection _ _ child, h => by
    rw [pushdownRecursive]
    exact pushdown_answerable (p := child) h
  | .orderBy _ child, h => by
    rw [pushdownRecursive]
    exact tryPushdown_answerable (fun _ => Iff.rfl) (pushdown_answerable (p := child) h)
  | .topN _ _ _ child, h => by
    rw [pushdownRecursive]
    exact tryPushdown_answerable (fun _ => Iff.rfl) (pushdown_answerable (p := child) h)
  | .other _ children, h => by
    rw [pushdownRecursive]
    exact pushdownChildren_answerable h

theorem pushdownChildren_answerable : ∀ {ps : List (Plan V)}, AllUnpushed ps → AllAnswerable (pushdownChildren ps)
  | [], _ => by
    rw [pushdownChildren]
    trivial
  | child :: children, h => by
    rw [pushdownChildren]
    exact ⟨pushdown_answerable h.1, pushdownChildren_answerable h.2⟩

end

/-- The rewritten plan returns something, and only results that the original plan may return. -/
def Preserves (sys : Engines V) (p : Plan V) : Prop :=
  (∃ out, (pushdownRecursive p).returns sys out) ∧ ∀ out, (pushdownRecursive p).returns sys out → p.returns sys out

/-- Over a pushed child an `ORDER_BY` keeps its results only if the child leaves no row out. -/
theorem allRows_of_preserves {sys : Engines V} {child : Plan V} (hu : child.Unpushed) (hp : child.pushed = true)
    (h : Preserves sys (.orderBy orders child)) : child.AllRows := by
  intro g hg
  obtain ⟨-, b, hb⟩ := (pushdown_rewritesTo child).resolve_right fun hnot => by rw [hp] at hnot; cases hnot.1
  obtain ⟨⟨out, hout⟩, hall⟩ := h
  obtain ⟨input, hin, hs⟩ := hall out hout
  rw [pushdownRecursive, tryPushdownOrder, hb, tryPushdown_chain hp] at hout
  have hlen : out.length = g.tuples.length := by
    cases hindexed : child.indexed orders with
    | none =>
      rw [hindexed] at hout
      obtain ⟨input, hin, hs⟩ := hout
      rw [hs.perm.length_eq, (cleared_returns sys hg hin).length_eq, List.length_map]
    | some specs =>
      rw [hindexed] at hout
      obtain ⟨keys, sorted, -, hsorted, rfl⟩ := pushed_returns sys hg hindexed hout
      rw [cut, List.length_map, hsorted.perm.length_eq]
  rw [← (returns_subperm sys hu hg hin).2, ← hs.perm.length_eq, hlen]

/-- Safe plans keep their results. An `ORDER_BY` over a pushed child loses rows unless the child leaves none out. -/
theorem pushdown_preserves (sys : Engines V) (p : Plan V) (hu : p.Unpushed) :
    (p.Safe sys → Preserves sys p) ∧
      ∀ orders child, p = .orderBy orders child → child.pushed = true → Preserves sys p → child.AllRows := by
  refine ⟨fun hs => ⟨(pushdownRecursive p).returns_exists sys (pushdown_answerable hu),
    fun _ h => pushdown_returns sys hu hs h⟩, ?_⟩
  rintro orders child rfl
  exact allRows_of_preserves hu

/-! ## A stacked limit -/

/-- Both engines order numbers alike, NULLs last unless asked otherwise. -/
def numbers : Engines Nat where
  pgCmp _ := compare
  duckCmp := compare
  duckDescending := pgDescending
  duckNullsFirst _ nulls := nulls = .nullsFirst
  pg_trans _ := inferInstance
  duck_trans := inferInstance

/-- The scan of a table of one column with a btree index on it, holding 1 and 2. -/
def indexedScan : LogicalGet Nat where
  tableIndex := 0
  columnIds := [.column 0 false]
  projectionIds := []
  filter _ := true
  rel := ⟨[fun _ => some 1, fun _ => some 2], [⟨true, true, 1, [1], false, [⟨false, false⟩]⟩]⟩
  bindData := {}

/-- `ORDER BY id`, ascending or descending. -/
def byId (tableIndex : Nat) (type : OrderType) : BoundOrderByNode Nat :=
  ⟨.boundColumnRef ⟨tableIndex, 0⟩, type, if type = .descending then .nullsFirst else .nullsLast⟩

/-- `SELECT id FROM (SELECT id FROM t ORDER BY id LIMIT 1) ORDER BY id DESC`. -/
def stackedPlan : Plan Nat :=
  .orderBy [byId 1 .descending]
    (.projection 1 [.boundColumnRef ⟨0, 0⟩] (.topN [byId 0 .ascending] 1 0 (.get indexedScan)))

theorem pushdown_stackedPlan : pushdownRecursive stackedPlan =
    .projection 1 [.boundColumnRef ⟨0, 0⟩]
      (.get { indexedScan with bindData := ⟨[⟨0, .descending, .nullsFirst⟩], none, 0⟩ }) := rfl

/-- The rewritten plan returns two rows where the original plan returns one. -/
theorem stacked_limit_lost : stackedPlan.Unpushed ∧
    (∃ out, (pushdownRecursive stackedPlan).returns numbers out ∧ out.length = 2) ∧
      ∀ out, stackedPlan.returns numbers out → out.length = 1 := by
  refine ⟨rfl, ?_, ?_⟩
  · obtain ⟨sorted, hs⟩ := scanKeys_arranged numbers [⟨0, .descending, .nullsFirst⟩]
      (indexedScan.rel.tuples.filter indexedScan.filter)
    have hlen : sorted.length = 2 := hs.perm.length_eq
    rw [pushdown_stackedPlan]
    refine ⟨_, (chain_returns numbers rfl).mpr ⟨_, rfl, sorted, ⟨sorted, hs, rfl⟩, rfl⟩, ?_⟩
    rw [List.length_map, hlen]
  · rintro out ⟨_, ⟨_, ⟨_, ⟨q, hq, _, ⟨scanned, hscan, rfl⟩, rfl⟩, sorted, hsorted, rfl⟩, rfl⟩, hout⟩
    cases hq
    have hall : sorted.length = 2 := by
      rw [hsorted.perm.length_eq, List.length_map]
      exact hscan.perm.length_eq
    rw [hout.perm.length_eq, List.length_map]
    simp [cut, hall]

/-- `SELECT id FROM (SELECT id FROM t ORDER BY id) ORDER BY id DESC LIMIT 1`. -/
def limitedOutside : Plan Nat :=
  .topN [byId 1 .descending] 1 0
    (.projection 1 [.boundColumnRef ⟨0, 0⟩] (.orderBy [byId 0 .ascending] (.get indexedScan)))

theorem keySafe_indexedScan {n : BoundOrderByNode Nat} (tableIndex : Nat)
    (hn : n = byId tableIndex .ascending ∨ n = byId tableIndex .descending) :
    KeySafe numbers indexedScan n (.boundColumnRef ⟨0, 0⟩) where
  straight := by
    rintro _ ⟨⟩ -
    rfl
  direction := by
    rcases hn with rfl | rfl <;> exact fun _ _ => ⟨rfl, rfl⟩
  agree := fun _ _ _ _ _ _ _ _ _ _ _ _ => rfl

theorem pushdown_preserves_limitedOutside : limitedOutside.Unpushed ∧ limitedOutside.Safe numbers ∧
    Preserves numbers limitedOutside := by
  have hsafe : limitedOutside.Safe numbers := by
    rw [limitedOutside, Plan.Safe, if_pos (by decide)]
    refine ⟨by rintro g ⟨⟩; rfl, ?_⟩
    rintro - g ⟨⟩ n hn e he
    cases List.mem_singleton.mp hn
    cases he
    exact keySafe_indexedScan 1 (.inr rfl)
  exact ⟨rfl, hsafe, (pushdown_preserves numbers limitedOutside rfl).1 hsafe⟩

end PgDucklake.Scan
