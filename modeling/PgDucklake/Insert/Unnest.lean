import PgDucklake.Insert.Catalog
import PgDucklake.Lib.Ranks

/-!
# Matching an UNNEST insert

`TryMatchUnnest` accepts `INSERT .. SELECT unnest($n), ..` with one array parameter for each live column of the target.
`tryMatchUnnest_spec` says which parameter each column gets.
-/

namespace PgDucklake.Insert

open Lib

structure ParamInfo where
  paramId : Int
  paramType : Oid
  elementType : Oid
  deriving DecidableEq, Repr

structure DirectInsertContext where
  targetTableOid : Oid
  tableId : UInt64
  schemaVersion : UInt64
  paramInfos : List ParamInfo
  targetColNames : List String
  targetColTypes : List Oid

/-- `F_UNNEST_ANYARRAY`. -/
def unnestAnyarray : Oid := 2331

variable (getElementType : Oid → Oid)

/-- `IsBuiltinUnnest` of a call whose one argument has the type `arrayType`. -/
def isBuiltinUnnest (funcid : Oid) (funcretset : Bool) (funcresulttype arrayType : Oid) : Bool :=
  funcid == unnestAnyarray && funcretset && oidIsValid (getElementType arrayType) &&
    funcresulttype == getElementType arrayType

/-- The parameter of a bare `unnest($n)`. -/
def isUnnestOfParam : Expr → Option (Int × Oid)
  | .node (.funcExpr funcid funcretset funcresulttype) [.node (.param paramkind paramid paramtype) _] =>
    if isBuiltinUnnest getElementType funcid funcretset funcresulttype paramtype && paramkind == .paramExtern then
      some (paramid, paramtype)
    else none
  | _ => none

/-- A bare SELECT list: a SELECT with set-returning functions and no clause at all. -/
def isPlainUnnestSource (query : SourceQuery) : Bool :=
  query.isSelect && query.hasTargetSRFs && query.clauses.isEmpty && !query.targetList.isEmpty &&
    query.targetList.all fun tle => !tle.resjunk

/-- The source column under an attribute number. -/
def SourceQuery.column (query : SourceQuery) (varattno : Int) : Option TargetEntry :=
  query.targetList.find? fun candidate => !candidate.resjunk && candidate.resno == varattno

/-- The subquery in FROM. -/
def Query.unnestSource (parse : Query) : Except DirectInsertReason (Nat × SourceQuery) :=
  match parse.jointree with
  | some ⟨[.rangeTblRef rtindex], none⟩ =>
    if rtindex < 1 ∨ rtindex > parse.rtable.length then .error .invalidRte
    else
      match parse.rtable[rtindex - 1]? with
      | some (.subquery query) =>
        if !isPlainUnnestSource query then .error .unsupportedInsertShape else .ok (rtindex, query)
      | _ => .error .invalidRte
  | _ => .error .unsupportedInsertShape

/-- The source column that a target entry copies. -/
def TargetEntry.source (tle : TargetEntry) (fromRtindex : Nat) (query : SourceQuery) : Option TargetEntry :=
  match tle.expr with
  | .node (.var varno varattno) _ =>
    if varno ≠ fromRtindex ∨ varattno < 1 then none else query.column varattno
  | _ => none

/-- The parameter that a target entry gets its values from. -/
def TargetEntry.paramInfo (tle : TargetEntry) (fromRtindex : Nat) (query : SourceQuery) : Option ParamInfo := do
  let sourceTle ← tle.source fromRtindex query
  let (paramId, paramType) ← isUnnestOfParam getElementType sourceTle.expr
  let elementType := getElementType paramType
  if oidIsValid elementType then some ⟨paramId, paramType, elementType⟩ else none

/-- The number of live columns before the column of a target entry. -/
def TargetEntry.liveColumn (tle : TargetEntry) (desc : TupleDesc) : Nat :=
  (TupleDesc.live (desc.take (tle.resno - 1).toNat)).length

/-- One target entry of the statement. -/
def enterParam (fromRtindex : Nat) (query : SourceQuery) (desc : TupleDesc) (params : List (Option ParamInfo))
    (tle : TargetEntry) : Option (List (Option ParamInfo)) :=
  if tle.resno < 1 ∨ tle.resno > desc.length then none
  else do
    let pinfo ← tle.paramInfo getElementType fromRtindex query
    let attr ← desc[(tle.resno - 1).toNat]?
    let liveColumn := tle.liveColumn desc
    if attr.attisdropped || (params.getD liveColumn none).isSome then none
    else some (params.set liveColumn (some pinfo))

/-- Every live column has a parameter. -/
def allParams : List (Option ParamInfo) → Option (List ParamInfo)
  | [] => some []
  | none :: _ => none
  | some pinfo :: params => (allParams params).map (pinfo :: ·)

def tryMatchUnnest (c : Catalog) (caches : Caches) (precond : InsertPrecondition) (parse : Query) :
    Except DirectInsertReason DirectInsertContext := do
  let (fromRtindex, query) ← parse.unnestSource
  let desc := precond.targetRel.descr
  match parse.targets.foldlM (enterParam getElementType fromRtindex query desc) (List.replicate desc.live.length none) with
  | none => .error .unsupportedInsertShape
  | some paramsByColumn =>
    match allParams paramsByColumn with
    | none => .error .unsupportedInsertShape
    | some paramInfos =>
      match getCachedInlinedColumnTypes c caches precond.tableId precond.schemaVersion
          (paramInfos.map (·.elementType)) with
      | none => .error .colTypesUnsupported
      | some inlinedColTypes => .ok {
          targetTableOid := precond.targetOid
          tableId := precond.tableId
          schemaVersion := precond.schemaVersion
          paramInfos := paramInfos
          targetColNames := desc.live.map (·.attname)
          targetColTypes := inlinedColTypes }

/-! ## Accepted statements -/

section Params

variable {getElementType} {fromRtindex : Nat} {query : SourceQuery} {desc : TupleDesc}
  {params params' : List (Option ParamInfo)} {tle : TargetEntry}

/-- A target entry for a live column, with its parameter. -/
structure TargetEntry.Takes (getElementType : Oid → Oid) (fromRtindex : Nat) (query : SourceQuery) (desc : TupleDesc)
    (tle : TargetEntry) (pinfo : ParamInfo) : Prop where
  first : 1 ≤ tle.resno
  live : ∃ attr, desc[(tle.resno - 1).toNat]? = some attr ∧ attr.isLive = true
  param : tle.paramInfo getElementType fromRtindex query = some pinfo

theorem TargetEntry.Takes.liveColumn_lt {pinfo : ParamInfo}
    (h : tle.Takes getElementType fromRtindex query desc pinfo) : tle.liveColumn desc < desc.live.length := by
  obtain ⟨attr, hattr, hlive⟩ := h.live
  exact (List.getElem?_eq_some_iff.mp (getElem?_filter_rank hattr hlive)).1

theorem enterParam_spec (h : enterParam getElementType fromRtindex query desc params tle = some params') :
    ∃ pinfo, tle.Takes getElementType fromRtindex query desc pinfo ∧
      (params.getD (tle.liveColumn desc) none).isSome = false ∧
      params' = params.set (tle.liveColumn desc) (some pinfo) := by
  rw [enterParam] at h
  split at h
  · cases h
  rename_i hrange
  obtain ⟨pinfo, hparam, h⟩ := Option.bind_eq_some_iff.mp h
  obtain ⟨attr, hattr, h⟩ := Option.bind_eq_some_iff.mp h
  simp only at h
  split at h
  · cases h
  rename_i hfree
  rw [Bool.or_eq_true, not_or, Bool.not_eq_true, Bool.not_eq_true] at hfree
  refine ⟨pinfo, ⟨by omega, ⟨attr, hattr, by simp [Attribute.isLive, hfree.1]⟩, hparam⟩, hfree.2, ?_⟩
  exact (Option.some.inj h).symm

/-- What a list of target entries leaves in `params_by_column`. -/
structure EntersParams (getElementType : Oid → Oid) (fromRtindex : Nat) (query : SourceQuery) (desc : TupleDesc)
    (params : List (Option ParamInfo)) (ts : List TargetEntry) (params' : List (Option ParamInfo)) : Prop where
  length : params'.length = params.length
  kept : ∀ (k : Nat) (pinfo : ParamInfo), params[k]? = some (some pinfo) → params'[k]? = some (some pinfo)
  taken : ∀ tle ∈ ts, ∃ pinfo, tle.Takes getElementType fromRtindex query desc pinfo ∧
    params'[tle.liveColumn desc]? = some (some pinfo)
  origin : ∀ (k : Nat) (pinfo : ParamInfo), params'[k]? = some (some pinfo) → params[k]? = some (some pinfo) ∨
    ∃ tle ∈ ts, tle.liveColumn desc = k ∧ tle.Takes getElementType fromRtindex query desc pinfo

theorem entersParams {ts : List TargetEntry} (hlength : params.length = desc.live.length)
    (h : ts.foldlM (enterParam getElementType fromRtindex query desc) params = some params') :
    EntersParams getElementType fromRtindex query desc params ts params' := by
  induction ts generalizing params with
  | nil =>
    cases h
    exact ⟨rfl, fun _ _ h => h, by simp, fun _ _ h => .inl h⟩
  | cons t ts ih =>
    rw [List.foldlM_cons] at h
    obtain ⟨params₁, henter, hrest⟩ := Option.bind_eq_some_iff.mp h
    obtain ⟨pinfo, htakes, hfree, rfl⟩ := enterParam_spec henter
    have hlt : t.liveColumn desc < params.length := hlength ▸ htakes.liveColumn_lt
    have hown : (params.set (t.liveColumn desc) (some pinfo))[t.liveColumn desc]? = some (some pinfo) :=
      List.getElem?_set_self hlt
    have htail := ih (by rw [List.length_set, hlength]) hrest
    refine ⟨by rw [htail.length, List.length_set], ?_, ?_, ?_⟩
    · intro k info hk
      apply htail.kept
      by_cases heq : t.liveColumn desc = k
      · -- the column had no parameter yet
        rw [List.getD_eq_getElem?_getD, heq, hk] at hfree
        exact Bool.noConfusion hfree
      · rw [List.getElem?_set_ne heq, hk]
    · intro tle hmem
      rcases List.mem_cons.mp hmem with rfl | hmem
      · exact ⟨pinfo, htakes, htail.kept _ _ hown⟩
      · exact htail.taken tle hmem
    · intro k info hk
      rcases htail.origin k info hk with hset | ⟨tle, hmem, hcol, htle⟩
      · by_cases heq : t.liveColumn desc = k
        · rw [← heq, hown] at hset
          cases hset
          exact .inr ⟨t, List.mem_cons_self, heq, htakes⟩
        · rw [List.getElem?_set_ne heq] at hset
          exact .inl hset
      · exact .inr ⟨tle, List.mem_cons_of_mem _ hmem, hcol, htle⟩

theorem allParams_eq {infos : List ParamInfo} (h : allParams params = some infos) : params = infos.map some := by
  induction params generalizing infos with
  | nil =>
    cases h
    rfl
  | cons p params ih =>
    cases p with
    | none => cases h
    | some pinfo =>
      rw [allParams, Option.map_eq_some_iff] at h
      obtain ⟨infos', hinfos, rfl⟩ := h
      rw [List.map_cons, ih hinfos]

end Params

/-- The target entries of the live columns, in the order of the columns. -/
def Query.liveTargets (parse : Query) (desc : TupleDesc) : List (Option TargetEntry) :=
  (keptFrom Attribute.isLive 0 desc).map fun (pos : Nat) =>
    parse.targets.find? fun tle => tle.resno == (pos : Int) + 1

/-- What an accepted statement looks like: each live column is the target of a source column that unnests its
parameter. -/
structure UnnestAccepted (getElementType : Oid → Oid) (precond : InsertPrecondition) (parse : Query)
    (context : DirectInsertContext) (fromRtindex : Nat) (query : SourceQuery) : Prop where
  source : parse.unnestSource = .ok (fromRtindex, query)
  columns : (parse.liveTargets precond.targetRel.descr).map
    (fun target => target.bind fun tle => tle.paramInfo getElementType fromRtindex query) = context.paramInfos.map some
  targets : ∀ tle ∈ parse.targets, ∃ pinfo ∈ context.paramInfos,
    tle.paramInfo getElementType fromRtindex query = some pinfo

theorem liveTargets_params {fromRtindex : Nat} {query : SourceQuery} {parse : Query} {desc : TupleDesc}
    {infos : List ParamInfo}
    (h : EntersParams getElementType fromRtindex query desc (List.replicate desc.live.length none) parse.targets
      (infos.map some)) :
    (parse.liveTargets desc).map (fun target => target.bind fun tle => tle.paramInfo getElementType fromRtindex query) =
      infos.map some := by
  have hlength : infos.length = desc.live.length := by simpa using h.length
  refine List.ext_getElem? fun k => ?_
  rw [Query.liveTargets, List.map_map, List.getElem?_map, List.getElem?_map]
  cases hpos : (keptFrom Attribute.isLive 0 desc)[k]? with
  | none =>
    have hk : infos.length ≤ k := by
      rw [hlength, TupleDesc.live, ← length_keptFrom Attribute.isLive 0]
      exact List.getElem?_eq_none_iff.mp hpos
    rw [List.getElem?_eq_none hk]
    rfl
  | some pos =>
    obtain ⟨i, attr, rfl, hattr, hlive, hrank⟩ := getElem?_keptFrom hpos
    have hk : k < infos.length := by
      rw [hlength, TupleDesc.live, ← length_keptFrom Attribute.isLive 0]
      exact (List.getElem?_eq_some_iff.mp hpos).1
    have hinfo : (infos.map some)[k]? = some (some infos[k]) := by simp [hk]
    -- the entry that gave column k its parameter is one for position i
    obtain hnone | ⟨tle, hmem, hcol, htakes⟩ := h.origin k infos[k] hinfo
    · simp [List.getElem?_replicate] at hnone
    obtain ⟨attr', hattr', hlive'⟩ := htakes.live
    have hsame : (tle.resno - 1).toNat = i :=
      rank_injective hattr' hattr hlive' hlive (hcol.trans hrank.symm)
    have hfirst := htakes.first
    cases hfind : parse.targets.find? fun tle => tle.resno == (i : Int) + 1 with
    | none =>
      have hne := List.find?_eq_none.mp hfind tle hmem
      simp only [beq_iff_eq] at hne
      omega
    | some tle' =>
      -- and so is the one that is found for it
      have hresno : tle'.resno = (i : Int) + 1 := by simpa using List.find?_some hfind
      obtain ⟨pinfo, htakes', hown⟩ := h.taken tle' (List.mem_of_find?_eq_some hfind)
      have hcol' : tle'.liveColumn desc = k := by
        rw [← hrank, TargetEntry.liveColumn, hresno]
        simp [rank, TupleDesc.live]
      rw [hcol', hinfo] at hown
      simp [hfind, htakes'.param, ← hown, hk]

theorem tryMatchUnnest_spec {c : Catalog} {caches : Caches} {precond : InsertPrecondition} {parse : Query}
    {context : DirectInsertContext} (h : tryMatchUnnest getElementType c caches precond parse = .ok context) :
    ∃ fromRtindex query, UnnestAccepted getElementType precond parse context fromRtindex query := by
  rw [tryMatchUnnest] at h
  cases hsource : parse.unnestSource with
  | error reason => simp [hsource, bind, Except.bind] at h
  | ok source =>
    obtain ⟨fromRtindex, query⟩ := source
    simp only [hsource, bind, Except.bind] at h
    split at h
    · cases h
    rename_i paramsByColumn hfold
    split at h
    · cases h
    rename_i paramInfos hall
    split at h
    · cases h
    cases h
    have henters := entersParams (by simp) hfold
    rw [allParams_eq hall] at henters
    refine ⟨fromRtindex, query, hsource, liveTargets_params getElementType henters, fun tle hmem => ?_⟩
    obtain ⟨pinfo, htakes, hown⟩ := henters.taken tle hmem
    have hpinfo : some pinfo ∈ paramInfos.map some := List.mem_of_getElem? hown
    exact ⟨pinfo, by simpa using hpinfo, htakes.param⟩

end PgDucklake.Insert
