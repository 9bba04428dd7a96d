import PgDucklake.Insert.Lockstep

/-!
# Storage conversions

Two decisions about a column of an inlined data table. VALUES and UNNEST take the type that `DuckDBTypeToInlinedOid` reads
off the name in `ducklake_column`; COPY takes the type of the column itself (`BuildColumnConvInfo`). From there all three
agree: a value goes through its output function if the column is one of text, and is stored as it is otherwise.

`stores_alike_iff` says for which tables no value of another representation gets into a column.
-/

namespace PgDucklake.Insert

/-! ## Types -/

/-- The types of DuckLake. -/
inductive DuckLakeType
  | boolean | int8 | int16 | int32 | int64 | int128 | uint8 | uint16 | uint32 | uint64 | uint128 | float32 | float64
  | decimal (width scale : Nat)
  | time | timetz | date | timestamp | timestampS | timestampMs | timestampNs | timestamptz | interval
  | varchar | blob | json | uuid | list | struct | map | variant | geometry
  deriving DecidableEq, Repr

/-- The name of a type in `ducklake_column.column_type`. -/
def DuckLakeType.name : DuckLakeType → String
  | boolean => "boolean"
  | int8 => "int8"
  | int16 => "int16"
  | int32 => "int32"
  | int64 => "int64"
  | int128 => "int128"
  | uint8 => "uint8"
  | uint16 => "uint16"
  | uint32 => "uint32"
  | uint64 => "uint64"
  | uint128 => "uint128"
  | float32 => "float32"
  | float64 => "float64"
  | decimal width scale => "decimal(" ++ (width.repr ++ ("," ++ (scale.repr ++ ")")))
  | time => "time"
  | timetz => "timetz"
  | date => "date"
  | timestamp => "timestamp"
  | timestampS => "timestamp_s"
  | timestampMs => "timestamp_ms"
  | timestampNs => "timestamp_ns"
  | timestamptz => "timestamptz"
  | interval => "interval"
  | varchar => "varchar"
  | blob => "blob"
  | json => "json"
  | uuid => "uuid"
  | list => "list"
  | struct => "struct"
  | map => "map"
  | variant => "variant"
  | geometry => "geometry"

/-- How DuckLake makes a column of an inlined data table: a text for what PostgreSQL's types do not cover, bytes for
strings, and the type of PostgreSQL otherwise. -/
inductive StorageClass
  | text | bytes | native
  deriving DecidableEq, Repr

def DuckLakeType.storageClass : DuckLakeType → StorageClass
  | uint8 | uint16 | uint32 | uint64 | uint128 | int128 | date | timestamp | timestampS | timestampMs | timestampNs
  | timestamptz | list | struct | map => .text
  | varchar | blob => .bytes
  | _ => .native

/-- The type of the column in the inlined data table, for a column of the table that has the type `userType`. -/
def DuckLakeType.physicalType (t : DuckLakeType) (userType : Oid) : Oid :=
  match t.storageClass with
  | .text => varcharOid
  | .bytes => byteaOid
  | .native => userType

/-! ## COPY -/

/-- `BuildColumnConvInfo`; `inlined` are the columns behind the system columns. -/
def buildColumnConvInfo : TupleDesc → TupleDesc → Option (List Bool)
  | [], _ => some []
  | userAtt :: user, inlined =>
    if userAtt.attisdropped then (buildColumnConvInfo user inlined).map (false :: ·)
    else
      match inlined with
      | [] => none
      | inlAtt :: inlined =>
        (buildColumnConvInfo user inlined).map (needsTextConv userAtt.atttypid inlAtt.atttypid :: ·)

/-- The types of the Datums that COPY stores, one for each live column. -/
def copyStoredTypes : TupleDesc → List Bool → List Oid
  | userAtt :: user, conv :: convs =>
    if userAtt.attisdropped then copyStoredTypes user convs
    else storedType conv userAtt.atttypid :: copyStoredTypes user convs
  | _, _ => []

/-! ## Tables -/

/-- A column of a table. -/
structure TypedColumn where
  columnType : DuckLakeType
  userType : Oid
  valid : oidIsValid userType = true

def TypedColumn.physicalType (col : TypedColumn) : Oid := col.columnType.physicalType col.userType

/-- A table with its metadata and its inlined data table. -/
structure InlinedTable where
  catalog : Catalog
  tableId : UInt64
  desc : TupleDesc
  inlined : TupleDesc
  columns : List TypedColumn
  metadata : (catalog.columnRows tableId).map (·.columnType) = columns.map fun col => some col.columnType.name
  live : desc.live.map (·.atttypid) = columns.map (·.userType)
  physical : (inlined.drop 3).map (·.atttypid) = columns.map (·.physicalType)

/-- All producers store Datums of the columns' own representation, or decline the statement. -/
structure StoresAlike (t : InlinedTable) : Prop where
  values : ∀ oids, getInlinedColumnTypes t.catalog t.tableId (t.columns.map (·.userType)) = some oids →
    List.Forall₂ SameRepresentation (List.zipWith valuesStoredType (t.columns.map (·.userType)) oids)
      ((t.inlined.drop 3).map (·.atttypid))
  unnest : ∀ oids, getInlinedColumnTypes t.catalog t.tableId (t.columns.map (·.userType)) = some oids →
    List.Forall₂ SameRepresentation (List.zipWith unnestStoredType (t.columns.map (·.userType)) oids)
      ((t.inlined.drop 3).map (·.atttypid))
  copy : ∃ conv, buildColumnConvInfo t.desc (t.inlined.drop 3) = some conv ∧
    List.Forall₂ SameRepresentation (copyStoredTypes t.desc conv) ((t.inlined.drop 3).map (·.atttypid))

/-! ## The type that is read off the name -/

/-- The types that `DuckDBTypeToInlinedOid` refuses. -/
def DuckLakeType.isDeclined : DuckLakeType → Bool
  | struct | map | variant | geometry | timestamptz => true
  | _ => false

/-- The types that are stored as text but not known to `DuckDBTypeToInlinedOid` under DuckLake's name. -/
def DuckLakeType.isOverlooked : DuckLakeType → Bool
  | uint8 | uint16 | uint32 | uint64 | uint128 | int128 | list => true
  | _ => false

/-- The type that is chosen for a column. -/
def DuckLakeType.chosenType (t : DuckLakeType) (userType : Oid) : Oid :=
  if t.isDeclined then invalidOid else if t.isOverlooked then userType else t.physicalType userType

theorem bracket_not_mem_toDigits (n : Nat) : '[' ∉ Nat.toDigits 10 n := by
  intro h
  have hdigit := Nat.isDigit_of_mem_toDigits (by decide) (by decide) h
  revert hdigit
  decide

/-- A name that goes on behind `decimal(` is none of the names that are looked for. -/
theorem duckDBTypeToInlinedOid_decimal {name : String} {rest : List Char} (hname : name.toList = "decimal(".toList ++ rest)
    (hrest : '[' ∉ rest) (userType : Oid) : duckDBTypeToInlinedOid name userType = userType := by
  have hcons : "decimal(".toList ++ rest = 'd' :: 'e' :: 'c' :: 'i' :: 'm' :: 'a' :: 'l' :: '(' :: rest := rfl
  have hbracket : ('d' :: 'e' :: 'c' :: 'i' :: 'm' :: 'a' :: 'l' :: '(' :: rest).contains '[' = false := by
    simp [hrest]
  rw [hcons] at hname
  simp only [duckDBTypeToInlinedOid, strncaseEq, strcaseEq, hname, hbracket]
  rfl

theorem duckDBTypeToInlinedOid_name (t : DuckLakeType) (userType : Oid) :
    duckDBTypeToInlinedOid t.name userType = t.chosenType userType := by
  cases t with
  | decimal width scale =>
    refine duckDBTypeToInlinedOid_decimal String.toList_append ?_ userType
    simp [String.toList_append, bracket_not_mem_toDigits]
  | _ => rfl

theorem TypedColumn.chosenType_valid (col : TypedColumn) (h : col.columnType.isDeclined = false) :
    oidIsValid (col.columnType.chosenType col.userType) = true := by
  rw [DuckLakeType.chosenType, if_neg (by simp [h])]
  split
  · exact col.valid
  · rw [DuckLakeType.physicalType]
    split
    · rfl
    · rfl
    · exact col.valid

theorem inlinedOids_eq {rows : List ColumnRow} {columns : List TypedColumn}
    (h : rows.map (·.columnType) = columns.map fun col => some col.columnType.name) :
    inlinedOids rows (columns.map (·.userType)) =
      if columns.any fun col => col.columnType.isDeclined then none
      else some (columns.map fun col => col.columnType.chosenType col.userType) := by
  induction columns generalizing rows with
  | nil =>
    rw [List.map_nil, List.map_eq_nil_iff] at h
    subst h
    rfl
  | cons col columns ih =>
    cases rows with
    | nil => cases h
    | cons row rows =>
      obtain ⟨hhead, hrows⟩ := List.cons_eq_cons.mp h
      have hrow : row.columnType = some col.columnType.name := hhead
      rw [List.map_cons, inlinedOids, hrow]
      simp only [duckDBTypeToInlinedOid_name, ih hrows, List.any_cons, List.map_cons]
      cases hdeclined : col.columnType.isDeclined with
      | true => simp [DuckLakeType.chosenType, hdeclined, oidIsValid, invalidOid]
      | false =>
        simp only [col.chosenType_valid hdeclined, Bool.false_or]
        by_cases hany : (columns.any fun col => col.columnType.isDeclined) = true
        · simp [hany]
        · simp [hany]

theorem InlinedTable.getInlinedColumnTypes (t : InlinedTable) :
    Insert.getInlinedColumnTypes t.catalog t.tableId (t.columns.map (·.userType)) =
      if t.columns.any fun col => col.columnType.isDeclined then none
      else some (t.columns.map fun col => col.columnType.chosenType col.userType) := by
  have hlength : (t.catalog.columnRows t.tableId).length = (t.columns.map (·.userType)).length := by
    have hmetadata := congrArg List.length t.metadata
    simpa using hmetadata
  rw [Insert.getInlinedColumnTypes, if_neg (not_not_intro hlength), inlinedOids_eq t.metadata]

/-! ## Columns -/

theorem sameRepresentation_iff {userType columnType : Oid} (h : isByteString columnType = true) :
    SameRepresentation userType columnType ↔ isByteString userType = true := by
  constructor
  · rintro (rfl | ⟨huser, -⟩)
    · exact h
    · exact huser
  · exact fun huser => .inr ⟨huser, h⟩

theorem stored_physical_iff (t : DuckLakeType) (userType : Oid) :
    SameRepresentation (valuesStoredType userType (t.physicalType userType)) (t.physicalType userType) ↔
      (t.storageClass = .bytes → isByteString userType = true) := by
  rw [DuckLakeType.physicalType]
  cases hclass : t.storageClass with
  | text =>
    refine iff_of_true ?_ (by simp)
    show SameRepresentation (valuesStoredType userType varcharOid) varcharOid
    rw [valuesStoredType, needsTextConv]
    by_cases hsame : userType = varcharOid
    · rw [if_pos hsame]
      exact .inl hsame
    · rw [if_neg hsame]
      exact .inr ⟨rfl, rfl⟩
  | bytes =>
    show SameRepresentation (valuesStoredType userType byteaOid) byteaOid ↔ _
    have hconv : needsTextConv userType byteaOid = false := by
      rw [needsTextConv]
      split <;> rfl
    have hstored : valuesStoredType userType byteaOid = userType := by rw [valuesStoredType, hconv]; rfl
    rw [hstored, sameRepresentation_iff rfl]
    exact ⟨fun h _ => h, fun h => h rfl⟩
  | native =>
    refine iff_of_true (.inl ?_) (by simp)
    simp [valuesStoredType, needsTextConv, storedType]

theorem stored_chosen_iff (t : DuckLakeType) (userType : Oid) (h : t.isDeclined = false) :
    SameRepresentation (valuesStoredType userType (t.chosenType userType)) (t.physicalType userType) ↔
      (t.storageClass = .bytes ∨ t.isOverlooked = true → isByteString userType = true) := by
  rw [DuckLakeType.chosenType, if_neg (by simp [h])]
  cases hoverlooked : t.isOverlooked with
  | true =>
    have hphysical : t.physicalType userType = varcharOid := by
      cases t <;> first | rfl | cases hoverlooked
    have hstored : valuesStoredType userType userType = userType := by
      simp [valuesStoredType, needsTextConv, storedType]
    rw [if_pos rfl, hphysical, hstored, sameRepresentation_iff rfl]
    exact ⟨fun h _ => h, fun h => h (.inr rfl)⟩
  | false =>
    rw [if_neg (by decide), stored_physical_iff]
    simp

theorem unnestStoredType_eq (elementType inlinedType : Oid) :
    unnestStoredType elementType inlinedType = valuesStoredType elementType inlinedType := by
  rw [unnestStoredType, needsTextConv_eq, valuesStoredType]

theorem copyStoredTypes_eq {user inlined : TupleDesc} (h : inlined.length = user.live.length) :
    ∃ conv, buildColumnConvInfo user inlined = some conv ∧
      copyStoredTypes user conv =
        List.zipWith valuesStoredType (user.live.map (·.atttypid)) (inlined.map (·.atttypid)) := by
  induction user generalizing inlined with
  | nil => exact ⟨[], rfl, rfl⟩
  | cons userAtt user ih =>
    cases hdropped : userAtt.attisdropped with
    | true =>
      have hlive : TupleDesc.live (userAtt :: user) = TupleDesc.live user := by
        simp [TupleDesc.live, Attribute.isLive, hdropped]
      rw [hlive] at h ⊢
      obtain ⟨conv, hconv, hstored⟩ := ih h
      exact ⟨false :: conv, by simp [buildColumnConvInfo, hdropped, hconv], by simp [copyStoredTypes, hdropped, hstored]⟩
    | false =>
      have hlive : TupleDesc.live (userAtt :: user) = userAtt :: TupleDesc.live user := by
        simp [TupleDesc.live, Attribute.isLive, hdropped]
      rw [hlive] at h ⊢
      cases inlined with
      | nil => cases h
      | cons inlAtt inlined =>
        obtain ⟨conv, hconv, hstored⟩ := ih (Nat.succ.inj h)
        refine ⟨needsTextConv userAtt.atttypid inlAtt.atttypid :: conv, ?_, ?_⟩
        · simp [buildColumnConvInfo, hdropped, hconv]
        · simp [copyStoredTypes, hdropped, hstored, valuesStoredType]

/-! ## Tables -/

section Tables

variable (t : InlinedTable)

theorem forall₂_columns (stored : TypedColumn → Oid) :
    List.Forall₂ SameRepresentation (t.columns.map stored) ((t.inlined.drop 3).map (·.atttypid)) ↔
      ∀ col ∈ t.columns, SameRepresentation (stored col) col.physicalType := by
  rw [t.physical, List.forall₂_map_left_iff, List.forall₂_map_right_iff, List.forall₂_same]

theorem InlinedTable.copy_iff :
    (∃ conv, buildColumnConvInfo t.desc (t.inlined.drop 3) = some conv ∧
      List.Forall₂ SameRepresentation (copyStoredTypes t.desc conv) ((t.inlined.drop 3).map (·.atttypid))) ↔
      ∀ col ∈ t.columns, col.columnType.storageClass = .bytes → isByteString col.userType = true := by
  have hlength : (t.inlined.drop 3).length = t.desc.live.length := by
    have hphysical := congrArg List.length t.physical
    have hlive := congrArg List.length t.live
    rw [List.length_map, List.length_map] at hphysical hlive
    rw [hphysical, hlive]
  obtain ⟨conv, hconv, hstored⟩ := copyStoredTypes_eq hlength
  have htypes : copyStoredTypes t.desc conv = t.columns.map fun col => valuesStoredType col.userType col.physicalType := by
    rw [hstored, t.live, t.physical, List.zipWith_map, List.zipWith_self]
  simp only [hconv, Option.some.injEq, exists_eq_left', htypes, forall₂_columns]
  exact forall₂_congr fun col _ => stored_physical_iff col.columnType col.userType

theorem InlinedTable.values_iff :
    (∀ oids, Insert.getInlinedColumnTypes t.catalog t.tableId (t.columns.map (·.userType)) = some oids →
      List.Forall₂ SameRepresentation (List.zipWith valuesStoredType (t.columns.map (·.userType)) oids)
        ((t.inlined.drop 3).map (·.atttypid))) ↔
      (∃ col ∈ t.columns, col.columnType.isDeclined = true) ∨
        ∀ col ∈ t.columns, col.columnType.storageClass = .bytes ∨ col.columnType.isOverlooked = true →
          isByteString col.userType = true := by
  rw [t.getInlinedColumnTypes]
  by_cases hany : (t.columns.any fun col => col.columnType.isDeclined) = true
  · rw [if_pos hany]
    exact iff_of_true nofun (.inl (List.any_eq_true.mp hany))
  · have hnone : ∀ col ∈ t.columns, col.columnType.isDeclined = false := by simpa using hany
    have hdeclined : ¬ ∃ col ∈ t.columns, col.columnType.isDeclined = true := fun h => hany (List.any_eq_true.mpr h)
    simp only [if_neg hany, Option.some.injEq, forall_eq', List.zipWith_map, List.zipWith_self, forall₂_columns,
      or_iff_right hdeclined]
    exact forall₂_congr fun col hcol => stored_chosen_iff col.columnType col.userType (hnone col hcol)

end Tables

/-- **Storage conversions.** No producer stores a Datum of another representation in a column exactly if the columns of
DuckLake's strings have a type of PostgreSQL with a string's representation, and so have the unsigned and huge integers
and the lists, unless a column of the table makes VALUES and UNNEST decline. -/
theorem stores_alike_iff (t : InlinedTable) :
    StoresAlike t ↔
      (∀ col ∈ t.columns, col.columnType.storageClass = .bytes → isByteString col.userType = true) ∧
      ((∃ col ∈ t.columns, col.columnType.isDeclined = true) ∨
        ∀ col ∈ t.columns, col.columnType.isOverlooked = true → isByteString col.userType = true) := by
  have hunnest : unnestStoredType = valuesStoredType := by
    funext elementType inlinedType
    exact unnestStoredType_eq elementType inlinedType
  constructor
  · intro h
    refine ⟨t.copy_iff.mp h.copy, ?_⟩
    rcases t.values_iff.mp h.values with hdeclined | hfits
    · exact .inl hdeclined
    · exact .inr fun col hcol hoverlooked => hfits col hcol (.inr hoverlooked)
  · rintro ⟨hbytes, hrest⟩
    have hvalues := t.values_iff.mpr (hrest.imp_right fun hfits col hcol hcase =>
      hcase.elim (hbytes col hcol) (hfits col hcol))
    exact ⟨hvalues, by rw [hunnest]; exact hvalues, t.copy_iff.mpr hbytes⟩

/-- `CREATE TABLE lists (xs int4[])`. -/
def listTable : InlinedTable where
  catalog := { numbersCatalog with columns := [⟨5, 1, some "list", none, none⟩, ⟨5, 2, some "int32", some 1, none⟩] }
  tableId := 5
  desc := [{ attname := "xs", atttypid := 1007 }]
  inlined := [{ attname := "row_id", atttypid := 20 }, { attname := "begin_snapshot", atttypid := 20 },
    { attname := "end_snapshot", atttypid := 20 }, { attname := "xs", atttypid := varcharOid }]
  columns := [⟨.list, 1007, rfl⟩]
  metadata := rfl
  live := rfl
  physical := rfl

/-- VALUES and UNNEST store the array itself in the column of text, COPY its text. -/
theorem list_stored_as_array :
    Insert.getInlinedColumnTypes listTable.catalog listTable.tableId [1007] = some [1007] ∧
    valuesStoredType 1007 1007 = 1007 ∧ unnestStoredType 1007 1007 = 1007 ∧ ¬ SameRepresentation 1007 varcharOid ∧
    buildColumnConvInfo listTable.desc (listTable.inlined.drop 3) = some [true] ∧
    copyStoredTypes listTable.desc [true] = [textOid] :=
  ⟨rfl, rfl, rfl, by decide, rfl, rfl⟩

end PgDucklake.Insert
