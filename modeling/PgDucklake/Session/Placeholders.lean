import PgDucklake.Lib.Replacing

/-!
# Placeholders of metadata queries

DuckLake's metadata queries name the catalog and its paths by placeholders, which the metadata manager replaces in the
whole text. A query is given by its segments, of which some are literals and quoted identifiers with what users wrote.
The text that is sent is the query with the placeholders of its code replaced if no such segment holds a placeholder
itself, and otherwise it is not (`substitution_exact_iff`).
-/

namespace PgDucklake.Placeholders

open Lib

abbrev Text := List Char

/-- The quotes of literals and of identifiers. -/
def isQuote (c : Char) : Bool := c == '\'' || c == '"'

/-! ## The code -/

/-- `PGDUCKLAKE_PG_SCHEMA`. -/
def pgSchema : Text := "ducklake".toList
/-- `PGDUCKLAKE_DUCKDB_CATALOG`. -/
def duckdbCatalog : Text := "pgducklake".toList

def metadataCatalog : Text := "\x7bMETADATA_CATALOG\x7d".toList
def metadataCatalogNameIdentifier : Text := "\x7bMETADATA_CATALOG_NAME_IDENTIFIER\x7d".toList
def metadataCatalogNameLiteral : Text := "\x7bMETADATA_CATALOG_NAME_LITERAL\x7d".toList
def metadataSchemaNameLiteral : Text := "\x7bMETADATA_SCHEMA_NAME_LITERAL\x7d".toList
def metadataSchemaEscaped : Text := "\x7bMETADATA_SCHEMA_ESCAPED\x7d".toList
def dataPathWord : Text := "\x7bDATA_PATH\x7d".toList
def metadataPathWord : Text := "\x7bMETADATA_PATH\x7d".toList

/-- The text between two quotes, its own quotes doubled. -/
def quotedBy (q : Char) (content : Text) : Text := q :: (doubled q content ++ [q])

/-- `SubstitutePgCatalogPlaceholders`. -/
def substitutePgCatalogPlaceholders (query : Text) : Text :=
  let query := replace metadataCatalog (['"'] ++ pgSchema ++ ['"']) query
  let query := replace metadataCatalogNameIdentifier (['"'] ++ duckdbCatalog ++ ['"']) query
  let query := replace metadataCatalogNameLiteral (['\''] ++ duckdbCatalog ++ ['\'']) query
  let query := replace metadataSchemaNameLiteral (['\''] ++ pgSchema ++ ['\'']) query
  replace metadataSchemaEscaped (['"'] ++ pgSchema ++ ['"']) query

/-- What the substitution reads of the DuckLake catalog. -/
structure Catalog where
  dataPath : Text
  metadataPath : Text

/-- `DuckLakeUtil::SQLLiteralToString`. -/
def sqlLiteralToString (text : Text) : Text := quotedBy '\'' text

/-- `SubstitutePathPlaceholders`. -/
def substitutePathPlaceholders (catalog : Catalog) (query : Text) : Text :=
  if ¬dataPathWord <:+: query ∧ ¬metadataPathWord <:+: query then query
  else
    let query := replace dataPathWord (sqlLiteralToString catalog.dataPath) query
    replace metadataPathWord (sqlLiteralToString catalog.metadataPath) query

/-- The ways in which DuckLake passes a query. -/
inductive Call
  | query
  | execute
  | executeCommit
  deriving DecidableEq, Repr

/-- The text that is sent, the snapshot's arguments being filled in. -/
def Call.sent (catalog : Catalog) : Call → Text → Text
  | .query, text => substitutePgCatalogPlaceholders (substitutePathPlaceholders catalog text)
  | .execute, text => substitutePgCatalogPlaceholders (substitutePathPlaceholders catalog text)
  | .executeCommit, text => substitutePgCatalogPlaceholders text

/-! ## Queries -/

/-- A piece of a query: code without quotes, a literal, or a quoted identifier. -/
inductive Segment
  | code (text : Text)
  | literal (content : Text)
  | identifier (content : Text)
  deriving DecidableEq, Repr

structure MetadataQuery where
  segments : List Segment
  plain : ∀ text, .code text ∈ segments → ∀ c ∈ text, isQuote c = false

def Segment.cells : Segment → List (Cell Char)
  | .code text => text.map .char
  | .literal content => [.quotation (quotedBy '\'' content)]
  | .identifier content => [.quotation (quotedBy '"' content)]

/-- What a user wrote. -/
def Segment.content? : Segment → Option Text
  | .code _ => none
  | .literal content => some content
  | .identifier content => some content

def MetadataQuery.cells (q : MetadataQuery) : List (Cell Char) := q.segments.flatMap Segment.cells

def MetadataQuery.text (q : MetadataQuery) : Text := flatten q.cells

/-! ## The replacements -/

theorem plain_of_all {text : Text} (h : (text.all fun c => !isQuote c) = true) : ∀ c ∈ text, isQuote c = false := by
  simpa using h

def catalogReplacements : List (Replacement isQuote) :=
  [⟨metadataCatalog, quotedBy '"' pgSchema, by decide, plain_of_all (by decide), quoted_doubled rfl _⟩,
    ⟨metadataCatalogNameIdentifier, quotedBy '"' duckdbCatalog, by decide, plain_of_all (by decide), quoted_doubled rfl _⟩,
    ⟨metadataCatalogNameLiteral, quotedBy '\'' duckdbCatalog, by decide, plain_of_all (by decide), quoted_doubled rfl _⟩,
    ⟨metadataSchemaNameLiteral, quotedBy '\'' pgSchema, by decide, plain_of_all (by decide), quoted_doubled rfl _⟩,
    ⟨metadataSchemaEscaped, quotedBy '"' pgSchema, by decide, plain_of_all (by decide), quoted_doubled rfl _⟩]

def dataPath (catalog : Catalog) : Replacement isQuote :=
  ⟨dataPathWord, sqlLiteralToString catalog.dataPath, by decide, plain_of_all (by decide), quoted_doubled rfl _⟩

def metadataPath (catalog : Catalog) : Replacement isQuote :=
  ⟨metadataPathWord, sqlLiteralToString catalog.metadataPath, by decide, plain_of_all (by decide), quoted_doubled rfl _⟩

def Call.replacements (catalog : Catalog) : Call → List (Replacement isQuote)
  | .query => dataPath catalog :: metadataPath catalog :: catalogReplacements
  | .execute => dataPath catalog :: metadataPath catalog :: catalogReplacements
  | .executeCommit => catalogReplacements

/-- The query with the placeholders of its code replaced, and nothing else changed. -/
def Call.meant (catalog : Catalog) (call : Call) (q : MetadataQuery) : Text :=
  flatten (substituteCells (call.replacements catalog) q.cells)

/-! ## What is sent -/

/-- The placeholder is in the code. -/
def InCode (r : Replacement isQuote) (cells : List (Cell Char)) : Prop := r.word.map .char <:+: cells

/-- No literal and no quoted identifier of the query holds a placeholder, and a path that is inserted holds none that is
replaced after it. -/
def Harmless (catalog : Catalog) (call : Call) (q : MetadataQuery) : Prop :=
  (∀ r ∈ call.replacements catalog, ∀ s ∈ q.segments, ∀ content, s.content? = some content → ¬r.word <:+: content) ∧
    (call ≠ .executeCommit →
      (InCode (dataPath catalog) q.cells →
        ∀ r ∈ metadataPath catalog :: catalogReplacements, ¬r.word <:+: catalog.dataPath) ∧
      (InCode (metadataPath catalog) ((dataPath catalog).inCells q.cells) →
        ∀ r ∈ catalogReplacements, ¬r.word <:+: catalog.metadataPath))

theorem substitutePgCatalogPlaceholders_eq (text : Text) :
    substitutePgCatalogPlaceholders text = substitute catalogReplacements text := rfl

/-- The search before the replacements saves work only. -/
theorem substitutePathPlaceholders_eq (catalog : Catalog) (text : Text) :
    substitutePathPlaceholders catalog text = substitute [dataPath catalog, metadataPath catalog] text := by
  unfold substitutePathPlaceholders
  split_ifs with h
  · have hdata : (dataPath catalog).inText text = text := replace_of_absent h.1
    have hmetadata : (metadataPath catalog).inText text = text := replace_of_absent h.2
    simp only [substitute, List.foldl_cons, List.foldl_nil, hdata, hmetadata]
  · rfl

theorem sent_eq (catalog : Catalog) (call : Call) (text : Text) :
    call.sent catalog text = substitute (call.replacements catalog) text := by
  have hpaths : substitutePgCatalogPlaceholders (substitutePathPlaceholders catalog text) =
      substitute ([dataPath catalog, metadataPath catalog] ++ catalogReplacements) text := by
    rw [substitutePathPlaceholders_eq, substitutePgCatalogPlaceholders_eq, substitute, substitute, substitute,
      List.foldl_append]
  cases call with
  | query => exact hpaths
  | execute => exact hpaths
  | executeCommit => exact substitutePgCatalogPlaceholders_eq text

theorem cells_wellFormed (q : MetadataQuery) : ∀ x ∈ q.cells, x.WellFormed isQuote := by
  intro x hx
  obtain ⟨s, hs, hx⟩ := List.mem_flatMap.mp hx
  cases s with
  | code text =>
    obtain ⟨c, hc, rfl⟩ := List.mem_map.mp hx
    exact q.plain text hs c hc
  | literal content =>
    obtain rfl := List.mem_singleton.mp hx
    exact quoted_doubled rfl content
  | identifier content =>
    obtain rfl := List.mem_singleton.mp hx
    exact quoted_doubled rfl content

theorem word_infix_quotedBy_iff (r : Replacement isQuote) {q : Char} (hq : isQuote q = true) (content : Text) :
    r.word <:+: quotedBy q content ↔ r.word <:+: content :=
  infix_quoted_iff r.word_ne (Replacement.not_mem_word hq) content

theorem Segment.spared_iff (r : Replacement isQuote) (s : Segment) :
    (∀ t, .quotation t ∈ s.cells → ¬r.word <:+: t) ↔ ∀ content, s.content? = some content → ¬r.word <:+: content := by
  have hliteral := word_infix_quotedBy_iff r (show isQuote '\'' = true from rfl)
  have hidentifier := word_infix_quotedBy_iff r (show isQuote '"' = true from rfl)
  cases s with
  | code text => simp [Segment.cells, Segment.content?]
  | literal content => simp [Segment.cells, Segment.content?, hliteral]
  | identifier content => simp [Segment.cells, Segment.content?, hidentifier]

theorem contents_spared_iff (r : Replacement isQuote) (q : MetadataQuery) :
    (∀ t, .quotation t ∈ q.cells → ¬r.word <:+: t) ↔
      ∀ s ∈ q.segments, ∀ content, s.content? = some content → ¬r.word <:+: content := by
  simp only [← Segment.spared_iff, MetadataQuery.cells, List.mem_flatMap]
  exact ⟨fun h s hs t ht => h t ⟨s, hs, ht⟩, fun h t ⟨s, hs, ht⟩ => h s hs t ht⟩

/-- The names of the catalog and of the schema hold no placeholder. -/
theorem catalog_insertsSpared (cells : List (Cell Char)) : InsertsSpared catalogReplacements cells :=
  insertsSpared_of_values _ (by decide +kernel) cells

theorem paths_insertsSpared_iff (catalog : Catalog) (cells : List (Cell Char)) :
    InsertsSpared (dataPath catalog :: metadataPath catalog :: catalogReplacements) cells ↔
      (InCode (dataPath catalog) cells →
        ∀ r ∈ metadataPath catalog :: catalogReplacements, ¬r.word <:+: catalog.dataPath) ∧
      (InCode (metadataPath catalog) ((dataPath catalog).inCells cells) →
        ∀ r ∈ catalogReplacements, ¬r.word <:+: catalog.metadataPath) := by
  have hdata : ∀ r : Replacement isQuote, r.word <:+: (dataPath catalog).value ↔ r.word <:+: catalog.dataPath :=
    fun r => word_infix_quotedBy_iff r rfl _
  have hmetadata : ∀ r : Replacement isQuote,
      r.word <:+: (metadataPath catalog).value ↔ r.word <:+: catalog.metadataPath :=
    fun r => word_infix_quotedBy_iff r rfl _
  simp only [InsertsSpared, hdata, hmetadata, catalog_insertsSpared, and_true, InCode]

/-- The text that is sent differs from the query only in the placeholders of its code, exactly for a harmless query. -/
theorem substitution_exact_iff (catalog : Catalog) (call : Call) (q : MetadataQuery) :
    call.sent catalog q.text = call.meant catalog q ↔ Harmless catalog call q := by
  rw [sent_eq, MetadataQuery.text, Call.meant, substitute_eq_iff _ (cells_wellFormed q), spared_iff, Harmless]
  simp only [contents_spared_iff]
  refine and_congr_right fun _ => ?_
  cases call with
  | query => simp only [Call.replacements, paths_insertsSpared_iff, ne_eq, reduceCtorEq, not_false_eq_true, true_imp_iff]
  | execute =>
    simp only [Call.replacements, paths_insertsSpared_iff, ne_eq, reduceCtorEq, not_false_eq_true, true_imp_iff]
  | executeCommit => exact iff_of_true (catalog_insertsSpared _) fun h => absurd rfl h

/-- A row to be committed whose one value is a placeholder. -/
def placeholderAsValue : MetadataQuery where
  segments := [.code "VALUES (".toList, .literal metadataCatalog, .code ")".toList]
  plain := by
    intro text htext
    simp only [List.mem_cons, Segment.code.injEq, reduceCtorEq, List.not_mem_nil, or_false, false_or] at htext
    rcases htext with rfl | rfl <;> exact plain_of_all (by decide)

/-- The value that is stored is the quoted name of the schema. -/
theorem placeholder_value_replaced :
    Call.executeCommit.sent ⟨[], []⟩ placeholderAsValue.text = "VALUES ('\"ducklake\"')".toList ∧
      Call.executeCommit.meant ⟨[], []⟩ placeholderAsValue = placeholderAsValue.text := by
  constructor <;> decide +kernel

end PgDucklake.Placeholders
