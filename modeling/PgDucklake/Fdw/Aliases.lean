import PgDucklake.Fdw.Servers

/-!
# Attached databases of a session

Before a query, `RegisterForeignTablesInQuery` attaches the databases of the foreign tables that it finds, with ATTACH IF
NOT EXISTS: what is attached under an alias stays for the life of the DuckDB instance. Foreign tables are then read by
the alias alone. The alias does not tell the server's kind, its metadata schema, the user and, for a frozen file or a
connection string, the options at the time of the query. `own_database_iff` says when every read goes to the database of
its own server; `schemas_share_alias` shows two servers that share an alias.
-/

namespace PgDucklake.Fdw

/-- A foreign table of the server is read, with the options and in the role of that moment. It is `registered` if the walk
over the query finds it (it does not enter sublinks). -/
structure Use where
  server : ForeignServer
  role : Role
  registered : Bool
  deriving DecidableEq, Repr

namespace Use

variable (u : Use)

def dbAlias : Text := u.server.getDatabaseAlias u.role

def target : Target := u.server.target u.role

end Use

/-! ## The session -/

/-- The databases of an instance by their names, which DuckDB compares without regard to case. -/
abbrev Attached := List (Text × Target)

def Attached.lookup (attached : Attached) (dbAlias : Text) : Option Target :=
  (attached.find? fun a => a.1 == dbAlias.map Char.toLower).map Prod.snd

def Attached.attachIfNotExists (attached : Attached) (dbAlias : Text) (target : Target) : Attached :=
  if (attached.lookup dbAlias).isSome then attached else attached ++ [(dbAlias.map Char.toLower, target)]

/-- The databases after the hook has seen the query. -/
def Attached.register (attached : Attached) (u : Use) : Attached :=
  if u.registered then attached.attachIfNotExists u.dbAlias u.target else attached

/-- What each use reads (`none` is an error) and what it should read. -/
def reads (attached : Attached) : List Use → List (Option Target × Target)
  | [] => []
  | u :: uses => ((attached.register u).lookup u.dbAlias, u.target) :: reads (attached.register u) uses

/-- Nothing is read from the database of another server. -/
def OwnDatabase (r : Option Target × Target) : Prop := r.1 = none ∨ r.1 = some r.2

/-! ## The condition -/

/-- What a server is for: a frozen file, a connection string, or a database of the current user. -/
inductive Place
  | frozen (url : Text)
  | connection (connstr : Text)
  | database (dbname : Text)
  deriving DecidableEq, Repr

namespace Use

variable (u : Use)

def place : Place :=
  match getOptionValue u.server.options "frozen_url" with
  | some url => .frozen url
  | none =>
    match getOptionValue u.server.options "connection_string" with
    | some connstr => .connection connstr
    | none => .database ((getOptionValue u.server.options "dbname").getD u.role.database)

def schema : Text := (getOptionValue u.server.options "metadata_schema").getD "ducklake".toList

end Use

/-- What two uses must not have in common. `f` is the comparison of names: up to case, or none. -/
def Apart (f : Char → Char) (u v : Use) : Prop :=
  match u.place, v.place with
  | .frozen url, .frozen url' => u.server.servername.map f = v.server.servername.map f → url = url'
  | .connection connstr, .connection connstr' =>
    u.server.servername.map f = v.server.servername.map f → connstr = connstr' ∧ u.schema = v.schema
  | .database dbname, .database dbname' =>
    dbname.map f = dbname'.map f →
      connectionString dbname u.role.user = connectionString dbname' v.role.user ∧ u.schema = v.schema
  | .connection connstr, .database dbname =>
    u.server.servername.map f = dbname.map f → connstr = connectionString dbname v.role.user ∧ u.schema = v.schema
  | .database dbname, .connection connstr =>
    dbname.map f = v.server.servername.map f → connectionString dbname u.role.user = connstr ∧ u.schema = v.schema
  | .frozen _, .connection _ => u.server.servername.map f ≠ ("fdw_db_".toList ++ v.server.servername).map f
  | .connection _, .frozen _ => ("fdw_db_".toList ++ u.server.servername).map f ≠ v.server.servername.map f
  | .frozen _, .database dbname => u.server.servername.map f ≠ ("fdw_db_".toList ++ dbname).map f
  | .database dbname, .frozen _ => ("fdw_db_".toList ++ dbname).map f ≠ v.server.servername.map f

/-! ## Aliases and targets by the kind of the server -/

section Places

variable {u v : Use} {f : Char → Char}

/-- The name that a place of a server gets. -/
def Place.dbAlias (servername : Text) : Place → Text
  | .frozen _ => servername
  | .connection _ => "fdw_db_".toList ++ servername
  | .database dbname => "fdw_db_".toList ++ dbname

def Place.target (user schema : Text) : Place → Target
  | .frozen url => ⟨"ducklake:".toList ++ url, none⟩
  | .connection connstr => ⟨"postgres:".toList ++ connstr, some schema⟩
  | .database dbname => ⟨"postgres:".toList ++ connectionString dbname user, some schema⟩

theorem dbAlias_eq (u : Use) : u.dbAlias = u.place.dbAlias u.server.servername := by
  unfold Use.dbAlias ForeignServer.getDatabaseAlias ForeignServer.isFrozenServer Use.place
  cases hfrozen : getOptionValue u.server.options "frozen_url" with
  | some url => rfl
  | none => cases getOptionValue u.server.options "connection_string" <;> rfl

theorem target_eq (u : Use) : u.target = u.place.target u.role.user u.schema := by
  unfold Use.target ForeignServer.target Use.place
  cases getOptionValue u.server.options "frozen_url" with
  | some url => rfl
  | none => cases getOptionValue u.server.options "connection_string" <;> rfl

theorem apart_iff : (u.dbAlias.map f = v.dbAlias.map f → u.target = v.target) ↔ Apart f u v := by
  simp only [dbAlias_eq, target_eq]
  unfold Apart Place.dbAlias Place.target
  cases u.place <;> cases v.place <;>
    simp only [List.map_append, List.append_cancel_left_eq, Target.mk.injEq, Option.some.injEq, and_true, reduceCtorEq,
      and_false, imp_false, ne_eq]

end Places

/-! ## The run -/

section Run

variable {attached : Attached} {u v : Use}

theorem lookup_register (dbAlias : Text) :
    (attached.register u).lookup dbAlias =
      if attached.lookup u.dbAlias = none ∧ u.registered = true ∧ u.dbAlias.map Char.toLower = dbAlias.map Char.toLower then
        some u.target
      else attached.lookup dbAlias := by
  cases hreg : u.registered with
  | false => simp [Attached.register, hreg]
  | true =>
    cases hfound : attached.lookup u.dbAlias with
    | some target => simp [Attached.register, Attached.attachIfNotExists, hreg, hfound]
    | none =>
      have hnone : attached.find? (fun a => a.1 == u.dbAlias.map Char.toLower) = none := by
        simpa [Attached.lookup] using hfound
      by_cases hsame : u.dbAlias.map Char.toLower = dbAlias.map Char.toLower
      · simp [Attached.register, Attached.attachIfNotExists, hreg, Attached.lookup, List.find?_append, hsame,
          hsame ▸ hnone]
      · simp [Attached.register, Attached.attachIfNotExists, hreg, Attached.lookup, List.find?_append, hsame, hnone]

/-- The alias is not taken by another database of the instance. -/
def Free (attached : Attached) (u : Use) : Prop :=
  attached.lookup u.dbAlias = none ∨ attached.lookup u.dbAlias = some u.target

theorem ownDatabase_iff_free : OwnDatabase ((attached.register u).lookup u.dbAlias, u.target) ↔ Free attached u := by
  rw [OwnDatabase, lookup_register, Free]
  cases attached.lookup u.dbAlias with
  | some target => simp
  | none => cases u.registered <;> simp

theorem free_register (hfree : Free attached u) :
    Free (attached.register u) v ↔ Free attached v ∧ (u.registered = true → Apart Char.toLower u v) := by
  rw [← apart_iff, Free, lookup_register]
  by_cases hsame : u.dbAlias.map Char.toLower = v.dbAlias.map Char.toLower
  · have hlookup : attached.lookup v.dbAlias = attached.lookup u.dbAlias := by simp [Attached.lookup, hsame]
    rw [Free] at hfree
    rw [Free, hlookup]
    cases hreg : u.registered with
    | false => simp
    | true =>
      rcases hfree with hnone | hown
      · simp [hnone, hsame]
      · simp [hown, hsame]
  · simp [hsame, Free]

theorem reads_own_iff (uses : List Use) (attached : Attached) :
    (∀ r ∈ reads attached uses, OwnDatabase r) ↔
      (∀ u ∈ uses, Free attached u) ∧ uses.Pairwise fun u v => u.registered = true → Apart Char.toLower u v := by
  induction uses generalizing attached with
  | nil => simp [reads]
  | cons u uses ih =>
    simp only [reads, List.forall_mem_cons, List.pairwise_cons]
    rw [ih, ownDatabase_iff_free]
    constructor
    · rintro ⟨hfree, hrest, hpair⟩
      have hboth := fun v hv => (free_register hfree).mp (hrest v hv)
      exact ⟨⟨hfree, fun v hv => (hboth v hv).1⟩, fun v hv => (hboth v hv).2, hpair⟩
    · rintro ⟨⟨hfree, hrest⟩, hapart, hpair⟩
      exact ⟨hfree, fun v hv => (free_register hfree).mpr ⟨hrest v hv, hapart v hv⟩, hpair⟩

end Run

/-- Two servers with the same alias attach the same database, exactly if they are apart. And over the life of a DuckDB
instance, with any servers, options and roles from query to query, every read goes to the database of its own server
exactly if no alias is taken by another database of the instance and no registered use is in the way of a later one. -/
theorem own_database_iff (attached : Attached) (uses : List Use) (u v : Use) :
    ((u.dbAlias = v.dbAlias → u.target = v.target) ↔ Apart id u v) ∧
      ((∀ r ∈ reads attached uses, OwnDatabase r) ↔
        (∀ w ∈ uses, Free attached w) ∧
          uses.Pairwise fun earlier later => earlier.registered = true → Apart Char.toLower earlier later) := by
  refine ⟨?_, reads_own_iff uses attached⟩
  rw [← apart_iff, List.map_id, List.map_id]

/-! ## Two schemas of one database -/

/-- A server for a schema of the database `d`. -/
def inSchema (name schema : String) : ForeignServer :=
  ⟨name.toList, [("dbname".toList, "d".toList), ("metadata_schema".toList, schema.toList)]⟩

def useOf (server : ForeignServer) : Use := ⟨server, ⟨"postgres".toList, "joe".toList⟩, true⟩

/-- The validator accepts both servers. They have one alias, and the foreign tables of the second are read from the schema
of the first. -/
theorem schemas_share_alias :
    ducklakeFdwValidator (inSchema "one" "a").options = .ok () ∧
      ducklakeFdwValidator (inSchema "two" "b").options = .ok () ∧
      (useOf (inSchema "one" "a")).dbAlias = (useOf (inSchema "two" "b")).dbAlias ∧
      reads [] [useOf (inSchema "one" "a"), useOf (inSchema "two" "b")] =
        [(some ⟨"postgres:dbname=d user=joe".toList, some "a".toList⟩,
            ⟨"postgres:dbname=d user=joe".toList, some "a".toList⟩),
          (some ⟨"postgres:dbname=d user=joe".toList, some "a".toList⟩,
            ⟨"postgres:dbname=d user=joe".toList, some "b".toList⟩)] := by
  refine ⟨by decide, by decide, by decide, by decide⟩

end PgDucklake.Fdw
