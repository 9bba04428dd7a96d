import Mathlib.Data.List.Basic
import PgDucklake.Lib.Runs

/-!
# DuckDB secrets of a session

The credentials of the `ducklake_secret` foreign data wrapper are kept in the PostgreSQL catalog, per role, and copied
into the session's DuckDB instance as secrets. The copy is made anew only when a server or a user mapping has changed
(`refreshSecrets`); a change of the current user is not such a change. A session whose queries on one DuckDB instance all
run under one user sees no secret of another (`secrets_of_one_user`). A session that switches roles does
(`secret_of_other_role`).
-/

namespace PgDucklake.Secrets

open Lib

/-- A foreign server of the secret wrapper. -/
structure SecretServer where
  oid : Nat
  name : String
  type : String
  options : List (String × String)
  deriving DecidableEq, Repr

/-- A user mapping; PUBLIC is `none`. -/
structure UserMapping where
  userid : Option Nat
  serverid : Nat
  options : List (String × String)
  deriving DecidableEq, Repr

/-- The part of the PostgreSQL catalog that secrets are made of. -/
structure SecretCatalog where
  servers : List SecretServer
  mappings : List UserMapping
  deriving DecidableEq, Repr

/-- The mapping of the user for the server, else that of PUBLIC. -/
def findUserMapping (c : SecretCatalog) (userid serverid : Nat) : Option UserMapping :=
  match c.mappings.find? fun m => m.userid == some userid && m.serverid == serverid with
  | some m => some m
  | none => c.mappings.find? fun m => m.userid == none && m.serverid == serverid

/-- A DuckDB secret, as CREATE SECRET makes it. `source` is the mapping that it was built from. -/
structure Secret where
  name : String
  type : String
  options : List (String × String)
  source : Option UserMapping
  deriving DecidableEq, Repr

def makeCreateSecretQuery (server : SecretServer) (mapping : Option UserMapping) : Secret where
  name := "pgducklake_secret_" ++ server.name
  type := server.type
  options := server.options ++ (mapping.map (·.options)).getD []
  source := mapping

/-- One secret for every server, for the current user. -/
def listCreateSecretQueries (c : SecretCatalog) (userid : Nat) : List Secret :=
  c.servers.map fun server => makeCreateSecretQuery server (findUserMapping c userid server.oid)

/-- The DuckDB instance: its secrets, and those it goes back to if the open DuckDB transaction is rolled back. -/
structure Instance where
  secrets : List Secret
  saved : Option (List Secret)
  deriving DecidableEq, Repr

/-- The session. -/
structure Session where
  catalog : SecretCatalog
  userid : Nat
  duckdb : Option Instance
  secretsValid : Bool
  deriving DecidableEq, Repr

inductive Event
  /-- SET ROLE, or the start or the end of a SECURITY DEFINER function. -/
  | setUser (userid : Nat)
  /-- A server or a mapping is created, altered or dropped, here or in another session. -/
  | alter (catalog : SecretCatalog)
  /-- The callback of such a change; for a change of another session it may come later. -/
  | invalidate
  /-- A query gets the connection, inside a DuckDB transaction or not, and runs. -/
  | query (force : Bool)
  /-- A query gets the connection, but only the first `n` secrets can be created. -/
  | failedQuery (force : Bool) (n : Nat)
  | commit
  | rollback
  /-- The instance is recycled. -/
  | reset
  deriving DecidableEq, Repr

/-- `GetConnection`: a DuckDB transaction is opened if one is asked for and none is open. -/
def Instance.begin (force : Bool) (i : Instance) : Instance :=
  if force && i.saved.isNone then { i with saved := some i.secrets } else i

def Instance.commit (i : Instance) : Instance := { i with saved := none }

/-- Secrets are created and dropped in the transaction. -/
def Instance.rollback (i : Instance) : Instance := ⟨i.saved.getD i.secrets, none⟩

/-- `Get`: the instance is made on first use. -/
def Session.instance (s : Session) : Instance := s.duckdb.getD ⟨[], none⟩

/-- `RefreshConnectionState`, as far as secrets go: if they are stale, all are dropped and created again. -/
def refreshSecrets (s : Session) (i : Instance) : Instance :=
  if s.secretsValid then i else { i with secrets := listCreateSecretQueries s.catalog s.userid }

def Session.next (s : Session) : Event → Option Session
  | .setUser userid => some { s with userid := userid }
  | .alter catalog => some { s with catalog := catalog }
  | .invalidate => some (if s.duckdb.isSome then { s with secretsValid := false } else s)
  | .query force =>
    some { s with duckdb := some (refreshSecrets s (s.instance.begin force)), secretsValid := true }
  | .failedQuery force n =>
    if s.secretsValid then none
    else
      let i := s.instance.begin force
      some { s with duckdb := some { i with secrets := (listCreateSecretQueries s.catalog s.userid).take n } }
  | .commit => some { s with duckdb := s.duckdb.map Instance.commit }
  | .rollback => some { s with duckdb := s.duckdb.map Instance.rollback }
  | .reset => some { s with duckdb := none, secretsValid := false }

/-- A session before its first query. -/
def Session.start (catalog : SecretCatalog) (userid : Nat) : Session := ⟨catalog, userid, none, false⟩

/-- The secret holds nothing of a mapping of a role other than this one. -/
def Secret.visibleTo (role : Option Nat) (secret : Secret) : Prop :=
  ∀ m, secret.source = some m → m.userid = none ∨ m.userid = role

/-- What a query of the current user finds in the instance is the user's own. -/
def Session.Separated (s : Session) : Prop := ∀ secret ∈ s.instance.secrets, secret.visibleTo (some s.userid)

/-- The queries of the trace run under one user for each DuckDB instance. `asked` is the user of the queries that the
present instance has seen. -/
def oneUser : (userid : Nat) → (asked : Option Nat) → List Event → Prop
  | _, _, [] => True
  | _, asked, .setUser userid :: es => oneUser userid asked es
  | userid, asked, .query _ :: es => (asked = none ∨ asked = some userid) ∧ oneUser userid (some userid) es
  | userid, asked, .failedQuery _ _ :: es => (asked = none ∨ asked = some userid) ∧ oneUser userid (some userid) es
  | userid, _, .reset :: es => oneUser userid none es
  | userid, asked, _ :: es => oneUser userid asked es

/-! ## Whose mapping is found -/

theorem findUserMapping_userid {c : SecretCatalog} {userid serverid : Nat} {m : UserMapping}
    (h : findUserMapping c userid serverid = some m) : m.userid = none ∨ m.userid = some userid := by
  simp only [findUserMapping] at h
  split at h
  · rename_i m' hm
    cases h
    have hown := List.find?_some hm
    simp only [Bool.and_eq_true, beq_iff_eq] at hown
    exact .inr hown.1
  · have hpublic := List.find?_some h
    simp only [Bool.and_eq_true, beq_iff_eq] at hpublic
    exact .inl hpublic.1

theorem listCreateSecretQueries_visibleTo {c : SecretCatalog} {userid : Nat} :
    ∀ secret ∈ listCreateSecretQueries c userid, secret.visibleTo (some userid) := by
  intro secret h
  obtain ⟨server, -, rfl⟩ := List.mem_map.mp h
  intro m hm
  exact findUserMapping_userid hm

/-! ## One user -/

/-- The instance holds, and may go back to, only secrets visible to the role that has asked it so far. -/
structure Instance.Asked (role : Option Nat) (i : Instance) : Prop where
  secrets : ∀ secret ∈ i.secrets, secret.visibleTo role
  saved : ∀ l, i.saved = some l → ∀ secret ∈ l, secret.visibleTo role

section Instances

variable {role : Option Nat} {i : Instance}

theorem asked_empty : (⟨[], none⟩ : Instance).Asked role := ⟨by simp, by simp⟩

theorem Instance.Asked.by_user (h : i.Asked role) {userid : Nat} (hone : role = none ∨ role = some userid) :
    i.Asked (some userid) := by
  rcases hone with rfl | rfl
  · have hpublic : ∀ secret : Secret, secret.visibleTo none → secret.visibleTo (some userid) := by
      intro secret hs m hm
      exact .inl ((hs m hm).elim id id)
    exact ⟨fun secret hmem => hpublic secret (h.secrets secret hmem),
      fun l hl secret hmem => hpublic secret (h.saved l hl secret hmem)⟩
  · exact h

theorem Instance.Asked.begin (h : i.Asked role) (force : Bool) : (i.begin force).Asked role := by
  simp only [Instance.begin]
  split
  · refine ⟨h.secrets, ?_⟩
    rintro _ ⟨⟩
    exact h.secrets
  · exact h

theorem Instance.Asked.commit (h : i.Asked role) : i.commit.Asked role := ⟨h.secrets, by simp [Instance.commit]⟩

theorem Instance.Asked.rollback (h : i.Asked role) : i.rollback.Asked role := by
  refine ⟨?_, by simp [Instance.rollback]⟩
  cases hs : i.saved with
  | none => simpa [Instance.rollback, hs] using h.secrets
  | some l => simpa [Instance.rollback, hs] using h.saved l hs

end Instances

/-- The instance of the session, if there is one. -/
def Session.Asked (role : Option Nat) (s : Session) : Prop := ∀ i, s.duckdb = some i → i.Asked role

theorem Session.Asked.instance {role : Option Nat} {s : Session} (h : s.Asked role) : s.instance.Asked role := by
  cases hd : s.duckdb with
  | none => simpa [Session.instance, hd] using asked_empty
  | some i => simpa [Session.instance, hd] using h i hd

theorem Session.Asked.map {role : Option Nat} {s : Session} {f : Instance → Instance} (h : s.Asked role)
    (hf : ∀ i : Instance, i.Asked role → (f i).Asked role) : ∀ i, s.duckdb.map f = some i → i.Asked role := by
  intro i hi
  obtain ⟨j, hj, rfl⟩ := Option.map_eq_some_iff.mp hi
  exact hf j (h j hj)

/-- The role that has asked the instance after one more event. -/
def askedAfter (userid : Nat) (asked : Option Nat) : Event → Option Nat
  | .query _ => some userid
  | .failedQuery _ _ => some userid
  | .reset => none
  | _ => asked

theorem refreshSecrets_asked {s : Session} {i : Instance} (h : i.Asked (some s.userid)) :
    (refreshSecrets s i).Asked (some s.userid) := by
  simp only [refreshSecrets]
  split
  · exact h
  · exact ⟨listCreateSecretQueries_visibleTo, h.saved⟩

theorem Session.Asked.next {asked : Option Nat} {s t : Session} {e : Event} {es : List Event} (h : s.Asked asked)
    (hone : oneUser s.userid asked (e :: es)) (hstep : s.next e = some t) :
    t.Asked (askedAfter s.userid asked e) ∧ oneUser t.userid (askedAfter s.userid asked e) es := by
  cases e with
  | setUser userid =>
    cases hstep
    exact ⟨h, hone⟩
  | alter catalog =>
    cases hstep
    exact ⟨h, hone⟩
  | invalidate =>
    simp only [Session.next, Option.some.injEq] at hstep
    subst hstep
    split
    · exact ⟨h, hone⟩
    · exact ⟨h, hone⟩
  | query force =>
    cases hstep
    refine ⟨?_, hone.2⟩
    rintro _ ⟨⟩
    exact refreshSecrets_asked ((h.instance.by_user hone.1).begin force)
  | failedQuery force n =>
    simp only [Session.next] at hstep
    split at hstep
    · cases hstep
    · cases hstep
      refine ⟨?_, hone.2⟩
      rintro _ ⟨⟩
      have hbegin := (h.instance.by_user hone.1).begin force
      exact ⟨fun secret hmem => listCreateSecretQueries_visibleTo secret (List.mem_of_mem_take hmem), hbegin.saved⟩
  | commit =>
    cases hstep
    exact ⟨h.map fun _ hi => hi.commit, hone⟩
  | rollback =>
    cases hstep
    exact ⟨h.map fun _ hi => hi.rollback, hone⟩
  | reset =>
    cases hstep
    exact ⟨by rintro _ ⟨⟩, hone⟩

theorem Session.Asked.trace : ∀ {es rest : List Event} {s t : Session} {asked : Option Nat},
    s.Asked asked → oneUser s.userid asked (es ++ rest) → trace Session.next s es = some t →
      ∃ asked', t.Asked asked' ∧ oneUser t.userid asked' rest
  | [], rest, s, t, asked, h, hone, htrace => by
    cases htrace
    exact ⟨asked, h, hone⟩
  | e :: es, rest, s, t, asked, h, hone, htrace => by
    obtain ⟨u, hu, htrace⟩ := Option.bind_eq_some_iff.mp htrace
    obtain ⟨h', hone'⟩ := h.next hone hu
    exact Session.Asked.trace h' hone' htrace

/-- A query finds no secret made from a mapping of another role. -/
theorem secrets_of_one_user {catalog : SecretCatalog} {userid : Nat} {es : List Event} {force : Bool} {t : Session}
    (hone : oneUser userid none (es ++ [.query force]))
    (htrace : trace Session.next (.start catalog userid) (es ++ [.query force]) = some t) : t.Separated := by
  rw [trace_append] at htrace
  obtain ⟨s, hs, hquery⟩ := Option.bind_eq_some_iff.mp htrace
  have hstart : (Session.start catalog userid).Asked none := by
    intro i hi
    cases hi
  obtain ⟨asked, hasked, hone'⟩ := hstart.trace hone hs
  have hstep : s.next (.query force) = some t := by simpa [trace] using hquery
  have hafter := (hasked.next hone' hstep).1
  cases hstep
  exact hafter.instance.secrets

/-- A server with a mapping of role 1 only. -/
def oneMapping : SecretCatalog := ⟨[⟨10, "s", "s3", []⟩], [⟨some 1, 10, [("secret", "x")]⟩]⟩

theorem secrets_of_one_user_two_instances :
    oneUser 1 none [.query false, .setUser 2, .reset, .query true] ∧
      ∃ t, trace Session.next (.start oneMapping 1) [.query false, .setUser 2, .reset, .query true] = some t ∧
        t.Separated := by
  have hone : oneUser 1 none ([.query false, .setUser 2, .reset] ++ [.query true]) := by simp [oneUser]
  have htrace : trace Session.next (.start oneMapping 1) ([.query false, .setUser 2, .reset] ++ [.query true]) =
      some _ := rfl
  exact ⟨hone, _, htrace, secrets_of_one_user hone htrace⟩

/-- After SET ROLE, the secret of the role before is still there. -/
theorem secret_of_other_role :
    ∃ t, trace Session.next (.start oneMapping 1) [.query false, .setUser 2, .query false] = some t ∧
      t.userid = 2 ∧ ¬t.Separated := by
  refine ⟨_, rfl, rfl, ?_⟩
  intro h
  have hsecret := h ⟨"pgducklake_secret_s", "s3", [("secret", "x")], some ⟨some 1, 10, [("secret", "x")]⟩⟩ (by decide)
  rcases hsecret _ rfl with hpublic | hown
  · cases hpublic
  · cases hown

end PgDucklake.Secrets
