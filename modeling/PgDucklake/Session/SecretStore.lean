import Mathlib.Data.List.Nodup
import PgDucklake.Session.SecretTexts

/-!
# Refreshing the secrets

`DropSecrets` runs a DROP for every secret whose name matches a pattern, `LoadSecrets` a CREATE for every server of the
catalog. Both are texts that DuckDB reads (`parseDropSecret`, `parseCreateSecret`). `refresh_exact_iff` says when the
instance then holds the secrets of the servers and mappings and no others of the pattern.
-/

namespace PgDucklake.Secrets

open Lib

/-! ## The instance -/

/-- A secret of a DuckDB instance. -/
structure Loaded where
  name : Text
  items : List (Lexeme × Lexeme)
  deriving DecidableEq, Repr

/-- The secrets of an instance. DuckDB keeps their names in lower case, each once. -/
structure Store where
  secrets : List Loaded
  lower : ∀ s ∈ secrets, lowered s.name = s.name
  nodup : (secrets.map Loaded.name).Nodup

namespace Store

variable (store : Store)

def names : List Text := store.secrets.map Loaded.name

/-- DROP SECRET, an error if there is no such secret. -/
def drop (name : Text) : Option Store :=
  if lowered name ∈ store.names then
    some {
      secrets := store.secrets.filter fun s => s.name ≠ lowered name
      lower := fun s hs => store.lower s (List.mem_of_mem_filter hs)
      nodup := store.nodup.sublist (List.filter_sublist.map _) }
  else none

/-- CREATE SECRET, an error if there is such a secret, or if the options are not `valid`. -/
def create (valid : List (Lexeme × Lexeme) → Bool) (c : CreateSecret) : Option Store :=
  if h : valid c.items = true ∧ lowered c.name ∉ store.names then
    some {
      secrets := store.secrets ++ [⟨lowered c.name, c.items⟩]
      lower := by
        intro s hs
        rcases List.mem_append.mp hs with hs | hs
        · exact store.lower s hs
        · obtain rfl := List.mem_singleton.mp hs
          exact lowered_lowered c.name
      nodup := by
        rw [List.map_append, List.nodup_append]
        refine ⟨store.nodup, by simp, ?_⟩
        intro a ha b hb hab
        obtain rfl : b = lowered c.name := by simpa using hb
        exact h.2 (hab ▸ ha) }
  else none

theorem create_some {valid : List (Lexeme × Lexeme) → Bool} {store s : Store} {c : CreateSecret}
    (h : store.create valid c = some s) :
    s.secrets = store.secrets ++ [⟨lowered c.name, c.items⟩] ∧ valid c.items = true ∧ lowered c.name ∉ store.names := by
  unfold create at h
  split at h
  · rename_i hok
    cases h
    exact ⟨rfl, hok⟩
  · cases h

end Store

/-! ## The statements of a refresh -/

/-- `LIKE 'pgducklake_secret_%'`. -/
def selected (name : Text) : Bool :=
  ((parseItems ⟨'%', '_', none⟩ "pgducklake_secret_%".toList).map (matchItems · name)).getD false

def runDrop (store : Store) (text : Text) : Option Store := ((lex text).bind parseDropSecret).bind store.drop

def runCreate (valid : List (Lexeme × Lexeme) → Bool) (store : Store) (text : Text) : Option Store :=
  ((lex text).bind parseCreateSecret).bind (store.create valid)

/-- The names are selected before the first of them is dropped. -/
def dropSecrets (store : Store) : Option Store :=
  ((store.names.filter selected).map dropSecretText).foldlM runDrop store

/-- The options of a server, and those of the user's mapping. -/
def optionsOf (catalog : SecretCatalog) (userid : Nat) (server : SecretServer) : List (Text × Text) :=
  (server.options ++ ((findUserMapping catalog userid server.oid).map (·.options)).getD []).map fun o =>
    (o.1.toList, o.2.toList)

def listCreateSecretQueryTexts (spelling : Spelling) (catalog : SecretCatalog) (userid : Nat) : List Text :=
  catalog.servers.map fun server =>
    makeCreateSecretQueryText spelling server.name.toList server.type.toList (optionsOf catalog userid server)

def loadSecrets (valid : List (Lexeme × Lexeme) → Bool) (store : Store) (queries : List Text) : Option Store :=
  queries.foldlM (runCreate valid) store

def refresh (valid : List (Lexeme × Lexeme) → Bool) (spelling : Spelling) (catalog : SecretCatalog) (userid : Nat)
    (store : Store) : Option Store :=
  (dropSecrets store).bind fun store => loadSecrets valid store (listCreateSecretQueryTexts spelling catalog userid)

/-- The secret that a server stands for. -/
def secretOf (catalog : SecretCatalog) (userid : Nat) (server : SecretServer) : Loaded :=
  ⟨lowered (secretStart ++ server.name.toList),
    secretItems server.type.toList (optionsOf catalog userid server)⟩

/-- The secrets of the pattern are those of the servers and the mappings. -/
def Fresh (catalog : SecretCatalog) (userid : Nat) (store : Store) : Prop :=
  store.secrets.filter (fun s => selected s.name) = catalog.servers.map (secretOf catalog userid)

/-! ## The pattern -/

theorem selected_iff (name : Text) :
    selected name = true ↔ ∃ a b rest, name = "pgducklake".toList ++ a :: ("secret".toList ++ b :: rest) := by
  have hitems : parseItems ⟨'%', '_', none⟩ "pgducklake_secret_%".toList =
      some ("pgducklake".toList.map .literal ++ .anyOne :: ("secret".toList.map .literal ++
        [.anyOne, .anySequence])) := by decide
  have hone : ∀ (items : List (PatternItem Char)) (text : Text),
      matchItems (.anyOne :: items) text = true ↔ ∃ c rest, text = c :: rest ∧ matchItems items rest = true := by
    intro items text
    cases text with
    | nil => simp [matchItems]
    | cons c rest => simp [matchItems]
  unfold selected
  rw [hitems]
  simp only [Option.map_some, Option.getD_some, matchItems_literals, hone, matchItems_trailing, and_true]
  constructor
  · rintro ⟨_, rfl, a, _, rfl, _, rfl, b, rest, rfl⟩
    exact ⟨a, b, rest, rfl⟩
  · rintro ⟨a, b, rest, rfl⟩
    exact ⟨_, rfl, a, _, rfl, _, rfl, b, rest, rfl⟩

theorem lowered_append (s t : Text) : lowered (s ++ t) = lowered s ++ lowered t := List.map_append

theorem selected_secretStart (serverName : Text) : selected (lowered (secretStart ++ serverName)) = true := by
  have hstart : lowered secretStart = "pgducklake".toList ++ '_' :: ("secret".toList ++ ['_']) := by decide
  rw [selected_iff, lowered_append, hstart]
  exact ⟨'_', '_', lowered serverName, by simp⟩

theorem exists_cons_of_selected {name : Text} (h : selected name = true) : ∃ text, name = 'p' :: text := by
  obtain ⟨a, b, rest, rfl⟩ := (selected_iff name).mp h
  have hstart : "pgducklake".toList = 'p' :: "gducklake".toList := by decide
  exact ⟨_, by rw [hstart, List.cons_append]⟩

/-! ## Dropping -/

section Dropping

variable {store store' : Store}

theorem runDrop_plain {name : Text} (hmem : name ∈ store.names) (hplain : plainWord name = true) :
    ∃ s, runDrop store (dropSecretText name) = some s ∧ s.secrets = store.secrets.filter fun l => l.name ≠ name := by
  have hlower : lowered name = name := by
    obtain ⟨l, hl, rfl⟩ := List.mem_map.mp hmem
    exact store.lower l hl
  have hfound : lowered name ∈ store.names := by
    rw [hlower]
    exact hmem
  rw [runDrop, parse_drop_of_plainWord hplain, Option.bind_some, Store.drop, if_pos hfound]
  exact ⟨_, rfl, by simp only [hlower]⟩

theorem foldlM_runDrop_plain {names : List Text} (hmem : ∀ n ∈ names, n ∈ store.names) (hnodup : names.Nodup)
    (hplain : ∀ n ∈ names, plainWord n = true) :
    ∃ s, (names.map dropSecretText).foldlM runDrop store = some s ∧
      s.secrets = store.secrets.filter fun l => l.name ∉ names := by
  induction names generalizing store with
  | nil => exact ⟨store, rfl, by simp⟩
  | cons n names ih =>
    obtain ⟨hn, hnodup⟩ := List.nodup_cons.mp hnodup
    obtain ⟨s, hs, hsecrets⟩ := runDrop_plain (hmem n (List.mem_cons_self ..)) (hplain n (List.mem_cons_self ..))
    have hrest : ∀ m ∈ names, m ∈ s.names := by
      intro m hm
      obtain ⟨l, hl, rfl⟩ := List.mem_map.mp (hmem m (List.mem_cons_of_mem n hm))
      refine List.mem_map_of_mem ?_
      rw [hsecrets]
      exact List.mem_filter.mpr ⟨hl, by simpa using fun h : l.name = n => hn (h ▸ hm)⟩
    obtain ⟨s', hs', hsecrets'⟩ := ih hrest hnodup fun m hm => hplain m (List.mem_cons_of_mem n hm)
    refine ⟨s', ?_, ?_⟩
    · simp only [List.map_cons, List.foldlM_cons, hs]
      exact hs'
    · rw [hsecrets', hsecrets, List.filter_filter]
      apply List.filter_congr
      intro l _
      simp [Bool.and_comm]

theorem mem_of_runDrop {name : Text} {l : Loaded} (hselected : selected name = true)
    (h : runDrop store (dropSecretText name) = some store') (hl : l ∈ store.secrets) (hplain : ¬plainWord l.name = true) :
    l ∈ store'.secrets := by
  obtain ⟨text, rfl⟩ := exists_cons_of_selected hselected
  simp only [runDrop, Option.bind_eq_some_iff] at h
  obtain ⟨dropped, hparse, h⟩ := h
  have hword := plainWord_of_drop (by decide) (by decide) (Option.bind_eq_some_iff.mpr hparse)
  unfold Store.drop at h
  split at h
  · cases h
    refine List.mem_filter.mpr ⟨hl, ?_⟩
    simp only [ne_eq, decide_not, Bool.not_eq_true', decide_eq_false_iff_not]
    intro hname
    exact hplain (hname ▸ plainWord_lowered hword)
  · cases h

theorem mem_of_foldlM_runDrop {names : List Text} {l : Loaded} (hselected : ∀ n ∈ names, selected n = true)
    (h : (names.map dropSecretText).foldlM runDrop store = some store') (hl : l ∈ store.secrets)
    (hplain : ¬plainWord l.name = true) : l ∈ store'.secrets := by
  induction names generalizing store with
  | nil =>
    cases h
    exact hl
  | cons n names ih =>
    simp only [List.map_cons, List.foldlM_cons, Option.bind_eq_bind, Option.bind_eq_some_iff] at h
    obtain ⟨s, hs, h⟩ := h
    have hkept := mem_of_runDrop (hselected n (List.mem_cons_self ..)) hs hl hplain
    exact ih (fun m hm => hselected m (List.mem_cons_of_mem n hm)) h hkept

/-- Nothing of the pattern is left. -/
def Cleared (store : Store) : Prop := store.secrets.filter (fun s => selected s.name) = []

theorem dropSecrets_cleared_iff :
    (∃ s, dropSecrets store = some s ∧ Cleared s) ↔ ∀ n ∈ store.names, selected n = true → plainWord n = true := by
  constructor
  · rintro ⟨s, hs, hcleared⟩ n hn hselected
    by_contra hplain
    obtain ⟨l, hl, rfl⟩ := List.mem_map.mp hn
    have hkept := mem_of_foldlM_runDrop (fun m hm => (List.mem_filter.mp hm).2) hs hl hplain
    have hnil := List.filter_eq_nil_iff.mp hcleared l hkept
    exact hnil hselected
  · intro hplain
    obtain ⟨s, hs, hsecrets⟩ := @foldlM_runDrop_plain store (store.names.filter selected)
      (fun n hn => List.mem_of_mem_filter hn) (store.nodup.filter _)
      fun n hn => hplain n (List.mem_of_mem_filter hn) (List.mem_filter.mp hn).2
    refine ⟨s, hs, List.filter_eq_nil_iff.mpr ?_⟩
    intro l hl hselected
    rw [hsecrets, List.mem_filter] at hl
    have hmem : l.name ∈ store.names.filter selected :=
      List.mem_filter.mpr ⟨List.mem_map_of_mem hl.1, hselected⟩
    simp [hmem] at hl

end Dropping

/-! ## Loading -/

section Loading

variable {valid : List (Lexeme × Lexeme) → Bool} {spelling : Spelling} {catalog : SecretCatalog} {userid : Nat}
  {store store' : Store}

theorem name_of_create {serverName type : Text} {options : List (Text × Text)} {c : CreateSecret}
    (h : (lex (makeCreateSecretQueryText spelling serverName type options)).bind parseCreateSecret = some c) :
    c.name = secretStart ++ serverName := by
  rw [parse_create] at h
  simp only [Option.bind_eq_some_iff, Option.map_eq_some_iff] at h
  obtain ⟨_, -, _, -, rfl⟩ := h
  rfl

/-- The server's texts hold what is meant, and DuckDB takes the options. -/
def Creatable (valid : List (Lexeme × Lexeme) → Bool) (catalog : SecretCatalog) (userid : Nat) (server : SecretServer) :
    Prop :=
  (plainWord server.type.toList = true ∧ ∀ o ∈ optionsOf catalog userid server, plainWord o.1 = true) ∧
    valid (secretItems server.type.toList (optionsOf catalog userid server)) = true

theorem runCreate_adds {server : SecretServer} (h : runCreate valid store (makeCreateSecretQueryText spelling
    server.name.toList server.type.toList (optionsOf catalog userid server)) = some store') :
    ∃ items, store'.secrets = store.secrets ++ [⟨(secretOf catalog userid server).name, items⟩] := by
  simp only [runCreate, Option.bind_eq_some_iff] at h
  obtain ⟨c, hparse, h⟩ := h
  have hname := name_of_create (Option.bind_eq_some_iff.mpr hparse)
  obtain ⟨hsecrets, -⟩ := Store.create_some h
  rw [hname] at hsecrets
  exact ⟨c.items, hsecrets⟩

theorem runCreate_iff {server : SecretServer} :
    (∃ s, runCreate valid store (makeCreateSecretQueryText spelling server.name.toList server.type.toList
        (optionsOf catalog userid server)) = some s ∧ s.secrets = store.secrets ++ [secretOf catalog userid server]) ↔
      Creatable valid catalog userid server ∧ (secretOf catalog userid server).name ∉ store.names := by
  have hexact := create_exact_iff spelling server.name.toList server.type.toList (optionsOf catalog userid server)
  unfold Creatable
  rw [← hexact]
  constructor
  · rintro ⟨s, hrun, hsecrets⟩
    simp only [runCreate, Option.bind_eq_some_iff] at hrun
    obtain ⟨c, hparse, hcreate⟩ := hrun
    have hparse := Option.bind_eq_some_iff.mpr hparse
    have hname := name_of_create hparse
    obtain ⟨hadded, hvalid, hnew⟩ := Store.create_some hcreate
    rw [hadded] at hsecrets
    have hlast := List.append_cancel_left hsecrets
    simp only [secretOf, List.cons.injEq, Loaded.mk.injEq, and_true] at hlast
    have hc : c = ⟨secretStart ++ server.name.toList,
        secretItems server.type.toList (optionsOf catalog userid server)⟩ := by
      rw [← hname, ← hlast.2]
    subst hc
    exact ⟨⟨hparse, hvalid⟩, hnew⟩
  · rintro ⟨⟨hparse, hvalid⟩, hnew⟩
    rw [runCreate, hparse, Option.bind_some, Store.create, dif_pos ⟨hvalid, hnew⟩]
    exact ⟨_, rfl, rfl⟩

variable (spelling catalog userid) in
/-- The texts of some of the servers. -/
def textsOf (servers : List SecretServer) : List Text :=
  servers.map fun server =>
    makeCreateSecretQueryText spelling server.name.toList server.type.toList (optionsOf catalog userid server)

theorem loadSecrets_adds {servers : List SecretServer}
    (h : loadSecrets valid store (textsOf spelling catalog userid servers) = some store') :
    ∃ created, store'.secrets = store.secrets ++ created ∧
      created.map Loaded.name = servers.map fun server => (secretOf catalog userid server).name := by
  induction servers generalizing store with
  | nil =>
    cases h
    exact ⟨[], by simp⟩
  | cons server servers ih =>
    simp only [loadSecrets, textsOf, List.map_cons, List.foldlM_cons, Option.bind_eq_bind,
      Option.bind_eq_some_iff] at h
    obtain ⟨s, hs, h⟩ := h
    obtain ⟨items, hitems⟩ := runCreate_adds hs
    obtain ⟨created, hcreated, hnames⟩ := ih h
    refine ⟨⟨(secretOf catalog userid server).name, items⟩ :: created, ?_, ?_⟩
    · rw [hcreated, hitems, List.append_assoc]
      rfl
    · rw [List.map_cons, hnames, List.map_cons]

theorem loadSecrets_iff {servers : List SecretServer} :
    (∃ s, loadSecrets valid store (textsOf spelling catalog userid servers) = some s ∧
        s.secrets = store.secrets ++ servers.map (secretOf catalog userid)) ↔
      (∀ server ∈ servers, Creatable valid catalog userid server) ∧
        (servers.map fun server => (secretOf catalog userid server).name).Nodup ∧
        ∀ server ∈ servers, (secretOf catalog userid server).name ∉ store.names := by
  induction servers generalizing store with
  | nil =>
    refine iff_of_true ⟨store, rfl, by simp⟩ (by simp)
  | cons server servers ih =>
    have hstep : loadSecrets valid store (textsOf spelling catalog userid (server :: servers)) =
        (runCreate valid store (makeCreateSecretQueryText spelling server.name.toList server.type.toList
          (optionsOf catalog userid server))).bind fun s =>
            loadSecrets valid s (textsOf spelling catalog userid servers) := by
      simp only [loadSecrets, textsOf, List.map_cons, List.foldlM_cons, Option.bind_eq_bind]
    have hnames : ∀ s : Store, s.secrets = store.secrets ++ [secretOf catalog userid server] →
        s.names = store.names ++ [(secretOf catalog userid server).name] := by
      intro s hs
      simp [Store.names, hs]
    rw [hstep]
    simp only [List.map_cons, List.nodup_cons, List.forall_mem_cons]
    constructor
    · rintro ⟨final, hrun, hfinal⟩
      simp only [Option.bind_eq_some_iff] at hrun
      obtain ⟨s, hcreate, hload⟩ := hrun
      obtain ⟨items, hitems⟩ := runCreate_adds hcreate
      obtain ⟨created, hcreated, -⟩ := loadSecrets_adds hload
      have hsplit : items = (secretOf catalog userid server).items ∧
          created = servers.map (secretOf catalog userid) := by
        rw [hcreated, hitems, List.append_assoc] at hfinal
        have hcons := List.append_cancel_left hfinal
        simp only [List.singleton_append, List.cons.injEq] at hcons
        exact ⟨congrArg Loaded.items hcons.1, hcons.2⟩
      obtain ⟨rfl, rfl⟩ := hsplit
      obtain ⟨hcreatable, hnew⟩ := runCreate_iff.mp ⟨s, hcreate, hitems⟩
      obtain ⟨hall, hnodup, hfree⟩ := ih.mp ⟨final, hload, hcreated⟩
      have hnot : ∀ other ∈ servers, (secretOf catalog userid other).name ∉ store.names ∧
          (secretOf catalog userid other).name ≠ (secretOf catalog userid server).name := by
        intro other hother
        have := hfree other hother
        rw [hnames s hitems, List.mem_append, not_or, List.mem_singleton] at this
        exact this
      refine ⟨⟨hcreatable, hall⟩, ⟨?_, hnodup⟩, hnew, fun other hother => (hnot other hother).1⟩
      intro hmem
      obtain ⟨other, hother, hsame⟩ := List.mem_map.mp hmem
      exact (hnot other hother).2 hsame
    · rintro ⟨⟨hcreatable, hall⟩, ⟨hfirst, hnodup⟩, hnew, hfree⟩
      obtain ⟨s, hcreate, hsecrets⟩ := (@runCreate_iff valid spelling catalog userid store server).mpr ⟨hcreatable, hnew⟩
      have hfree' : ∀ other ∈ servers, (secretOf catalog userid other).name ∉ s.names := by
        intro other hother
        rw [hnames s hsecrets, List.mem_append, not_or, List.mem_singleton]
        exact ⟨hfree other hother, fun hsame => hfirst (List.mem_map.mpr ⟨other, hother, hsame⟩)⟩
      obtain ⟨final, hload, hfinal⟩ := (@ih s).mpr ⟨hall, hnodup, hfree'⟩
      refine ⟨final, Option.bind_eq_some_iff.mpr ⟨s, hcreate, hload⟩, ?_⟩
      rw [hfinal, hsecrets, List.append_assoc]
      rfl

end Loading

/-! ## The refresh -/

section Refresh

variable (valid : List (Lexeme × Lexeme) → Bool) (spelling : Spelling) (catalog : SecretCatalog) (userid : Nat)
  (store : Store)

theorem nodup_names_iff (servers : List SecretServer) :
    (servers.map fun server => (secretOf catalog userid server).name).Nodup ↔
      (servers.map fun server => lowered server.name.toList).Nodup := by
  have hmap : (servers.map fun server => (secretOf catalog userid server).name) =
      (servers.map fun server => lowered server.name.toList).map (lowered secretStart ++ ·) := by
    rw [List.map_map]
    exact List.map_congr_left fun server _ => lowered_append _ _
  rw [hmap]
  exact List.nodup_map_iff (List.append_right_injective _)

theorem refresh_exact_iff :
    (∃ final, refresh valid spelling catalog userid store = some final ∧ Fresh catalog userid final) ↔
      (∀ name ∈ store.names, selected name = true → plainWord name = true) ∧
        (∀ server ∈ catalog.servers, Creatable valid catalog userid server) ∧
        (catalog.servers.map fun server => lowered server.name.toList).Nodup := by
  have htexts : listCreateSecretQueryTexts spelling catalog userid = textsOf spelling catalog userid catalog.servers := rfl
  have hselected : ∀ server, selected (secretOf catalog userid server).name = true := fun server =>
    selected_secretStart server.name.toList
  rw [← dropSecrets_cleared_iff, ← nodup_names_iff catalog userid]
  constructor
  · rintro ⟨final, hrefresh, hfresh⟩
    simp only [refresh, htexts, Option.bind_eq_some_iff] at hrefresh
    obtain ⟨s, hdrop, hload⟩ := hrefresh
    obtain ⟨created, hcreated, hnames⟩ := loadSecrets_adds hload
    have hall : created.filter (fun l => selected l.name) = created := by
      rw [List.filter_eq_self]
      intro l hl
      have hname : l.name ∈ created.map Loaded.name := List.mem_map_of_mem hl
      rw [hnames] at hname
      obtain ⟨server, -, hname⟩ := List.mem_map.mp hname
      exact hname ▸ hselected server
    have hlength : created.length = catalog.servers.length := by simpa using congrArg List.length hnames
    -- what is left of the pattern would be too much
    rw [Fresh, hcreated, List.filter_append, hall] at hfresh
    have hcleared : Cleared s := by
      have := congrArg List.length hfresh
      simp only [List.length_append, List.length_map, hlength] at this
      exact List.eq_nil_of_length_eq_zero (by omega)
    rw [Cleared] at hcleared
    rw [hcleared, List.nil_append] at hfresh
    obtain ⟨hcreatable, hnodup, -⟩ := loadSecrets_iff.mp ⟨final, hload, by rw [hcreated, hfresh]⟩
    exact ⟨⟨s, hdrop, hcleared⟩, hcreatable, hnodup⟩
  · rintro ⟨⟨s, hdrop, hcleared⟩, hcreatable, hnodup⟩
    have hfree : ∀ server ∈ catalog.servers, (secretOf catalog userid server).name ∉ s.names := by
      intro server _ hmem
      obtain ⟨l, hl, hname⟩ := List.mem_map.mp hmem
      have hnone := List.filter_eq_nil_iff.mp hcleared l hl
      rw [hname] at hnone
      exact hnone (hselected server)
    obtain ⟨final, hload, hfinal⟩ :=
      (@loadSecrets_iff valid spelling catalog userid s catalog.servers).mpr ⟨hcreatable, hnodup, hfree⟩
    refine ⟨final, Option.bind_eq_some_iff.mpr ⟨s, hdrop, hload⟩, ?_⟩
    have hall : (catalog.servers.map (secretOf catalog userid)).filter (fun l => selected l.name) =
        catalog.servers.map (secretOf catalog userid) := by
      rw [List.filter_eq_self]
      intro l hl
      obtain ⟨server, -, rfl⟩ := List.mem_map.mp hl
      exact hselected server
    rw [Cleared] at hcleared
    rw [Fresh, hfinal, List.filter_append, hcleared, hall, List.nil_append]

/-- The text of a CREATE SECRET is the statement that is meant exactly if the type and the option names are plain words;
the text that drops a secret of the pattern, exactly if its name is one; and a refresh leaves the secrets of the servers
and mappings exactly if all this holds of the secrets and the servers at hand, DuckDB takes the options, and no two
server names differ in case only. -/
theorem secrets_exact_iff (serverName type : Text) (options : List (Text × Text)) :
    ((lex (makeCreateSecretQueryText spelling serverName type options)).bind parseCreateSecret =
        some ⟨secretStart ++ serverName, secretItems type options⟩ ↔
      plainWord type = true ∧ ∀ o ∈ options, plainWord o.1 = true) ∧
    (∀ name, selected name = true →
      ((lex (dropSecretText name)).bind parseDropSecret = some name ↔ plainWord name = true)) ∧
    ((∃ final, refresh valid spelling catalog userid store = some final ∧ Fresh catalog userid final) ↔
      (∀ name ∈ store.names, selected name = true → plainWord name = true) ∧
        (∀ server ∈ catalog.servers, Creatable valid catalog userid server) ∧
        (catalog.servers.map fun server => lowered server.name.toList).Nodup) := by
  refine ⟨create_exact_iff spelling serverName type options, ?_, refresh_exact_iff valid spelling catalog userid store⟩
  intro name hselected
  obtain ⟨text, rfl⟩ := exists_cons_of_selected hselected
  exact drop_exact_iff (by decide) (by decide)

end Refresh

/-! ## A name with a semicolon -/

/-- The instance with the secret of a server that is named `a; drop table t`. -/
def semicolonStore : Store where
  secrets := [⟨"pgducklake_secret_a; drop table t".toList, secretItems "s3".toList []⟩]
  lower := by decide
  nodup := by decide

/-- The secret is created under its name. The text that should drop it drops another secret and a table. -/
theorem semicolon_in_name :
    (lex (makeCreateSecretQueryText .delimited "a; drop table t".toList "s3".toList [])).bind parseCreateSecret =
        some ⟨"pgducklake_secret_a; drop table t".toList, secretItems "s3".toList []⟩ ∧
      selected "pgducklake_secret_a; drop table t".toList = true ∧
      lex (dropSecretText "pgducklake_secret_a; drop table t".toList) =
        some [.word "DROP".toList, .word "SECRET".toList, .word "pgducklake_secret_a".toList, .symbol ';',
          .word "drop".toList, .word "table".toList, .word "t".toList, .symbol ';'] ∧
      (dropSecrets semicolonStore).isNone = true := by
  refine ⟨by decide +kernel, by decide +kernel, by decide +kernel, by decide +kernel⟩

end PgDucklake.Secrets
