import Cfscan.Lib.Connection
import Cfscan.Lib.Fresh
import Cfscan.Lib.Page
import Cfscan.Lib.Table
import Cfscan.Store.Postgres
import Cfscan.Targets.Usable

/-!
# The prefix pool — `internal/store/postgres/store.go`

Two tables hold the prefixes: `cloudflare_prefixes` those Cloudflare publishes, `asn_prefixes` those
announced by the origins of `asn_sources`. A sync deactivates the rows of its source and upserts
what it fetched as active, in one transaction. `ListActivePrefixes` reads both tables, each CIDR
once.

`NOW()` and `time.Now()` are passed in, and an `Outage` says where a call loses its connection. The
generated `id` of a row is left out.

Whatever a statement checks before it writes is in its definition: the `CHECK` of a version, the
foreign key of a source, the uniqueness of an ASN, what a `text` or an `integer` column takes, and
that a prefix is one the server reads (`Postgres.cidr`). The error carries the context the Go code
wraps it in.

The order of `cidr` is the server's, with the one property that is used of it, that it tells any two
values apart (`cidr_order`). How rows are arranged that an `ORDER BY` leaves tied is open, and comes
with the query (`ListQueries`).
-/

set_option autoImplicit false

namespace Cfscan.Cloudflare

open Cfscan.Lib Cfscan.Store

/-! ## Tables -/

def sourceOfficial : String := "cloudflare_official"

/-- A row of `cloudflare_prefixes`. -/
structure PrefixRow where
  cidr : Cidr
  ipVersion : Int
  source : String
  active : Bool
  firstSeenAt : Timestamp
  lastSeenAt : Timestamp
deriving DecidableEq, Repr

/-- `model.SourceStatus`. -/
structure SourceStatus where
  source : String
  status : String
  prefixCount : Int
  ipv4Count : Int
  ipv6Count : Int
  lastSyncedAt : Option Timestamp
  lastError : String
deriving DecidableEq, Repr

/-- A row of `source_sync_state`. -/
structure SourceSyncState extends SourceStatus where
  updatedAt : Timestamp
deriving DecidableEq, Repr

def SourceSyncState.key (row : SourceSyncState) : String := row.source

/-- `model.ASNSource`, a row of `asn_sources`. -/
structure ASNSource where
  asn : Int
  name : String
  organization : String
  enabled : Bool
  managed : Bool
  status : String
  prefixCount : Int
  ipv4Count : Int
  ipv6Count : Int
  lastSyncedAt : Option Timestamp
  lastError : String
  createdAt : Timestamp
  updatedAt : Timestamp
deriving DecidableEq, Repr

/-- A row of `asn_prefixes`. -/
structure ASNPrefixRow where
  asn : Int
  cidr : Cidr
  ipVersion : Int
  active : Bool
  firstSeenAt : Timestamp
  lastSeenAt : Timestamp
deriving DecidableEq, Repr

def ASNPrefixRow.key (row : ASNPrefixRow) : Int × Cidr := (row.asn, row.cidr)

structure PoolStore where
  prefixes : Table Cidr PrefixRow PrefixRow.cidr
  syncState : Table String SourceSyncState SourceSyncState.key
  sources : Table Int ASNSource ASNSource.asn
  asnPrefixes : Table (Int × Cidr) ASNPrefixRow ASNPrefixRow.key

structure PoolServer extends Postgres where
  /-- The order of `cidr` values, which tells any two apart. -/
  cidrOrder : SortOrder Cidr
  cidr_order : ∀ a b, cidrOrder.Tied a b → a = b

/-- How a call of the store or of the syncer fails. -/
inductive SyncError where
  | message (text : String)
  | db (context : String) (cause : DbError)
  /-- The connection is lost, or the context of the request is over. -/
  | lost (context : String) (cause : String)
deriving DecidableEq, Repr

abbrev Statements (α : Type) := Conn PoolStore SyncError α

def beginTx (context : String) : Statements Unit := Conn.write (.lost context) .ok

def commitTx (context : String) : Statements Unit := Conn.write (.lost context) .ok

/-- `CHECK (ip_version IN (4, 6))`. -/
def ipVersionAllowed (version : Int) : Bool := decide (version = 4) || decide (version = 6)

/-- The counts a sync records. -/
structure Counts where
  all : Int
  ipv4 : Int
  ipv6 : Int
deriving DecidableEq, Repr

def counts (prefixes : List ModelPrefix) : Counts where
  all := prefixes.length
  ipv4 := prefixes.countP fun item => decide (item.ipVersion = 4)
  ipv6 := prefixes.countP fun item => !decide (item.ipVersion = 4)

def Counts.fit (c : Counts) : Bool := int4 c.all && int4 c.ipv4 && int4 c.ipv6

/-! ## The official list

A replacement switches every official row off and upserts what was fetched, in one
transaction. So a row keeps the time it was first seen through any number of syncs. -/

def PrefixRow.deactivated (row : PrefixRow) : PrefixRow := { row with active := false }

@[simp] theorem cidr_deactivated (row : PrefixRow) : row.deactivated.cidr = row.cidr := rfl

@[simp] theorem active_deactivated (row : PrefixRow) : row.deactivated.active = false := rfl

def deactivatePrefixes (t : Table Cidr PrefixRow PrefixRow.cidr) :
    Table Cidr PrefixRow PrefixRow.cidr :=
  t.updateWhere (fun row => decide (row.source = sourceOfficial)) PrefixRow.deactivated
    cidr_deactivated

/-- The row an upsert leaves. -/
def upsertedPrefix (now : Timestamp) (cidr : Cidr) (ipVersion : Int) : Option PrefixRow → PrefixRow
  | some row => { row with ipVersion, source := sourceOfficial, active := true, lastSeenAt := now }
  | none => ⟨cidr, ipVersion, sourceOfficial, true, now, now⟩

def upsertPrefix (pg : Postgres) (now : Timestamp) (item : ModelPrefix)
    (t : Table Cidr PrefixRow PrefixRow.cidr) :
    Except SyncError (Table Cidr PrefixRow PrefixRow.cidr) :=
  match pg.cidr item.cidr with
  | none => .error (.db ("upsert prefix " ++ item.cidr) .castFailed)
  | some cidr =>
    if ipVersionAllowed item.ipVersion then
      .ok (t.put (upsertedPrefix now cidr item.ipVersion (t.find? cidr)))
    else .error (.db ("upsert prefix " ++ item.cidr) .checkViolation)

def syncedStatus (c : Counts) (clock : Timestamp) : SourceStatus where
  source := sourceOfficial
  status := "ok"
  prefixCount := c.all
  ipv4Count := c.ipv4
  ipv6Count := c.ipv6
  lastSyncedAt := some clock
  lastError := ""

def recordPrefixSync (c : Counts) (now clock : Timestamp)
    (t : Table String SourceSyncState SourceSyncState.key) :
    Except SyncError (Table String SourceSyncState SourceSyncState.key) :=
  if c.fit then .ok (t.put ⟨syncedStatus c clock, now⟩)
  else .error (.db "record prefix sync" .valueRefused)

def replaceCloudflarePrefixes (pg : Postgres) (now clock : Timestamp)
    (prefixes : List ModelPrefix) : Statements SourceStatus := do
  beginTx "begin prefix sync"
  Conn.write (.lost "deactivate prefixes") fun s =>
    .ok { s with prefixes := deactivatePrefixes s.prefixes }
  prefixes.forM fun item =>
    Conn.write (.lost ("upsert prefix " ++ item.cidr)) fun s =>
      (upsertPrefix pg now item s.prefixes).map fun t => { s with prefixes := t }
  Conn.write (.lost "record prefix sync") fun s =>
    (recordPrefixSync (counts prefixes) now clock s.syncState).map fun t => { s with syncState := t }
  commitTx "commit prefix sync"
  pure (syncedStatus (counts prefixes) clock)

/-- The row an error leaves. -/
def failedSync (now : Timestamp) (source lastError : String) :
    Option SourceSyncState → SourceSyncState
  | some row => { row with status := "error", lastError, updatedAt := now }
  | none => ⟨⟨source, "error", 0, 0, 0, none, lastError⟩, now⟩

def recordSourceError (now : Timestamp) (source error : String) : Statements Unit :=
  Conn.write (.lost "record source error") fun s =>
    match truncate error 2000 with
    | none => .error (.db "record source error" .valueRefused)
    | some lastError =>
      if storable source && storable lastError then
        .ok { s with
          syncState := s.syncState.put (failedSync now source lastError (s.syncState.find? source)) }
      else .error (.db "record source error" .valueRefused)

/-! ## The sources -/

/-- `ORDER BY managed DESC, asn`. -/
def sourceOrder : SortOrder ASNSource :=
  ((SortOrder.ofLinear Bool).on ASNSource.managed).desc.thenBy
    ((SortOrder.ofLinear Int).on ASNSource.asn)

def listASNSources (s : PoolStore) (enabledOnly : Bool) : List ASNSource :=
  (Arrangement.insertionSort sourceOrder).rows
    (s.sources.rows.filter fun item => !enabledOnly || item.enabled)

/-- `asn BIGINT PRIMARY KEY CHECK (asn > 0 AND asn <= 4294967295)`, as `CreateASNSource` checks it. -/
def asnAllowed (asn : Int) : Bool := decide (0 < asn) && decide (asn ≤ 4294967295)

structure CreateASNSourceRequest where
  asn : Int
  name : String
  organization : String
  enabled : Option Bool
deriving DecidableEq, Repr

/-- `AS13335`. -/
def asnName (asn : Int) : String := "AS" ++ toString asn

/-- The text, unless it is empty. -/
def orDefault (text default : String) : String := if text = "" then default else text

def newASNSource (now : Timestamp) (input : CreateASNSourceRequest) : ASNSource where
  asn := input.asn
  name := orDefault (trimSpace input.name) (asnName input.asn)
  organization := orDefault (trimSpace input.organization) "Cloudflare, Inc."
  enabled := input.enabled.getD true
  managed := false
  status := "never"
  prefixCount := 0
  ipv4Count := 0
  ipv6Count := 0
  lastSyncedAt := none
  lastError := ""
  createdAt := now
  updatedAt := now

def createASNSource (now : Timestamp) (input : CreateASNSourceRequest) : Statements ASNSource :=
  if asnAllowed input.asn then
    let item := newASNSource now input
    Conn.exec (.lost "create ASN source") fun s =>
      if storable item.name && storable item.organization then
        match s.sources.find? item.asn with
        | some _ => .error (.db "create ASN source" .uniqueViolation)
        | none => .ok (item, { s with sources := s.sources.put item })
      else .error (.db "create ASN source" .valueRefused)
  else throw (.message "ASN must be between 1 and 4294967295")

structure UpdateASNSourceRequest where
  name : Option String
  organization : Option String
  enabled : Option Bool
deriving DecidableEq, Repr

/-- A text to update, trimmed; it may be absent but not empty. -/
def updateText (field : String) : Option String → Except SyncError (Option String)
  | none => .ok none
  | some text =>
    if trimSpace text = "" then .error (.message (field ++ " cannot be empty"))
    else .ok (some (trimSpace text))

def updatedASNSource (now : Timestamp) (name organization : Option String) (enabled : Option Bool)
    (item : ASNSource) : ASNSource :=
  { item with
    name := name.getD item.name
    organization := organization.getD item.organization
    enabled := enabled.getD item.enabled
    updatedAt := now }

def updateASNSource (now : Timestamp) (asn : Int) (input : UpdateASNSourceRequest) :
    Statements ASNSource := do
  let name ← updateText "name" input.name
  let organization ← updateText "organization" input.organization
  Conn.exec (.lost "update ASN source") fun s =>
    if name.all storable && organization.all storable then
      match s.sources.find? asn with
      | none => .error (.message "ASN source not found")
      | some item =>
        let item := updatedASNSource now name organization input.enabled item
        .ok (item, { s with sources := s.sources.put item })
    else .error (.db "update ASN source" .valueRefused)

/-- `DELETE FROM asn_sources WHERE asn = $1 AND NOT managed`: the number of rows, and the tables.
`ON DELETE CASCADE` takes the prefixes of the source along. -/
def deleteUnmanaged (asn : Int) (s : PoolStore) : Nat × PoolStore :=
  match s.sources.find? asn with
  | none => (0, s)
  | some item =>
    if item.managed then (0, s)
    else (1, { s with
      sources := s.sources.erase asn
      asnPrefixes := s.asnPrefixes.keepWhere fun row => !decide (row.asn = asn) })

def deleteASNSource (asn : Int) : Statements Unit := do
  let affected ← Conn.exec (.lost "delete ASN source") fun s => .ok (deleteUnmanaged asn s)
  if affected = 0 then
    let found ← Conn.exec (.lost "") fun s => .ok (s.sources.find? asn, s)
    match found with
    | none => throw (.message "ASN source not found")
    | some item =>
      if item.managed then
        throw (.message "managed Cloudflare ASN cannot be deleted; disable it instead")

/-! ## The prefixes of a source -/

def ASNPrefixRow.deactivated (row : ASNPrefixRow) : ASNPrefixRow := { row with active := false }

@[simp] theorem key_deactivated (row : ASNPrefixRow) : row.deactivated.key = row.key := rfl

def deactivateASNPrefixes (asn : Int) (t : Table (Int × Cidr) ASNPrefixRow ASNPrefixRow.key) :
    Table (Int × Cidr) ASNPrefixRow ASNPrefixRow.key :=
  t.updateWhere (fun row => decide (row.asn = asn)) ASNPrefixRow.deactivated key_deactivated

/-- The row an upsert leaves. -/
def upsertedASNPrefix (now : Timestamp) (asn : Int) (cidr : Cidr) (ipVersion : Int) :
    Option ASNPrefixRow → ASNPrefixRow
  | some row => { row with ipVersion, active := true, lastSeenAt := now }
  | none => ⟨asn, cidr, ipVersion, true, now, now⟩

def upsertContext (asn : Int) : String := "upsert AS" ++ toString asn ++ " prefix"

/-- The foreign key is checked for a row that is inserted. -/
def upsertASNPrefix (pg : Postgres) (now : Timestamp) (asn : Int) (item : ModelPrefix)
    (s : PoolStore) : Except SyncError PoolStore :=
  match pg.cidr item.cidr with
  | none => .error (.db (upsertContext asn) .castFailed)
  | some cidr =>
    if ipVersionAllowed item.ipVersion then
      if s.asnPrefixes.find? (asn, cidr) = none ∧ s.sources.find? asn = none then
        .error (.db (upsertContext asn) .foreignKeyViolation)
      else
        .ok { s with
          asnPrefixes := s.asnPrefixes.put
            (upsertedASNPrefix now asn cidr item.ipVersion (s.asnPrefixes.find? (asn, cidr))) }
    else .error (.db (upsertContext asn) .checkViolation)

def syncedASNSource (c : Counts) (now clock : Timestamp) (item : ASNSource) : ASNSource :=
  { item with
    status := "ok"
    prefixCount := c.all
    ipv4Count := c.ipv4
    ipv6Count := c.ipv6
    lastSyncedAt := some clock
    lastError := ""
    updatedAt := now }

def recordASNSync (c : Counts) (now clock : Timestamp) (asn : Int) (s : PoolStore) :
    Except SyncError (ASNSource × PoolStore) :=
  match s.sources.find? asn with
  | none => .error (.message ("ASN source AS" ++ toString asn ++ " not found"))
  | some item =>
    if c.fit then
      let item := syncedASNSource c now clock item
      .ok (item, { s with sources := s.sources.put item })
    else .error (.db ("record AS" ++ toString asn ++ " sync") .valueRefused)

def replaceASNPrefixes (pg : Postgres) (now clock : Timestamp) (asn : Int)
    (prefixes : List ModelPrefix) : Statements ASNSource := do
  beginTx ("begin AS" ++ toString asn ++ " prefix sync")
  Conn.write (.lost ("deactivate AS" ++ toString asn ++ " prefixes")) fun s =>
    .ok { s with asnPrefixes := deactivateASNPrefixes asn s.asnPrefixes }
  prefixes.forM fun item =>
    Conn.write (.lost (upsertContext asn)) (upsertASNPrefix pg now asn item)
  Conn.write (.lost ("finish AS" ++ toString asn ++ " prefix batch")) .ok
  let item ← Conn.exec (.lost ("record AS" ++ toString asn ++ " sync"))
    (recordASNSync (counts prefixes) now clock asn)
  commitTx ("commit AS" ++ toString asn ++ " prefix sync")
  pure item

def failedASNSource (now : Timestamp) (lastError : String) (item : ASNSource) : ASNSource :=
  { item with status := "error", lastError, updatedAt := now }

def recordASNError (now : Timestamp) (asn : Int) (error : String) : Statements Unit :=
  Conn.write (.lost "record ASN error") fun s =>
    match truncate error 2000 with
    | none => .error (.db "record ASN error" .valueRefused)
    | some lastError =>
      if storable lastError then
        match s.sources.find? asn with
        | none => .ok s
        | some item => .ok { s with sources := s.sources.put (failedASNSource now lastError item) }
      else .error (.db "record ASN error" .valueRefused)

/-! ## The pool

The union of the two tables, each network once, as the two `ORDER BY` of the query leave it.
What they leave tied is for `ListQueries` to arrange. -/

/-- A row of `all_prefixes`. -/
structure PoolRow where
  cidr : Cidr
  ipVersion : Int
  source : String
  active : Bool
  lastSeenAt : Timestamp
  priority : Nat
deriving DecidableEq, Repr

def officialRow (row : PrefixRow) : PoolRow :=
  ⟨row.cidr, row.ipVersion, row.source, row.active, row.lastSeenAt, 0⟩

def asnRow (row : ASNPrefixRow) : PoolRow :=
  ⟨row.cidr, row.ipVersion, "asn:" ++ toString row.asn, row.active, row.lastSeenAt, 1⟩

def sourceEnabled (s : PoolStore) (asn : Int) : Bool :=
  match s.sources.find? asn with
  | none => false
  | some item => item.enabled

def allPrefixes (s : PoolStore) : List PoolRow :=
  (s.prefixes.rows.filter fun row => row.active).map officialRow ++
    (s.asnPrefixes.rows.filter fun row => row.active && sourceEnabled s row.asn).map asnRow

/-- `ORDER BY cidr, priority, last_seen_at DESC`. -/
def representativeOrder (server : PoolServer) : SortOrder PoolRow :=
  (server.cidrOrder.on PoolRow.cidr).thenBy
    (((SortOrder.ofLinear Nat).on PoolRow.priority).thenBy
      ((SortOrder.ofLinear Timestamp).on PoolRow.lastSeenAt).desc)

/-- `ORDER BY ip_version, cidr`. -/
def listOrder (server : PoolServer) : SortOrder PoolRow :=
  ((SortOrder.ofLinear Int).on PoolRow.ipVersion).thenBy (server.cidrOrder.on PoolRow.cidr)

/-- How the server arranges the rows its two `ORDER BY` leave tied. -/
structure ListQueries (server : PoolServer) where
  representative : Arrangement (representativeOrder server)
  listing : Arrangement (listOrder server)

/-- `SELECT DISTINCT ON (cidr)`. -/
def deduplicated {server : PoolServer} (queries : ListQueries server) (s : PoolStore) :
    List PoolRow :=
  freshOn PoolRow.cidr [] (queries.representative.rows (allPrefixes s))

/-- `model.Prefix`, with the time it was last seen. -/
structure ListedPrefix extends ModelPrefix where
  lastSeen : Timestamp
deriving DecidableEq, Repr

def listedPrefix (row : PoolRow) : ListedPrefix :=
  ⟨⟨row.cidr.text, row.ipVersion, row.source, row.active⟩, row.lastSeenAt⟩

def listActivePrefixes {server : PoolServer} (queries : ListQueries server) (s : PoolStore)
    (includeIPv6 : Bool) : List ListedPrefix :=
  (queries.listing.rows ((deduplicated queries s).filter fun row =>
    includeIPv6 || decide (row.ipVersion = 4))).map listedPrefix

/-! ## A new database -/

def managedASNs : List (Int × String) :=
  [(13335, "CLOUDFLARENET"), (209242, "CLOUDFLARESPECTRUM"), (14789, "CLOUDFLARENET"),
    (394536, "CLOUDFLARENET-SFO"), (395747, "CLOUDFLARENET-SFO05"), (400095, "CLOUDFLARENET")]

theorem nodup_managedASNs : (managedASNs.map Prod.fst).Nodup := by decide

def managedSource (now : Timestamp) (asn : Int × String) : ASNSource :=
  { newASNSource now ⟨asn.1, asn.2, "Cloudflare, Inc.", some true⟩ with managed := true }

/-- The tables as `schema.sql` leaves them. -/
def PoolStore.initial (now : Timestamp) : PoolStore where
  prefixes := .empty
  syncState := .empty
  sources := ⟨managedASNs.map (managedSource now), nodup_managedASNs⟩
  asnPrefixes := .empty

end Cfscan.Cloudflare
