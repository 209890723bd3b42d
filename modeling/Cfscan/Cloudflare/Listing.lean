import Cfscan.Cloudflare.Pool
import Mathlib.Data.String.Basic

/-!
# What `ListActivePrefixes` returns

Over any run of syncs and changes of the ASN sources, the listing is the pool the log tells of:
each prefix once, the official ones attributed to the official source.

`Lists` has three parts: no prefix twice, none that is not in the pool, and none of the pool left
out. They are about prefixes and not about texts, so that two texts for one network would be a
repetition; that there are none is `nodup_networks`.

A listing is of one state. **When** a network enters or leaves the pool is said by the log of
`Cloudflare.Pool`: with a sync that succeeds, or with a change of a source, and with nothing else. A
sync that fails halfway is none, which is the case `listActivePrefixes_pool_threeSynced` runs
through. The listing without IPv6 is the part of it with version 4, in the order of the whole.
-/

set_option autoImplicit false

namespace Cfscan.Cloudflare

open Cfscan.Lib Cfscan.Store
open Netip (Prefix)

/-! ## The rows of the two tables

An active row of an origin counts while its source is enabled. Where both tables have a
network, the official row stands for it, by its priority. -/

section Rows

variable {s s' : PoolStore} {row : PoolRow}

theorem mem_allPrefixes : row ∈ allPrefixes s ↔
    (∃ r ∈ s.prefixes.rows, r.active = true ∧ officialRow r = row) ∨
      ∃ r ∈ s.asnPrefixes.rows, (r.active = true ∧ sourceEnabled s r.asn = true) ∧
        asnRow r = row := by
  simp [allPrefixes, and_assoc]

theorem mem_listASNSources {item : ASNSource} :
    item ∈ listASNSources s true ↔ item ∈ s.sources.rows ∧ item.enabled = true := by
  rw [listASNSources, Arrangement.mem]
  simp

theorem sourceEnabled_iff {asn : Int} : sourceEnabled s asn = true ↔
    ∃ item ∈ listASNSources s true, item.asn = asn := by
  unfold sourceEnabled
  cases hitem : s.sources.find? asn with
  | none =>
    simp only [Bool.false_eq_true, false_iff, not_exists, not_and]
    exact fun item hmem => Table.find?_eq_none.mp hitem item (mem_listASNSources.mp hmem).1
  | some item =>
    obtain ⟨hmem, hasn⟩ := Table.find?_eq_some.mp hitem
    constructor
    · exact fun henabled => ⟨item, mem_listASNSources.mpr ⟨hmem, henabled⟩, hasn⟩
    · rintro ⟨item', hitem', hasn'⟩
      obtain ⟨hmem', henabled⟩ := mem_listASNSources.mp hitem'
      rwa [Table.eq_of_key hmem hmem' (hasn.trans hasn'.symm)]

theorem mem_of_mem_deduplicated {server : PoolServer} {queries : ListQueries server}
    (h : row ∈ deduplicated queries s) : row ∈ allPrefixes s :=
  queries.representative.mem.mp ((freshOn_sublist _ _).mem h)

theorem nodup_deduplicated {server : PoolServer} (queries : ListQueries server) (s : PoolStore) :
    ((deduplicated queries s).map PoolRow.cidr).Nodup := nodup_freshOn _ _

theorem exists_deduplicated {server : PoolServer} (queries : ListQueries server)
    (h : row ∈ allPrefixes s) : ∃ row' ∈ deduplicated queries s, row'.cidr = row.cidr := by
  have hmem : row.cidr ∈ (deduplicated queries s).map PoolRow.cidr :=
    mem_map_freshOn.mpr
      ⟨List.mem_map_of_mem (queries.representative.mem.mpr h), List.not_mem_nil⟩
  exact List.mem_map.mp hmem

/-- Of a CIDR on the official list it is the official row. -/
theorem priority_of_official {server : PoolServer} {queries : ListQueries server} {r : PrefixRow}
    (hr : officialRow r ∈ allPrefixes s) (h : row ∈ deduplicated queries s)
    (hcidr : row.cidr = r.cidr) : row.priority = 0 := by
  rcases le_of_mem_freshOn (queries.representative.sorted _) h (queries.representative.mem.mpr hr)
    hcidr.symm with heq | hle
  · rw [← heq]
    rfl
  · simp [representativeOrder, SortOrder.thenBy, SortOrder.on, SortOrder.ofLinear, hcidr,
      officialRow, server.cidrOrder.refl] at hle
    exact hle.1

theorem listActivePrefixes_unmoved {server : PoolServer} (queries : ListQueries server)
    (h : Unmoved s s') (includeIPv6 : Bool) :
    listActivePrefixes queries s' includeIPv6 = listActivePrefixes queries s includeIPv6 := by
  have hall : allPrefixes s' = allPrefixes s := by
    unfold allPrefixes
    rw [h.prefixes, h.asnPrefixes]
    simp only [h.enabled]
  rw [listActivePrefixes, listActivePrefixes, deduplicated, deduplicated, hall]

end Rows

/-! ## The listing

`Follows` says of each table which networks are active in it; with what was said above of
the rows, the listing is `pool` of the log and of the enabled sources. -/

/-- The items are the prefixes, each of them once. -/
structure Lists (items : List ListedPrefix) (networks : Set Prefix) : Prop where
  once : (items.map fun item => Netip.parsePrefix item.cidr).Nodup
  listed : ∀ item ∈ items, ∃ p ∈ networks, Netip.parsePrefix item.cidr = some p
  complete : ∀ p ∈ networks, ∃ item ∈ items, Netip.parsePrefix item.cidr = some p

section Listing

variable {server : PoolServer} {queries : ListQueries server} {log : List Event} {s : PoolStore}
  {row : PoolRow}

theorem masked_of_mem_pool {p : Prefix} {sources : List ASNSource} (h : p ∈ pool log sources) :
    p.masked = p := by
  rcases h with h | ⟨item, -, h⟩
  · exact masked_of_mem_lastOfficial h
  · exact masked_of_mem_lastSynced h

theorem named_of_mem_allPrefixes (h : Follows server.toPostgres log s)
    (hrow : row ∈ allPrefixes s) :
    ∃ p ∈ pool log (listASNSources s true), server.cidr p.string = some row.cidr := by
  rcases mem_allPrefixes.mp hrow with ⟨r, hr, hactive, rfl⟩ | ⟨r, hr, ⟨hactive, henabled⟩, rfl⟩
  · obtain ⟨p, hp, hcidr⟩ := (h.official r.cidr).mp (on_of_mem hr hactive)
    exact ⟨p, Or.inl hp, hcidr⟩
  · obtain ⟨-, p, hp, hcidr⟩ := (h.synced r.asn r.cidr).mp (on_of_mem hr hactive)
    obtain ⟨item, hitem, hasn⟩ := sourceEnabled_iff.mp henabled
    exact ⟨p, Or.inr ⟨item, hitem, hasn ▸ hp⟩, hcidr⟩

theorem mem_allPrefixes_official (h : Follows server.toPostgres log s) {cidr : Cidr}
    (hnames : Names server.toPostgres (lastOfficial log) cidr) :
    ∃ r ∈ s.prefixes.rows, officialRow r ∈ allPrefixes s ∧ r.cidr = cidr := by
  obtain ⟨r, hr, hactive, hcidr⟩ := on_iff.mp ((h.official cidr).mpr hnames)
  exact ⟨r, hr, mem_allPrefixes.mpr (Or.inl ⟨r, hr, hactive, rfl⟩), hcidr⟩

theorem exists_row_of_mem_pool (hreads : ReadsPrefixes server.toPostgres)
    (h : Follows server.toPostgres log s) {p : Prefix}
    (hp : p ∈ pool log (listASNSources s true)) :
    ∃ row ∈ allPrefixes s, server.cidr p.string = some row.cidr := by
  obtain ⟨cidr, hcidr, -⟩ := hreads p (masked_of_mem_pool hp)
  rcases hp with hp | ⟨item, hitem, hp⟩
  · obtain ⟨r, -, hmem, rfl⟩ := mem_allPrefixes_official h ⟨p, hp, hcidr⟩
    exact ⟨_, hmem, hcidr⟩
  · obtain ⟨hmem, -⟩ := mem_listASNSources.mp hitem
    have hfound : s.sources.find? item.asn ≠ none := by simp [Table.find?_key hmem]
    obtain ⟨r, hr, hactive, hkey⟩ := on_iff.mp ((h.synced item.asn cidr).mpr ⟨hfound, p, hp, hcidr⟩)
    obtain ⟨hasn, rfl⟩ := Prod.ext_iff.mp hkey
    have henabled := sourceEnabled_iff.mpr ⟨item, hitem, hasn.symm⟩
    exact ⟨asnRow r, mem_allPrefixes.mpr (Or.inr ⟨r, hr, ⟨hactive, henabled⟩, rfl⟩), hcidr⟩

theorem version_of_mem_allPrefixes (h : Follows server.toPostgres log s)
    (hrow : row ∈ allPrefixes s) : VersionOf row.cidr row.ipVersion := by
  rcases mem_allPrefixes.mp hrow with ⟨r, hr, -, rfl⟩ | ⟨r, hr, -, rfl⟩
  · exact (h.sound r hr).version
  · exact h.versions r hr

/-- Rows of different CIDRs are rows of different prefixes. -/
theorem nodup_networks (hreads : ReadsPrefixes server.toPostgres)
    (h : Follows server.toPostgres log s) :
    ((deduplicated queries s).map fun row => Netip.parsePrefix row.cidr.text).Nodup := by
  refine (List.nodup_map_iff_inj_on (List.Nodup.of_map _ (nodup_deduplicated queries s))).mpr ?_
  intro a ha b hb hsame
  obtain ⟨p, hp, hpa⟩ := named_of_mem_allPrefixes h (mem_of_mem_deduplicated ha)
  obtain ⟨q, hq, hqb⟩ := named_of_mem_allPrefixes h (mem_of_mem_deduplicated hb)
  have hparse : some p = some q := by
    rw [← parse_of_names hreads (masked_of_mem_pool hp) hpa,
      ← parse_of_names hreads (masked_of_mem_pool hq) hqb]
    exact hsame
  cases hparse
  rw [hpa] at hqb
  exact List.inj_on_of_nodup_map (nodup_deduplicated queries s) ha hb (by simpa using hqb)

theorem listActivePrefixes_true (queries : ListQueries server) (s : PoolStore) :
    listActivePrefixes queries s true =
      (queries.listing.rows (deduplicated queries s)).map listedPrefix := by
  simp [listActivePrefixes]

theorem mem_listActivePrefixes {item : ListedPrefix} :
    item ∈ listActivePrefixes queries s true ↔
      ∃ row ∈ deduplicated queries s, listedPrefix row = item := by
  rw [listActivePrefixes_true, List.mem_map]
  simp only [Arrangement.mem]

theorem lists_pool (hreads : ReadsPrefixes server.toPostgres)
    (h : Follows server.toPostgres log s) :
    Lists (listActivePrefixes queries s true) (pool log (listASNSources s true)) where
  once := by
    rw [listActivePrefixes_true, List.map_map]
    exact (((queries.listing.perm _).map _).nodup_iff).mpr (nodup_networks hreads h)
  listed := fun item hitem => by
    obtain ⟨row, hrow, rfl⟩ := mem_listActivePrefixes.mp hitem
    obtain ⟨p, hp, hcidr⟩ := named_of_mem_allPrefixes h (mem_of_mem_deduplicated hrow)
    exact ⟨p, hp, parse_of_names hreads (masked_of_mem_pool hp) hcidr⟩
  complete := fun p hp => by
    obtain ⟨row, hrow, hcidr⟩ := exists_row_of_mem_pool hreads h hp
    obtain ⟨row', hrow', heq⟩ := exists_deduplicated queries hrow
    refine ⟨listedPrefix row', mem_listActivePrefixes.mpr ⟨row', hrow', rfl⟩, ?_⟩
    rw [← heq] at hcidr
    exact parse_of_names hreads (masked_of_mem_pool hp) hcidr

/-- No two rows of the listing are tied, so its IPv4 part comes in the order of the whole. -/
theorem listActivePrefixes_false (queries : ListQueries server) (s : PoolStore) :
    listActivePrefixes queries s false =
      (listActivePrefixes queries s true).filter fun item => decide (item.ipVersion = 4) := by
  rw [listActivePrefixes_true, List.filter_map, listActivePrefixes]
  congr 1
  refine queries.listing.rows_filter (fun a ha b hb htied => ?_) _
  have hcidr : server.cidrOrder.Tied a.cidr b.cidr := (SortOrder.tied_thenBy.mp htied).2
  exact List.inj_on_of_nodup_map (nodup_deduplicated queries s) ha hb
    (server.cidr_order _ _ hcidr)

theorem source_of_official (hreads : ReadsPrefixes server.toPostgres)
    (h : Follows server.toPostgres log s) {item : ListedPrefix}
    (hitem : item ∈ listActivePrefixes queries s true) {p : Prefix} (hp : p ∈ lastOfficial log)
    (hparse : Netip.parsePrefix item.cidr = some p) : item.source = sourceOfficial := by
  obtain ⟨row, hrow, rfl⟩ := mem_listActivePrefixes.mp hitem
  have hmem := mem_of_mem_deduplicated hrow
  -- the row is named by `p`, which is on the official list
  obtain ⟨q, hq, hcidr⟩ := named_of_mem_allPrefixes h hmem
  have hq' := parse_of_names hreads (masked_of_mem_pool hq) hcidr
  rw [show Netip.parsePrefix row.cidr.text = some p from hparse] at hq'
  cases hq'
  obtain ⟨r, -, hofficial, hr⟩ := mem_allPrefixes_official h ⟨p, hp, hcidr⟩
  have hpriority := priority_of_official hofficial hrow hr.symm
  rcases mem_allPrefixes.mp hmem with ⟨r', hr', -, rfl⟩ | ⟨r', -, -, rfl⟩
  · exact (h.sound r' hr').source
  · cases hpriority

end Listing

/-- After any requests, the listing is the pool of the last syncs that succeeded. -/
theorem listActivePrefixes_pool (server : PoolServer) (hreads : ReadsPrefixes server.toPostgres)
    (texts : Texts) (queries : ListQueries server) (now : Timestamp) (requests : List Request) :
    let w := requests.foldl (World.serve texts server.toPostgres) (World.initial now)
    let listing := listActivePrefixes queries w.store true
    Lists listing (pool w.log (listASNSources w.store true)) ∧
      (∀ item ∈ listing, ∀ p ∈ lastOfficial w.log, Netip.parsePrefix item.cidr = some p →
        item.source = sourceOfficial) ∧
      listActivePrefixes queries w.store false =
        listing.filter (fun item => decide (item.ipVersion = 4)) ∧
      (∀ item ∈ listing, ∀ p, Netip.parsePrefix item.cidr = some p →
        item.ipVersion = versionOf p) ∧
      ∀ (e : Event) (error : SyncError) (s' : PoolStore),
        e.perform texts server.toPostgres w.store = (some error, s') →
        ∀ includeIPv6, listActivePrefixes queries s' includeIPv6 =
          listActivePrefixes queries w.store includeIPv6 := by
  intro w listing
  have h : Follows server.toPostgres w.log w.store := follows_serve hreads now requests
  refine ⟨lists_pool hreads h, fun item hitem p hp => source_of_official hreads h hitem hp,
    listActivePrefixes_false queries w.store, fun item hitem p hparse => ?_,
    fun e error s' hfailed => listActivePrefixes_unmoved queries (unmoved_of_error hfailed)⟩
  obtain ⟨row, hrow, rfl⟩ := mem_listActivePrefixes.mp hitem
  exact version_of_mem_allPrefixes h (mem_of_mem_deduplicated hrow) p hparse

/-! ### A server that reads prefixes as Go does -/

def netipCidr (text : String) : Option Cidr :=
  (Netip.parsePrefix text).bind fun p => if p.masked = p then some ⟨p.string⟩ else none

theorem netipCidr_string {p : Prefix} (hp : p.masked = p) :
    netipCidr p.string = some ⟨p.string⟩ := by
  rw [netipCidr, Netip.parsePrefix_string, Option.bind_some, if_pos hp]

theorem netipCidr_text (text : String) (cidr : Cidr) (h : netipCidr text = some cidr) :
    netipCidr cidr.text = some cidr ∧ cidr.text ≠ "" := by
  obtain ⟨p, -, hp⟩ := Option.bind_eq_some_iff.mp h
  obtain ⟨hmasked, hcidr⟩ := Option.ite_none_right_eq_some.mp hp
  cases hcidr
  refine ⟨netipCidr_string hmasked, fun hempty => ?_⟩
  have hparse := Netip.parsePrefix_string p
  rw [show p.string = "" from hempty, parsePrefix_empty] at hparse
  cases hparse

theorem netipServer_host (text : String) (ip : Inet) (h : (fun _ => none) text = some ip) :
    (fun _ : String => (none : Option Inet)) ip.host = some ⟨ip.host, none⟩ := by
  cases h

theorem netipServer_order (a b : Cidr)
    (h : ((SortOrder.ofLinear String).on Cidr.text).Tied a b) : a = b := by
  have htext : a.text = b.text := by simpa using h
  cases a
  cases b
  cases htext
  rfl

def netipServer : PoolServer where
  uuid := fun _ => none
  inet := fun _ => none
  cidr := netipCidr
  inet_host := netipServer_host
  cidr_text := netipCidr_text
  cidrOrder := (SortOrder.ofLinear String).on Cidr.text
  cidr_order := netipServer_order

def netipQueries : ListQueries netipServer := ⟨.insertionSort _, .insertionSort _⟩

theorem netipServer_reads : ReadsPrefixes netipServer.toPostgres := fun p hp =>
  ⟨⟨p.string⟩, netipCidr_string hp, Netip.parsePrefix_string p⟩

def noTexts : Texts := ⟨id, id⟩

/-- An official sync, one of AS13335, and an official sync that is cut off in the middle. -/
def threeSyncs : List Request :=
  [.event (.sync ⟨1, 1, none⟩ (.answered 200 "" ⟨["104.16.0.0/13", ""], none⟩)
      (.answered 200 "" ⟨["2400:cb00::/32"], none⟩)),
    .event (.syncASN ⟨2, 2, none⟩ 13335
      (.answered 200 "" (.ok ⟨"ok", ["104.16.0.0/13", "104.24.0.1/14"]⟩))),
    .event (.sync ⟨3, 3, some (3, "timeout")⟩ (.answered 200 "" ⟨["162.158.0.0/15"], none⟩)
      (.answered 200 "" ⟨["2606:4700::/32"], none⟩))]

def threeSynced : World :=
  threeSyncs.foldl (World.serve noTexts netipServer.toPostgres) (World.initial 0)

theorem listActivePrefixes_pool_threeSynced :
    Lists (listActivePrefixes netipQueries threeSynced.store true)
        (pool threeSynced.log (listASNSources threeSynced.store true)) ∧
      (listActivePrefixes netipQueries threeSynced.store true).map
          (fun item => (item.cidr, item.source)) =
        [("104.16.0.0/13", "cloudflare_official"), ("104.24.0.0/14", "asn:13335"),
          ("2400:cb00::/32", "cloudflare_official")] :=
  ⟨(listActivePrefixes_pool netipServer netipServer_reads noTexts netipQueries 0 threeSyncs).1,
    by decide +kernel⟩

end Cfscan.Cloudflare
