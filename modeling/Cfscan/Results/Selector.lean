import Cfscan.Results.Pages

/-!
# The job selector beside the list

The selector lists the jobs of the rows of a filter with their counts, and picking one narrows the
list to it. In the latest view the job restricts the candidates before the ranking, so that a row
which another job's newer result pushed out of the selector is in the list of its own job. The two
agree exactly when there is no such row (`selector_agrees`).

**The page of the filter is part of it.** The selector does not read the page, the list does, and a
page whose offset wraps round to a negative number is refused for every job. There the two agree
only if the selector is empty. `selector_agrees` has both conditions, and both directions of each.
-/

set_option autoImplicit false

namespace Cfscan.Results

open Cfscan.Lib Cfscan.Store

/-- The filter once a job is picked. -/
def ResultFilter.pick (server : ResultServer) (filter : ResultFilter) (id : UUID) : ResultFilter :=
  { filter with jobID := server.uuidText id }

/-- What the selector lists is what the list has. -/
def SelectorAgrees (server : ResultServer) (s : ResultStore) (arrangement : Arrangement byCreation)
    (executor : Executor) (filter : ResultFilter) : Prop :=
  ∀ items, listResultJobs server s arrangement filter = .ok items →
    (∀ item ∈ items, ∃ page, listResults server s executor (filter.pick server item.id) = .ok page ∧
      page.total = item.count) ∧
    ∀ id page, listResults server s executor (filter.pick server id) = .ok page →
      0 < page.total → ∃ item ∈ items, item.id = id

/-- The latest row of its own job, but not of its group. -/
structure Overtaken (server : ResultServer) (s : ResultStore) (filter : ResultFilter)
    (row : ResultRow) : Prop where
  joined : row ∈ s.joined
  candidate : Candidate server filter false row
  latestOfJob :
    LatestAmong s (fun other => Candidate server filter false other ∧ other.j.id = row.j.id) row
  final : Final server filter row
  newer : ∃ other ∈ s.joined, Candidate server filter false other ∧ other.group = row.group ∧
    other.newer row = true

/-! ## The rows of a job

The filter with a job and the one without it differ in one condition of the first kind. So
the rows of the job are ranked among themselves, and each row of the selector is among them,
while `Overtaken` names the rows that are there in addition. -/

section Job

variable {server : ResultServer} {s : ResultStore} {filter : ResultFilter} {row : ResultRow}
  {id : UUID}

theorem jobID_of_joined (h : row ∈ s.joined) : row.r.jobID = some row.j.id := by
  obtain ⟨_, _, hj, _⟩ := join_eq_some.mp (mem_joined.mp h).2
  obtain ⟨jobID, hjob, hfound⟩ := Option.bind_eq_some_iff.mp hj
  rw [hjob, Table.key_of_find? hfound]

theorem uuidText_ne_empty (server : ResultServer) (id : UUID) : server.uuidText id ≠ "" := by
  intro h
  have hread := server.uuid_uuidText id
  rw [h, server.uuid_empty] at hread
  cases hread

theorem candidate_pick (h : row ∈ s.joined) :
    Candidate server (filter.pick server id) true row ↔
      Candidate server filter false row ∧ row.j.id = id := by
  have hread : server.uuid (filter.pick server id).jobID = some id := server.uuid_uuidText id
  constructor
  · intro hmeets
    have hjob := hmeets.jobID ⟨rfl, uuidText_ne_empty server id⟩
    rw [hread, jobID_of_joined h] at hjob
    exact ⟨⟨hmeets.agentID, fun hfalse => absurd hfalse.1 Bool.false_ne_true, hmeets.region,
      hmeets.continent, hmeets.targetIP, hmeets.since⟩, (Option.some.inj hjob).symm⟩
  · rintro ⟨hmeets, hjob⟩
    refine ⟨hmeets.agentID, fun _ => ?_, hmeets.region, hmeets.continent, hmeets.targetIP,
      hmeets.since⟩
    rw [hread, jobID_of_joined h, hjob]

theorem final_pick : Final server (filter.pick server id) row ↔ Final server filter row :=
  ⟨fun h => ⟨h.available, h.colo, h.coloCity, h.coloCountry, h.coloContinent⟩,
    fun h => ⟨h.available, h.colo, h.coloCity, h.coloCountry, h.coloContinent⟩⟩

theorem accepted_pick :
    Accepted server (filter.pick server id) true ↔ Accepted server filter false := by
  constructor
  · intro h
    exact ⟨h.agentID, fun hfalse => absurd hfalse.1 Bool.false_ne_true, h.region, h.continent,
      h.targetIP, h.colo, h.coloCity, h.coloCountry, h.coloContinent⟩
  · intro h
    refine ⟨h.agentID, fun _ hnone => ?_, h.region, h.continent, h.targetIP, h.colo, h.coloCity,
      h.coloCountry, h.coloContinent⟩
    exact Option.some_ne_none id ((server.uuid_uuidText id).symm.trans hnone)

/-- The list of a job ranks the rows of that job only. -/
theorem passes_pick : Passes server s (filter.pick server id) true row ↔
    row ∈ s.joined ∧ Candidate server filter false row ∧ row.j.id = id ∧
      (filter.view ≠ "history" →
        LatestAmong s (fun other => Candidate server filter false other ∧ other.j.id = id) row) ∧
      Final server filter row := by
  constructor
  · rintro ⟨hjoined, hmeets, hlatest, hfinal⟩
    obtain ⟨hmeets, hjob⟩ := (candidate_pick hjoined).mp hmeets
    refine ⟨hjoined, hmeets, hjob, fun hview other hother hmeets' => ?_, final_pick.mp hfinal⟩
    exact hlatest hview other hother ((candidate_pick hother).mpr hmeets')
  · rintro ⟨hjoined, hmeets, hjob, hlatest, hfinal⟩
    refine ⟨hjoined, (candidate_pick hjoined).mpr ⟨hmeets, hjob⟩, fun hview other hother hmeets' => ?_,
      final_pick.mpr hfinal⟩
    exact hlatest hview other hother ((candidate_pick hother).mp hmeets')

/-- A row the selector counts for a job is in the list of the job. -/
theorem passes_pick_of_passes (h : Passes server s filter false row) (hjob : row.j.id = id) :
    Passes server s (filter.pick server id) true row :=
  passes_pick.mpr ⟨h.joined, h.candidate, hjob,
    fun hview other hother hmeets => h.latest hview other hother hmeets.1, h.final⟩

/-- The rows of the job's list that the selector does not count are those overtaken. -/
theorem passes_of_passes_pick (h : Passes server s (filter.pick server id) true row)
    (hnot : filter.view ≠ "history" → ¬ Overtaken server s filter row) :
    Passes server s filter false row := by
  obtain ⟨hjoined, hmeets, rfl, hlatest, hfinal⟩ := passes_pick.mp h
  refine ⟨hjoined, hmeets, fun hview other hother hmeets' hgroup => ?_, hfinal⟩
  by_contra hnewer
  exact hnot hview ⟨hjoined, hmeets, hlatest hview, hfinal, other, hother, hmeets', hgroup,
    Bool.not_eq_false _ ▸ hnewer⟩

theorem Overtaken.passes_pick (h : Overtaken server s filter row) :
    Passes server s (filter.pick server row.j.id) true row :=
  Results.passes_pick.mpr ⟨h.joined, h.candidate, rfl, fun _ => h.latestOfJob, h.final⟩

theorem Overtaken.not_passes (h : Overtaken server s filter row) (hview : filter.view ≠ "history") :
    ¬ Passes server s filter false row := by
  intro hpasses
  obtain ⟨other, hother, hmeets, hgroup, hnewer⟩ := h.newer
  rw [hpasses.latest hview other hother hmeets hgroup] at hnewer
  cases hnewer

theorem mem_rowsOfJob (hview : filter.view = "latest" ∨ filter.view = "history") :
    row ∈ resultRows server s (filter.pick server id) true ↔
      Passes server s (filter.pick server id) true row := by
  have hpick : (filter.pick server id).view = "latest" ∨ (filter.pick server id).view = "history" :=
    hview
  exact mem_resultRows hpick

end Job

/-! ## Counts

A facet counts rows, the list reports a total. Both are lengths of lists without duplicates,
one inside the other, and such lengths agree exactly if the lists have the same rows. -/

theorem mem_jobFacets {server : ResultServer} {rows : List ResultRow} {item : ResultJobFacet} :
    item ∈ jobFacets server rows ↔ ∃ row ∈ rows, jobFacet server rows row.j.id = item := by
  simp only [jobFacets, List.mem_map, List.mem_dedup, exists_exists_and_eq_and]

/-- A list of a part of some rows has as many only when it has them all. -/
theorem length_eq_iff_subset {ρ : Type} {rows rows' : List ρ} (hrows : rows.Nodup)
    (hrows' : rows'.Nodup) (hsubset : rows ⊆ rows') : rows'.length = rows.length ↔ rows' ⊆ rows := by
  have hpart := List.subperm_of_subset hrows hsubset
  constructor
  · intro hlength
    exact (hpart.perm_of_length_le (Nat.le_of_eq hlength)).symm.subset
  · intro hback
    exact Nat.le_antisymm (List.subperm_of_subset hrows' hback).length_le hpart.length_le

section Agreement

variable {server : ResultServer} {s : ResultStore} {arrangement : Arrangement byCreation}
  {executor : Executor} {filter : ResultFilter}

/-- The rows the list of a job has, and those the selector counts for it. -/
theorem total_pick (executor : Executor) (h : Accepted server filter.normalize false)
    (hoffset : 0 ≤ filter.normalize.offset.toInt) (id : UUID) :
    ∃ page, listResults server s executor (filter.pick server id) = .ok page ∧
      page.total = (resultRows server s (filter.normalize.pick server id) true).length := by
  have hpick : 0 ≤ (filter.normalize.pick server id).offset.toInt := hoffset
  have hview : (filter.normalize.pick server id).view = "latest" ∨
      (filter.normalize.pick server id).view = "history" := view_normalize filter
  exact ⟨_, listPage_of_nonneg hview (accepted_pick.mpr h) hpick, rfl⟩

/-- A page that is refused is refused for every job. -/
theorem refused_pick (executor : Executor) (h : Accepted server filter.normalize false)
    (hoffset : filter.normalize.offset.toInt < 0) (id : UUID) :
    listResults server s executor (filter.pick server id) = .error .negativeOffset := by
  have hpick : (filter.normalize.pick server id).offset.toInt < 0 := hoffset
  have haccepted : Accepted server (filter.normalize.pick server id) true := accepted_pick.mpr h
  exact listPage_of_neg haccepted hpick

/-- The selector's query: the job and the page are no part of it. -/
theorem resultDataset_selector (filter : ResultFilter) :
    resultDataset server { filter with
      jobID := "", view := if filter.view ≠ "history" then "latest" else filter.view } true false =
      resultDataset server filter.normalize true false := rfl

theorem listResultJobs_accepted (arrangement : Arrangement byCreation)
    (h : Accepted server filter.normalize false) :
    listResultJobs server s arrangement filter =
      .ok (arrangement.rows (jobFacets server (resultRows server s filter.normalize false))) := by
  have hquery := query_own (s := s) h
  rw [← resultDataset_selector] at hquery
  unfold listResultJobs listResultJobFacets
  dsimp only at hquery ⊢
  rw [hquery]

theorem listResultJobs_refused (h : ¬ Accepted server filter.normalize false) :
    ∃ error, listResultJobs server s arrangement filter = .error error := by
  obtain ⟨error, hquery⟩ := query_refused (s := s) h
  rw [← resultDataset_selector] at hquery
  unfold listResultJobs listResultJobFacets
  dsimp only at hquery ⊢
  rw [hquery]
  exact ⟨_, rfl⟩

/-- The selector and the lists of the jobs have the same rows, job by job. -/
theorem selectorAgrees_iff (h : Accepted server filter.normalize false)
    (hoffset : 0 ≤ filter.normalize.offset.toInt) :
    SelectorAgrees server s arrangement executor filter ↔
      ∀ id row, Passes server s (filter.normalize.pick server id) true row →
        Passes server s filter.normalize false row := by
  have hview := view_normalize filter
  have hitems := listResultJobs_accepted (s := s) arrangement h
  -- the rows counted for a job are among the rows of its list
  have hcount : ∀ id, (resultRows server s (filter.normalize.pick server id) true).length =
      (jobFacet server (resultRows server s filter.normalize false) id).count ↔
        ∀ row, Passes server s (filter.normalize.pick server id) true row →
          Passes server s filter.normalize false row := by
    intro id
    refine (length_eq_iff_subset ((nodup_resultRows server s filter.normalize false).filter _)
      (nodup_resultRows server s (filter.normalize.pick server id) true) ?_).trans ?_
    · intro row hrow
      rw [List.mem_filter, mem_resultRows hview, decide_eq_true_eq] at hrow
      exact (mem_rowsOfJob hview).mpr (passes_pick_of_passes hrow.1 hrow.2)
    · constructor
      · intro hsubset row hrow
        exact (mem_resultRows hview).mp
          (List.mem_filter.mp (hsubset ((mem_rowsOfJob hview).mpr hrow))).1
      · intro hall row hrow
        have hpasses := (mem_rowsOfJob hview).mp hrow
        exact List.mem_filter.mpr ⟨(mem_resultRows hview).mpr (hall row hpasses),
          decide_eq_true (passes_pick.mp hpasses).2.2.1⟩
  constructor
  · intro hagrees id row hrow
    obtain ⟨hfacets, hjobs⟩ := hagrees _ hitems
    obtain ⟨page, hpage, htotal⟩ := total_pick (s := s) executor h hoffset id
    have hmem : row ∈ resultRows server s (filter.normalize.pick server id) true :=
      (mem_rowsOfJob hview).mpr hrow
    obtain ⟨item, hitem, rfl⟩ := hjobs id page hpage (htotal ▸ List.length_pos_of_mem hmem)
    obtain ⟨page', hpage', htotal'⟩ := hfacets item hitem
    obtain ⟨other, _, rfl⟩ := mem_jobFacets.mp ((Arrangement.mem _).mp hitem)
    cases hpage.symm.trans hpage'
    exact (hcount other.j.id).mp (htotal.symm.trans htotal') row hrow
  · intro hall items hok
    cases hitems.symm.trans hok
    constructor
    · intro item hitem
      obtain ⟨row, _, rfl⟩ := mem_jobFacets.mp ((Arrangement.mem _).mp hitem)
      obtain ⟨page, hpage, htotal⟩ := total_pick (s := s) executor h hoffset row.j.id
      exact ⟨page, hpage, htotal.trans ((hcount row.j.id).mpr (hall row.j.id))⟩
    · intro id page hpage hpos
      obtain ⟨page', hpage', htotal⟩ := total_pick (s := s) executor h hoffset id
      cases hpage.symm.trans hpage'
      obtain ⟨row, hrow⟩ := List.exists_mem_of_length_pos (htotal ▸ hpos)
      have hpasses := (mem_rowsOfJob hview).mp hrow
      have hcounted : row ∈ resultRows server s filter.normalize false :=
        (mem_resultRows hview).mpr (hall id row hpasses)
      exact ⟨_, (Arrangement.mem _).mpr (mem_jobFacets.mpr ⟨row, hcounted, rfl⟩),
        (passes_pick.mp hpasses).2.2.1⟩

/-- Where the page is refused, only an empty selector agrees with it. -/
theorem selectorAgrees_iff_of_neg (h : Accepted server filter.normalize false)
    (hoffset : filter.normalize.offset.toInt < 0) :
    SelectorAgrees server s arrangement executor filter ↔
      ∀ row, ¬ Passes server s filter.normalize false row := by
  have hview := view_normalize filter
  have hitems := listResultJobs_accepted (s := s) arrangement h
  constructor
  · intro hagrees row hpasses
    have hfacet : jobFacet server (resultRows server s filter.normalize false) row.j.id ∈
        jobFacets server (resultRows server s filter.normalize false) :=
      mem_jobFacets.mpr ⟨row, (mem_resultRows hview).mpr hpasses, rfl⟩
    obtain ⟨page, hpage, _⟩ := (hagrees _ hitems).1 _ ((Arrangement.mem _).mpr hfacet)
    rw [refused_pick executor h hoffset] at hpage
    cases hpage
  · intro hnone items hok
    cases hitems.symm.trans hok
    constructor
    · intro item hitem
      obtain ⟨row, hrow, _⟩ := mem_jobFacets.mp ((Arrangement.mem _).mp hitem)
      exact absurd ((mem_resultRows hview).mp hrow) (hnone row)
    · intro id page hpage _
      rw [refused_pick executor h hoffset] at hpage
      cases hpage

/-- **The selector agrees with the list**, unless the view is the latest one and the newest row of
a job in some group is overtaken there by another job's, or the page is one the server refuses and
some row passes the filter. -/
theorem selector_agrees (server : ResultServer) (s : ResultStore)
    (arrangement : Arrangement byCreation) (executor : Executor) (filter : ResultFilter) :
    SelectorAgrees server s arrangement executor filter ↔
      (Accepted server filter.normalize false →
        (0 ≤ filter.normalize.offset.toInt → filter.view ≠ "history" →
          ∀ row, ¬ Overtaken server s filter.normalize row) ∧
        (filter.normalize.offset.toInt < 0 →
          ∀ row, ¬ Passes server s filter.normalize false row)) := by
  have hhistory : filter.normalize.view ≠ "history" ↔ filter.view ≠ "history" := by
    unfold ResultFilter.normalize
    by_cases h : filter.view = "history" <;> simp [h]
  by_cases haccepted : Accepted server filter.normalize false
  · rcases Int.lt_or_le filter.normalize.offset.toInt 0 with hneg | hnonneg
    · rw [selectorAgrees_iff_of_neg haccepted hneg]
      exact ⟨fun hnone _ => ⟨fun hnonneg => absurd hnonneg (Int.not_le.mpr hneg), fun _ => hnone⟩,
        fun h => (h haccepted).2 hneg⟩
    · rw [selectorAgrees_iff haccepted hnonneg, ← hhistory]
      constructor
      · intro hall _
        refine ⟨fun _ hview row hover => ?_, fun hneg => absurd hneg (Int.not_lt.mpr hnonneg)⟩
        exact hover.not_passes hview (hall row.j.id row hover.passes_pick)
      · intro hnot id row hrow
        exact passes_of_passes_pick hrow fun hview => (hnot haccepted).1 hnonneg hview row
  · refine iff_of_true (fun items hok => ?_) fun h => absurd h haccepted
    obtain ⟨error, hrefused⟩ := listResultJobs_refused haccepted
    cases hrefused.symm.trans hok

end Agreement

/-! ## A job scanned again -/

theorem overtaken_firstRow :
    Overtaken twoJobsServer twoJobs openingFilter.normalize firstRow where
  joined := by decide
  candidate := by constructor <;> decide
  latestOfJob := by
    intro other hother ⟨_, hjob⟩ _
    rw [joined_twoJobs, List.mem_pair] at hother
    obtain rfl | rfl := hother
    · decide
    · cases hjob
  final := by constructor <;> decide
  newer := ⟨secondRow, by decide, by constructor <;> decide, by decide, by decide⟩

/-- The selector leaves the first job out, and its list has a row. -/
theorem first_job_missing : ¬ SelectorAgrees twoJobsServer twoJobs (Arrangement.mergeSort _)
    (fun o => Arrangement.mergeSort o) openingFilter := by
  have haccepted : Accepted twoJobsServer openingFilter.normalize false := by
    constructor <;> decide
  intro hagrees
  exact overtaken_firstRow.not_passes (by decide)
    ((selectorAgrees_iff haccepted (by decide +kernel)).mp hagrees 1 firstRow
      overtaken_firstRow.passes_pick)

end Cfscan.Results
