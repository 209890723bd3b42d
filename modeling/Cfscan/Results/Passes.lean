import Cfscan.Results.Dataset

/-!
# Which rows a filter is for

`Passes` says it without a query: a row of the join that meets the conditions of the filter, the
latest of its group among those that meet the first kind when the view is the latest one. The
queries `resultDataset` assembles return these rows, each once (`mem_resultRows`,
`nodup_resultRows`).

`Passes` names the ranking by its result: the row is later than every other candidate of its group.
Rows of one group that are equally late do not occur, since the id is among the columns of the
ranking.
-/

set_option autoImplicit false

namespace Cfscan.Results

open Cfscan.Lib Cfscan.Store

/-- The conditions that come before the ranking. -/
structure Candidate (server : ResultServer) (filter : ResultFilter) (withJob : Bool)
    (row : ResultRow) : Prop where
  agentID : filter.agentID ≠ "" → server.uuid filter.agentID = some row.r.agentID
  jobID : withJob = true ∧ filter.jobID ≠ "" → server.uuid filter.jobID = row.r.jobID
  region : filter.region ≠ "" → row.a.region = filter.region
  continent : filter.continent ≠ "" → row.a.continent = filter.continent
  targetIP : filter.targetIP ≠ "" → server.ilikeWithin row.targetIP filter.targetIP = true
  since : ∀ since, filter.since = some since → since ≤ row.r.scannedAt

/-- The conditions that come after it. -/
structure Final (server : ResultServer) (filter : ResultFilter) (row : ResultRow) : Prop where
  available : ∀ available, filter.available = some available → row.r.available = available
  colo : filter.colo ≠ "" → row.r.colo = server.toUpper filter.colo
  coloCity : filter.coloCity ≠ "" → row.coloCity = filter.coloCity
  coloCountry : filter.coloCountry ≠ "" → row.coloCountry = filter.coloCountry
  coloContinent : filter.coloContinent ≠ "" → row.coloContinent = filter.coloContinent

/-- The latest of its group among the rows that meet a condition. -/
def LatestAmong (s : ResultStore) (p : ResultRow → Prop) (row : ResultRow) : Prop :=
  ∀ other ∈ s.joined, p other → other.group = row.group → other.newer row = false

structure Passes (server : ResultServer) (s : ResultStore) (filter : ResultFilter)
    (withJob : Bool) (row : ResultRow) : Prop where
  joined : row ∈ s.joined
  candidate : Candidate server filter withJob row
  latest : filter.view ≠ "history" → LatestAmong s (Candidate server filter withJob) row
  final : Final server filter row

/-- The server takes every text of the filter. -/
structure Accepted (server : ResultServer) (filter : ResultFilter) (withJob : Bool) : Prop where
  agentID : filter.agentID ≠ "" → server.uuid filter.agentID ≠ none
  jobID : withJob = true ∧ filter.jobID ≠ "" → server.uuid filter.jobID ≠ none
  region : filter.region ≠ "" → storable filter.region = true
  continent : filter.continent ≠ "" → storable filter.continent = true
  targetIP : filter.targetIP ≠ "" → storable filter.targetIP = true
  colo : filter.colo ≠ "" → storable (server.toUpper filter.colo) = true
  coloCity : filter.coloCity ≠ "" → storable filter.coloCity = true
  coloCountry : filter.coloCountry ≠ "" → storable filter.coloCountry = true
  coloContinent : filter.coloContinent ≠ "" → storable filter.coloContinent = true

/-! ## Conditions and their arguments

`Conditions.Means` ties a list of clauses to two conditions on a row and to when the server
refuses an argument. It is closed under everything the builder does, an optional condition
included, and it allows for arguments to be appended behind, as the page does. -/

/-- What conditions mean, whatever comes behind their arguments. -/
structure Conditions.Means (server : ResultServer) (c : Conditions) (X Y : ResultRow → Prop)
    (R : Prop) : Prop where
  candidate : ∀ more row,
    c.candidate.all (Clause.holds server (c.args ++ more) row) = true ↔ X row
  final : ∀ more row, c.final.all (Clause.holds server (c.args ++ more) row) = true ↔ Y row
  accepted : ∀ more,
    (c.candidate ++ c.final).findSome? (Clause.refuses server (c.args ++ more)) = none ↔ R

section Means

variable {server : ResultServer} {c : Conditions} {X Y X' Y' : ResultRow → Prop} {R R' p : Prop}
  {column : Column} {value : Arg}

theorem Conditions.Means.empty (server : ResultServer) :
    Conditions.empty.Means server (fun _ => True) (fun _ => True) True :=
  ⟨fun _ _ => by simp [Conditions.empty], fun _ _ => by simp [Conditions.empty],
    fun _ => by simp [Conditions.empty]⟩

theorem Conditions.Means.congr (h : c.Means server X Y R) (hX : ∀ row, X row ↔ X' row)
    (hY : ∀ row, Y row ↔ Y' row) (hR : R ↔ R') : c.Means server X' Y' R' :=
  ⟨fun more row => (h.candidate more row).trans (hX row),
    fun more row => (h.final more row).trans (hY row), fun more => (h.accepted more).trans hR⟩

/-- The argument of a new condition is where its placeholder says. -/
theorem getElem?_added (args more : List Arg) :
    (args ++ [value] ++ more)[args.length + 1 - 1]? = some value := by
  rw [Nat.add_sub_cancel, List.append_assoc, List.getElem?_append_right (Nat.le_refl _)]
  simp

theorem Conditions.Means.addCandidate (h : c.Means server X Y R) :
    (c.addCandidate column value).Means server
      (fun row => X row ∧ column.holds server row value = true) Y
      (R ∧ column.refuses server value = none) where
  candidate := by
    intro more row
    have hrest := h.candidate ([value] ++ more) row
    rw [← List.append_assoc] at hrest
    simp only [Conditions.addCandidate, List.all_append, Bool.and_eq_true, hrest, List.all_cons,
      List.all_nil, Clause.holds, getElem?_added, and_true]
  final := by
    intro more row
    have hrest := h.final ([value] ++ more) row
    rw [← List.append_assoc] at hrest
    exact hrest
  accepted := by
    intro more
    have hrest := h.accepted ([value] ++ more)
    rw [← List.append_assoc] at hrest
    simp only [List.findSome?_eq_none_iff, List.mem_append] at hrest ⊢
    simp only [Conditions.addCandidate, List.mem_append, List.mem_singleton]
    constructor
    · intro hall
      have hnew := hall ⟨column, c.args.length + 1⟩ (Or.inl (Or.inr rfl))
      simp only [Clause.refuses, getElem?_added] at hnew
      exact ⟨hrest.mp fun clause hclause => hall clause (hclause.imp_left Or.inl), hnew⟩
    · rintro ⟨hR, hnew⟩ clause ((hold | rfl) | hold)
      · exact hrest.mpr hR clause (Or.inl hold)
      · simpa only [Clause.refuses, getElem?_added] using hnew
      · exact hrest.mpr hR clause (Or.inr hold)

theorem Conditions.Means.addFinal (h : c.Means server X Y R) :
    (c.addFinal column value).Means server X
      (fun row => Y row ∧ column.holds server row value = true)
      (R ∧ column.refuses server value = none) where
  candidate := by
    intro more row
    have hrest := h.candidate ([value] ++ more) row
    rw [← List.append_assoc] at hrest
    exact hrest
  final := by
    intro more row
    have hrest := h.final ([value] ++ more) row
    rw [← List.append_assoc] at hrest
    simp only [Conditions.addFinal, List.all_append, Bool.and_eq_true, hrest, List.all_cons,
      List.all_nil, Clause.holds, getElem?_added, and_true]
  accepted := by
    intro more
    have hrest := h.accepted ([value] ++ more)
    rw [← List.append_assoc] at hrest
    simp only [List.findSome?_eq_none_iff, List.mem_append] at hrest ⊢
    simp only [Conditions.addFinal, List.mem_append, List.mem_singleton]
    constructor
    · intro hall
      have hnew := hall ⟨column, c.args.length + 1⟩ (Or.inr (Or.inr rfl))
      simp only [Clause.refuses, getElem?_added] at hnew
      exact ⟨hrest.mp fun clause hclause => hall clause (hclause.imp_right Or.inl), hnew⟩
    · rintro ⟨hR, hnew⟩ clause (hold | hold | rfl)
      · exact hrest.mpr hR clause (Or.inl hold)
      · exact hrest.mpr hR clause (Or.inr hold)
      · simpa only [Clause.refuses, getElem?_added] using hnew

theorem Conditions.Means.candidateIf (p : Prop) [Decidable p] (h : c.Means server X Y R) :
    (if p then c.addCandidate column value else c).Means server
      (fun row => X row ∧ (p → column.holds server row value = true)) Y
      (R ∧ (p → column.refuses server value = none)) := by
  split
  · rename_i hp
    simpa only [hp, true_imp_iff] using h.addCandidate
  · rename_i hp
    simpa only [hp, false_imp_iff, and_true] using h

theorem Conditions.Means.finalIf (p : Prop) [Decidable p] (h : c.Means server X Y R) :
    (if p then c.addFinal column value else c).Means server X
      (fun row => Y row ∧ (p → column.holds server row value = true))
      (R ∧ (p → column.refuses server value = none)) := by
  split
  · rename_i hp
    simpa only [hp, true_imp_iff] using h.addFinal
  · rename_i hp
    simpa only [hp, false_imp_iff, and_true] using h

theorem Conditions.Means.since (since : Option Timestamp) (h : c.Means server X Y R) :
    (match since with
      | some since => c.addCandidate .since (.time since)
      | none => c).Means server
      (fun row => X row ∧ ∀ time, since = some time → time ≤ row.r.scannedAt) Y R := by
  cases since with
  | none => exact h.congr (fun _ => by simp) (fun _ => Iff.rfl) Iff.rfl
  | some time =>
    exact h.addCandidate.congr (fun row => by simp [Column.holds]) (fun _ => Iff.rfl)
      (by simp [Column.refuses])

theorem Conditions.Means.available (available : Option Bool) (h : c.Means server X Y R) :
    (match available with
      | some available => c.addFinal .available (.bool available)
      | none => c).Means server X
      (fun row => Y row ∧ ∀ value, available = some value → row.r.available = value) R := by
  cases available with
  | none => exact h.congr (fun _ => Iff.rfl) (fun _ => by simp) Iff.rfl
  | some value =>
    exact h.addFinal.congr (fun _ => Iff.rfl) (fun row => by simp [Column.holds])
      (by simp [Column.refuses])

end Means

section Dataset

variable {server : ResultServer} {s : ResultStore} {filter : ResultFilter} {withJob : Bool}
  {row : ResultRow}

/-- The assembled conditions mean what they should, each with its own argument. -/
theorem means_resultDataset (server : ResultServer) (filter : ResultFilter) (withJob : Bool) :
    (resultDataset server filter true withJob).conditions.Means server
      (Candidate server filter withJob) (Final server filter) (Accepted server filter withJob) := by
  refine (((((((((((Conditions.Means.empty server).candidateIf (filter.agentID ≠ "")).candidateIf
    (withJob = true ∧ filter.jobID ≠ "")).candidateIf (filter.region ≠ "")).candidateIf
    (filter.continent ≠ "")).candidateIf (filter.targetIP ≠ "")).since filter.since).available
    filter.available).finalIf (true = true ∧ filter.colo ≠ "")).finalIf
    (true = true ∧ filter.coloCity ≠ "")).finalIf (true = true ∧ filter.coloCountry ≠ "")).finalIf
    (true = true ∧ filter.coloContinent ≠ "") |>.congr (fun row => ?_) (fun row => ?_) ?_
  · simp only [Column.holds, decide_eq_true_eq, true_and]
    constructor
    · rintro ⟨⟨⟨⟨⟨hagent, hjob⟩, hregion⟩, hcontinent⟩, htarget⟩, hsince⟩
      exact ⟨hagent, hjob, hregion, hcontinent, htarget, hsince⟩
    · rintro ⟨hagent, hjob, hregion, hcontinent, htarget, hsince⟩
      exact ⟨⟨⟨⟨⟨hagent, hjob⟩, hregion⟩, hcontinent⟩, htarget⟩, hsince⟩
  · simp only [Column.holds, decide_eq_true_eq, true_and]
    constructor
    · rintro ⟨⟨⟨⟨havailable, hcolo⟩, hcity⟩, hcountry⟩, hcontinent⟩
      exact ⟨havailable, hcolo, hcity, hcountry, hcontinent⟩
    · rintro ⟨havailable, hcolo, hcity, hcountry, hcontinent⟩
      exact ⟨⟨⟨⟨havailable, hcolo⟩, hcity⟩, hcountry⟩, hcontinent⟩
  · simp only [Column.refuses, ite_eq_right_iff, reduceCtorEq, imp_false, true_and,
      Bool.not_eq_false]
    constructor
    · rintro ⟨⟨⟨⟨⟨⟨⟨⟨hagent, hjob⟩, hregion⟩, hcontinent⟩, htarget⟩, hcolo⟩, hcity⟩, hcountry⟩,
        hplace⟩
      exact ⟨hagent, hjob, hregion, hcontinent, htarget, hcolo, hcity, hcountry, hplace⟩
    · rintro ⟨hagent, hjob, hregion, hcontinent, htarget, hcolo, hcity, hcountry, hplace⟩
      exact ⟨⟨⟨⟨⟨⟨⟨⟨hagent, hjob⟩, hregion⟩, hcontinent⟩, htarget⟩, hcolo⟩, hcity⟩, hcountry⟩,
        hplace⟩

theorem rank_eq_one {rows : List ResultRow} : row.rank rows = 1 ↔
    ∀ other ∈ rows, other.group = row.group → other.newer row = false := by
  unfold ResultRow.rank
  simp only [Nat.add_eq_left, List.countP_eq_zero, Bool.and_eq_true, decide_eq_true_eq, not_and,
    Bool.not_eq_true]

/-- What a query returns with its own arguments. -/
def resultRows (server : ResultServer) (s : ResultStore) (filter : ResultFilter) (withJob : Bool) :
    List ResultRow :=
  (resultDataset server filter true withJob).filtered server
    (resultDataset server filter true withJob).conditions.args s

/-- What comes behind its arguments does not matter. -/
theorem filtered_append (more : List Arg) :
    (resultDataset server filter true withJob).filtered server
        ((resultDataset server filter true withJob).conditions.args ++ more) s =
      resultRows server s filter withJob := by
  have hmeans := means_resultDataset server filter withJob
  generalize hd : resultDataset server filter true withJob = d at hmeans
  have hcandidate : ∀ row, d.conditions.candidate.all (Clause.holds server
      (d.conditions.args ++ more) row) =
        d.conditions.candidate.all (Clause.holds server d.conditions.args row) := by
    intro row
    have hown := hmeans.candidate [] row
    rw [List.append_nil] at hown
    rw [Bool.eq_iff_iff, hmeans.candidate, hown]
  have hfinal : ∀ row, d.conditions.final.all (Clause.holds server
      (d.conditions.args ++ more) row) =
        d.conditions.final.all (Clause.holds server d.conditions.args row) := by
    intro row
    have hown := hmeans.final [] row
    rw [List.append_nil] at hown
    rw [Bool.eq_iff_iff, hmeans.final, hown]
  simp only [resultRows, hd, Dataset.filtered, Dataset.selected, Dataset.candidates, hcandidate,
    hfinal]

/-- The rows of a query are what its filter is for. -/
theorem mem_resultRows (hview : filter.view = "latest" ∨ filter.view = "history") :
    row ∈ resultRows server s filter withJob ↔ Passes server s filter withJob row := by
  have hmeans := means_resultDataset server filter withJob
  have hcandidates : ∀ row, row ∈ (resultDataset server filter true withJob).candidates server
      (resultDataset server filter true withJob).conditions.args s ↔
        row ∈ s.joined ∧ Candidate server filter withJob row := by
    intro row
    rw [Dataset.candidates, List.mem_filter, ← hmeans.candidate [], List.append_nil]
  have hselected : row ∈ (resultDataset server filter true withJob).selected server
      (resultDataset server filter true withJob).conditions.args s ↔
        (row ∈ s.joined ∧ Candidate server filter withJob row) ∧
          (filter.view ≠ "history" → LatestAmong s (Candidate server filter withJob) row) := by
    have hlatest : (resultDataset server filter true withJob).latest = decide (filter.view = "latest") :=
      rfl
    unfold Dataset.selected
    rw [hlatest]
    rcases hview with hview | hview
    · rw [hview, if_pos (by decide), List.mem_filter, hcandidates, decide_eq_true_eq, rank_eq_one]
      refine and_congr_right fun _ => ?_
      simp only [hcandidates, and_imp, LatestAmong]
      exact ⟨fun h _ => h, fun h => h (by decide)⟩
    · rw [hview, if_neg (by decide), hcandidates]
      simp
  have hfinal := hmeans.final [] row
  rw [List.append_nil] at hfinal
  rw [resultRows, Dataset.filtered, List.mem_filter, hselected, hfinal]
  constructor
  · rintro ⟨⟨⟨hjoined, hcandidate⟩, hlatest⟩, hfinal⟩
    exact ⟨hjoined, hcandidate, hlatest, hfinal⟩
  · rintro ⟨hjoined, hcandidate, hlatest, hfinal⟩
    exact ⟨⟨⟨hjoined, hcandidate⟩, hlatest⟩, hfinal⟩

theorem nodup_resultRows (server : ResultServer) (s : ResultStore) (filter : ResultFilter)
    (withJob : Bool) : (resultRows server s filter withJob).Nodup := by
  unfold resultRows Dataset.filtered Dataset.selected
  have hcandidates : ((resultDataset server filter true withJob).candidates server
    (resultDataset server filter true withJob).conditions.args s).Nodup := (nodup_joined s).filter _
  split
  · exact (hcandidates.filter _).filter _
  · exact hcandidates.filter _

/-- A query whose arguments the server takes returns its rows. -/
theorem query_accepted (h : Accepted server filter withJob) (more : List Arg) :
    (resultDataset server filter true withJob).query server
        ((resultDataset server filter true withJob).conditions.args ++ more) s =
      .ok (resultRows server s filter withJob) := by
  have hnone := ((means_resultDataset server filter withJob).accepted more).mpr h
  simp only [Dataset.query, hnone, filtered_append]

theorem query_own (h : Accepted server filter withJob) :
    (resultDataset server filter true withJob).query server
        (resultDataset server filter true withJob).conditions.args s =
      .ok (resultRows server s filter withJob) := by
  rw [← query_accepted h [], List.append_nil]

theorem query_refused (h : ¬ Accepted server filter withJob) :
    ∃ error, (resultDataset server filter true withJob).query server
      (resultDataset server filter true withJob).conditions.args s = .error error := by
  have hsome := mt ((means_resultDataset server filter withJob).accepted []).mp h
  rw [List.append_nil] at hsome
  unfold Dataset.query
  split
  · exact ⟨_, rfl⟩
  · exact absurd ‹_› hsome

end Dataset

end Cfscan.Results
