import TreeQuery.Proofs.ShiftedFindings

/-! The order of the reports. Sorting keeps reports at one place in their order, so a report is put before all that it
does not come after, and reports on two parts of a text are sorted part by part. -/

namespace TreeQuery.Diagnostic.Report

variable {report : Report} {reports before after : List Report}

private theorem precedes_iff {a b : Report} : a.precedes b = true ↔ a.span.start < b.span.start ∨
    a.span.start = b.span.start ∧ (a.span.stop < b.span.stop ∨ a.span.stop = b.span.stop ∧ a.kind.rank ≤ b.kind.rank) := by
  simp [precedes]

theorem precedes_trans (a b c : Report) (first : a.precedes b = true) (second : b.precedes c = true) : a.precedes c = true := by
  rw [precedes_iff] at *
  omega

theorem precedes_total (a b : Report) : (a.precedes b || b.precedes a) = true := by
  rw [Bool.or_eq_true, precedes_iff, precedes_iff]
  omega

theorem precedes_of_start {a b : Report} (earlier : a.span.start < b.span.start) : a.precedes b = true :=
  precedes_iff.mpr (.inl earlier)

private theorem not_precedes_of_start {a b : Report} (later : b.span.start < a.span.start) : a.precedes b = false := by
  rw [← Bool.not_eq_true, precedes_iff]
  omega

/-- Where the first report of a list goes once the others are sorted. -/
private theorem sort_cons (report : Report) (reports : List Report) :
    ∃ before after, sort (report :: reports) = before ++ report :: after ∧ sort reports = before ++ after ∧
      (∀ other ∈ before, report.precedes other = false) ∧ ∀ other ∈ after, report.precedes other = true := by
  obtain ⟨before, after, placed, rest, late⟩ := List.mergeSort_cons precedes_trans precedes_total report reports
  have sorted := List.pairwise_mergeSort precedes_trans precedes_total (report :: reports)
  rw [placed, List.pairwise_append, List.pairwise_cons] at sorted
  exact ⟨before, after, placed, rest, fun other member => by simpa using late other member, sorted.2.1.1⟩

/-- There is no other place for it. -/
private theorem sort_insert (rest : sort reports = before ++ after) (late : ∀ other ∈ before, report.precedes other = false)
    (early : ∀ other ∈ after, report.precedes other = true) : sort (report :: reports) = before ++ report :: after := by
  obtain ⟨first, last, placed, split, late', early'⟩ := sort_cons report reports
  have taken {front back : List Report} (late : ∀ other ∈ front, report.precedes other = false)
      (early : ∀ other ∈ back, report.precedes other = true) :
      (front ++ back).takeWhile (fun other => !report.precedes other) = front := by
    rw [List.takeWhile_append_of_pos fun other member => by simp [late other member]]
    cases back with
    | nil => simp
    | cons other back => simp [early other List.mem_cons_self]
  have same : first = before := by rw [← taken late' early', ← split, rest, taken late early]
  subst same
  rw [placed, List.append_cancel_left (split.symm.trans rest)]

private theorem sort_filter {test : Report → Bool} (member : report ∈ sort (reports.filter test)) : test report = true :=
  (List.mem_filter.mp (List.mem_mergeSort.mp member)).2

/-- The reports that begin before some offset come first, whatever the others are. -/
private theorem sort_divided (cut : Nat) (reports : List Report) :
    sort reports = sort (reports.filter (·.span.start < cut)) ++ sort (reports.filter (cut ≤ ·.span.start)) := by
  have first {reports : List Report} {other : Report} (member : other ∈ sort (reports.filter (·.span.start < cut))) :
      other.span.start < cut := by simpa using sort_filter member
  have last {reports : List Report} {other : Report} (member : other ∈ sort (reports.filter (cut ≤ ·.span.start))) :
      cut ≤ other.span.start := by simpa using sort_filter member
  induction reports with
  | nil => simp [sort]
  | cons report reports ih =>
    by_cases early : report.span.start < cut
    · obtain ⟨before, after, placed, split, passes, stays⟩ := sort_cons report (reports.filter (·.span.start < cut))
      rw [List.filter_cons_of_pos (by simpa using early), List.filter_cons_of_neg (by simpa using early), placed,
        List.append_assoc, List.cons_append]
      refine sort_insert (ih.trans (by rw [split, List.append_assoc])) passes fun other member => ?_
      rcases List.mem_append.mp member with near | far
      · exact stays other near
      · exact precedes_of_start (Nat.lt_of_lt_of_le early (last far))
    · have late : cut ≤ report.span.start := Nat.le_of_not_lt early
      obtain ⟨before, after, placed, split, passes, stays⟩ := sort_cons report (reports.filter (cut ≤ ·.span.start))
      rw [List.filter_cons_of_neg (by simpa using late), List.filter_cons_of_pos (by simpa using late), placed,
        ← List.append_assoc]
      refine sort_insert (ih.trans (by rw [split, List.append_assoc])) (fun other member => ?_) stays
      rcases List.mem_append.mp member with near | far
      · exact not_precedes_of_start (Nat.lt_of_lt_of_le (first near) late)
      · exact passes other far

/-- Parts that begin before some offset and parts that do not are told apart, however they are mixed. -/
theorem sort_parted {α : Type} (cut : Nat) (sources : List α) {first second : α → List Report}
    (early : ∀ source, ∀ report ∈ first source, report.span.start < cut)
    (late : ∀ source, ∀ report ∈ second source, cut ≤ report.span.start) :
    sort (sources.flatMap fun source => first source ++ second source) =
      sort (sources.flatMap first) ++ sort (sources.flatMap second) := by
  have before : (sources.flatMap fun source => first source ++ second source).filter (·.span.start < cut) = sources.flatMap first := by
    rw [List.filter_flatMap]
    congr 1
    funext source
    have kept : (first source).filter (·.span.start < cut) = first source :=
      List.filter_eq_self.mpr fun report member => decide_eq_true (early source report member)
    have none : (second source).filter (·.span.start < cut) = [] :=
      List.filter_eq_nil_iff.mpr fun report member => by simpa using late source report member
    rw [List.filter_append, kept, none, List.append_nil]
  have after : (sources.flatMap fun source => first source ++ second source).filter (cut ≤ ·.span.start) = sources.flatMap second := by
    rw [List.filter_flatMap]
    congr 1
    funext source
    have none : (first source).filter (cut ≤ ·.span.start) = [] :=
      List.filter_eq_nil_iff.mpr fun report member => by simpa using early source report member
    have kept : (second source).filter (cut ≤ ·.span.start) = second source :=
      List.filter_eq_self.mpr fun report member => decide_eq_true (late source report member)
    rw [List.filter_append, none, kept, List.nil_append]
  rw [sort_divided cut, before, after]

theorem sort_shift (distance : Nat) (reports : List Report) :
    sort (reports.map (shift distance)) = (sort reports).map (shift distance) := by
  refine (List.map_mergeSort fun a _ b _ => ?_).symm
  rw [Bool.eq_iff_iff, precedes_iff, precedes_iff]
  simp [Text.Span.shift]

end TreeQuery.Diagnostic.Report
