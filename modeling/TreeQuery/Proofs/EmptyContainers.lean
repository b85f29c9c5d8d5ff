import TreeQuery.Proofs.DistinctFindings
import TreeQuery.Proofs.FieldOwners

/-! Which groupings and lists are called empty: those that hold no item, each of them once. An anchor, a capture and what
is skipped are no items, so that not all of these are without content. -/

namespace TreeQuery

/-- The reports that say one thing of one place. -/
def Diagnostic.Report.sayingAt (found : Diagnostic.Kind) (span : Text.Span) (reports : List Report) : List Report :=
  reports.filter fun report => report.kind = found ∧ report.span = span

namespace Syntax
open Shape

/-- Groupings and lists with their delimiters, and what they are called when they are empty. -/
inductive IsContainer : NodeKind → TokenKind → TokenKind → Diagnostic.Kind → Prop
  | grouping : IsContainer .grouping .parenOpen .parenClose .emptyGrouping
  | list : IsContainer .list .bracketOpen .bracketClose .emptyList

def Kind.isItem : Kind → Bool
  | .node kind => kind.isItem
  | .token _ => false

variable {kind : NodeKind} {opener closer : TokenKind} {found : Diagnostic.Kind} {missing : Bool} {place : Placed}
  {word before after : List Kind}

/-- What stands between two delimiters, or up to the end if there is no closing one. -/
def Placed.content (opener closer : TokenKind) (place : Placed) : List Placed :=
  (place.children.dropWhile (·.kind ≠ .token opener)).tail.takeWhile (·.kind ≠ .token closer)

private theorem Kind.isItem_of_trivia {kind : Kind} (trivia : kind.isTrivia = true) : kind.isItem = false := by
  cases kind with
  | node => cases trivia
  | token => rfl

private theorem IsContainer.opener? (container : IsContainer kind opener closer found) : kind.opener? = some opener := by
  cases container <;> rfl

/-- The closing delimiter of a container is followed by a quantifier and captures at most. -/
private theorem IsContainer.after_closer (container : IsContainer kind opener closer found)
    (fits : word ∈ (shape missing kind).matches') (split : word = before ++ .token closer :: after) :
    ∀ kind ∈ after, kind.isItem = false := by
  have fits : word ∈ (token opener * bodyShape closer).matches' := by
    cases container <;> exact fits
  have others : .token closer ∉ itemKinds ∧ Kind.token closer ≠ .token opener ∧ .token closer ∉ letters suffixShape := by
    cases container <;> decide
  obtain ⟨_, rfl, _, ⟨items, listed, _, ⟨closed, written, suffix, ends, rfl⟩, rfl⟩, rfl⟩ := mem_seq.mp fits
  have outside : .token closer ∉ suffix := fun inside => others.2.2 (mem_letters ends _ inside)
  have front : .token closer ∉ Kind.token opener :: items := by
    intro inside
    rcases List.mem_cons.mp inside with same | inside
    · exact others.2.1 same
    · exact others.1 (mem_many.mp listed _ inside)
  rcases mem_maybe.mp written with rfl | rfl
  · have inside : .token closer ∈ (Kind.token opener :: items) ++ suffix := by
      rw [show (Kind.token opener :: items) ++ suffix = before ++ .token closer :: after from split]
      simp
    exact ((List.mem_append.mp inside).elim front outside).elim
  · have split : (Kind.token opener :: items) ++ .token closer :: suffix = before ++ .token closer :: after := split
    obtain ⟨-, -, rfl⟩ := (List.append_cons_inj_of_notMem front outside).mp split
    have plain : ∀ kind ∈ letters suffixShape, kind.isItem = false := by decide
    exact fun kind inside => plain kind (mem_letters ends kind inside)

/-- A place is cut at its delimiters. -/
private theorem Placed.content_split (closer : TokenKind) (opened : ∃ child ∈ place.children, child.kind = .token opener) :
    ∃ before first after, place.children = before ++ first :: (place.content opener closer ++ after) ∧
      (∀ child ∈ before, child.kind ≠ .token opener) ∧ first.kind = .token opener ∧
      (after = [] ∨ ∃ last rest, after = last :: rest ∧ last.kind = .token closer) := by
  have begins := List.head?_dropWhile_not (fun child : Placed => child.kind ≠ .token opener) place.children
  cases inner : place.children.dropWhile (·.kind ≠ .token opener) with
  | nil =>
    obtain ⟨child, inside, shape⟩ := opened
    exact absurd shape (by simpa using List.dropWhile_eq_nil_iff.mp inner child inside)
  | cons first rest =>
    rw [inner] at begins
    refine ⟨place.children.takeWhile (·.kind ≠ .token opener), first, rest.dropWhile (·.kind ≠ .token closer), ?_, ?_,
      by simpa using begins, ?_⟩
    · rw [Placed.content, inner, List.tail_cons, List.takeWhile_append_dropWhile, ← inner, List.takeWhile_append_dropWhile]
    · exact fun child inside => by simpa using List.mem_takeWhile_imp inside
    · have ends := List.head?_dropWhile_not (fun child : Placed => child.kind ≠ .token closer) rest
      cases outer : rest.dropWhile (·.kind ≠ .token closer) with
      | nil => exact .inl rfl
      | cons last rest =>
        rw [outer] at ends
        exact .inr ⟨last, rest, rfl, by simpa using ends⟩

section Content

variable (container : IsContainer kind opener closer found) (fits : row place.tree.children ∈ (shape missing kind).matches')

include container fits

/-- Nothing but trivia stands before the opening delimiter. -/
private theorem IsContainer.before_opener {before after : List Placed} (whole : place.children = before ++ after)
    (apart : ∀ child ∈ before, child.kind ≠ .token opener) : ∀ child ∈ before, child.kind.isTrivia = true := by
  obtain ⟨rest, opens⟩ := row_opens fits container.opener?
  rw [← Placed.solids_kinds, Placed.solids, whole, List.filter_append, List.map_append] at opens
  intro child inside
  by_contra solid
  have listed : child ∈ before.filter (!·.kind.isTrivia) := List.mem_filter.mpr ⟨inside, by simpa using solid⟩
  cases words : before.filter (!·.kind.isTrivia) with
  | nil => simp [words] at listed
  | cons first others =>
    rw [words] at opens
    have among : first ∈ before := (List.mem_filter.mp (words ▸ List.mem_cons_self)).1
    exact apart first among (List.cons.inj opens).1

/-- No item stands after the closing delimiter. -/
private theorem IsContainer.items_closed {before after : List Placed} {last : Placed}
    (whole : place.children = before ++ last :: after)
    (closes : last.kind = .token closer) : ∀ child ∈ after, child.kind.isItem = false := by
  have solid : last.kind.isTrivia = false := by
    rw [closes]
    cases container <;> rfl
  rw [← Placed.solids_kinds, Placed.solids, whole, List.filter_append, List.filter_cons_of_pos (by simp [solid]),
    List.map_append, List.map_cons, closes] at fits
  intro child inside
  by_cases trivia : child.kind.isTrivia = true
  · exact Kind.isItem_of_trivia trivia
  · have listed : child ∈ after.filter (!·.kind.isTrivia) := List.mem_filter.mpr ⟨inside, by simpa using trivia⟩
    exact container.after_closer fits rfl _ (List.mem_map_of_mem listed)

/-- The items of a container are those between its delimiters. -/
private theorem IsContainer.items_content : place.items = (place.content opener closer).filter (·.kind.isItem) := by
  have items : place.items = place.children.filter (·.kind.isItem) := by
    refine List.filter_congr fun child _ => ?_
    cases child.kind <;> rfl
  obtain ⟨rest, opens⟩ := row_opens fits container.opener?
  obtain ⟨before, first, after, whole, front, begins, ends⟩ :=
    Placed.content_split closer (Placed.child_of_row (opens ▸ List.mem_cons_self))
  have early : before.filter (·.kind.isItem) = [] := List.filter_eq_nil_iff.mpr fun child inside => by
    simp [Kind.isItem_of_trivia (container.before_opener fits whole front child inside)]
  have late : after.filter (·.kind.isItem) = [] := by
    rcases ends with rfl | ⟨last, rest, rfl, closes⟩
    · rfl
    · have split : place.children = (before ++ first :: place.content opener closer) ++ last :: rest := by
        rw [List.append_assoc]
        exact whole
      rw [List.filter_cons_of_neg (by simp [closes, Kind.isItem])]
      exact List.filter_eq_nil_iff.mpr fun child inside => by simp [container.items_closed fits split closes child inside]
  have opener : first.kind.isItem = false := by rw [begins]; rfl
  rw [items, whole, List.filter_append, List.filter_cons_of_neg (by simp [opener]), List.filter_append, early, late,
    List.nil_append, List.append_nil]

end Content

end Syntax

namespace Lint
open Syntax Diagnostic

variable {settings : Settings} {limit : Nat} {source : String} {kind : NodeKind} {opener closer : TokenKind}
  {found : Diagnostic.Kind} {site other : Site} {report : Report} {finder : Regex.Finder}

private theorem checksOf_container (container : IsContainer kind opener closer found) (made : site.place.kind = .node kind) :
    checksOf site = if site.place.items = [] then [.emptyContainer] else [] := by
  cases container <;> simp [checksOf, made, List.isEmpty_iff]

/-- Only of containers without items is said that they are empty. -/
private theorem empty_reported (member : report ∈ run settings (parse limit source).tree finder)
    (told : report.kind.source = "empty_container") :
    ∃ site ∈ (parse limit source).tree.nodeSites, ∃ kind opener closer, IsContainer kind opener closer report.kind ∧
      site.place.kind = .node kind ∧ site.place.items = [] ∧ report = .of report.kind site.place.span := by
  obtain ⟨check, _, member⟩ := List.mem_flatMap.mp member
  obtain ⟨_, among, rfl, here⟩ := mem_runCheck member
  obtain ⟨site, listed, among⟩ := List.mem_flatMap.mp among
  obtain ⟨check, asked, rfl⟩ := List.mem_map.mp among
  have own := (reports_source (concerns asked) here).symm.trans told
  obtain rfl : check = .emptyContainer := by
    revert own
    cases check <;> decide
  have empty {kind : NodeKind} {opener closer : TokenKind} {found : Diagnostic.Kind}
      (container : IsContainer kind opener closer found) (made : site.place.kind = .node kind) : site.place.items = [] := by
    rw [checksOf_container container made] at asked
    by_contra filled
    rw [if_neg filled] at asked
    cases asked
  rcases concerns asked with made | made
  · obtain rfl : report = .of .emptyGrouping site.place.span := by simpa [Check.reports, Placed.isNode, made] using here
    exact ⟨site, listed, _, _, _, .grouping, made, empty .grouping made, rfl⟩
  · obtain rfl : report = .of .emptyList site.place.span := by simpa [Check.reports, Placed.isNode, made] using here
    exact ⟨site, listed, _, _, _, .list, made, empty .list made, rfl⟩

private theorem mem_run_empty (container : IsContainer kind opener closer found)
    (listed : site ∈ (parse limit source).tree.nodeSites)
    (made : site.place.kind = .node kind) (empty : site.place.items = []) :
    Report.of found site.place.span ∈ run settings (parse limit source).tree finder := by
  have asked : (⟨.emptyContainer, site.place⟩ : Finding) ∈ findings (parse limit source).tree :=
    List.mem_flatMap.mpr ⟨site, listed, by simp [checksOf_container container made, empty]⟩
  refine List.mem_flatMap.mpr ⟨.emptyContainer, by decide, List.mem_flatMap.mpr ⟨_, asked, ?_⟩⟩
  rw [if_pos rfl]
  refine List.mem_singleton.mpr ?_
  cases container <;> simp [Placed.isNode, made]

/-- Containers of one span are one container. -/
private theorem container_unique {twin : NodeKind} {opener' closer' : TokenKind}
    (listed : site ∈ (parse limit source).tree.nodeSites)
    (among : other ∈ (parse limit source).tree.nodeSites) (container : IsContainer kind opener closer found)
    (container' : IsContainer twin opener' closer' found) (made : site.place.kind = .node kind)
    (made' : other.place.kind = .node twin) (same : other.place.span = site.place.span) : other.place = site.place := by
  have begins {site : Site} {kind : NodeKind} {opener closer : TokenKind} (listed : site ∈ (parse limit source).tree.nodeSites)
      (container : IsContainer kind opener closer found) (made : site.place.kind = .node kind) :
      BeginsIn (parse limit source).tree (.of found site.place.span) (site.place :: site.above) := by
    refine .of_marks (.whole made container.opener? rfl) (Tree.mem_nodeSites.mp listed).1 ?_
    cases container <;> simp [Placed.isNode, made]
  exact (List.cons.inj ((begins among container' made').unique (begins listed container made) (congrArg Text.Span.start same))).1

/-- What a run says of a container, and says once. -/
private theorem run_container (container : IsContainer kind opener closer found)
    (listed : site ∈ (parse limit source).tree.nodeSites)
    (made : site.place.kind = .node kind) :
    Report.sayingAt found site.place.span (run settings (parse limit source).tree finder) =
      if site.place.items = [] then [.of found site.place.span] else [] := by
  have own {report : Report} (member : report ∈ run settings (parse limit source).tree finder) (called : report.kind = found)
      (same : report.span = site.place.span) : site.place.items = [] ∧ report = .of found site.place.span := by
    have told : report.kind.source = "empty_container" := by
      rw [called]
      cases container <;> rfl
    obtain ⟨other, among, _, _, _, container', made', empty, whole⟩ := empty_reported member told
    rw [called] at container' whole
    have spans : other.place.span = site.place.span := by rw [← same, whole]; rfl
    have places := container_unique listed among container container' made made' spans
    exact ⟨places ▸ empty, places ▸ whole⟩
  split
  next empty =>
    refine filter_unique (run_nodup settings finder limit source) (mem_run_empty container listed made empty)
      fun report member => ?_
    rw [decide_eq_true_iff]
    constructor
    · exact fun ⟨called, same⟩ => (own member called same).2
    · rintro rfl
      exact ⟨rfl, rfl⟩
  next filled =>
    refine List.filter_eq_nil_iff.mpr fun report member told => filled ?_
    obtain ⟨called, same⟩ := of_decide_eq_true told
    exact (own member called same).1

end Lint

namespace Analyzer
open Syntax Diagnostic

variable {limit : Nat} {source : String} {site : Site} {kind : NodeKind} {opener closer : TokenKind}
  {found : Diagnostic.Kind} {report : Report} {finder : Regex.Finder}

private theorem called_container {analyzer : Analyzer} (member : report ∈ analyzer.diagnostics (.ofText limit source) finder)
    (called : report.kind = .emptyGrouping ∨ report.kind = .emptyList) :
    ∃ site ∈ (parse limit source).tree.nodeSites, ∃ kind opener closer, IsContainer kind opener closer report.kind ∧
      site.place.kind = .node kind ∧ report = .of report.kind site.place.span := by
  have told : report.kind.source = "empty_container" := by
    rcases called with called | called <;> rw [called] <;> rfl
  have apart (report : Report) (told : decide (report.kind.source = "empty_container") = true) : report.kind.source ≠ "syntax" := by
    rw [of_decide_eq_true told]
    decide
  have among := (analyzer.diagnostics_checked finder limit source apart).mem_iff.mp
    (List.mem_filter.mpr ⟨member, decide_eq_true told⟩)
  obtain ⟨site, listed, kind, opener, closer, container, made, _, whole⟩ := Lint.empty_reported (List.mem_filter.mp among).1 told
  exact ⟨site, listed, kind, opener, closer, container, made, whole⟩

/-- A container without an item between its delimiters is called empty once, and one with an item never. -/
private theorem container_called (analyzer : Analyzer) (finder : Regex.Finder) (container : IsContainer kind opener closer found)
    (listed : site ∈ (parse limit source).tree.nodeSites) (made : site.place.kind = .node kind) :
    Report.sayingAt found site.place.span (analyzer.diagnostics (.ofText limit source) finder) =
      if (site.place.content opener closer).any (·.kind.isItem) then [] else [.of found site.place.span] := by
  have semantic (report : Report) (told : decide (report.kind = found ∧ report.span = site.place.span) = true) :
      report.kind.source ≠ "syntax" := by
    rw [(of_decide_eq_true told).1]
    cases container <;> decide
  have said := analyzer.diagnostics_checked finder limit source semantic
  rw [← Report.sayingAt, ← Report.sayingAt, Lint.run_container container listed made] at said
  have bare : site.place.items = [] ↔ (site.place.content opener closer).any (·.kind.isItem) = false := by
    rw [container.items_content (parse_fits (Tree.mem_nodeSites.mp listed).1.mem_sites made), List.filter_eq_nil_iff, List.any_eq_false]
  split
  next holds =>
    rw [if_neg (by simp [bare, holds])] at said
    exact said.eq_nil
  next none =>
    rw [if_pos (bare.mpr (by simpa using none))] at said
    exact List.perm_singleton.mp said

/-- Groupings and lists are called empty if no item stands between their delimiters, and then once. That is as it should be of
those that hold an item and of those that hold nothing but trivia, and of no others. -/
theorem itemless_called_empty (analyzer : Analyzer) (finder : Regex.Finder) (limit : Nat) (source : String) :
    (∀ report ∈ analyzer.diagnostics (.ofText limit source) finder, report.kind = .emptyGrouping ∨ report.kind = .emptyList →
      ∃ site ∈ (parse limit source).tree.nodeSites, ∃ kind opener closer, IsContainer kind opener closer report.kind ∧
        site.place.kind = .node kind ∧ report = .of report.kind site.place.span) ∧
    ∀ site ∈ (parse limit source).tree.nodeSites, ∀ kind opener closer found, IsContainer kind opener closer found →
      site.place.kind = .node kind →
        let reported := Report.sayingAt found site.place.span (analyzer.diagnostics (.ofText limit source) finder)
        let content := site.place.content opener closer
        reported = (if content.any (·.kind.isItem) then [] else [.of found site.place.span]) ∧
          (reported = (if content.all (·.kind.isTrivia) then [.of found site.place.span] else []) ↔
            content.all (·.kind.isTrivia) ∨ content.any (·.kind.isItem)) := by
  refine ⟨fun report member called => called_container member called, ?_⟩
  intro site listed kind opener closer found container made reported content
  have own : reported = if content.any (·.kind.isItem) then [] else [.of found site.place.span] :=
    analyzer.container_called finder container listed made
  refine ⟨own, ?_⟩
  rw [own]
  have blank (trivia : content.all (·.kind.isTrivia) = true) : content.any (·.kind.isItem) = false :=
    List.any_eq_false.mpr fun child inside => by simp [Kind.isItem_of_trivia (List.all_eq_true.mp trivia child inside)]
  by_cases trivia : content.all (·.kind.isTrivia) = true
  · simp [trivia, blank trivia]
  · simp [trivia]

/-- A list in a grouping is empty where the grouping is not. -/
theorem inner_list_called : Report.sayingAt .emptyList ⟨1, 4⟩ ((new .default).diagnostics (.ofText 8 "([ ] .)")) =
    [.of .emptyList ⟨1, 4⟩] ∧ ∃ site ∈ (parse 8 "([ ] .)").tree.nodeSites, ∃ kind opener closer,
      IsContainer kind opener closer .emptyList ∧ site.place.kind = .node kind ∧ site.place.span = ⟨1, 4⟩ := by
  obtain ⟨called, containers⟩ := itemless_called_empty (new .default) Regex.fault? 8 "([ ] .)"
  obtain ⟨site, listed, made, same, bare⟩ : ∃ site ∈ (parse 8 "([ ] .)").tree.nodeSites, site.place.kind = .node .list ∧
      site.place.span = ⟨1, 4⟩ ∧ (site.place.content .bracketOpen .bracketClose).any (·.kind.isItem) = false := by
    decide +kernel
  have told := (containers site listed .list _ _ _ .list made).1
  rw [same, bare, if_neg Bool.false_ne_true] at told
  have member : Report.of .emptyList ⟨1, 4⟩ ∈ (new .default).diagnostics (.ofText 8 "([ ] .)") :=
    (List.mem_filter.mp (told ▸ List.mem_singleton_self _)).1
  obtain ⟨other, among, kind, opener, closer, container, shape, whole⟩ := called _ member (.inr rfl)
  exact ⟨told, other, among, kind, opener, closer, container, shape, (congrArg Report.span whole).symm⟩

/-- In `(.)` stands an anchor between the delimiters. -/
theorem anchor_called_empty : ∃ site ∈ (parse 8 "(.)").tree.nodeSites, site.place.kind = .node .grouping ∧
    (site.place.content .parenOpen .parenClose).map Placed.kind = [.token .dot] ∧
    (new .default).diagnostics (.ofText 8 "(.)") = [.of .emptyGrouping site.place.span] := by
  decide +kernel

end Analyzer

end TreeQuery
