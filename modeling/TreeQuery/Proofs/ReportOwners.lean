import TreeQuery.Proofs.ReportSubjects

/-! For which construct a check was made. Items are checked for what owns them, groupings and lists looked through, and
values for the owner of their field. A report tells by its kind which of these it is, and by its place the construct
that it begins in, so it tells the construct that was checked. -/

namespace TreeQuery

namespace Syntax

variable {root place : Placed} {above : List Placed}

theorem Lineage.within (lineage : Lineage root (place :: above)) :
    ∀ holder ∈ above, holder.start ≤ place.start ∧ place.stop ≤ holder.stop := by
  induction above generalizing place with
  | nil => exact nofun
  | cons holder above ih =>
    have inside := Placed.child_within lineage.inside
    intro outer member
    rcases List.mem_cons.mp member with rfl | further
    · exact inside
    · have around := ih lineage.tail outer further
      omega

end Syntax

namespace Lint
open Syntax Diagnostic Grammar

/-- Whether items inside a construct count among those of what holds it. -/
def looksThrough (place : Placed) : Bool := place.isNode .grouping || place.isNode .list

def owner? (above : List Placed) : Option Placed := above.find? (!looksThrough ·)

/-- The construct that an item is checked for: itself where nothing owns it. -/
def subject? : List Placed → Option Placed
  | item :: above => if isUnowned above then some item else owner? above
  | [] => none

/-- The construct that a report of some kind is made for, by the construct it begins in. -/
def judged? (kind : Diagnostic.Kind) (construct : List Placed) : Option Placed :=
  match kind with
  | .nodeHasNoChildren | .invalidChildType | .noLiteralChildren | .invalidChildLiteral
  | .unknownField | .redundantNegation | .negatedRequiredField => subject? construct
  | .invalidFieldValue => subject? (construct.tail.dropWhile looksThrough)
  | _ => construct.head?

variable {settings : Settings} {limit : Nat} {source : String} {root place item holder owner field value node construct : Placed}
  {above between places : List Placed} {report : Report} {reports : List Report} {kinds : List Diagnostic.Kind}
  {resolved : Resolved} {span : Text.Span} {spans : List Text.Span}

section Owners

theorem looksThrough_other {kind : NodeKind} (made : place.kind = .node kind) (closed : kind ≠ .grouping ∧ kind ≠ .list) :
    looksThrough place = false := by
  simp [looksThrough, Placed.isNode, made, closed]

theorem owner?_between (through : ∀ place ∈ between, looksThrough place = true) (stops : looksThrough owner = false) :
    owner? (between ++ owner :: above) = some owner := by
  induction between with
  | nil => simp [owner?, stops]
  | cons place between ih =>
    have further := ih fun place member => through place (List.mem_cons_of_mem _ member)
    simpa [owner?, through place List.mem_cons_self] using further

theorem isUnowned_iff_owner (above : List Placed) :
    isUnowned above = (owner? above).any fun owner => owner.isNode .program || owner.isNode .fieldDefinition := by
  unfold isUnowned owner? looksThrough
  cases above.find? _ <;> rfl

/-- What a named node owns is checked for it. -/
private theorem subject?_owned (through : ∀ place ∈ between, looksThrough place = true) (made : owner.kind = .node .namedNode) :
    subject? (item :: (between ++ owner :: above)) = some owner := by
  have found : owner? (between ++ owner :: above) = some owner := owner?_between through (looksThrough_other made (by decide))
  have owned : isUnowned (between ++ owner :: above) = false := by
    rw [isUnowned_iff_owner, found]
    simp [Placed.isNode, made]
  rw [subject?, owned, found]
  rfl

theorem subject?_unowned (unowned : isUnowned above = true) : subject? (item :: above) = some item := by
  rw [subject?, unowned]
  rfl

theorem Exposes.shape (exposes : Exposes holder item) :
    ∃ kind : NodeKind, item.kind = .node kind ∧ kind.isItem = true ∧ kind ≠ .grouping ∧ kind ≠ .list := by
  induction exposes with
  | itself shape proper closed => exact ⟨_, shape, proper, closed⟩
  | inside _ _ _ ih => exact ih

private theorem Exposes.lineage (exposes : Exposes holder item) (lineage : Lineage root (holder :: above)) :
    ∃ between, Lineage root (item :: (between ++ above)) ∧ ∀ place ∈ between, looksThrough place = true := by
  induction exposes generalizing above with
  | itself => exact ⟨[], lineage, nofun⟩
  | @inside holder child item looked member _ ih =>
    obtain ⟨between, deeper, through⟩ := ih (.child lineage member)
    refine ⟨between ++ [holder], by simpa using deeper, fun place inside => ?_⟩
    rcases List.mem_append.mp inside with below | here
    · exact through place below
    · rw [List.mem_singleton.mp here, looksThrough, Bool.or_eq_true]
      exact looked

theorem Among.lineage (among : Among owner item) (lineage : Lineage root (owner :: above)) :
    ∃ between, Lineage root (item :: (between ++ owner :: above)) ∧ ∀ place ∈ between, looksThrough place = true :=
  have ⟨_, member, exposes⟩ := among
  exposes.lineage (.child lineage member)

theorem InValue.lineage (among : InValue field value) (lineage : Lineage root (field :: above)) :
    ∃ between, Lineage root (value :: (between ++ field :: above)) ∧ ∀ place ∈ between, looksThrough place = true :=
  have ⟨_, found, exposes⟩ := among
  exposes.lineage (.child lineage (List.mem_filter.mp (List.mem_of_head? found)).1)

end Owners

/-- A report that begins in a place or below, made for some construct. -/
structure Judged (tree : Tree) (report : Report) (places : List Placed) (subject : Option Placed) : Prop where
  begins : ∃ construct, BeginsIn tree report construct ∧ places <:+ construct ∧ judged? report.kind construct = subject
  spans : report.Spans tree.leaves

namespace Judged

variable {tree : Tree} {subject : Option Placed}

theorem of_lone (lone : Lone construct kinds spans reports) (member : report ∈ reports)
    (lineage : Lineage ⟨0, (parse limit source).tree⟩ (construct :: above)) (apart : construct.isNode .string = false)
    (told : ∀ kind ∈ kinds, judged? kind (construct :: above) = subject)
    (aside : ∀ span ∈ spans, Covers (parse limit source).tree.leaves span) :
    Judged (parse limit source).tree report (construct :: above) subject :=
  have marks := lone.marks report member
  ⟨⟨_, .of_marks marks lineage apart, List.suffix_refl _, told _ (lone.kinds report member)⟩,
    marks.covers lineage, fun place among => aside _ (lone.related report member place among)⟩

private theorem outer (judged : Judged tree report places subject) (suffix : above <:+ places) :
    Judged tree report above subject :=
  have ⟨construct, begins, inside, told⟩ := judged.begins
  ⟨⟨construct, begins, suffix.trans inside, told⟩, judged.spans⟩

/-- What is reported of a construct begins inside it. -/
theorem within (judged : Judged (parse limit source).tree report (place :: above) subject) :
    place.start ≤ report.span.start ∧ report.span.start < place.stop := by
  obtain ⟨construct, ⟨site, member, start, rfl⟩, inside, _⟩ := judged.begins
  have lineage := Tree.token_lineage member
  have wide := parse_token_wide member
  have around : place ∈ site.above := by
    have among := inside.subset List.mem_cons_self
    cases above : site.above with
    | nil => rw [above] at among; cases among
    | cons holder others =>
      rw [above, constructOf] at among
      split at among
      · exact List.mem_cons_of_mem _ among
      · exact among
  have bounds := lineage.within place around
  omega

/-- Reports of one kind at one place are made for the same construct. -/
theorem unique {other : Report} {others : List Placed} {twin : Option Placed}
    (here : Judged (parse limit source).tree report places subject) (there : Judged (parse limit source).tree other others twin)
    (kind : report.kind = other.kind) (start : report.span.start = other.span.start) : subject = twin := by
  obtain ⟨construct, begins, _, told⟩ := here.begins
  obtain ⟨_, begins', _, told'⟩ := there.begins
  obtain rfl := begins.unique begins' start
  rw [← told, ← told', kind]

end Judged

section Checks

/-- What is reported of a value is reported for the owner of its field. -/
theorem checkFieldValue_judged {allowed : Allowed} (made : field.kind = .node .fieldDefinition)
    (lineage : Lineage ⟨0, (parse limit source).tree⟩ (field :: above)) (exposed : value ∈ flatValues field)
    (member : report ∈ checkFieldValue settings allowed value) : ∃ between,
      Judged (parse limit source).tree report (value :: (between ++ field :: above)) (subject? (field :: above)) := by
  have inside := mem_flatValues.mp exposed
  obtain ⟨between, deeper, through⟩ := inside.lineage lineage
  obtain ⟨kind, shape, proper, _⟩ := inside.elim fun _ found => found.2.shape
  have apart : value.isNode .string = false := by
    simp only [Placed.isNode, shape, decide_eq_false_iff_not]
    rintro ⟨⟩
    cases proper
  have left : (between ++ field :: above).dropWhile looksThrough = field :: above := by
    rw [List.dropWhile_append_of_pos through, List.dropWhile_cons_of_neg]
    simp [looksThrough_other made (by decide)]
  exact ⟨between, .of_lone (checkFieldValue_lone value) member deeper apart (by simp [judged?, left]) nofun⟩

theorem checkField_judged (made : field.kind = .node .fieldDefinition)
    (lineage : Lineage ⟨0, (parse limit source).tree⟩ (field :: above)) (aside : Covers (parse limit source).tree.leaves span)
    (member : report ∈ checkField settings resolved span field) :
    Judged (parse limit source).tree report (field :: above) (subject? (field :: above)) := by
  rcases checkField_cases settings resolved span field with lone | ⟨allowed, values⟩
  · exact .of_lone lone member lineage (by simp [Placed.isNode, made]) (by simp [judged?]) (List.forall_mem_singleton.mpr aside)
  · rw [values] at member
    obtain ⟨value, exposed, member⟩ := List.mem_flatMap.mp member
    obtain ⟨between, judged⟩ := checkFieldValue_judged made lineage exposed member
    exact judged.outer ((List.suffix_append between _).trans (List.suffix_cons _ _))

theorem checkNegatedField_judged (made : item.kind = .node .negatedField)
    (lineage : Lineage ⟨0, (parse limit source).tree⟩ (item :: above)) (member : report ∈ checkNegatedField settings resolved item) :
    Judged (parse limit source).tree report (item :: above) (subject? (item :: above)) :=
  .of_lone (checkNegatedField_lone made) member lineage (by simp [Placed.isNode, made]) (by simp [judged?]) nofun

/-- What is reported of an item is reported for its owner. -/
theorem checkItem_judged (lineage : Lineage ⟨0, (parse limit source).tree⟩ (item :: above))
    (aside : Covers (parse limit source).tree.leaves span) (member : report ∈ checkItem settings resolved span item) :
    Judged (parse limit source).tree report (item :: above) (subject? (item :: above)) := by
  unfold checkItem at member
  split at member
  next made => exact .of_lone (checkChildKind_lone item) member lineage (by simp [Placed.isNode, made]) (by simp [judged?]) nofun
  next made => exact .of_lone (checkChildLiteral_lone item) member lineage (by simp [Placed.isNode, made]) (by simp [judged?]) nofun
  next made => exact checkField_judged made lineage aside member
  next made => exact checkNegatedField_judged made lineage member
  next => cases member

theorem checkNode_cases (settings : Settings) (node : Placed) : checkNode settings node = (resolve settings node).2 ∨
    ∃ resolved, checkNode settings node =
      (resolve settings node).2 ++ (flatItems node).flatMap (checkItem settings resolved (node.kindName?.getD node).span) := by
  unfold checkNode
  obtain ⟨resolved, reports⟩ := resolve settings node
  cases resolved with
  | unknown => exact .inl rfl
  | kind kind => exact .inr ⟨_, rfl⟩
  | anyKind => exact .inr ⟨_, rfl⟩

/-- What is reported of the items of a node may point to its name. -/
theorem kindName_covers (made : node.kind = .node .namedNode) (lineage : Lineage ⟨0, (parse limit source).tree⟩ (node :: above)) :
    Covers (parse limit source).tree.leaves (node.kindName?.getD node).span := by
  cases named : node.kindName? with
  | none => exact lineage.covers_opened made rfl
  | some name =>
    obtain ⟨inside, _, word, _⟩ := Completion.firstToken?_child named
    exact (Lineage.child lineage inside).covers_token word

private theorem resolve_judged (made : node.kind = .node .namedNode)
    (lineage : Lineage ⟨0, (parse limit source).tree⟩ (node :: above))
    (member : report ∈ (resolve settings node).2) :
    Judged (parse limit source).tree report (node :: above) (some node) :=
  .of_lone (resolve_lone node) member lineage (by simp [Placed.isNode, made]) (by simp [judged?]) nofun

theorem checkNode_judged (made : node.kind = .node .namedNode) (lineage : Lineage ⟨0, (parse limit source).tree⟩ (node :: above))
    (member : report ∈ checkNode settings node) : Judged (parse limit source).tree report (node :: above) (some node) := by
  rcases checkNode_cases settings node with own | ⟨resolved, whole⟩
  · exact resolve_judged made lineage (own ▸ member)
  · rw [whole] at member
    rcases List.mem_append.mp member with own | items
    · exact resolve_judged made lineage own
    · obtain ⟨item, exposed, member⟩ := List.mem_flatMap.mp items
      obtain ⟨between, deeper, through⟩ := (mem_flatItems.mp exposed).lineage lineage
      have judged := checkItem_judged deeper (kindName_covers made lineage) member
      rw [subject?_owned through made] at judged
      exact judged.outer ((List.suffix_append between _).trans (List.suffix_cons _ _))

end Checks

end Lint

end TreeQuery
