import TreeQuery.Proofs.ShiftedPlaces
import TreeQuery.Proofs.TreeSites

/-! What the checks report on a construct that stands further on: the same reports, moved as far. -/

namespace TreeQuery

namespace Diagnostic

/-- A report about a text that stands further on, with all its places. -/
def Report.shift (distance : Nat) (report : Report) : Report :=
  { report with
    span := report.span.shift distance
    related := report.related.map fun place => ⟨place.span.shift distance, place.message⟩ }

namespace Report

variable (distance : Nat) (report : Report)

@[simp] theorem shift_kind : (report.shift distance).kind = report.kind := rfl

@[simp] theorem shift_span : (report.shift distance).span = report.span.shift distance := rfl

@[simp] theorem of_shift (kind : Kind) (span : Text.Span) :
    Report.of kind (span.shift distance) = (Report.of kind span).shift distance :=
  rfl

@[simp] theorem withDetail_shift (detail : String) :
    (report.shift distance).withDetail detail = (report.withDetail detail).shift distance := rfl

@[simp] theorem withHint_shift (hint : String) : (report.shift distance).withHint hint = (report.withHint hint).shift distance := rfl

@[simp] theorem withRelated_shift (message : String) (span : Text.Span) :
    (report.shift distance).withRelated message (span.shift distance) =
      (report.withRelated message span).shift distance := by
  simp [withRelated, shift]

@[simp] theorem suggesting_shift (mark : String) (meant : Option String) :
    (report.shift distance).suggesting mark meant = (report.suggesting mark meant).shift distance := by
  cases meant <;> rfl

end Report

end Diagnostic

namespace Lint
open Syntax Diagnostic Grammar

variable (distance : Nat) (settings : Settings)

@[simp] theorem unknownKind_shift (name : Placed) :
    unknownKind settings (name.shift distance) = (unknownKind settings name).shift distance := by
  simp [unknownKind]

private theorem resolveSubtype_shift (name subtype : Placed) :
    resolveSubtype settings (name.shift distance) (subtype.shift distance) =
      (resolveSubtype settings name subtype).map id (List.map (Report.shift distance)) := by
  simp only [resolveSubtype, Placed.shift_text]
  cases settings.env.supertypes.get? name.text <;> simp [apply_ite (Prod.map id (List.map (Report.shift distance)))]

private theorem resolve_shift (node : Placed) :
    resolve settings (node.shift distance) = (resolve settings node).map id (List.map (Report.shift distance)) := by
  simp only [resolve, Placed.shift_isWildcard, Placed.shift_kindName?, Placed.shift_subtype?]
  cases node.isWildcard with
  | true => rfl
  | false =>
    cases node.kindName? with
    | none => rfl
    | some name =>
      cases node.subtype? with
      | some subtype =>
        simp [apply_ite (Prod.map id (List.map (Report.shift distance))), resolveSubtype_shift]
      | none =>
        cases known : settings.env.kinds.get? name.text <;>
          simp [known, apply_ite (Prod.map id (List.map (Report.shift distance)))]

private theorem checkChildKind_shift (parent : NamedKind) (child : Placed) :
    checkChildKind settings parent (child.shift distance) =
      (checkChildKind settings parent child).map (Report.shift distance) := by
  simp only [checkChildKind, checkableName?_shift]
  cases checkableName? child <;> simp [apply_ite (List.map (Report.shift distance))]

private theorem checkChildLiteral_shift (parent : NamedKind) (child : Placed) :
    checkChildLiteral parent (child.shift distance) = (checkChildLiteral parent child).map (Report.shift distance) := by
  simp only [checkChildLiteral, Placed.shift_string?]
  cases child.string? <;> simp [apply_ite (List.map (Report.shift distance))]

private theorem checkFieldValue_shift (allowed : Allowed) (value : Placed) :
    checkFieldValue settings allowed (value.shift distance) =
      (checkFieldValue settings allowed value).map (Report.shift distance) := by
  simp only [checkFieldValue, Placed.shift_kind, checkableName?_shift, Placed.shift_string?]
  split
  · cases checkableName? value <;> simp [apply_ite (List.map (Report.shift distance))]
  · cases value.string? <;> simp [apply_ite (List.map (Report.shift distance))]
  · rfl

@[simp] theorem unknownField_shift (parent : Resolved) (span : Text.Span) (name : Placed) :
    unknownField settings parent (span.shift distance) (name.shift distance) =
      (unknownField settings parent span name).shift distance := by
  cases parent <;> simp [unknownField, apply_ite (Report.shift distance)]

private theorem checkField_shift (parent : Resolved) (span : Text.Span) (field : Placed) :
    checkField settings parent (span.shift distance) (field.shift distance) =
      (checkField settings parent span field).map (Report.shift distance) := by
  simp only [checkField, Placed.shift_identifier?]
  cases field.identifier? with
  | none => rfl
  | some name =>
    cases parent with
    | kind kind =>
      cases own : kind.fields.get? name.text <;> simp [own, List.flatMap_map, List.map_flatMap, checkFieldValue_shift]
    | anyKind | unknown =>
      cases own : settings.env.fields.get? name.text <;> simp [own, List.flatMap_map, List.map_flatMap, checkFieldValue_shift]

private theorem checkNegatedField_shift (parent : Resolved) (negated : Placed) :
    checkNegatedField settings parent (negated.shift distance) =
      (checkNegatedField settings parent negated).map (Report.shift distance) := by
  simp only [checkNegatedField, Placed.shift_identifier?]
  cases negated.identifier? with
  | none => rfl
  | some name =>
    cases parent with
    | kind kind =>
      cases own : kind.fields.get? name.text <;> simp [own, apply_ite (List.map (Report.shift distance))]
    | anyKind => simp [apply_ite (List.map (Report.shift distance))]
    | unknown => simp [apply_ite (List.map (Report.shift distance))]

private theorem checkItem_shift (parent : Resolved) (span : Text.Span) (item : Placed) :
    checkItem settings parent (span.shift distance) (item.shift distance) =
      (checkItem settings parent span item).map (Report.shift distance) := by
  simp only [checkItem, Placed.shift_kind]
  split
  · exact checkChildKind_shift distance settings _ item
  · exact checkChildLiteral_shift distance _ item
  · exact checkField_shift distance settings _ span item
  · exact checkNegatedField_shift distance settings _ item
  · rfl

private theorem checkNode_shift (node : Placed) :
    checkNode settings (node.shift distance) = (checkNode settings node).map (Report.shift distance) := by
  have span : ((node.shift distance).kindName?.getD (node.shift distance)).span =
      (node.kindName?.getD node).span.shift distance := by
    cases name : node.kindName? <;> simp [name]
  simp only [checkNode, resolve_shift, span]
  obtain ⟨parent, reports⟩ := resolve settings node
  cases parent <;> simp [List.flatMap_map, List.map_flatMap, checkItem_shift]

private theorem checkPredicateName_shift (suggestionDistance : Nat) (predicate : Placed) :
    checkPredicateName suggestionDistance (predicate.shift distance) =
      (checkPredicateName suggestionDistance predicate).map (Report.shift distance) := by
  simp only [checkPredicateName, Placed.shift_identifier?, Placed.shift_predicateMark?, Placed.shift_predicateName?]
  cases predicate.identifier? with
  | none => rfl
  | some name =>
    cases predicate.predicateMark? with
    | none => rfl
    | some mark =>
      cases predicate.predicateName? with
      | none => rfl
      | some fullName =>
        have span : (⟨(name.shift distance).start, (mark.shift distance).stop⟩ : Text.Span) =
            Text.Span.shift distance ⟨name.start, mark.stop⟩ := by simp [Text.Span.shift]
        simp only [Option.map_some, span, apply_ite (List.map (Report.shift distance)), Report.of_shift,
          Report.withDetail_shift, Report.suggesting_shift, List.map_cons, List.map_nil]

private theorem spanInString_shift (string : Placed) (value : String) (span : Text.Span) :
    spanInString (string.shift distance) value span = (spanInString string value span).shift distance := by
  simp only [spanInString, Placed.shift_content?]
  cases string.content? with
  | none => simp
  | some content =>
    have within : content.stop + distance < content.start + distance + span.stop ↔
      content.stop < content.start + span.stop := by omega
    simp only [Option.map_some, Placed.shift_text, Placed.shift_stop, Placed.shift_start, Placed.shift_span, within]
    rw [apply_ite (Text.Span.shift distance)]
    simp only [Text.Span.shift, Nat.add_right_comm]
    congr

private theorem checkRegex_shift (finder : Regex.Finder) (predicate : Placed) :
    checkRegex finder (predicate.shift distance) = (checkRegex finder predicate).map (Report.shift distance) := by
  have string : (predicate.shift distance).parameters?.bind (·.strings.head?) =
      (predicate.parameters?.bind (·.strings.head?)).map (Placed.shift distance) := by
    cases parameters : predicate.parameters? <;> simp [parameters]
  simp only [checkRegex, string]
  cases predicate.parameters?.bind (·.strings.head?) with
  | none => rfl
  | some string =>
    simp only [Option.map_some, Placed.shift_stringValue]
    cases finder string.stringValue with
    | none => rfl
    | some fault => simp [spanInString_shift]

/-- A check reports on a construct that stands further on what it reports on the construct where it stands. -/
private theorem reports_shift (finder : Regex.Finder) (check : Check) (place : Placed) :
    check.reports settings finder (place.shift distance) = (check.reports settings finder place).map (Report.shift distance) := by
  cases check with
  | node => exact checkNode_shift distance settings place
  | field => exact checkField_shift distance settings .anyKind place.span place
  | negatedField => exact checkNegatedField_shift distance settings .anyKind place
  | emptyContainer =>
    simp only [Check.reports, Placed.shift_span, Report.of_shift]
    rfl
  | hangingCapture => simp [Check.reports]
  | missingFieldValue =>
    simp only [Check.reports, Placed.shift_identifier?]
    cases place.identifier? <;> simp
  | missingParameters =>
    simp only [Check.reports, Placed.shift_predicateName?]
    cases place.predicateName? <;> simp
  | predicate => exact checkPredicateName_shift distance settings.suggestionDistance place
  | regexPredicate => exact checkRegex_shift distance finder place

def Finding.shift (finding : Finding) : Finding := ⟨finding.check, finding.place.shift distance⟩

/-- Only the kinds of the nodes above tell whether a field is owned. -/
private theorem isUnowned_kinds {above other : List Placed} (same : above.map Placed.kind = other.map Placed.kind) :
    isUnowned above = isUnowned other := by
  let owns : Syntax.Kind → Bool := fun kind => !(kind = .node .grouping || kind = .node .list)
  let leaves : Option Syntax.Kind → Bool
    | some kind => kind = .node .program || kind = .node .fieldDefinition
    | none => false
  have told (above : List Placed) : isUnowned above = leaves ((above.map Placed.kind).find? owns) := by
    rw [List.find?_map]
    change _ = leaves ((above.find? fun place => !(place.isNode .grouping || place.isNode .list)).map Placed.kind)
    unfold isUnowned
    cases above.find? fun place => !(place.isNode .grouping || place.isNode .list) <;> rfl
  rw [told above, told other, same]

private theorem checksOf_shift (place : Placed) {above other : List Placed}
    (same : above.map Placed.kind = other.map Placed.kind) :
    checksOf ⟨place.shift distance, above⟩ = checksOf ⟨place, other⟩ := by
  have blank : (place.parameters?.map (Placed.shift distance)).all Placed.isBlank = place.parameters?.all Placed.isBlank := by
    cases place.parameters? <;> simp
  simp [checksOf, isUnowned_kinds same, blank]

/-- What the checks have to look at among some sites. -/
def findingsAt (sites : List Site) : List Finding :=
  (sites.filter fun site => !site.isToken).flatMap fun site => (checksOf site).map (⟨·, site.place⟩)

private theorem findingsAt_append (sites later : List Site) :
    findingsAt (sites ++ later) = findingsAt sites ++ findingsAt later := by
  rw [findingsAt, List.filter_append, List.flatMap_append]
  rfl

private theorem findingsAt_node (start : Nat) (above : List Placed) (kind : NodeKind) (children : List Tree) :
    findingsAt ((Syntax.Tree.node kind children).sites start above) =
      (checksOf ⟨⟨start, .node kind children⟩, above⟩).map (⟨·, ⟨start, .node kind children⟩⟩) ++
        findingsAt (Tree.sitesOf start (⟨start, .node kind children⟩ :: above) children) := rfl

mutual

private theorem findingsAt_sites (start : Nat) {above other : List Placed}
    (same : above.map Placed.kind = other.map Placed.kind) :
    (tree : Tree) → findingsAt (tree.sites (start + distance) above) =
      (findingsAt (tree.sites start other)).map (Finding.shift distance)
  | .leaf _ => rfl
  | .node kind children => by
    have own : checksOf ⟨⟨start + distance, .node kind children⟩, above⟩ = checksOf ⟨⟨start, .node kind children⟩, other⟩ :=
      checksOf_shift distance ⟨start, .node kind children⟩ same
    have further : List.map Placed.kind (⟨start + distance, .node kind children⟩ :: above) =
        List.map Placed.kind (⟨start, .node kind children⟩ :: other) := congrArg (Syntax.Kind.node kind :: ·) same
    rw [findingsAt_node, findingsAt_node, own, List.map_append, List.map_map, findingsAt_sitesOf start further children]
    rfl

private theorem findingsAt_sitesOf (start : Nat) {above other : List Placed}
    (same : above.map Placed.kind = other.map Placed.kind) :
    (trees : List Tree) → findingsAt (Tree.sitesOf (start + distance) above trees) =
      (findingsAt (Tree.sitesOf start other trees)).map (Finding.shift distance)
  | [] => rfl
  | tree :: rest => by
    rw [Tree.sitesOf, Tree.sitesOf, findingsAt_append, findingsAt_append, List.map_append, findingsAt_sites start same tree,
      Nat.add_right_comm, findingsAt_sitesOf (start + tree.length) same rest]

end

variable {distance} in
/-- The checks of two queries, one after the other with some token between them, are those of the first and then those
of the second. -/
theorem findings_joined (children others : List Tree) (token : Token)
    (far : distance = Tree.lengthOf children + token.length) :
    findings (.node .program (children ++ .leaf token :: others)) =
      findings (.node .program children) ++ (findings (.node .program others)).map (Finding.shift distance) := by
  have whole (children : List Tree) : findings (.node .program children) =
      findingsAt (Tree.sitesOf 0 [⟨0, .node .program children⟩] children) := rfl
  let root : Placed := ⟨0, .node .program (children ++ .leaf token :: others)⟩
  have alike (children : List Tree) : [root].map Placed.kind = [(⟨0, .node .program children⟩ : Placed)].map Placed.kind := rfl
  have front : findingsAt (Tree.sitesOf 0 [root] children) = findings (.node .program children) := by
    have moved : findingsAt (Tree.sitesOf (0 + 0) [root] children) =
        (findingsAt (Tree.sitesOf 0 [⟨0, .node .program children⟩] children)).map (Finding.shift 0) :=
      findingsAt_sitesOf 0 0 (alike children) children
    exact moved.trans (List.map_id _)
  have back : findingsAt (Tree.sitesOf (0 + Tree.lengthOf children) [root] (.leaf token :: others)) =
      (findings (.node .program others)).map (Finding.shift distance) := by
    have moved : findingsAt (Tree.sitesOf (0 + distance) [root] others) =
        (findingsAt (Tree.sitesOf 0 [⟨0, .node .program others⟩] others)).map (Finding.shift distance) :=
      findingsAt_sitesOf distance 0 (alike others) others
    rw [Tree.sitesOf, findingsAt_append, Nat.add_assoc, Tree.length, ← far]
    exact moved
  rw [whole, Tree.sitesOf_append, findingsAt_append, front, back]

/-- What a check reports on two queries, one after the other. -/
theorem runCheck_joined (settings : Settings) (finder : Regex.Finder) (found further : List Finding) (check : Check) :
    runCheck settings (found ++ further.map (Finding.shift distance)) check finder =
      runCheck settings found check finder ++ (runCheck settings further check finder).map (Report.shift distance) := by
  unfold runCheck
  split
  · rfl
  · rw [List.flatMap_append, List.flatMap_map, List.map_flatMap]
    congr 2
    funext finding
    change (if finding.check = check then check.reports settings finder (finding.place.shift distance) else []) = _
    split
    · exact reports_shift distance settings finder check finding.place
    · rfl

end Lint

end TreeQuery
