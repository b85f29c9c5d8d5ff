import TreeQuery.Proofs.DeclaredShapes
import TreeQuery.Proofs.ItemOwners

/-! Contexts that are not handled. In trees whose nodes are as declared only few pairs of a terminal and an
enclosing construct are found above a cursor, and there is a rule for each of them. What is left are the marks
that no construct takes, which stand in errors. -/

namespace TreeQuery.Completion
open Syntax

/-- The terminals that there is a rule for in an enclosing construct. -/
def ruled : Kind → List Kind
  | .node .program =>
    [.node .program, .node .list, .token .identifier, .node .grouping, .node .string, .token .stringContent]
  | .node .capture => [.token .identifier]
  | .node .namedNode =>
    [.node .namedNode, .node .list, .token .identifier, .node .grouping, .node .string, .token .stringContent]
  | .node .fieldDefinition =>
    [.token .identifier, .token .colon, .node .namedNode, .node .program, .node .list, .node .grouping, .node .string,
      .token .stringContent]
  | .node .negatedField =>
    [.token .bang, .token .identifier, .node .namedNode, .node .grouping, .node .list, .node .program]
  | _ => []

/-- Whether a token is a colon or an exclamation mark in an error. -/
def isStray (site : Site) : Bool :=
  (site.place.kind = .token .colon || site.place.kind = .token .bang) && site.above.head?.any (·.isNode .error)

variable {limit offset : Nat} {source : String} {chain above around : List Placed}
  {enclosing terminal parent : Placed}

private theorem contextIn_unruled (unruled : terminal.kind ∉ ruled enclosing.kind) :
    contextIn enclosing above terminal parent = .unhandled := by
  unfold contextIn
  split
  all_goals first
    | next held seen =>
      rw [held, seen] at unruled
      exact absurd (by decide) unruled
    | rfl

/-- The pairs without a rule, captures and negated fields apart. -/
private theorem unruled_pairs {enclosing terminal : Kind} (encloses : isEnclosing enclosing = true)
    (terminates : isTerminal terminal = true) (unruled : terminal ∉ ruled enclosing) :
    enclosing = .node .capture ∨ enclosing = .node .negatedField ∨ terminal = .token .atSign ∨
      (terminal = .token .colon ∨ terminal = .token .bang) ∨
      (enclosing = .node .program ∧ terminal = .node .namedNode) ∨
      (enclosing = .node .namedNode ∧ terminal = .node .program) := by
  unfold isEnclosing at encloses
  unfold isTerminal at terminates
  split at encloses <;> split at terminates
  all_goals first
    | contradiction
    | decide

private theorem fieldValueIn_handled {wrapped : Bool} (named : enclosing.identifier?.isSome = true) :
    fieldValueIn wrapped enclosing above ≠ .unhandled := by
  obtain ⟨name, found⟩ := Option.isSome_iff_exists.mp named
  rw [fieldValueIn, found]
  exact nofun

def FieldsNamed (places : List Placed) : Prop :=
  ∀ field ∈ places, field.isNode .fieldDefinition = true → field.identifier?.isSome = true

private theorem kindNameIn_handled (named : FieldsNamed above) : kindNameIn above ≠ .unhandled := by
  unfold kindNameIn
  split
  next holder rest held =>
    have inside : holder ∈ above := (List.dropWhile_suffix _).subset (held ▸ List.mem_cons_self)
    split
    next field => exact fieldValueIn_handled (named holder inside field)
    next => split <;> simp
  next => simp

private theorem identifierIn_handled (named : FieldsNamed above) :
    identifierIn enclosing above terminal parent ≠ .unhandled := by
  unfold identifierIn
  split
  next => exact kindNameIn_handled named
  next =>
    split
    next => simp
    next => split <;> simp

/-- A rule fails only where a field has no name. -/
private theorem contextIn_handled (known : terminal.kind ∈ ruled enclosing.kind) (named : FieldsNamed (enclosing :: above)) :
    contextIn enclosing above terminal parent ≠ .unhandled := by
  have around : FieldsNamed above := fun field inside => named field (List.mem_cons_of_mem enclosing inside)
  unfold contextIn
  split
  all_goals first
    | next => intro same; cases same
    | exact identifierIn_handled around
    | next held _ => exact fieldValueIn_handled (named enclosing List.mem_cons_self (decide_eq_true held))
    | skip
  next => split <;> simp
  next =>
    simp only [ruled] at known
    split at known <;> simp_all

private theorem contextIn_unhandled_iff (named : FieldsNamed (enclosing :: above)) :
    contextIn enclosing above terminal parent = .unhandled ↔ terminal.kind ∉ ruled enclosing.kind :=
  ⟨fun unhandled known => contextIn_handled known named unhandled, contextIn_unruled⟩

/-- The whole query pins down what is being typed and is a construct that it belongs to. -/
private theorem contextOf_unhandled {children : List Tree} {start : Nat} (inside : ⟨start, .node .program children⟩ ∈ chain)
    (unhandled : contextOf chain = .unhandled) : ∃ enclosing above terminal around,
      Dispatched chain enclosing above terminal around := by
  have told := contextOf_told chain
  rw [unhandled] at told
  generalize same : Context.unhandled = context at told
  cases told with
  | silent | sign => cases same
  | apart free => exact absurd rfl (free _ inside rfl)
  | pair dispatched => exact ⟨_, _, _, _, dispatched⟩

section Shapes

variable {place holder : Placed} {kind : NodeKind}

theorem parse_parts (lineage : Lineage ⟨0, (parse limit source).tree⟩ (place :: holder :: above))
    (made : holder.kind = .node kind) (solid : place.kind.isTrivia = false) : place.kind ∈ kind.parts := by
  exact mem_parts (parse_fits lineage.tail.mem_sites made) (Placed.mem_line lineage.inside) solid

/-- Whether nothing but tokens stands in a node. -/
def isFlat (kind : NodeKind) : Bool :=
  kind.parts.all fun
    | .token _ => true
    | .node _ => false

/-- Of the nodes above a token only the nearest can be one that holds tokens only. -/
theorem flat_nearest (lineage : Lineage ⟨0, (parse limit source).tree⟩ (place :: above)) (inside : holder ∈ above)
    (made : holder.kind = .node kind) (flat : isFlat kind = true) :
    (∃ token, place.kind = .token token) ∧ ∃ rest, above = holder :: rest := by
  -- Going up, the place right below such a node is a token, and so not a node above another place.
  induction above generalizing place with
  | nil => cases inside
  | cons first rest ih =>
    rcases List.mem_cons.mp inside with rfl | further
    · refine ⟨?_, rest, rfl⟩
      cases shape : place.kind with
      | token token => exact ⟨token, rfl⟩
      | node other =>
        have part := parse_parts lineage made (by rw [shape]; rfl)
        rw [shape] at part
        exact absurd (List.all_eq_true.mp flat _ part) (by simp)
    · obtain ⟨⟨token, word⟩, _⟩ := ih lineage.tail further
      obtain ⟨other, shape⟩ := lineage.above_nodes first List.mem_cons_self
      rw [shape] at word
      cases word

private theorem flat_alone {other : NodeKind} (lineage : Lineage ⟨0, (parse limit source).tree⟩ (place :: above))
    (first : holder ∈ above) (second : parent ∈ above) (made : holder.kind = .node kind) (shape : parent.kind = .node other)
    (flat : isFlat kind = true) (low : isFlat other = true) : kind = other := by
  obtain ⟨_, rest, nearest⟩ := flat_nearest lineage first made flat
  obtain ⟨_, others, equal⟩ := flat_nearest lineage second shape low
  have same : holder = parent := (List.cons.inj (nearest.symm.trans equal)).1
  rw [same, shape] at made
  exact (Kind.node.inj made).symm

theorem program_last (lineage : Lineage ⟨0, (parse limit source).tree⟩ (place :: above))
    (made : place.kind = .node .program) : above = [] := by
  cases above with
  | nil => rfl
  | cons holder rest =>
    obtain ⟨kind, shape⟩ := lineage.above_nodes holder List.mem_cons_self
    have part := parse_parts lineage shape (by rw [made]; rfl)
    rw [made] at part
    have nowhere : .node .program ∉ kind.parts := by cases kind <;> decide
    exact absurd part nowhere

/-- The sign of a capture and its name have nothing between them. -/
private theorem capture_holds (lineage : Lineage ⟨0, (parse limit source).tree⟩ (place :: holder :: above))
    (made : holder.kind = .node .capture) : place.kind = .token .atSign ∨ place.kind = .token .identifier := by
  obtain ⟨children, tree⟩ := Placed.of_kind made
  obtain ⟨_, _, wellmade⟩ := parse_wellmade lineage.tail.mem_sites tree
  have child : place.tree ∈ children := by
    have held := Placed.mem_line lineage.inside
    rwa [tree] at held
  have part := parse_parts lineage made (wellmade.tight rfl place.tree child)
  have either : ∀ part ∈ NodeKind.capture.parts, part = .token .atSign ∨ part = .token .identifier := by decide
  exact either _ part

private theorem colon_parts (part : .token .colon ∈ kind.parts) : kind = .fieldDefinition ∨ kind = .error := by
  revert part
  cases kind <;> decide

private theorem bang_parts (part : .token .bang ∈ kind.parts) : kind = .negatedField ∨ kind = .predicate ∨ kind = .error := by
  revert part
  cases kind <;> decide

end Shapes

section Pairs

variable (located : chainAt? (parse limit source).tree offset = some chain)
  (dispatched : Dispatched chain enclosing above terminal around)
include located dispatched

/-- Captures are entered at their tokens only. -/
theorem capture_terminal (held : enclosing.kind = .node .capture) : terminal.kind = .token .identifier := by
  have inside : enclosing ∈ chain := dispatched.enclosing_mem
  have entered {site : Site} (member : site ∈ (parse limit source).tree.tokenSites) (within : enclosing ∈ site.above) :
      site.place.kind = .token .atSign ∨ site.place.kind = .token .identifier := by
    have lineage := Tree.token_lineage member
    obtain ⟨_, rest, nearest⟩ := flat_nearest lineage within held (by decide)
    rw [nearest] at lineage
    exact capture_holds lineage held
  have first {site : Site} (member : site ∈ (parse limit source).tree.tokenSites)
      (whole : chain = site.place :: site.above) : terminal.kind = .token .identifier := by
    subst whole
    have begins := entered member (Tree.node_above_token member inside held)
    have same : site.place = terminal := by
      have terminates : isTerminal site.place.kind = true := by obtain word | word := begins <;> rw [word] <;> rfl
      simpa [terminates] using congrArg List.head? dispatched.first
    exact (same ▸ begins).resolve_left dispatched.unmarked
  -- None of the tokens of a capture closes anything, so that a cursor does not leave them.
  cases chainAt?_located located with
  | token told => exact first (List.mem_of_find?_eq_some told) rfl
  | colon member => exact first member rfl
  | @closed site told closes =>
    have begins := entered (List.mem_of_find?_eq_some told) ((leaveClosed_suffix offset site.above).subset inside)
    obtain word | word := begins <;> simp [closesConstruct, word] at closes

private theorem negatedField_terminal (held : enclosing.kind = .node .negatedField) :
    terminal.kind ∈ ruled (.node .negatedField) := by
  obtain ⟨site, member, suffix⟩ := chainAt?_suffix located
  have lineage := Tree.token_lineage member
  have within := Tree.node_above_token member (suffix.subset dispatched.enclosing_mem) held
  obtain ⟨_, rest, nearest⟩ := flat_nearest lineage within held (by decide)
  have inside := suffix.subset dispatched.terminal_mem
  have terminates := dispatched.terminal_kind
  cases shape : terminal.kind with
  | token kind =>
    rw [shape] at terminates
    have solid : (Kind.token kind).isTrivia = false := by
      revert terminates
      cases kind <;> decide
    rw [nearest, ← Tree.token_below_nodes member inside shape] at lineage
    have part := parse_parts lineage held (shape ▸ solid)
    rw [shape] at part
    revert part
    cases kind <;> decide
  | node kind =>
    have around : kind ≠ .string := by
      intro same
      have above := Tree.node_above_token member inside shape
      cases flat_alone lineage within above held (same ▸ shape) (by decide) (by decide)
    rw [shape] at terminates
    revert terminates around
    cases kind <;> decide

/-- The whole query is found only where no other construct is. -/
private theorem program_alone : (enclosing.kind = .node .program → terminal.kind ≠ .node .namedNode) ∧
    (enclosing.kind = .node .namedNode → terminal.kind ≠ .node .program) := by
  constructor
  · intro held shape
    have last := program_last (suffix_lineage located dispatched.enclosing_suffix) held
    have kept := mem_dropWhile (!isEnclosing ·.kind) dispatched.terminal_mem (by simp [shape, isEnclosing])
    rw [dispatched.found, last, List.mem_singleton] at kept
    rw [kept, held] at shape
    cases shape
  · intro held shape
    have last := program_last (suffix_lineage located dispatched.terminal_suffix) shape
    have kept := mem_dropWhile (!isTerminal ·.kind) dispatched.enclosing_mem (by simp [held, isTerminal])
    rw [dispatched.first, last, List.mem_singleton] at kept
    rw [kept, shape] at held
    cases held

omit dispatched in
/-- A cursor at a token that stands in an error is in the token before it. -/
private theorem error_told {token holder : Placed} {kind : TokenKind} (whole : chain = token :: holder :: above)
    (word : token.kind = .token kind) (error : holder.kind = .node .error) :
    tokenBefore? (parse limit source).tree offset = some ⟨token, holder :: above⟩ := by
  cases chainAt?_located located with
  | @token site told =>
    obtain ⟨rfl, rest⟩ := List.cons.inj whole
    rw [← rest]
    exact told
  | @colon site _ _ field =>
    rw [(List.cons.inj whole).2] at field
    simp [Placed.isNode, error] at field
  | @closed site told closes =>
    have inside : token ∈ site.above := (leaveClosed_suffix offset site.above).subset (whole ▸ List.mem_cons_self)
    obtain ⟨other, shape⟩ := (Tree.token_lineage (List.mem_of_find?_eq_some told)).above_nodes token inside
    rw [word] at shape
    cases shape

/-- A mark without a rule is in an error: what else it can stand in takes it. -/
private theorem mark_holder {holder : Placed} {rest : List Placed} {kind : NodeKind} (whole : chain = terminal :: holder :: rest)
    (shape : holder.kind = .node kind) (mark : terminal.kind = .token .colon ∨ terminal.kind = .token .bang)
    (unruled : terminal.kind ∉ ruled enclosing.kind) : kind = .error := by
  subst whole
  have taken (encloses : isEnclosing holder.kind = true) : terminal.kind ∉ ruled holder.kind := by
    have passed : isEnclosing terminal.kind = false := by obtain mark | mark := mark <;> rw [mark] <;> rfl
    have nearest : enclosing = holder := by simpa [passed, encloses] using (congrArg List.head? dispatched.found).symm
    rwa [nearest] at unruled
  have part := parse_parts (chain_lineage located) shape (by obtain mark | mark := mark <;> rw [mark] <;> rfl)
  rw [shape] at taken
  obtain mark | mark := mark
  · rw [mark] at part taken
    rcases colon_parts part with rfl | rfl
    · exact absurd (by decide) (taken rfl)
    · rfl
  · rw [mark] at part taken
    rcases bang_parts part with rfl | rfl | rfl
    · exact absurd (by decide) (taken rfl)
    · have captures := dispatched.inside_predicate (List.mem_cons_of_mem _ List.mem_cons_self) shape
      rw [capture_terminal located dispatched captures] at mark
      cases mark
    · rfl

private theorem mark_stray (mark : terminal.kind = .token .colon ∨ terminal.kind = .token .bang)
    (unruled : terminal.kind ∉ ruled enclosing.kind) :
    (tokenBefore? (parse limit source).tree offset).any isStray = true := by
  obtain ⟨kind, word⟩ : ∃ kind, terminal.kind = .token kind := mark.elim (⟨_, ·⟩) (⟨_, ·⟩)
  have member := dispatched.terminal_mem
  obtain ⟨place, rest, rfl⟩ := List.exists_cons_of_ne_nil (List.ne_nil_of_mem member)
  obtain rfl := token_first located member word
  have lineage := chain_lineage located
  cases rest with
  | nil =>
    cases lineage
    cases word
  | cons holder rest =>
    obtain ⟨made, shape⟩ := lineage.above_nodes holder List.mem_cons_self
    obtain rfl := mark_holder located dispatched rfl shape mark unruled
    rw [error_told located rfl word shape]
    simp [isStray, mark, Placed.isNode, shape]

/-- The pairs without a rule are not found, those of such a mark apart. -/
private theorem unruled_stray (unruled : terminal.kind ∉ ruled enclosing.kind) :
    (tokenBefore? (parse limit source).tree offset).any isStray = true := by
  have alone := program_alone located dispatched
  rcases unruled_pairs dispatched.enclosing_kind dispatched.terminal_kind unruled with
    captures | negated | sign | mark | ⟨held, shape⟩ | ⟨held, shape⟩
  · rw [captures, capture_terminal located dispatched captures] at unruled
    exact absurd (by decide) unruled
  · rw [negated] at unruled
    exact absurd (negatedField_terminal located dispatched negated) unruled
  · exact absurd sign dispatched.unmarked
  · exact mark_stray located dispatched mark unruled
  · exact absurd shape (alone.1 held)
  · exact absurd shape (alone.2 held)

end Pairs

section Parsed

variable (located : chainAt? (parse limit source).tree offset = some chain)
include located

private theorem chain_fields : FieldsNamed chain := by
  intro field inside shape
  obtain ⟨before, after, split⟩ := List.append_of_mem inside
  have lineage := suffix_lineage located (split ▸ List.suffix_append before (field :: after))
  exact fieldName?_isSome (parse_fits lineage.mem_sites (of_decide_eq_true shape))

/-- The whole query is above every cursor. -/
private theorem chain_root : ⟨0, (parse limit source).tree⟩ ∈ chain := by
  cases chainAt?_located located with
  | token told => exact List.mem_of_getLast? (Tree.token_lineage (List.mem_of_find?_eq_some told)).last
  | colon member => exact List.mem_of_getLast? (Tree.token_lineage member).last
  | @closed site told =>
    have member := List.mem_of_find?_eq_some told
    have last := (Tree.token_lineage member).last
    obtain ⟨children, whole⟩ := parse_program limit source
    have root := Tree.node_above_token member (List.mem_of_getLast? last) (congrArg Tree.kind whole)
    cases outer : site.above with
    | nil => rw [outer] at root; cases root
    | cons holder above =>
      rw [outer, List.getLast?_cons_cons] at last
      exact List.mem_of_getLast? ((leaveClosed_last offset (holder :: above)).trans last)

end Parsed

private theorem stray_of_unhandled (unhandled : classify (parse limit source).tree offset = .unhandled) :
    (tokenBefore? (parse limit source).tree offset).any isStray = true := by
  unfold classify at unhandled
  split at unhandled
  next => cases unhandled
  next =>
    split at unhandled
    next => cases unhandled
    next =>
      split at unhandled
      next chain located =>
        obtain ⟨children, whole⟩ := parse_program limit source
        obtain ⟨enclosing, above, terminal, around, dispatched⟩ :=
          contextOf_unhandled (whole ▸ chain_root located) unhandled
        have named : FieldsNamed (enclosing :: above) := fun field inside =>
          chain_fields located field (dispatched.enclosing_suffix.subset inside)
        rw [dispatched.contextOf_eq] at unhandled
        exact unruled_stray located dispatched ((contextIn_unhandled_iff named).mp unhandled)
      next => cases unhandled

private theorem stray_reported (stray : (tokenBefore? (parse limit source).tree offset).any isStray = true) :
    (parse limit source).reports ≠ [] := by
  obtain ⟨site, told, stray⟩ := (Option.any_eq_true _ _).mp stray
  obtain ⟨holder, first, error⟩ := (Option.any_eq_true _ _).mp (Bool.and_eq_true_iff.mp stray).2
  obtain ⟨above, split⟩ := List.head?_eq_some_iff.mp first
  have lineage := Tree.token_lineage (List.mem_of_find?_eq_some told)
  rw [split] at lineage
  exact (parse_error lineage.tail.mem_sites error).1

/-- Where a context is not handled, the token at the cursor is a mark in an error. A text that is read without
reports has none, and there is a rule wherever the cursor in it goes by one. -/
theorem unhandled_stray (limit : Nat) (source : String) (offset : Nat) :
    (classify (parse limit source).tree offset = .unhandled →
      (tokenBefore? (parse limit source).tree offset).any isStray = true) ∧
    ((parse limit source).reports = [] →
      classify (parse limit source).tree offset ≠ .unhandled ∧
      ∀ chain enclosing above terminal around, chainAt? (parse limit source).tree offset = some chain →
        Dispatched chain enclosing above terminal around → terminal.kind ∈ ruled enclosing.kind) := by
  refine ⟨stray_of_unhandled, fun silent => ⟨fun unhandled => ?_, ?_⟩⟩
  · exact stray_reported (stray_of_unhandled unhandled) silent
  · intro chain enclosing above terminal around located dispatched
    by_cases known : terminal.kind ∈ ruled enclosing.kind
    · exact known
    · exact absurd silent (stray_reported (unruled_stray located dispatched known))

theorem lone_colon_unhandled :
    (classify (parse 8 ":").tree 1 = .unhandled ∧ (tokenBefore? (parse 8 ":").tree 1).any isStray = true) ∧
    ∃ chain enclosing above terminal around, (parse 8 "(a)").reports = [] ∧
      chainAt? (parse 8 "(a)").tree 2 = some chain ∧ Dispatched chain enclosing above terminal around ∧
      classify (parse 8 "(a)").tree 2 ≠ .unhandled ∧ terminal.kind ∈ ruled enclosing.kind := by
  have unhandled : classify (parse 8 ":").tree 1 = .unhandled := by decide +kernel
  refine ⟨⟨unhandled, (unhandled_stray 8 ":" 1).1 unhandled⟩, ?_⟩
  let name : Tree := .leaf ⟨.identifier, "a"⟩
  let named : Tree := .node .namedNode [.leaf ⟨.parenOpen, "("⟩, name, .leaf ⟨.parenClose, ")"⟩]
  have silent : (parse 8 "(a)").reports = [] := by decide +kernel
  have located : chainAt? (parse 8 "(a)").tree 2 = some [⟨1, name⟩, ⟨0, named⟩, ⟨0, .node .program [named]⟩] := by
    decide +kernel
  have dispatched : Dispatched [⟨1, name⟩, ⟨0, named⟩, ⟨0, .node .program [named]⟩] ⟨0, named⟩ [⟨0, .node .program [named]⟩]
      ⟨1, name⟩ [⟨0, named⟩, ⟨0, .node .program [named]⟩] := ⟨rfl, rfl, rfl, by decide, rfl⟩
  have handled := (unhandled_stray 8 "(a)" 2).2 silent
  exact ⟨_, _, _, _, _, silent, located, dispatched, handled.1, handled.2 _ _ _ _ _ located dispatched⟩

end TreeQuery.Completion
