import TreeQuery.Proofs.DeclaredShapes
import TreeQuery.Proofs.ReportAnchors

/-! Which construct a report judges. A report begins with a token, the token belongs to a construct, and the nodes above
that construct and the kind of the report tell for which construct the check was made. It marks whole tokens. -/

namespace TreeQuery

/-- A report of whole tokens, with further places that are whole tokens too. -/
structure Diagnostic.Report.Spans (tokens : List Syntax.Token) (report : Report) : Prop where
  covered : Syntax.Covers tokens report.span
  related : ∀ place ∈ report.related, Syntax.Covers tokens place.span

namespace Syntax

open Shape

variable {limit : Nat} {source : String} {kind : NodeKind} {children : List Tree} {place : Placed} {above : List Placed}

theorem row_opens {missing : Bool} {token : TokenKind} (fits : row children ∈ (shape missing kind).matches')
    (opener : kind.opener? = some token) : ∃ rest, row children = .token token :: rest := by
  have opens {first : Kind} {rest : RegularExpression Kind}
      (fits : row children ∈ (.char first * rest : RegularExpression Kind).matches') :
      ∃ rest, row children = first :: rest := by
    obtain ⟨_, begins, rest, _, whole⟩ := mem_seq.mp fits
    exact ⟨rest, by rw [← whole, mem_char.mp begins]; rfl⟩
  cases kind with
  | program | anonymousNode | quantifier | parameters | error => cases opener
  | namedNode | grouping | predicate | list | fieldDefinition | negatedField | capture | string =>
    cases opener
    exact opens fits

/-- Blank space before it or not, such a construct begins with a token of its own. -/
private theorem Placed.first_token {token : TokenKind} {rest : List Kind}
    (opens : row place.tree.children = .token token :: rest) :
    ∃ child ∈ place.children, child.start = place.start ∧ ∃ kind, child.kind = .token kind := by
  unfold children
  cases inside : place.tree.children with
  | nil => simp [inside, row] at opens
  | cons tree later =>
    refine ⟨⟨place.start, tree⟩, List.mem_cons_self, rfl, ?_⟩
    rw [inside] at opens
    cases tree with
    | leaf word => exact ⟨word.kind, rfl⟩
    | node kind children => simp [row, Tree.kind, Kind.isTrivia] at opens

theorem parse_first_token {token : TokenKind} (lineage : Lineage ⟨0, (parse limit source).tree⟩ (place :: above))
    (made : place.kind = .node kind) (opener : kind.opener? = some token) :
    ∃ child ∈ place.children, child.start = place.start ∧ ∃ kind, child.kind = .token kind :=
  have ⟨_, opens⟩ := row_opens (parse_fits lineage.mem_sites made) opener
  Placed.first_token opens

theorem Placed.child_within {child holder : Placed} (inside : child ∈ holder.children) :
    holder.start ≤ child.start ∧ child.stop ≤ holder.stop := by
  obtain ⟨start, tree⟩ := holder
  cases tree with
  | leaf => cases inside
  | node kind children => exact Tree.sitesOf_within start [] children (Tree.line_mem_sitesOf start [] children inside)

/-- A token is not empty, and neither is what begins with one. -/
theorem Lineage.covers_token {word : TokenKind} (lineage : Lineage ⟨0, (parse limit source).tree⟩ (place :: above))
    (shape : place.kind = .token word) : Covers (parse limit source).tree.leaves place.span :=
  have site : ⟨place, above⟩ ∈ (parse limit source).tree.tokenSites :=
    List.mem_filter.mpr ⟨lineage.mem_sites, by simp [Site.isToken, shape]⟩
  ⟨lineage.cuts.1, lineage.cuts.2, parse_token_wide site⟩

theorem Lineage.covers_opened {token : TokenKind} (lineage : Lineage ⟨0, (parse limit source).tree⟩ (place :: above))
    (made : place.kind = .node kind) (opener : kind.opener? = some token) :
    Covers (parse limit source).tree.leaves place.span := by
  obtain ⟨child, inside, begins, _, word⟩ := parse_first_token lineage made opener
  have deeper : Lineage ⟨0, (parse limit source).tree⟩ (child :: place :: above) := .child lineage inside
  have wide : child.start < child.stop := (deeper.covers_token word).wide
  refine ⟨lineage.cuts.1, lineage.cuts.2, ?_⟩
  have within := (Placed.child_within inside).2
  change place.start < place.stop
  omega

private theorem Placed.line_ordered (start : Nat) (trees : List Tree) : (∀ child ∈ line start trees, start ≤ child.start) ∧
    (line start trees).Pairwise fun child later => child.stop ≤ later.start := by
  induction trees generalizing start with
  | nil => exact ⟨nofun, .nil⟩
  | cons tree rest ih =>
    obtain ⟨beyond, apart⟩ := ih (start + tree.length)
    refine ⟨List.forall_mem_cons.mpr ⟨Nat.le_refl _, fun child member => ?_⟩, .cons beyond apart⟩
    exact Nat.le_trans (Nat.le_add_right _ _) (beyond child member)

/-- Before the name of a predicate stands no mark. -/
private theorem mark_behind_name {missing : Bool} {word before after : List Kind}
    (fits : word ∈ (shape missing .predicate).matches')
    (split : word = before ++ .token .identifier :: after) : .token .question ∉ before ∧ .token .bang ∉ before := by
  obtain ⟨_, rfl, _, ⟨_, rfl, _, ⟨named, name, _, ⟨_, rfl, closer, closed, rfl⟩, rfl⟩, rfl⟩, rfl⟩ := mem_seq.mp fits
  have closing : .token .identifier ∉ closer := fun inside => absurd (mem_letters closed _ inside) (by decide)
  rcases mem_maybe.mp name with rfl | name
  · have inside := congrArg (Kind.token .identifier ∈ ·) split
    simp [closing] at inside
  · obtain ⟨_, rfl, mark, marked, rfl⟩ := mem_seq.mp name
    have unnamed : .token .identifier ∉ mark := fun inside => absurd (mem_letters marked _ inside) (by decide)
    have opening : Kind.token .identifier ∉ [Kind.token .parenOpen, .token .sharp] := by decide
    have split : [Kind.token .parenOpen, .token .sharp] ++ .token .identifier :: (mark ++ (.node .parameters :: closer)) =
      before ++ .token .identifier :: after := split
    obtain ⟨rfl, _⟩ := (List.append_cons_inj_of_notMem opening (by simp [unnamed, closing])).mp split
    decide

private theorem Lineage.name_before_mark {name mark : Placed} (lineage : Lineage ⟨0, (parse limit source).tree⟩ (place :: above))
    (made : place.kind = .node .predicate) (named : place.identifier? = some name) (marked : place.predicateMark? = some mark) :
    name.start ≤ mark.start := by
  obtain ⟨_, before, after, split, _⟩ := List.find?_eq_some_iff_append.mp named
  obtain ⟨_, kind, word, naming⟩ := Completion.firstToken?_child named
  obtain ⟨inside, sign, shown, either⟩ := Completion.firstToken?_child marked
  obtain rfl : kind = .identifier := of_decide_eq_true naming
  have signed : mark.kind = .token .question ∨ mark.kind = .token .bang := by
    rcases by simpa using either with rfl | rfl
    · exact .inl shown
    · exact .inr shown
  have fits := parse_fits lineage.mem_sites made
  have ordered : place.children.Pairwise fun child later => child.stop ≤ later.start := (Placed.line_ordered _ _).2
  rw [split] at inside ordered
  rcases List.mem_append.mp inside with early | later
  · -- what the shape is said of would have the mark before the name
    have kinds : row place.tree.children = (before.filter (!·.kind.isTrivia)).map Placed.kind ++
        .token .identifier :: (after.filter (!·.kind.isTrivia)).map Placed.kind := by
      rw [← Placed.solids_kinds, Placed.solids, split]
      simp [word, Kind.isTrivia, TokenKind.isTrivia]
    have solid : mark.kind.isTrivia = false := by
      rcases signed with same | same <;> rw [same] <;> rfl
    have listed : mark.kind ∈ (before.filter (!·.kind.isTrivia)).map Placed.kind :=
      List.mem_map_of_mem (List.mem_filter.mpr ⟨early, by simp [solid]⟩)
    have none := mark_behind_name fits kinds
    rcases signed with same | same
    · exact absurd (same ▸ listed) none.1
    · exact absurd (same ▸ listed) none.2
  · rcases List.mem_cons.mp later with rfl | behind
    · exact Nat.le_refl _
    · have apart : name.stop ≤ mark.start := List.rel_of_pairwise_cons (List.pairwise_append.mp ordered).2.1 behind
      exact Nat.le_trans (Nat.le_add_right _ _) apart

end Syntax

namespace Lint
open Syntax Diagnostic
open Completion (parse_token_unique)

/-- The construct that a token belongs to, with the nodes above it. What is in a string belongs to what holds it. -/
def constructOf : List Placed → List Placed
  | holder :: above => if holder.isNode .string then above else holder :: above
  | [] => []

/-- Whether a report begins with a token of a construct. -/
def BeginsIn (tree : Tree) (report : Report) (construct : List Placed) : Prop :=
  ∃ site ∈ tree.tokenSites, site.place.start = report.span.start ∧ constructOf site.above = construct

variable {limit : Nat} {source : String} {report other : Report} {construct item place field : Placed}
  {above constructs others : List Placed}

/-- Reports that begin at one place begin in one construct. -/
theorem BeginsIn.unique (here : BeginsIn (parse limit source).tree report constructs)
    (there : BeginsIn (parse limit source).tree other others) (same : report.span.start = other.span.start) :
    constructs = others := by
  obtain ⟨site, member, start, rfl⟩ := here
  obtain ⟨twin, among, start', rfl⟩ := there
  rw [parse_token_unique member among (by rw [start, start', same])]

theorem BeginsIn.of_marks (marks : Marks construct report)
    (lineage : Lineage ⟨0, (parse limit source).tree⟩ (construct :: above)) (apart : construct.isNode .string = false) :
    BeginsIn (parse limit source).tree report (construct :: above) := by
  have own : constructOf (construct :: above) = construct :: above := by simp [constructOf, apart]
  have site {token : Placed} {word : TokenKind} {above : List Placed} (lineage : Lineage ⟨0, (parse limit source).tree⟩ (token :: above))
      (shape : token.kind = .token word) : ⟨token, above⟩ ∈ (parse limit source).tree.tokenSites :=
    List.mem_filter.mpr ⟨lineage.mem_sites, by simp [Site.isToken, shape]⟩
  cases marks with
  | word inside word same => exact ⟨⟨_, _⟩, site (.child lineage inside) word, (congrArg Text.Span.start same).symm, own⟩
  | name made named marked same =>
    obtain ⟨inside, _, word, _⟩ := Completion.firstToken?_child named
    exact ⟨⟨_, _⟩, site (.child lineage inside) word, (congrArg Text.Span.start same).symm, own⟩
  | @string string inside shape same =>
    have within : Lineage ⟨0, (parse limit source).tree⟩ (string :: construct :: above) := .child lineage inside
    obtain ⟨quote, first, begins, _, word⟩ := parse_first_token within shape rfl
    exact ⟨⟨_, _⟩, site (.child within first) word, begins.trans (congrArg Text.Span.start same).symm,
      by simp [constructOf, Placed.isNode, shape]⟩
  | whole made opener same =>
    obtain ⟨child, inside, begins, _, word⟩ := parse_first_token lineage made opener
    exact ⟨⟨_, _⟩, site (.child lineage inside) word, begins.trans (congrArg Text.Span.start same).symm, own⟩

theorem Marks.covers (marks : Marks construct report)
    (lineage : Lineage ⟨0, (parse limit source).tree⟩ (construct :: above)) :
    Covers (parse limit source).tree.leaves report.span := by
  cases marks with
  | word inside word same => exact same ▸ (Lineage.child lineage inside).covers_token word
  | @name name mark made named marked same =>
    obtain ⟨inside, _, word, _⟩ := Completion.firstToken?_child named
    obtain ⟨further, _, sign, _⟩ := Completion.firstToken?_child marked
    have first : Covers (parse limit source).tree.leaves name.span := (Lineage.child lineage inside).covers_token word
    have second : Covers (parse limit source).tree.leaves mark.span := (Lineage.child lineage further).covers_token sign
    have order := lineage.name_before_mark made named marked
    rw [same]
    exact ⟨first.start, second.stop, Nat.lt_of_le_of_lt order second.wide⟩
  | string inside shape same => exact same ▸ (Lineage.child lineage inside).covers_opened shape rfl
  | whole made opener same => exact same ▸ lineage.covers_opened made opener

end Lint

end TreeQuery
