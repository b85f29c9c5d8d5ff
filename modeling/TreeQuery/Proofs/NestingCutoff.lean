import TreeQuery.Proofs.ParserPairs
import TreeQuery.Proofs.ParserShapes
import TreeQuery.Proofs.TreeSites

/-! What the nesting limit does to a parse: nothing, or it cuts it off. Up to the place where nesting is too
deep a run goes as with any larger limit; from there on it reports nothing and only closes what is open. -/

namespace TreeQuery.Syntax
open Text (Span)
open Diagnostic (Report)

namespace Cutoff

def Abreast (here there : Cursor) : Prop :=
  there = here ∧ here.exhausted = false ∧ ∀ token ∈ here.waiting, token.isTrivia = true

/-- Both went the same way, and nesting was not too deep. -/
structure Alike (part mate : Stretch) : Prop where
  trees : mate.trees = part.trees
  reports : mate.reports = part.reports
  shallow : ∀ report ∈ part.reports, ¬ IsDeep report
  stop : part.after.stop = part.before.stop
  abreast : Abreast part.after mate.after

/-- The first was cut off, having reported nothing else before. -/
structure Parted (part mate : Stretch) : Prop where
  cut : ∃ earlier last later, part.reports = earlier ++ last :: later ∧ IsDeep last ∧
    last.span.stop = part.before.stop ∧ (∀ report ∈ earlier, ¬ IsDeep report) ∧ earlier <+: mate.reports

variable {here there : Cursor} {part mate further last : Stretch}

/-- A step of both that reports nothing. -/
private theorem Alike.step {change : Cursor → Cursor} (abreast : Abreast here there)
    (stop : (change here).stop = here.stop) (awake : (change here).exhausted = here.exhausted)
    (blank : ∀ token ∈ (change here).waiting, token.isTrivia = true) :
    Alike (.moved change here) (.moved change there) := by
  obtain ⟨rfl, shallow, _⟩ := abreast
  exact ⟨rfl, rfl, nofun, stop, rfl, awake.trans shallow, blank⟩

private theorem Alike.look (abreast : Abreast here there) : Alike (.moved Cursor.look here) (.moved Cursor.look there) := by
  obtain ⟨fault, look⟩ := here.look_eq
  refine .step abreast ?_ ?_ ?_
  · rw [look]; rfl
  · rw [look]
  · rw [look]; exact abreast.2.2

private theorem Alike.take (abreast : Abreast here there) (ahead : Ahead here) :
    Alike (Reading.take.stretch here) (Reading.take.stretch there) := by
  obtain ⟨rfl, shallow, _⟩ := abreast
  obtain ⟨token, rest, left⟩ := List.exists_cons_of_ne_nil ahead
  have taken : Reading.take there = _ := Reading.take_token left
  refine ⟨rfl, rfl, ?_, stops.take there, rfl, ?_, ?_⟩
  all_goals rw [Reading.stretch, taken]
  · exact nofun
  · exact shallow
  · exact nofun

private theorem Alike.chain (alike : Alike part mate) (joint : part.after = further.before)
    (later : Alike further last) : Alike (part.extend further) (mate.extend last) := by
  refine ⟨?_, ?_, fun report member => ?_, ?_, later.abreast⟩
  · rw [Stretch.extend, alike.trees, later.trees]; rfl
  · rw [Stretch.extend, alike.reports, later.reports]; rfl
  · rcases List.mem_append.mp member with before | after
    · exact alike.shallow report before
    · exact later.shallow report after
  · exact later.stop.trans (joint ▸ alike.stop)

private theorem Alike.report (found : Report) (abreast : Abreast here there) (shallow : ¬ IsDeep found) :
    Alike ((Reading.report found).stretch here) ((Reading.report found).stretch there) := by
  obtain ⟨rfl, awake, blank⟩ := abreast
  refine ⟨rfl, rfl, fun report member => ?_, stops.report found shallow there, rfl, ?_, ?_⟩
  · rw [Reading.stretch, Reading.report] at member
    split at member
    · cases member
    · exact List.mem_singleton.mp member ▸ shallow
  all_goals
    rw [Reading.stretch, Reading.report]
    split
    · assumption
    · assumption

private theorem Parted.later (parted : Parted part mate) : Parted (part.extend further) (mate.extend last) := by
  obtain ⟨earlier, deep, rest, split, is, stop, shallow, same⟩ := parted.cut
  refine ⟨earlier, deep, rest ++ further.reports, ?_, is, stop, shallow, same.trans (List.prefix_append ..)⟩
  rw [Stretch.extend, split, List.append_assoc, List.cons_append]

private theorem Parted.lately (alike : Alike part mate) (joint : part.after = further.before) (parted : Parted further last) :
    Parted (part.extend further) (mate.extend last) := by
  obtain ⟨earlier, deep, rest, split, is, stop, shallow, same⟩ := parted.cut
  refine ⟨part.reports ++ earlier, deep, rest, ?_, is, ?_, fun report member => ?_, ?_⟩
  · rw [Stretch.extend, split, List.append_assoc]
  · exact stop.trans (joint ▸ alike.stop)
  · rcases List.mem_append.mp member with before | after
    · exact alike.shallow report before
    · exact shallow report after
  · rw [Stretch.extend, alike.reports]
    exact (List.prefix_append_right_inj _).mpr same

private theorem Parted.giveUp (here : Cursor) (mate : Stretch) : Parted (Parser.giveUp.stretch here) mate :=
  ⟨[], _, _, rfl, rfl, (stops.skip here.skip).trans (stops.skip here), nofun, List.nil_prefix⟩

end Cutoff

open Cutoff in
/-- A run with some limit and a run with a larger one. -/
def cutoff (deeper : Nat) : Pairing where
  beyond := []
  deeper
  apart := False
  abreast := Abreast
  matching := Eq
  alike := Alike
  parted := Parted
  opens := none_beyond
  kinds := by
    rintro here _ ⟨rfl, _⟩
    exact (List.append_nil _).symm
  blank := by
    rintro here _ ⟨rfl, _, blank⟩
    exact ⟨blank, blank⟩
  deep := by
    rintro here _ ⟨rfl, _⟩
    rfl
  spent := by
    rintro here _ ⟨rfl, awake, _⟩ deep
    cases awake.symm.trans deep
  text := by
    rintro here _ ⟨rfl, _⟩ _
    rfl
  span := by
    rintro here _ ⟨rfl, _⟩
    rfl
  joint := by
    rintro first last _ _ rfl rfl
    rfl
  beside := by
    rintro here _ kind ahead ⟨rfl, _⟩ _ _ _ _
    rfl
  onward alike := alike.abreast
  still abreast := ⟨rfl, rfl, nofun, rfl, abreast⟩
  chain alike joint _ later := alike.chain joint later
  look := .look
  rest abreast := .step abreast rfl rfl abreast.2.2
  skip abreast := .step abreast (stops.skip _) rfl (Cursor.skip_blank abreast.2.2)
  take := .take
  unplaced := by
    rintro here _ ⟨rfl, awake, _⟩ _
    exact ⟨rfl, awake, nofun⟩
  around := by
    rintro here _ kind part mate ⟨rfl, _⟩ _ begun _ alike
    refine ⟨?_, alike.reports, alike.shallow, ?_, alike.abreast⟩
    · rw [Stretch.around, alike.trees]; rfl
    · exact alike.stop.trans (by rw [begun]; rfl)
  found := by
    rintro here there report _ abreast shallow _ rfl
    exact .inl (.report report abreast shallow)
  limit _ _ _ := .inr (.giveUp _ _)
  stray _ some := absurd rfl some
  unclosed _ := False.elim
  later := .later
  lately alike joint _ parted := .lately alike joint parted
  within := by
    rintro here there kind other part mate begun _ ⟨earlier, last, later, split, deep, stop, shallow, same⟩
    exact ⟨earlier, last, later, split, deep, stop.trans (by rw [begun]; rfl), shallow, same⟩

namespace Tree

mutual

/-- How deep the nodes of a tree nest, itself included. -/
def depth : Tree → Nat
  | leaf _ => 0
  | node _ children => depthOf children + 1

def depthOf : List Tree → Nat
  | [] => 0
  | tree :: rest => max tree.depth (depthOf rest)

end

private theorem depthOf_le {trees : List Tree} {bound : Nat} (each : ∀ tree ∈ trees, tree.depth ≤ bound) :
    depthOf trees ≤ bound := by
  induction trees with
  | nil => exact Nat.zero_le _
  | cons tree rest ih =>
    rw [depthOf, Nat.max_le]
    exact ⟨each tree List.mem_cons_self, ih fun other member => each other (List.mem_cons_of_mem _ member)⟩

end Tree

namespace NodeKind

/-- How far a node is from those that hold nothing but tokens. All that nest patterns share a tier. -/
def tier : NodeKind → Nat
  | .error | .negatedField | .capture | .quantifier | .string => 1
  | .anonymousNode | .parameters => 2
  | .predicate => 3
  | .namedNode | .grouping | .list | .fieldDefinition => 4
  | .program => 5

/-- How deep a node can be with `room` levels left. -/
def height (kind : NodeKind) (room : Nat) : Nat := if kind.tier < 4 then kind.tier else room + kind.tier - 2

private theorem tier_pos (kind : NodeKind) : 0 < kind.tier := by cases kind <;> decide

private theorem nests_tier (kind : NodeKind) : kind.nests = true ↔ kind.tier = 4 := by cases kind <;> decide

end NodeKind

def Kind.tier : Kind → Nat
  | .token _ => 0
  | .node kind => kind.tier

/-- Only what nests patterns holds nodes of its own tier. -/
private theorem NodeKind.tier_parts (kind : NodeKind) :
    ∀ part ∈ kind.parts, part.tier < kind.tier ∨ kind.tier = 4 ∧ part.tier = 4 := by
  cases kind <;> decide

variable {stray deep : Prop} {room : Nat} {trees : List Tree}

private theorem Wellmade.level {kind : NodeKind} {children : List Tree} (made : Wellmade stray room deep kind children)
    (tier : kind.tier = 3 ∨ kind.tier = 4) : 0 < room := by
  rcases tier with third | fourth
  · apply made.invokes
    cases kind <;> first | rfl | cases third
  · exact made.nests (kind.nests_tier.mpr fourth)

/-- A node inside another is not as deep. -/
private theorem NodeKind.height_lt {kind inner : NodeKind} (part : .node inner ∈ kind.parts)
    (outer : kind.tier = 4 → 0 < room) (levels : inner.tier = 3 ∨ inner.tier = 4 → 0 < kind.inside room) :
    inner.height (kind.inside room) < kind.height room := by
  have tiers : inner.tier < kind.tier ∨ kind.tier = 4 ∧ inner.tier = 4 := kind.tier_parts _ part
  unfold height
  by_cases nests : kind.tier = 4
  · have room_left := outer nests
    have within : kind.inside room = room - 1 := if_pos (kind.nests_tier.mpr nests)
    rw [within] at levels ⊢
    split <;> split <;> omega
  · have within : kind.inside room = room := if_neg (mt kind.nests_tier.mp nests)
    rw [within] at levels ⊢
    split <;> split <;> omega

private theorem Formed.depth_le (formed : Formed stray room deep trees) : ∀ kind children, .node kind children ∈ trees →
    (Tree.node kind children).depth ≤ kind.height room ∧ (kind.tier = 3 ∨ kind.tier = 4 → 0 < room) := by
  induction formed with
  | nil => exact nofun
  | leaf token after ih =>
    intro kind children member
    exact ih kind children ((List.mem_cons.mp member).resolve_left nofun)
  | @node room deep kind children rest made inside after within beyond =>
    intro other others member
    rcases List.mem_cons.mp member with same | later
    · cases same
      refine ⟨?_, made.level⟩
      have each : ∀ child ∈ children, child.depth ≤ kind.height room - 1 := by
        intro child member
        cases child with
        | leaf token => exact Nat.zero_le _
        | node inner descendants =>
          obtain ⟨depth, levels⟩ := within inner descendants member
          have smaller := NodeKind.height_lt (mem_parts made.fits member rfl) (fun tier => made.level (.inr tier)) levels
          omega
      have positive : 0 < kind.height room := by
        have tier := kind.tier_pos
        unfold NodeKind.height
        split <;> omega
      have bound := Tree.depthOf_le each
      rw [Tree.depth]
      omega
    · exact beyond other others later

private theorem parse_depth (limit : Nat) (source : String) : (parse limit source).tree.depth ≤ limit + 3 :=
  ((parse_formed limit source).depth_le .program _ (.head _)).1

theorem start_stop (source : String) : (Cursor.start (Token.ofText source)).stop = source.utf8ByteSize := by
  rw [Cursor.stop, Cursor.start, ← Token.length_join, Token.ofText_joins]
  exact Nat.zero_add _

/-- Runs with different limits, cut off or not. -/
private theorem parse_pairs (limit deeper : Nat) (source : String) :
    (parse limit source).tree = (parse (limit + deeper) source).tree ∧
        (parse limit source).reports = (parse (limit + deeper) source).reports ∧
        (∀ report ∈ (parse limit source).reports, ¬ IsDeep report) ∨
      ∃ earlier last later, (parse limit source).reports = earlier ++ last :: later ∧ IsDeep last ∧
        last.span.stop = source.utf8ByteSize ∧ (∀ report ∈ earlier, ¬ IsDeep report) ∧
        earlier <+: (parse (limit + deeper) source).reports := by
  have begun : Cutoff.Abreast (.start (Token.ofText source)) (.start (Token.ofText source)) := ⟨rfl, rfl, nofun⟩
  rw [parse_reports, parse_reports]
  rcases (cutoff deeper).queries_pairs limit begun with
    ⟨_, alike⟩ | ⟨earlier, last, later, split, deep, stop, cut⟩
  · refine .inl ⟨?_, alike.reports.symm, alike.shallow⟩
    have placed : (readAll (limit + deeper) source).trees = (readAll limit source).trees := alike.trees
    have ended : (readAll (limit + deeper) source).next = (readAll limit source).next := alike.abreast.1
    rw [parse_tree, parse_tree, placed, ended]
  · exact .inr ⟨earlier, last, later, split, deep, stop.trans (start_stop source), cut⟩

/-- A limit cuts parsing off or changes nothing, which is told by whether nesting is reported to be too deep. -/
theorem parse_limit_cuts_off (limit larger : Nat) (source : String) (more : limit ≤ larger) :
    ((∀ report ∈ (parse limit source).reports, report.kind ≠ .nestingTooDeep) →
      (parse limit source).tree = (parse larger source).tree ∧
      (parse limit source).reports = (parse larger source).reports) ∧
    ((∃ report ∈ (parse limit source).reports, report.kind = .nestingTooDeep) →
      ∃ earlier last, (parse limit source).reports = earlier ++ [last] ∧ last.kind = .nestingTooDeep ∧
        last.span.stop = source.utf8ByteSize ∧ (∀ report ∈ earlier, report.kind ≠ .nestingTooDeep) ∧
        earlier <+: (parse larger source).reports) ∧
    (parse limit source).tree.depth ≤ limit + 3 := by
  obtain ⟨deeper, rfl⟩ := Nat.exists_eq_add_of_le more
  have final := (hushes.program limit (.start (Token.ofText source))).last
  refine ⟨fun shallow => ?_, fun ⟨report, member, deep⟩ => ?_, parse_depth limit source⟩
  · rcases parse_pairs limit deeper source with ⟨tree, reports, _⟩ | ⟨earlier, last, later, split, deep, _⟩
    · exact ⟨tree, reports⟩
    · exact absurd deep (shallow last (by rw [split]; simp))
  · rcases parse_pairs limit deeper source with ⟨_, _, shallow⟩ | ⟨earlier, last, later, split, deep, stop, shallow, same⟩
    · exact absurd deep (shallow report member)
    · obtain ⟨rfl, _⟩ := final earlier last later split deep
      exact ⟨earlier, last, split, deep, stop, shallow, same⟩

/-- The inner pattern is too deep for a limit of one, and a larger limit than two changes nothing. -/
theorem inner_pattern_cut_off :
    (∃ earlier last, (parse 1 "((a) b)").reports = earlier ++ [last] ∧ last.kind = .nestingTooDeep ∧
      last.span.stop = 7 ∧ (∀ report ∈ earlier, report.kind ≠ .nestingTooDeep) ∧ earlier <+: (parse 2 "((a) b)").reports) ∧
    (parse 2 "((a) b)").tree = (parse 512 "((a) b)").tree ∧ (parse 2 "((a) b)").tree.depth ≤ 5 := by
  have deep : ∃ report ∈ (parse 1 "((a) b)").reports, report.kind = .nestingTooDeep := by decide +kernel
  have shallow : ∀ report ∈ (parse 2 "((a) b)").reports, report.kind ≠ .nestingTooDeep := by decide +kernel
  have cut := (parse_limit_cuts_off 1 2 "((a) b)" (by decide)).2.1 deep
  obtain ⟨same, _, depth⟩ := parse_limit_cuts_off 2 512 "((a) b)" (by decide)
  exact ⟨cut, (same shallow).1, depth⟩

end TreeQuery.Syntax
