import Mathlib
import TreeQuery.Proofs.LinePositions
import TreeQuery.Regex.Parser

/-! A fault of a regular expression marks characters of its pattern. A reading only moves on, from one character to a
later one, and every span that is kept begins and ends at places on the way, in that order. -/

set_option mvcgen.warning false

namespace TreeQuery.Regex
open Text (Span total utf8Length isBlank)
open Std.Do

variable {text : List Char}

private theorem afterBlanks_suffix (inComment : Bool) (text : List Char) : afterBlanks inComment text <:+ text := by
  induction text generalizing inComment with
  | nil => exact List.suffix_refl _
  | cons c rest ih =>
    have skipped := fun flag => (ih flag).trans (List.suffix_cons c rest)
    rw [afterBlanks]
    split
    · exact skipped _
    · split
      · exact skipped _
      · split
        · exact skipped _
        · exact List.suffix_refl _

private theorem skipBlanks_suffix (verbose : Bool) (text : List Char) : skipBlanks verbose text <:+ text := by
  unfold skipBlanks
  split
  · exact afterBlanks_suffix false text
  · exact List.suffix_refl _

private theorem spacedRun_suffix (verbose : Bool) (keep : Char → Bool) (text : List Char) :
    (spacedRun verbose keep text).2 <:+ text := by
  fun_induction spacedRun verbose keep text with
  | case1 => exact List.suffix_refl _
  | case2 c rest _ run left found ih =>
    rw [found] at ih
    exact ih.trans ((skipBlanks_suffix verbose rest).trans (List.suffix_cons c rest))
  | case3 => exact List.suffix_refl _

private theorem afterNamedClass?_suffix {text rest : List Char} (found : afterNamedClass? text = some rest) : rest <:+ text := by
  unfold afterNamedClass? at found
  split at found
  next text =>
    have inner : (if text.head? = some '^' then text.tail else text) <:+ text := by
      split
      · exact List.tail_suffix text
      · exact List.suffix_refl _
    generalize (if text.head? = some '^' then text.tail else text) = named at found inner
    dsimp only at found
    split at found
    next left dropped =>
      split at found
      · obtain rfl := Option.some.inj found
        have behind := (List.drop_suffix (named.takeWhile (· ≠ ':')).length named).trans inner
        rw [dropped] at behind
        exact ((List.suffix_append [':', ']'] left).trans behind).trans (List.suffix_append ['[', ':'] text)
      · cases found
    next => cases found
  next => cases found

/-- An offset between two characters of a text, at its beginning or at its end. -/
def Boundary (text : List Char) (offset : Nat) : Prop := ∃ front back, text = front ++ back ∧ offset = utf8Length front

/-- A span of whole characters. -/
def Marked (text : List Char) (span : Span) : Prop :=
  Boundary text span.start ∧ Boundary text span.stop ∧ span.start ≤ span.stop

@[grind =]
theorem marked_iff {span : Span} :
    Marked text span ↔ Boundary text span.start ∧ Boundary text span.stop ∧ span.start ≤ span.stop := Iff.rfl

/-- What is left stands at its offset in the text. -/
def Place.Within (text : List Char) (place : Place) : Prop :=
  ∃ front, text = front ++ place.rest ∧ place.offset = utf8Length front

def Place.charSize (place : Place) : Nat := (place.rest.head?.map Char.utf8Size).getD 0

namespace Place

variable {place : Place}

@[grind →]
theorem Within.boundary (within : place.Within text) : Boundary text place.offset := by
  obtain ⟨front, whole, offset⟩ := within
  exact ⟨front, _, whole, offset⟩

@[grind .]
theorem Within.same {verbose : Bool} {names : List String} (within : place.Within text) :
    Place.Within text ⟨place.offset, place.rest, verbose, names⟩ := within

/-- The character ahead, if there is one, ends at a boundary too. -/
@[grind →]
theorem Within.char_boundary (within : place.Within text) : Boundary text (place.offset + place.charSize) := by
  obtain ⟨front, whole, offset⟩ := within
  rw [charSize]
  cases ahead : place.rest with
  | nil => exact ⟨front, place.rest, whole, offset⟩
  | cons c rest =>
    refine ⟨front ++ [c], rest, by rw [whole, ahead, List.append_assoc]; rfl, ?_⟩
    rw [utf8Length, Text.total_append, ← utf8Length, ← offset]
    rfl

private theorem charSize_tail (place : Place) : utf8Length place.rest = place.charSize + utf8Length place.rest.tail := by
  rw [charSize]
  cases place.rest with
  | nil => rfl
  | cons c rest => rfl

@[grind →]
theorem charSize_ascii {c : Char} (ahead : place.rest.head? = some c) (narrow : c.utf8Size = 1) : place.charSize = 1 := by
  rw [charSize, ahead, Option.map_some, Option.getD_some, narrow]

end Place

/-- A reading that ends in the text at `low` or later. What it answers is good, and a fault marks characters. -/
abbrev Keeps {α : Type} (text : List Char) (low : Nat) (good : α → Place → Prop) :
    PostCond α (.arg Place (.except Fault .pure)) :=
  post⟨fun value place => ⌜place.Within text ∧ low ≤ place.offset ∧ good value place⌝,
    fun fault => ⌜Marked text fault.span⌝⟩

/-- A reading from `before` moves on. -/
abbrev Moves {α : Type} (text : List Char) (before : Place) (good : α → Place → Prop) :
    PostCond α (.arg Place (.except Fault .pure)) := Keeps text before.offset good

/-- The place that a reading starts from. -/
abbrev From (text : List Char) (before : Place) (also : Prop) : Assertion (.arg Place (.except Fault .pure)) :=
  fun place => ⌜place = before ∧ before.Within text ∧ also⌝

namespace Reading

attribute [spec] offset peek

@[spec]
theorem charSpan_marked (before : Place) : ⦃From text before True⦄ charSpan
    ⦃Moves text before fun span place => place = before ∧ span = ⟨before.offset, before.offset + before.charSize⟩⦄ := by
  mvcgen [charSpan] with grind [Place.charSize]

@[spec]
theorem moveTo_moves (before : Place) {rest : List Char} : ⦃From text before (rest <:+ before.rest)⦄ moveTo rest
    ⦃Moves text before fun _ place => place.rest = rest ∧ place.offset + utf8Length rest = before.offset + utf8Length before.rest⦄ := by
  rintro place ⟨rfl, ⟨front, whole, offset⟩, read, same⟩
  have sizes : utf8Length place.rest = utf8Length read + utf8Length rest := by
    rw [← same, utf8Length, Text.total_append]
    rfl
  have moved : place.offset + (utf8Length place.rest - utf8Length rest) = utf8Length (front ++ read) := by
    have joined : utf8Length (front ++ read) = utf8Length front + utf8Length read := Text.total_append ..
    omega
  refine ⟨⟨front ++ read, ?_, moved⟩, Nat.le_add_right _ _, rfl, ?_⟩
  · rw [whole, ← same, List.append_assoc]
  · change place.offset + (utf8Length place.rest - utf8Length rest) + utf8Length rest = _
    omega

@[spec]
theorem take_moves (before : Place) : ⦃From text before True⦄ take
    ⦃Moves text before fun _ place => place.offset = before.offset + before.charSize ∧ place.rest = before.rest.tail⦄ := by
  mvcgen [take] with grind [Place.charSize_tail, List.tail_suffix]

@[spec]
theorem skip_moves (before : Place) : ⦃From text before True⦄ skip ⦃Moves text before fun _ _ => True⦄ := by
  mvcgen [skip] with grind [skipBlanks_suffix]

@[spec]
theorem next_moves (before : Place) : ⦃From text before True⦄ next
    ⦃Moves text before fun first place => first = place.rest.head? ∧ before.offset + before.charSize ≤ place.offset⦄ := by
  mvcgen [next] with grind

@[spec]
theorem takeIf_moves (before : Place) (word : String) : ⦃From text before True⦄ takeIf word
    ⦃Moves text before fun _ _ => True⦄ := by
  mvcgen [takeIf] with grind [List.drop_suffix]

@[spec]
theorem takeRun_moves (before : Place) (keep : Char → Bool) : ⦃From text before True⦄ takeRun keep
    ⦃Moves text before fun _ _ => True⦄ := by
  mvcgen [takeRun] with grind [spacedRun_suffix]

private theorem discard_moves {α : Type} {reading : Reading α} {good : α → Place → Prop} {before : Place} {later : Place → Prop}
    (moves : ⦃From text before True⦄ reading ⦃Moves text before good⦄) (still : ∀ value place, good value place → later place) :
    ⦃From text before True⦄ (discard reading) ⦃Moves text before fun _ => later⦄ := by
  change ⦃From text before True⦄ (reading >>= fun _ => pure ⟨⟩ : Reading PUnit) ⦃Moves text before fun _ => later⦄
  mvcgen [moves] with grind

@[spec]
theorem discard_next (before : Place) : ⦃From text before True⦄ (discard next)
    ⦃Moves text before fun _ place => before.offset + before.charSize ≤ place.offset⦄ :=
  discard_moves (next_moves before) fun _ _ => And.right

@[spec]
theorem discard_takeRun (before : Place) (keep : Char → Bool) :
    ⦃From text before True⦄ (discard (takeRun keep)) ⦃Moves text before fun _ _ => True⦄ :=
  discard_moves (takeRun_moves before keep) fun _ _ _ => trivial

@[spec]
theorem discard_takeIf (before : Place) (word : String) :
    ⦃From text before True⦄ (discard (takeIf word)) ⦃Moves text before fun _ _ => True⦄ :=
  discard_moves (takeIf_moves before word) fun _ _ _ => trivial

@[spec]
theorem fail_marked {α : Type} (before : Place) {span : Span} {problem : Problem} :
    ⦃From text before (Marked text span)⦄ (fail span problem : Reading α) ⦃Moves text before fun _ _ => False⦄ := by
  rintro place ⟨_, _, marked⟩
  exact marked

@[spec]
theorem failFrom_marked {α : Type} (before : Place) {start : Nat} {problem : Problem} :
    ⦃From text before (Boundary text start ∧ start ≤ before.offset)⦄ (failFrom start problem : Reading α)
    ⦃Moves text before fun _ _ => False⦄ := by
  mvcgen [failFrom] with grind

@[spec]
theorem failHere_marked {α : Type} (before : Place) {problem : Problem} :
    ⦃From text before True⦄ (failHere problem : Reading α) ⦃Moves text before fun _ _ => False⦄ := by
  mvcgen [failHere] with grind

@[spec]
theorem failAtChar_marked {α : Type} (before : Place) {problem : Problem} :
    ⦃From text before True⦄ (failAtChar problem : Reading α) ⦃Moves text before fun _ _ => False⦄ := by
  mvcgen [failAtChar] with grind

@[spec]
theorem hexCharacter_moves (before : Place) {start stop : Nat} {digits : List Char} :
    ⦃From text before (Marked text ⟨start, stop⟩)⦄ hexCharacter start stop digits
    ⦃Moves text before fun _ place => place = before⦄ := by
  mvcgen [hexCharacter] with grind

@[spec]
theorem takeHexDigits_moves (before : Place) {count : Nat} :
    ⦃From text before True⦄ takeHexDigits count ⦃Moves text before fun _ _ => True⦄ := by
  induction count generalizing before with
  | zero =>
    mvcgen [takeHexDigits]
    all_goals grind
  | succ count ih => mvcgen [takeHexDigits, ih] with grind

@[spec]
theorem hexLiteral_moves (before : Place) {due : Nat} :
    ⦃From text before True⦄ hexLiteral due ⦃Moves text before fun _ _ => True⦄ := by
  have narrow : Char.utf8Size '\x7b' = 1 := rfl
  mvcgen [hexLiteral] with grind

@[spec]
theorem classNameOf_moves (before : Place) : ⦃From text before True⦄ classNameOf ⦃Moves text before fun _ _ => True⦄ := by
  mvcgen [classNameOf] with grind

@[spec]
theorem boundaryKind_moves (before : Place) {start : Nat} :
    ⦃From text before (Boundary text start ∧ start ≤ before.offset)⦄ boundaryKind start
    ⦃Moves text before fun _ _ => True⦄ := by
  mvcgen [boundaryKind] with grind

/-- What a primitive stands for is marked by a span from where it begins. -/
def Primitive.Read (text : List Char) (before : Place) (primitive : Primitive) (place : Place) : Prop :=
  Marked text primitive.span ∧ primitive.span.start = before.offset ∧ primitive.span.stop ≤ place.offset

@[spec]
theorem escape_moves (before : Place) : ⦃From text before True⦄ escape
    ⦃Moves text before (Primitive.Read text before)⦄ := by
  mvcgen [escape] with grind [Primitive.span, Primitive.Read]

@[spec]
theorem literal_moves (before : Place) {c : Char} : ⦃From text before True⦄ literal c
    ⦃Moves text before (Primitive.Read text before)⦄ := by
  mvcgen [literal] with grind [Primitive.span, Primitive.Read]

end Reading

/-- A class whose parts all mark characters, as far as a fault can name them. -/
structure ClassSet.Contained (text : List Char) (set : ClassSet) : Prop where
  whole : Marked text set.span
  parts : ∀ room span, set.tooDeep? room = some span → Marked text span

namespace ClassSet.Contained

variable {span : Span} {sets : List ClassSet}

section
variable (marked : Marked text span)
include marked

@[grind ←]
theorem empty : (ClassSet.empty span).Contained text := ⟨marked, nofun⟩

@[grind ←]
theorem member : (ClassSet.member span).Contained text := ⟨marked, nofun⟩

@[grind ←]
theorem bracketed {set : ClassSet} (contained : set.Contained text) : (ClassSet.bracketed span set).Contained text where
  whole := marked
  parts
    | 0, _, found => Option.some.inj found ▸ marked
    | room + 1, found, deep => contained.parts room found deep

private theorem combined {left right : ClassSet} (contained : left.Contained text) (beside : right.Contained text) :
    (ClassSet.combined span left right).Contained text where
  whole := marked
  parts
    | 0, _, found => Option.some.inj found ▸ marked
    | room + 1, found, deep =>
      (Option.or_eq_some_iff.mp deep).elim (contained.parts room found) fun later => beside.parts room found later.2

private theorem union (contained : ∀ set ∈ sets, set.Contained text) : (ClassSet.union span sets).Contained text where
  whole := marked
  parts
    | 0, _, found => Option.some.inj found ▸ marked
    | room + 1, found, deep => by
      change tooDeepIn? room sets = some found at deep
      induction sets with
      | nil => cases deep
      | cons set rest ih =>
        rcases Option.or_eq_some_iff.mp deep with first | later
        · exact (contained set List.mem_cons_self).parts room found first
        · exact ih (fun set member => contained set (List.mem_cons_of_mem _ member)) later.2

end

/-- Members that stand one behind the other are one set from the first of them to the last. -/
private theorem ofList {place low high : Nat} (empty : Boundary text place) (contained : ∀ set ∈ sets, set.Contained text)
    (ordered : sets.Pairwise fun set later => set.span.start ≤ later.span.stop)
    (starts : ∀ set ∈ sets, set.span.start ≤ high) (stops : ∀ set ∈ sets, low ≤ set.span.stop)
    (around : low ≤ place ∧ place ≤ high) :
    (ClassSet.ofList ⟨place, place⟩ sets).Contained text ∧ (ClassSet.ofList ⟨place, place⟩ sets).span.start ≤ high ∧
      low ≤ (ClassSet.ofList ⟨place, place⟩ sets).span.stop := by
  match sets with
  | [] => exact ⟨.empty ⟨empty, empty, Nat.le_refl _⟩, around.2, around.1⟩
  | [set] => exact ⟨contained set List.mem_cons_self, starts set List.mem_cons_self, stops set List.mem_cons_self⟩
  | first :: second :: rest =>
    have last : (second :: rest).getLast?.getD first ∈ second :: rest := by
      rw [List.getLast?_eq_some_getLast (List.cons_ne_nil _ _), Option.getD_some]
      exact List.getLast_mem _
    have across : Marked text ⟨first.span.start, ((second :: rest).getLast?.getD first).span.stop⟩ :=
      ⟨(contained first List.mem_cons_self).whole.1, (contained _ (List.mem_cons_of_mem _ last)).whole.2.1,
        (List.pairwise_cons.mp ordered).1 _ last⟩
    have ends : low ≤ ((second :: rest).getLast?.getD first).span.stop := stops _ (List.mem_cons_of_mem _ last)
    exact ⟨.union across contained, starts first List.mem_cons_self, ends⟩

end ClassSet.Contained

/-- An open class of which nothing begins after `bound`. -/
structure OpenClass.Contained (text : List Char) (bound : Nat) (cls : OpenClass) : Prop where
  head : Marked text cls.head
  opened : cls.head.start ≤ bound
  start : Boundary text cls.start
  begun : cls.start ≤ bound
  left : ∀ set, cls.left = some set → set.Contained text ∧ set.span.start ≤ cls.start
  members : ∀ set ∈ cls.members, set.Contained text ∧ set.span.start ≤ bound ∧ cls.start ≤ set.span.stop
  ordered : cls.members.Pairwise fun later set => set.span.start ≤ later.span.stop

namespace OpenClass.Contained

attribute [grind →] head opened

variable {cls : OpenClass} {bound stop : Nat} (contained : cls.Contained text bound)
include contained

@[grind .]
theorem mono (further : bound ≤ stop) : cls.Contained text stop where
  head := contained.head
  opened := Nat.le_trans contained.opened further
  start := contained.start
  begun := Nat.le_trans contained.begun further
  left := contained.left
  members set member :=
    have inside := contained.members set member
    ⟨inside.1, Nat.le_trans inside.2.1 further, inside.2.2⟩
  ordered := contained.ordered

@[grind .]
theorem add {member : ClassSet} (inside : member.Contained text) (further : bound ≤ stop)
    (starts : member.span.start ≤ stop) (stops : bound ≤ member.span.stop) : (cls.add member).Contained text stop :=
  { contained.mono further with
    members := List.forall_mem_cons.mpr ⟨⟨inside, starts, Nat.le_trans contained.begun stops⟩, (contained.mono further).members⟩
    ordered := .cons (fun set among => Nat.le_trans (contained.members set among).2.1 stops) contained.ordered }

@[grind →]
theorem set : cls.set.Contained text ∧ cls.set.span.start ≤ bound := by
  have members (set : ClassSet) (member : set ∈ cls.members.reverse) := contained.members set (List.mem_reverse.mp member)
  have right := ClassSet.Contained.ofList contained.start (fun set member => (members set member).1)
    (List.pairwise_reverse.mpr contained.ordered) (fun set member => (members set member).2.1)
    (fun set member => (members set member).2.2) ⟨Nat.le_refl _, contained.begun⟩
  unfold OpenClass.set
  cases found : cls.left with
  | none => exact ⟨right.1, right.2.1⟩
  | some left =>
    obtain ⟨before, sooner⟩ := contained.left left found
    have across : Marked text ⟨left.span.start, (ClassSet.ofList ⟨cls.start, cls.start⟩ cls.members.reverse).span.stop⟩ :=
      ⟨before.whole.1, right.1.whole.2.1, Nat.le_trans sooner right.2.2⟩
    exact ⟨.combined across before right.1, Nat.le_trans sooner contained.begun⟩

@[grind .]
theorem combine (boundary : Boundary text stop) (further : bound ≤ stop) : (cls.combine stop).Contained text stop where
  head := contained.head
  opened := Nat.le_trans contained.opened further
  start := boundary
  begun := Nat.le_refl _
  left _ found :=
    have whole := contained.set
    Option.some.inj found ▸ ⟨whole.1, Nat.le_trans whole.2 further⟩
  members := nofun
  ordered := .nil

end OpenClass.Contained

/-- Open classes, each inside the next. -/
def OpenClass.Around (text : List Char) (bound : Nat) (around : List OpenClass) : Prop :=
  ∀ outer ∈ around, outer.Contained text bound

namespace OpenClass.Around

variable {around : List OpenClass} {bound stop : Nat}

@[grind .]
theorem nil : OpenClass.Around text bound [] := nofun

@[grind =]
theorem cons {outer : OpenClass} : OpenClass.Around text bound (outer :: around) ↔
    outer.Contained text bound ∧ OpenClass.Around text bound around := List.forall_mem_cons

@[grind .]
theorem mono (contained : OpenClass.Around text bound around) (further : bound ≤ stop) : OpenClass.Around text stop around :=
  fun outer member => (contained outer member).mono further

end OpenClass.Around

/-- An expression whose parts all mark characters, as far as a fault can name them. -/
structure Tree.Contained (text : List Char) (tree : Tree) : Prop where
  whole : Marked text tree.span
  parts : ∀ room span, tree.tooDeep? room = some span → Marked text span

namespace Tree.Contained

variable {span : Span} (marked : Marked text span)
include marked

@[grind ←]
theorem empty : (Tree.empty span).Contained text := ⟨marked, nofun⟩

@[grind ←]
theorem flags : (Tree.flags span).Contained text := ⟨marked, nofun⟩

@[grind ←]
theorem atom : (Tree.atom span).Contained text := ⟨marked, nofun⟩

@[grind ←]
theorem bracketed {set : ClassSet} (contained : set.Contained text) : (Tree.bracketed span set).Contained text where
  whole := marked
  parts
    | 0, _, found => Option.some.inj found ▸ marked
    | room + 1, found, deep => contained.parts room found deep

@[grind ←]
theorem repetition {inner : Tree} (contained : inner.Contained text) : (Tree.repetition span inner).Contained text where
  whole := marked
  parts
    | 0, _, found => Option.some.inj found ▸ marked
    | room + 1, found, deep => contained.parts room found deep

@[grind ←]
theorem group {inner : Tree} (contained : inner.Contained text) : (Tree.group span inner).Contained text where
  whole := marked
  parts
    | 0, _, found => Option.some.inj found ▸ marked
    | room + 1, found, deep => contained.parts room found deep

omit marked in
private theorem tooDeepIn {trees : List Tree} (contained : ∀ tree ∈ trees, tree.Contained text) {room : Nat}
    (deep : tooDeepIn? room trees = some span) : Marked text span := by
  induction trees with
  | nil => cases deep
  | cons tree rest ih =>
    rcases Option.or_eq_some_iff.mp deep with first | later
    · exact (contained tree List.mem_cons_self).parts room span first
    · exact ih (fun tree member => contained tree (List.mem_cons_of_mem _ member)) later.2

private theorem sequence {trees : List Tree} (contained : ∀ tree ∈ trees, tree.Contained text) :
    (Tree.sequence span trees).Contained text where
  whole := marked
  parts
    | 0, _, found => Option.some.inj found ▸ marked
    | _ + 1, _, deep => tooDeepIn contained deep

private theorem alternation {trees : List Tree} (contained : ∀ tree ∈ trees, tree.Contained text) :
    (Tree.alternation span trees).Contained text where
  whole := marked
  parts
    | 0, _, found => Option.some.inj found ▸ marked
    | _ + 1, _, deep => tooDeepIn contained deep

private theorem ofList {trees : List Tree} (contained : ∀ tree ∈ trees, tree.Contained text) :
    (Tree.ofList span trees).Contained text := by
  match trees with
  | [] => exact .empty marked
  | [tree] => exact contained tree List.mem_cons_self
  | first :: second :: rest => exact .sequence marked contained

end Tree.Contained

namespace Reading

/-- Members of a class one behind the other, the first of them behind `low`. -/
structure Listed (text : List Char) (low high : Nat) (members : List ClassSet) : Prop where
  each : ∀ set ∈ members, set.Contained text ∧ low ≤ set.span.stop ∧ set.span.start ≤ high
  ordered : members.Pairwise fun set later => set.span.start ≤ later.span.stop

@[grind .]
theorem Listed.nil {low high : Nat} : Listed text low high [] := ⟨nofun, .nil⟩

@[grind .]
theorem Listed.cons {low middle high : Nat} {span : Span} {members : List ClassSet} (listed : Listed text middle high members)
    (marked : Marked text span) (stops : low ≤ span.stop) (starts : span.start ≤ middle) (within : span.start ≤ high) (order : low ≤ middle) :
    Listed text low high (.member span :: members) where
  each := List.forall_mem_cons.mpr ⟨⟨.member marked, stops, within⟩, fun set member =>
    have inside := listed.each set member
    ⟨inside.1, Nat.le_trans order inside.2.1, inside.2.2⟩⟩
  ordered := .cons (fun set member => Nat.le_trans starts (listed.each set member).2.1) listed.ordered

@[spec]
theorem leadingHyphens_moves (before : Place) {start steps : Nat} :
    ⦃From text before (Boundary text start)⦄ leadingHyphens start steps
    ⦃Moves text before fun members place => Listed text before.offset place.offset members⦄ := by
  induction steps generalizing before with
  | zero =>
    mvcgen [leadingHyphens]
    all_goals grind
  | succ steps ih => mvcgen [leadingHyphens, ih] with grind

/-- Hyphens behind a bracket are members from its end on, or a `]` there is. -/
@[grind .]
theorem Listed.opened {head : Span} {first bound : Nat} {members : List ClassSet} (listed : Listed text first bound members)
    (marked : Marked text head) (boundary : Boundary text first) (opens : head.start ≤ bound) (begins : first ≤ bound) :
    OpenClass.Contained text bound ⟨head, none, first, members.reverse⟩ where
  head := marked
  opened := opens
  start := boundary
  begun := begins
  left := nofun
  members set member :=
    have inside := listed.each set (List.mem_reverse.mp member)
    ⟨inside.1, inside.2.2, inside.2.1⟩
  ordered := List.pairwise_reverse.mpr listed.ordered

@[grind .]
theorem opened_bracket {head span : Span} {first bound : Nat} (marked : Marked text head) (boundary : Boundary text first)
    (opens : head.start ≤ bound) (begins : first ≤ bound) (bracket : Marked text span) (stops : first ≤ span.stop)
    (starts : span.start ≤ bound) : OpenClass.Contained text bound ⟨head, none, first, [.member span]⟩ :=
  have alone : Listed text first bound [.member span] := .cons .nil bracket stops starts starts begins
  alone.opened marked boundary opens begins

@[spec]
theorem classHead_moves (before : Place) : ⦃From text before True⦄ classHead
    ⦃Moves text before fun cls place => cls.Contained text place.offset⦄ := by
  mvcgen [classHead] with grind

@[spec]
theorem single_moves (before : Place) {primitive : Primitive} : ⦃From text before (Marked text primitive.span)⦄ single primitive
    ⦃Moves text before fun set place => place = before ∧ set.span = primitive.span ∧ set.Contained text⦄ := by
  mvcgen [single] with grind [Primitive.span, ClassSet.span]

@[spec]
theorem rangeEnd_moves (before : Place) {primitive : Primitive} : ⦃From text before (Marked text primitive.span)⦄ rangeEnd primitive
    ⦃Moves text before fun _ place => place = before⦄ := by
  mvcgen [rangeEnd] with grind [Primitive.span]

@[spec]
theorem classPrimitive_moves (before : Place) {c : Char} : ⦃From text before True⦄ classPrimitive c
    ⦃Moves text before (Primitive.Read text before)⦄ := by
  mvcgen [classPrimitive]

@[spec]
theorem classMember_moves (before : Place) {cls : OpenClass} {c : Char} :
    ⦃From text before (Marked text cls.head)⦄ classMember cls c
    ⦃Moves text before fun set place => set.Contained text ∧ set.span.start ≤ place.offset ∧ before.offset ≤ set.span.stop⦄ := by
  mvcgen [classMember] with grind [Primitive.Read, ClassSet.span]

private theorem orElse_moves {first second : Reading Bool} (before : Place)
    (moves : ∀ before, ⦃From text before True⦄ first ⦃Moves text before fun _ _ => True⦄)
    (further : ∀ before, ⦃From text before True⦄ second ⦃Moves text before fun _ _ => True⦄) :
    ⦃From text before True⦄ (first <||> second) ⦃Moves text before fun _ _ => True⦄ := by
  -- With another postcondition the second reading is not taken to start where the first does.
  have later (middle : Place) : ⦃From text middle True⦄ second ⦃Moves text middle fun _ place => middle.offset ≤ place.offset⦄ := by
    mvcgen [further] with grind
  mvcgen [orM, moves, later] with grind

@[spec]
theorem takeOperator_moves (before : Place) : ⦃From text before True⦄ takeOperator ⦃Moves text before fun _ _ => True⦄ :=
  orElse_moves before (takeIf_moves · _) fun before => orElse_moves before (takeIf_moves · _) (takeIf_moves · _)

@[spec]
theorem namedClass?_moves (before : Place) : ⦃From text before True⦄ namedClass?
    ⦃Moves text before fun found place => ∀ set, found = some set →
      set.Contained text ∧ set.span.start ≤ place.offset ∧ before.offset ≤ set.span.stop⦄ := by
  mvcgen [namedClass?] with grind [afterNamedClass?_suffix, ClassSet.span]

@[spec]
theorem classRest_keeps {low steps : Nat} {cls : OpenClass} {around : List OpenClass} :
    ⦃fun place => ⌜place.Within text ∧ low ≤ place.offset ∧ cls.Contained text place.offset ∧
      OpenClass.Around text place.offset around⌝⦄ classRest steps cls around
    ⦃Keeps text low fun tree place => tree.Contained text ∧ tree.span.start ≤ place.offset⦄ := by
  induction steps generalizing cls around with
  | zero =>
    mvcgen [classRest]
    all_goals grind
  | succ steps ih => mvcgen [classRest, ih] with grind [Tree.span, ClassSet.span]

@[spec]
theorem bracketedClass_moves (before : Place) : ⦃From text before True⦄ bracketedClass
    ⦃Moves text before fun tree place => tree.Contained text ∧ tree.span.start ≤ place.offset⦄ := by
  mvcgen [bracketedClass] with grind

end Reading

/-- A level of which nothing begins after `bound`. -/
structure Level.Contained (text : List Char) (bound : Nat) (level : Level) : Prop where
  start : Boundary text level.start
  begun : level.start ≤ bound
  branches : ∀ tree ∈ level.branches, tree.Contained text
  branchStart : Boundary text level.branchStart
  branched : level.branchStart ≤ bound
  parts : ∀ tree ∈ level.parts, tree.Contained text ∧ tree.span.start ≤ bound

namespace Level.Contained

variable {level : Level} {bound stop : Nat}

@[grind .]
theorem startingAt (boundary : Boundary text bound) : (Level.startingAt bound).Contained text bound :=
  ⟨boundary, Nat.le_refl _, nofun, boundary, Nat.le_refl _, nofun⟩

variable (contained : level.Contained text bound)
include contained

@[grind .]
theorem mono (further : bound ≤ stop) : level.Contained text stop :=
  { contained with
    begun := Nat.le_trans contained.begun further
    branched := Nat.le_trans contained.branched further
    parts := fun tree member => (contained.parts tree member).imp_right (Nat.le_trans · further) }

@[grind .]
theorem add {part : Tree} (inside : part.Contained text) (further : bound ≤ stop) (starts : part.span.start ≤ stop) :
    (level.add part).Contained text stop :=
  { contained.mono further with
    parts := List.forall_mem_cons.mpr ⟨⟨inside, starts⟩, (contained.mono further).parts⟩ }

@[grind .]
theorem repeated {part : Tree} {before : List Tree} (last : level.parts = part :: before) (further : bound ≤ stop)
    (boundary : Boundary text stop) :
    ({ level with parts := .repetition ⟨part.span.start, stop⟩ part :: before } : Level).Contained text stop := by
  obtain ⟨⟨inside, starts⟩, earlier⟩ := List.forall_mem_cons.mp (last ▸ (contained.mono further).parts)
  have across : Marked text ⟨part.span.start, stop⟩ := ⟨inside.whole.1, boundary, starts⟩
  exact { contained.mono further with parts := List.forall_mem_cons.mpr ⟨⟨.repetition across inside, starts⟩, earlier⟩ }

private theorem lastBranch (further : bound ≤ stop) (boundary : Boundary text stop) : (level.lastBranch stop).Contained text :=
  .ofList ⟨contained.branchStart, boundary, Nat.le_trans contained.branched further⟩ fun tree member =>
    (contained.parts tree (List.mem_reverse.mp member)).1

@[grind .]
theorem divide {bar : Nat} (further : bound ≤ bar) (boundary : Boundary text bar) (behind : Boundary text (bar + 1))
    (ends : bar + 1 ≤ stop) : (level.divide bar).Contained text stop where
  start := contained.start
  begun := Nat.le_trans contained.begun (Nat.le_trans further (Nat.le_of_succ_le ends))
  branches := List.forall_mem_cons.mpr ⟨contained.lastBranch further boundary, contained.branches⟩
  branchStart := behind
  branched := ends
  parts := nofun

@[grind .]
theorem tree (further : bound ≤ stop) (boundary : Boundary text stop) : (level.tree stop).Contained text := by
  unfold Level.tree
  split
  · exact contained.lastBranch further boundary
  · refine .alternation ⟨contained.start, boundary, Nat.le_trans contained.begun further⟩ fun tree member => ?_
    exact List.forall_mem_cons.mpr ⟨contained.lastBranch further boundary, contained.branches⟩ tree (List.mem_reverse.mp member)

end Level.Contained

structure OpenGroup.Contained (text : List Char) (bound : Nat) (group : OpenGroup) : Prop where
  parenthesis : Marked text group.parenthesis
  opened : group.parenthesis.start ≤ bound
  outside : group.outside.Contained text bound

/-- Open groups, each inside the next. -/
def OpenGroup.Around (text : List Char) (bound : Nat) (around : List OpenGroup) : Prop :=
  ∀ group ∈ around, group.Contained text bound

namespace OpenGroup

variable {group : OpenGroup} {around : List OpenGroup} {bound stop : Nat}

attribute [grind →] Contained.parenthesis

@[grind .]
theorem Contained.opening {parenthesis : Span} {verbose : Bool} {outside : Level} (marked : Marked text parenthesis)
    (starts : parenthesis.start ≤ bound) (contained : outside.Contained text bound) :
    OpenGroup.Contained text bound ⟨parenthesis, verbose, outside⟩ := ⟨marked, starts, contained⟩

private theorem Contained.mono (contained : group.Contained text bound) (further : bound ≤ stop) : group.Contained text stop :=
  ⟨contained.parenthesis, Nat.le_trans contained.opened further, contained.outside.mono further⟩

@[grind .]
theorem Contained.closed {inner : Tree} (contained : group.Contained text bound) (within : inner.Contained text)
    (further : bound ≤ stop) (boundary : Boundary text stop) :
    (group.outside.add (.group ⟨group.parenthesis.start, stop⟩ inner)).Contained text stop :=
  have starts : group.parenthesis.start ≤ stop := Nat.le_trans contained.opened further
  have across : Marked text ⟨group.parenthesis.start, stop⟩ := ⟨contained.parenthesis.1, boundary, starts⟩
  contained.outside.add (.group across within) further starts

@[grind .]
theorem Around.nil : OpenGroup.Around text bound [] := nofun

@[grind =]
theorem Around.cons : OpenGroup.Around text bound (group :: around) ↔
    group.Contained text bound ∧ OpenGroup.Around text bound around := List.forall_mem_cons

@[grind .]
theorem Around.mono (contained : OpenGroup.Around text bound around) (further : bound ≤ stop) : OpenGroup.Around text stop around :=
  fun group member => (contained group member).mono further

end OpenGroup

def Opening.span : Opening → Span
  | flags span _ | group span _ => span

namespace Reading

@[spec]
theorem groupName_moves (before : Place) : ⦃From text before True⦄ groupName ⦃Moves text before fun _ _ => True⦄ := by
  mvcgen [groupName] with grind [List.drop_suffix]

private theorem flags_keeps {low steps : Nat} {read : List Char} :
    ⦃fun place => ⌜place.Within text ∧ low ≤ place.offset ∧ (read.getLast? = some '-' → Boundary text (place.offset - 1))⌝⦄
    flags steps read ⦃Keeps text low fun _ _ => True⦄ := by
  have narrow : Char.utf8Size '-' = 1 := rfl
  induction steps generalizing read with
  | zero =>
    mvcgen [flags]
    all_goals grind
  | succ steps ih => mvcgen [flags, ih] with grind

@[spec]
theorem flags_moves (before : Place) {steps : Nat} : ⦃From text before True⦄ flags steps [] ⦃Moves text before fun _ _ => True⦄ := by
  mvcgen [flags_keeps] with grind

@[spec]
theorem opening_moves (before : Place) : ⦃From text before True⦄ opening
    ⦃Moves text before fun opened place => Marked text opened.span ∧ opened.span.start ≤ place.offset⦄ := by
  have name (before : Place) := orElse_moves before (@takeIf_moves text · "?P<") (takeIf_moves · "?<")
  have look (before : Place) := orElse_moves before (@takeIf_moves text · "?=") fun before =>
    orElse_moves before (takeIf_moves · "?!") fun before => orElse_moves before (takeIf_moves · "?<=") (takeIf_moves · "?<!")
  mvcgen [opening, name, look] with grind [Opening.span]

@[spec]
theorem setVerbose_moves (before : Place) {verbose : Option Bool} : ⦃From text before True⦄ setVerbose verbose
    ⦃Moves text before fun _ place => place.offset = before.offset⦄ := by
  mvcgen [setVerbose] with grind

@[spec]
theorem repeatable_moves (before : Place) {level : Level} : ⦃From text before True⦄ repeatable level
    ⦃Moves text before fun found place => place = before ∧ level.parts = found.1 :: found.2⦄ := by
  mvcgen [repeatable] with grind

@[spec]
theorem addRepetition_moves (before : Place) {level : Level} {part : Tree} {rest : List Tree} :
    ⦃From text before (level.Contained text before.offset ∧ level.parts = part :: rest)⦄ addRepetition level part rest
    ⦃Moves text before fun level place => place = before ∧ level.Contained text before.offset⦄ := by
  mvcgen [addRepetition] with grind

@[spec]
theorem operator_moves (before : Place) {level : Level} : ⦃From text before (level.Contained text before.offset)⦄ operator level
    ⦃Moves text before fun level place => level.Contained text place.offset⦄ := by
  mvcgen [operator] with grind

@[spec]
theorem takeBlanks_moves (before : Place) : ⦃From text before True⦄ takeBlanks ⦃Moves text before fun _ _ => True⦄ := by
  mvcgen [takeBlanks] with grind [List.dropWhile_suffix]

@[spec]
theorem count_moves (before : Place) : ⦃From text before True⦄ count
    ⦃Moves text before fun number _ => ∀ fault, number = .error fault → Marked text fault.span⦄ := by
  mvcgen [count] with grind

@[spec]
theorem counted_marked {number : Except Fault Nat} :
    ⦃⌜∀ fault, number = .error fault → Marked text fault.span⌝⦄ number
    ⦃post⟨fun _ => ⌜True⌝, fun fault => ⌜Marked text fault.span⌝⟩⦄ := by
  intro marked
  cases number with
  | ok value => exact trivial
  | error fault => exact marked fault rfl

@[spec]
theorem countedOperator_moves (before : Place) {level : Level} :
    ⦃From text before (level.Contained text before.offset)⦄ countedOperator level
    ⦃Moves text before fun level place => level.Contained text place.offset⦄ := by
  mvcgen [countedOperator] with grind

@[spec]
theorem part_moves (before : Place) {c : Char} : ⦃From text before True⦄ part c
    ⦃Moves text before fun tree place => tree.Contained text ∧ tree.span.start ≤ place.offset⦄ := by
  mvcgen [part] with grind [Primitive.Read, Tree.span]

private theorem rest_keeps {low steps : Nat} {level : Level} {around : List OpenGroup} :
    ⦃fun place => ⌜place.Within text ∧ low ≤ place.offset ∧ level.Contained text place.offset ∧
      OpenGroup.Around text place.offset around⌝⦄ rest steps level around
    ⦃Keeps text low fun tree _ => tree.Contained text⦄ := by
  have narrow : Char.utf8Size '|' = 1 := rfl
  induction steps generalizing level around with
  | zero =>
    mvcgen [rest]
    all_goals grind
  | succ steps ih => mvcgen [rest, ih] with grind [Opening.span, Tree.span]

end Reading

private theorem fault?_eq (pattern : String) : fault? pattern =
    match (Reading.rest (pattern.toList.length + 1) (.startingAt 0) []).run ⟨0, pattern.toList, false, []⟩ with
    | .error fault => some fault
    | .ok (tree, _) => (tree.tooDeep? nestLimit).map (⟨·, .nestedTooDeep nestLimit⟩) := by
  unfold fault? parse
  dsimp only
  cases (Reading.rest (pattern.toList.length + 1) (.startingAt 0) []).run ⟨0, pattern.toList, false, []⟩ with
  | error => rfl
  | ok result =>
    obtain ⟨tree, after⟩ := result
    dsimp only
    cases tree.tooDeep? nestLimit <;> rfl

private theorem Marked.fits {pattern : String} {span : Span} (marked : Marked pattern.toList span) : span.Fits pattern := by
  obtain ⟨start, stop, ordered⟩ := marked
  have ends := Text.LineIndex.isValid_iff.mpr stop
  exact ⟨ordered, ends.le_utf8ByteSize, Text.LineIndex.isValid_iff.mpr start, ends⟩

/-- A fault marks characters of the pattern. -/
theorem fault?_bounded : Finder.Bounded fault? := by
  intro pattern fault found
  refine Marked.fits ?_
  let start : Place := ⟨0, pattern.toList, false, []⟩
  have within : start.Within pattern.toList := ⟨[], rfl, rfl⟩
  have outcome := @Reading.rest_keeps _ 0 (pattern.toList.length + 1) _ [] start
    ⟨within, Nat.zero_le _, .startingAt within.boundary, .nil⟩
  simp only [wp, PredTrans.apply_pushArg] at outcome
  rw [fault?_eq] at found
  split at found
  next early read =>
    rw [read] at outcome
    exact Option.some.inj found ▸ outcome
  next tree after read =>
    rw [read] at outcome
    obtain ⟨span, deep, rfl⟩ := Option.map_eq_some_iff.mp found
    exact outcome.2.2.parts nestLimit span deep

end TreeQuery.Regex
