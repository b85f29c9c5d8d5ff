import TreeQuery.Proofs.QueryPhrases

/-! Phrases before further words. What a phrase leaves is the end of what was ahead of it. Words that
begin a pattern can be put after all that is left and change nothing, unless a field stands without a
value at the end: the first of them would be its value. -/

namespace TreeQuery.Syntax

/-- The last word is not joined to what may follow it. -/
def Loose (ahead : List Word) : Prop := ∀ last, ahead.getLast? = some last → last.joined = false

private theorem Loose.of_suffix {ahead rest : List Word} (loose : Loose ahead) (suffix : rest <:+ ahead) : Loose rest := by
  obtain ⟨front, rfl⟩ := suffix
  intro last found
  exact loose last (by rw [List.getLast?_append, found]; rfl)

theorem words_loose (tokens : List Token) : Loose (words tokens) := by
  induction tokens with
  | nil => exact nofun
  | cons token rest ih =>
    rw [words]
    split
    · exact ih
    · intro last found
      cases others : words rest with
      | cons word further =>
        rw [others, List.getLast?_cons_cons] at found
        exact ih last (others ▸ found)
      | nil =>
        rw [others, List.getLast?_singleton] at found
        obtain rfl := Option.some.inj found
        cases rest with
        | nil => rfl
        | cons next further =>
          cases blank : next.isTrivia with
          | true => simp [blank]
          | false => simp [words, blank] at others

/-- After trivia the words go on apart from those before. -/
theorem words_append {more : List Token} (gap : ∀ token, more.head? = some token → token.isTrivia = true)
    (tokens : List Token) : words (tokens ++ more) = words tokens ++ words more := by
  induction tokens with
  | nil => rfl
  | cons token rest ih =>
    have next : (rest ++ more).head?.any (!·.isTrivia) = rest.head?.any (!·.isTrivia) := by
      cases rest with
      | cons next rest => rfl
      | nil =>
        cases more with
        | nil => rfl
        | cons blank more => simp [gap blank rfl]
    rw [List.cons_append, words, words, ih, next]
    split <;> rfl

namespace Phrase

section Remainder

variable {eager : Bool} {ahead rest : List Word}

private theorem capture_leaves (capture : Capture eager ahead rest) : rest <:+ ahead := by
  cases capture with
  | named => exact ⟨[_, _], rfl⟩
  | bare => exact ⟨[_], rfl⟩

private theorem hanging_leaves (hangs : Hanging ahead rest) : rest <:+ ahead := by
  cases hangs
  exact ⟨[_], rfl⟩

private theorem quoted_leaves (quoted : Quoted ahead rest) : rest <:+ ahead := by
  cases quoted with
  | empty => exact ⟨[_, _], rfl⟩
  | filled => exact ⟨[_, _, _], rfl⟩

theorem steps_leave {part : Phrase} (leaves : ∀ ahead rest, part ahead rest → rest <:+ ahead)
    (parts : Relation.ReflTransGen part ahead rest) : rest <:+ ahead := by
  induction parts with
  | refl => exact List.suffix_refl _
  | tail _ last ih => exact (leaves _ _ last).trans ih

private theorem quantifier_leaves {accepts : TokenKind → Bool}
    (quantified : Optional eager TokenKind.isQuantifier (One accepts) ahead rest) : rest <:+ ahead := by
  cases quantified with
  | omitted => exact List.suffix_refl _
  | taken one =>
    cases one
    exact List.suffix_cons ..

private theorem suffix_leaves (suffix : Suffix eager ahead rest) : rest <:+ ahead := by
  obtain ⟨quantified, captured⟩ := suffix
  exact (steps_leave (fun _ _ => capture_leaves) captured.parts).trans (quantifier_leaves quantified)

theorem argument_leaves (argument : Argument eager ahead rest) : rest <:+ ahead := by
  cases argument with
  | capture inside => exact capture_leaves inside
  | string quoted => exact quoted_leaves quoted
  | name => exact List.suffix_cons ..

private theorem detail_leaves {name : Word} (detail : KindDetail eager name ahead rest) : rest <:+ ahead := by
  cases detail with
  | missing _ detail =>
    cases detail with
    | omitted => exact List.suffix_refl _
    | taken kind =>
      cases kind with
      | kind => exact List.suffix_cons ..
      | literal quoted => exact quoted_leaves quoted
  | plain _ detail =>
    cases detail with
    | omitted => exact List.suffix_refl _
    | taken subtype =>
      cases subtype
      exact ⟨[_, _], rfl⟩

private theorem invocation_leaves (invocation : Invocation eager ahead rest) : rest <:+ ahead := by
  obtain ⟨_, _, arguments, _⟩ := invocation
  have inside := steps_leave (fun _ _ => argument_leaves) arguments.parts
  exact ((List.suffix_cons ..).trans inside).trans ⟨[_, _], rfl⟩

section Nesting

variable {inner : Phrase} (leaves : ∀ ahead rest, inner ahead rest → rest <:+ ahead)
include leaves

private theorem item_leaves (item : Item inner ahead rest) : rest <:+ ahead := by
  cases item with
  | pattern nested => exact leaves _ _ nested
  | negated => exact ⟨[_, _], rfl⟩
  | anchor => exact List.suffix_cons ..
  | hanging hangs => exact hanging_leaves hangs

private theorem items_leave (items : Relation.ReflTransGen (Item inner) ahead rest) : rest <:+ ahead :=
  steps_leave (fun _ _ => item_leaves leaves) items

private theorem body_leaves {closer : TokenKind} (body : Body eager inner closer ahead rest) : rest <:+ ahead := by
  obtain ⟨items, _, suffix⟩ := body
  exact (suffix_leaves suffix).trans ((List.suffix_cons ..).trans (items_leave leaves items.parts))

private theorem body_some {closer : TokenKind} (body : Body eager inner closer ahead rest) : ahead ≠ [] := by
  obtain ⟨items, _, _⟩ := body
  exact List.ne_nil_of_mem ((items_leave leaves items.parts).subset List.mem_cons_self)

private theorem construct_leaves (construct : Construct eager inner ahead rest) : rest <:+ ahead := by
  cases construct with
  | named _ _ _ detail body => exact ((body_leaves leaves body).trans (detail_leaves detail)).trans ⟨[_, _], rfl⟩
  | grouping _ _ body => exact (body_leaves leaves body).trans (List.suffix_cons ..)
  | list _ body => exact (body_leaves leaves body).trans (List.suffix_cons ..)
  | string quoted suffix => exact (suffix_leaves suffix).trans (quoted_leaves quoted)
  | wildcard _ suffix => exact (suffix_leaves suffix).trans (List.suffix_cons ..)
  | field _ _ value =>
    cases value with
    | omitted => exact ⟨[_, _], rfl⟩
    | taken valued => exact (leaves _ _ valued.2).trans ⟨[_, _], rfl⟩
  | predicate _ _ invocation => exact (invocation_leaves invocation).trans ⟨[_, _], rfl⟩

end Nesting

private theorem pattern_leaves (room : Nat) : ∀ ahead rest, Pattern eager room ahead rest → rest <:+ ahead := by
  induction room with
  | zero => exact fun _ _ => False.elim
  | succ room ih => exact fun _ _ => construct_leaves ih

theorem topLevel_leaves {limit : Nat} (top : TopLevel eager limit ahead rest) : rest <:+ ahead := by
  cases top with
  | pattern pattern => exact pattern_leaves limit _ _ pattern
  | hanging hangs => exact hanging_leaves hangs

end Remainder

section Extension

variable {more ahead rest : List Word} {accepts : TokenKind → Bool}

private theorem begins_within (some : ahead ≠ []) : begins accepts (ahead ++ more) = begins accepts ahead := by
  cases ahead with
  | nil => exact absurd rfl some
  | cons word ahead => rfl

private theorem one_extends (one : One accepts ahead rest) : One accepts (ahead ++ more) (rest ++ more) := by
  cases one with
  | word fits => exact .word fits

private theorem optional_extends {part : Phrase} (same : begins accepts (ahead ++ more) = begins accepts ahead)
    (inside : part ahead rest → part (ahead ++ more) (rest ++ more)) (optional : Optional true accepts part ahead rest) :
    Optional true accepts part (ahead ++ more) (rest ++ more) := by
  cases optional with
  | taken taken => exact .taken (inside taken)
  | omitted free => exact .omitted fun _ => same.trans (free rfl)

private theorem steps_extend {part : Phrase} (leaves : ∀ ahead rest, part ahead rest → rest <:+ ahead)
    (each : ∀ ahead middle, Loose ahead → rest <:+ middle → part ahead middle → part (ahead ++ more) (middle ++ more))
    (loose : Loose ahead) (parts : Relation.ReflTransGen part ahead rest) :
    Relation.ReflTransGen part (ahead ++ more) (rest ++ more) := by
  induction parts using Relation.ReflTransGen.head_induction_on with
  | refl => exact .refl
  | head first later ih =>
    have left := leaves _ _ first
    exact .head (each _ _ loose (steps_leave leaves later) first) (ih (loose.of_suffix left))

/-- The last word of all is followed by no name, whatever is put after it. -/
private theorem name_within {sign : Word} (loose : Loose (sign :: ahead)) (follows : NameFollows sign (ahead ++ more)) :
    NameFollows sign ahead := by
  cases ahead with
  | nil => cases (loose sign rfl).symm.trans follows.1
  | cons word ahead => exact follows

private theorem quoted_extends (quoted : Quoted ahead rest) : Quoted (ahead ++ more) (rest ++ more) := by
  cases quoted with
  | empty opens joined closes => exact .empty opens joined closes
  | filled opens joined inside adjoined closes => exact .filled opens joined inside adjoined closes

private theorem capture_extends (loose : Loose ahead) (capture : Capture true ahead rest) :
    Capture true (ahead ++ more) (rest ++ more) := by
  cases capture with
  | named sigil joined named => exact .named sigil joined named
  | bare sigil free => exact .bare sigil fun eager => mt (name_within loose) (free eager)

private theorem hanging_extends (loose : Loose ahead) (hangs : Hanging ahead rest) : Hanging (ahead ++ more) (rest ++ more) := by
  cases hangs with
  | sign sigil nameless => exact .sign sigil (mt (name_within loose) nameless)

private theorem argument_extends (loose : Loose ahead) (argument : Argument true ahead rest) :
    Argument true (ahead ++ more) (rest ++ more) := by
  cases argument with
  | capture inside => exact .capture (capture_extends loose inside)
  | string quoted => exact .string (quoted_extends quoted)
  | name named => exact .name named

/-- Members up to a closer are the same members, whatever comes after it. -/
private theorem closed_extends {part : Phrase} {closing : Word} (leaves : ∀ ahead rest, part ahead rest → rest <:+ ahead)
    (each : ∀ ahead middle, Loose ahead → middle ≠ [] → part ahead middle → part (ahead ++ more) (middle ++ more))
    (loose : Loose ahead) (members : Repeated true accepts part ahead (closing :: rest)) :
    Repeated true accepts part (ahead ++ more) (closing :: (rest ++ more)) where
  parts := steps_extend leaves (fun _ _ loose within =>
    each _ _ loose (List.ne_nil_of_mem (within.subset List.mem_cons_self))) loose members.parts
  free := members.free

private theorem detail_extends {name : Word} (some : ahead ≠ []) (detail : KindDetail true name ahead rest) :
    KindDetail true name (ahead ++ more) (rest ++ more) := by
  cases detail with
  | missing reads detail =>
    refine .missing reads (optional_extends (begins_within some) (fun kind => ?_) detail)
    cases kind with
    | kind named => exact .kind named
    | literal quoted => exact .literal (quoted_extends quoted)
  | plain reads detail =>
    refine .plain reads (optional_extends (begins_within some) (fun subtype => ?_) detail)
    cases subtype with
    | path divides named => exact .path divides named

private theorem invocation_extends (loose : Loose ahead) (invocation : Invocation true ahead rest) :
    Invocation true (ahead ++ more) (rest ++ more) := by
  obtain ⟨named, marked, arguments, closes⟩ := invocation
  exact .parts named marked (closed_extends (fun _ _ => argument_leaves)
    (fun _ _ loose _ => argument_extends loose) (loose.of_suffix ⟨[_, _], rfl⟩) arguments) closes

variable (starts : begins (fun kind => !kind.startsPattern) more = false)
include starts

private theorem begins_past (other : ∀ kind, kind.startsPattern = true → accepts kind = false) :
    begins accepts (ahead ++ more) = begins accepts ahead := by
  cases ahead with
  | cons word ahead => rfl
  | nil =>
    cases more with
    | nil => rfl
    | cons word more => exact other word.kind (by simpa [begins] using starts)

private theorem suffix_extends (loose : Loose ahead) (suffix : Suffix true ahead rest) :
    Suffix true (ahead ++ more) (rest ++ more) := by
  obtain ⟨quantified, captured⟩ := suffix
  have unquantified (kind : TokenKind) (pattern : kind.startsPattern = true) : kind.isQuantifier = false := by
    cases kind <;> simp_all [TokenKind.startsPattern, TokenKind.isQuantifier]
  have unsigned (kind : TokenKind) (pattern : kind.startsPattern = true) : decide (kind = .atSign) = false := by
    cases kind <;> simp_all [TokenKind.startsPattern]
  refine .parts (optional_extends (begins_past starts unquantified) one_extends quantified) ⟨?_, fun eager => ?_⟩
  · exact steps_extend (fun _ _ => capture_leaves) (fun _ _ loose _ => capture_extends loose)
      (loose.of_suffix (quantifier_leaves quantified)) captured.parts
  · exact (begins_past starts unsigned).trans (captured.free eager)

/-- Only a field name and its colon are to be told from a pattern that is complete at the end. -/
structure Carries (more : List Word) (phrase : Phrase) : Prop where
  leaves : ∀ ahead rest, phrase ahead rest → rest <:+ ahead
  appends : ∀ ahead rest, phrase ahead rest → Loose ahead →
    (rest = [] → ahead.map Word.kind ≠ [.identifier, .colon]) → phrase (ahead ++ more) (rest ++ more)

section Nesting

variable {inner : Phrase} (carries : Carries more inner)
include carries

omit starts in
private theorem item_extends (loose : Loose ahead) (some : rest ≠ []) (item : Item inner ahead rest) :
    Item inner (ahead ++ more) (rest ++ more) := by
  cases item with
  | pattern nested => exact .pattern (carries.appends _ _ nested loose fun none => absurd none some)
  | negated negates named => exact .negated negates named
  | anchor anchors => exact .anchor anchors
  | hanging hangs => exact .hanging (hanging_extends loose hangs)

private theorem body_extends {closer : TokenKind} (loose : Loose ahead) (body : Body true inner closer ahead rest) :
    Body true inner closer (ahead ++ more) (rest ++ more) := by
  obtain ⟨items, closes, suffix⟩ := body
  have left := (List.suffix_cons ..).trans (items_leave carries.leaves items.parts)
  exact .parts (closed_extends (fun _ _ => item_leaves carries.leaves)
    (fun _ _ loose some => item_extends carries loose some) loose items) closes
    (suffix_extends starts (loose.of_suffix left) suffix)

omit carries in
private theorem undivided_past : begins (· = .colon) (ahead ++ more) = begins (· = .colon) ahead :=
  begins_past starts fun kind pattern => by cases kind <;> simp_all [TokenKind.startsPattern]

private theorem construct_extends (loose : Loose ahead) (valued : rest = [] → ahead.map Word.kind ≠ [.identifier, .colon])
    (construct : Construct true inner ahead rest) : Construct true inner (ahead ++ more) (rest ++ more) := by
  cases construct with
  | named opens named whole detail body =>
    have some : _ ≠ [] := fun none =>
      body_some carries.leaves body (List.suffix_nil.mp (none ▸ detail_leaves detail))
    have inside : Loose _ := loose.of_suffix ⟨[_, _], rfl⟩
    exact .named opens named ((undivided_past starts).trans whole) (detail_extends some detail)
      (body_extends starts carries (inside.of_suffix (detail_leaves detail)) body)
  | @grouping _ inside _ opens plain body =>
    have some := body_some carries.leaves body
    refine .grouping opens (fun (special : Special (inside ++ more)) => plain ?_)
      (body_extends starts carries (loose.of_suffix (List.suffix_cons ..)) body)
    rcases special with marked | ⟨named, whole⟩
    · exact .inl ((begins_within some).symm.trans marked)
    · rw [List.tail_append_of_ne_nil some, undivided_past starts] at whole
      exact .inr ⟨(begins_within some).symm.trans named, whole⟩
  | list opens body => exact .list opens (body_extends starts carries (loose.of_suffix (List.suffix_cons ..)) body)
  | string quoted suffix =>
    exact .string (quoted_extends quoted) (suffix_extends starts (loose.of_suffix (quoted_leaves quoted)) suffix)
  | wildcard wild suffix => exact .wildcard wild (suffix_extends starts (loose.of_suffix (List.suffix_cons ..)) suffix)
  | @field name colon ahead _ named divides value =>
    refine .field named divides ?_
    cases value with
    | omitted free =>
      have some : rest ≠ [] := by
        rintro rfl
        exact valued rfl (by simp [named, divides])
      exact .omitted fun eager => (begins_within some).trans (free eager)
    | taken value =>
      obtain ⟨begun, value⟩ := value
      have some : ahead ≠ [] := by
        rintro rfl
        cases begun
      refine .taken ⟨(begins_within some).trans begun, ?_⟩
      refine carries.appends _ _ value (loose.of_suffix ⟨[_, _], rfl⟩) fun _ shape => ?_
      obtain ⟨word, further, rfl⟩ := List.exists_cons_of_ne_nil some
      simp_all [begins, TokenKind.startsValue]
  | predicate opens marks invocation =>
    exact .predicate opens marks (invocation_extends (loose.of_suffix ⟨[_, _], rfl⟩) invocation)

end Nesting

private theorem pattern_carries (room : Nat) : Carries more (Pattern true room) where
  leaves := pattern_leaves room
  appends := by
    induction room with
    | zero => exact fun _ _ => False.elim
    | succ room ih =>
      intro ahead rest construct loose valued
      exact construct_extends starts ⟨pattern_leaves room, ih⟩ loose valued construct

/-- A top-level construct is read the same way with more patterns after the last one. -/
theorem topLevel_extends {limit : Nat} (loose : Loose ahead)
    (valued : rest = [] → ahead.map Word.kind ≠ [.identifier, .colon]) (top : TopLevel true limit ahead rest) :
    TopLevel true limit (ahead ++ more) (rest ++ more) := by
  cases top with
  | pattern pattern => exact .pattern ((pattern_carries starts limit).appends _ _ pattern loose valued)
  | hanging hangs => exact .hanging (hanging_extends loose hangs)

end Extension

end Phrase

end TreeQuery.Syntax
