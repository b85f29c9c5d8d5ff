import TreeQuery.Proofs.ReadingAcceptance

/-! The parser reports nothing exactly for the words of the grammar read eagerly. -/

namespace TreeQuery.Syntax

namespace Parser
open Reading Reading.Accepts Phrase

variable {word sign : Word} {ahead : List Word} {kind : TokenKind}

private theorem reportHere_accepts (found : Diagnostic.Kind) :
    (reportHere found).Accepts (Fresh ahead) fun _ _ => False := asking fun _ => report _

private theorem unexpected_accepts (wanted : String) : (unexpected wanted).Accepts (Fresh ahead) fun _ _ => False :=
  asking fun _ => reporting (report _)

private theorem bareIdentifier_accepts : bareIdentifier.Accepts (Fresh ahead) fun _ _ => False :=
  reporting (reportHere_accepts _)

private theorem take_one {accepts : TokenKind → Bool} (fits : accepts word.kind = true) :
    take.Accepts (Fresh (word :: ahead)) fun _ => One accepts (word :: ahead) := by
  refine take.congr fun _ left => ⟨?_, ?_⟩
  · rintro rfl
    exact .word fits
  · intro one
    cases one
    rfl

/-- A token is taken, or its absence reported. -/
private theorem takeIf_or {loud : Reading Unit} (kind : TokenKind) (reports : loud.Accepts (Fresh ahead) fun _ _ => False) :
    (do unless ← takeIf kind do loud : Reading Unit).Accepts (Fresh ahead) fun _ => One (· = kind) ahead := by
  cases next : begins (· = kind) ahead with
  | true =>
    obtain ⟨word, others, rfl, same⟩ := begins_kind.mp next
    refine step (takeIf_taken same) (idle.congr fun _ left => ?_)
    rw [one_kind]
    constructor
    · rintro rfl
      exact ⟨word, rfl, same⟩
    · rintro ⟨_, read, _⟩
      exact (List.cons.inj read).2.symm
  | false =>
    refine step (takeIf_left next) (reports.congr fun _ left => ⟨False.elim, fun one => ?_⟩)
    simp [begins_one one] at next

private theorem close_accepts (closer : TokenKind) (unclosed : Diagnostic.Kind) (opener : Text.Span) :
    (close closer unclosed opener).Accepts (Fresh ahead) fun _ => One (· = closer) ahead :=
  takeIf_or closer (report _)

private theorem capture_accepts (sigil : sign.kind = .atSign) :
    capture.Accepts (Fresh (sign :: ahead)) fun _ => Capture true (sign :: ahead) := by
  refine node (taking (adjacent fun found sees => ?_))
  have same : found = some .identifier ↔ NameFollows sign ahead := sees .identifier rfl
  by_cases named : NameFollows sign ahead
  · rw [if_pos (same.mpr named)]
    obtain ⟨name, others, rfl, identifier⟩ := begins_kind.mp named.2
    refine (after take).congr fun _ left => ⟨?_, ?_⟩
    · rintro rfl
      exact .named sigil named.1 identifier
    · intro capture
      cases capture with
      | named => rfl
      | bare _ free => exact absurd named (free rfl)
  · rw [if_neg (mt same.mp named)]
    refine (after idle).congr fun _ left => ⟨?_, ?_⟩
    · rintro rfl
      exact .bare sigil fun _ => named
    · intro capture
      cases capture with
      | named _ joined identifier => exact absurd ⟨joined, begins_kind.mpr ⟨_, _, rfl, identifier⟩⟩ named
      | bare => rfl

private theorem detachedCapture_accepts (sigil : sign.kind = .atSign) :
    detachedCapture.Accepts (Fresh (sign :: ahead)) fun _ => Hanging (sign :: ahead) := by
  refine asking fun start => node (taking (adjacent fun found sees => ?_))
  have same : found = some .identifier ↔ NameFollows sign ahead := sees .identifier rfl
  by_cases named : NameFollows sign ahead
  · rw [if_pos (same.mpr named)]
    obtain ⟨name, others, rfl, _⟩ := begins_kind.mp named.2
    refine (after (asking fun span => taking (after (report _)))).congr fun _ left => ⟨False.elim, fun hanging => ?_⟩
    cases hanging with
    | sign _ nameless => exact nameless named
  · rw [if_neg (mt same.mp named)]
    refine (after idle).congr fun _ left => ⟨?_, ?_⟩
    · rintro rfl
      exact .sign sigil named
    · intro hanging
      cases hanging
      rfl

private theorem quantifier_accepts : quantifier.Accepts (Fresh ahead) fun _ =>
    Optional true TokenKind.isQuantifier (One TokenKind.isQuantifier) ahead := by
  refine step current ?_
  rw [Option.any_map]
  change (if begins TokenKind.isQuantifier ahead = true then _ else _ : Reading Unit).Accepts _ _
  split
  next following =>
    cases ahead with
    | nil => cases following
    | cons word others => exact (node (take_one following)).congr fun _ left => (optional_taken following).symm
  next other =>
    have absent := Bool.eq_false_iff.mpr other
    exact idle.congr fun _ left => (optional_omitted absent fun _ => begins_one).symm

private theorem nextCapture_accepts : nextCapture.Accepts (Fresh ahead) fun again left =>
    if again = true then Capture true ahead left else begins (· = .atSign) ahead = false ∧ left = ahead := by
  refine step current ?_
  split
  next here =>
    obtain ⟨sign, others, rfl, sigil⟩ := begins_kind.mp (head?_kind_iff.mp here)
    refine (sequence (capture_accepts sigil) fun middle _ => Accepts.pure true).congr fun again left => ?_
    cases again with
    | true => simp
    | false => simp [begins, sigil]
  next other =>
    have absent : begins (· = .atSign) ahead = false := Bool.eq_false_iff.mpr (mt head?_kind_iff.mpr other)
    refine (Accepts.pure false).congr fun again left => ?_
    cases again with
    | true =>
      have never : ¬ Capture true ahead left := by
        intro capture
        cases capture <;> simp_all
      simp [never]
    | false => simp [absent]

private theorem suffix_accepts : suffix.Accepts (Fresh ahead) fun _ => Suffix true ahead := by
  have captures (middle : List Word) : (repeatWhile nextCapture).Accepts (Fresh middle) fun _ => Captures true middle := by
    refine (repeatWhile advances.nextCapture (fun _ _ => capture_shrinks) fun _ =>
      nextCapture_accepts).congr fun _ left => ?_
    exact ⟨fun ⟨parts, stops⟩ => ⟨parts, fun _ => stops⟩, fun ⟨parts, free⟩ => ⟨parts, free rfl⟩⟩
  refine (sequence quantifier_accepts fun middle _ => captures middle).congr fun _ left => ⟨?_, ?_⟩
  · rintro ⟨middle, quantified, captured⟩
    exact .parts quantified captured
  · rintro ⟨quantified, captured⟩
    exact ⟨_, quantified, captured⟩

private theorem closingQuote_accepts (opener : Text.Span) : (closingQuote opener).Accepts (After sign ahead) fun _ left =>
    sign.joined = true ∧ One (· = .doubleQuote) ahead left := by
  refine adjacent fun found sees => ?_
  have same : found = some .doubleQuote ↔ sign.joined = true ∧ begins (· = .doubleQuote) ahead = true :=
    sees .doubleQuote rfl
  split
  next here =>
    obtain ⟨joined, next⟩ := same.mp here
    cases ahead with
    | nil => cases next
    | cons quote others => exact (after (take_one next)).congr fun _ left => (and_iff_right joined).symm
  next elsewhere =>
    refine (after (report _)).congr fun _ left => ⟨False.elim, fun ⟨joined, closes⟩ => ?_⟩
    exact elsewhere (same.mpr ⟨joined, begins_one closes⟩)

private theorem string_accepts (opens : sign.kind = .doubleQuote) :
    string.Accepts (Fresh (sign :: ahead)) fun _ => Quoted (sign :: ahead) := by
  refine node (asking fun opener => taking (assoc (adjacent fun found sees => ?_)))
  have same : found = some .stringContent ↔ sign.joined = true ∧ begins (· = .stringContent) ahead = true :=
    sees .stringContent rfl
  by_cases filled : sign.joined = true ∧ begins (· = .stringContent) ahead = true
  · rw [if_pos (same.mpr filled)]
    obtain ⟨content, others, rfl, inside⟩ := begins_kind.mp filled.2
    refine after (taking ((closingQuote_accepts opener).congr fun _ left => ?_))
    rw [one_kind]
    constructor
    · rintro ⟨adjoined, _, rfl, closes⟩
      exact .filled opens filled.1 inside adjoined closes
    · intro quoted
      cases quoted with
      | empty _ _ closes => simp [inside] at closes
      | filled _ _ _ adjoined closes => exact ⟨adjoined, _, rfl, closes⟩
  · rw [if_neg (mt same.mp filled)]
    change (closingQuote opener).Accepts _ _
    refine (closingQuote_accepts opener).congr fun _ left => ?_
    rw [one_kind]
    constructor
    · rintro ⟨joined, _, rfl, closes⟩
      exact .empty opens joined closes
    · intro quoted
      cases quoted with
      | empty _ joined closes => exact ⟨joined, _, rfl, closes⟩
      | filled _ joined inside => exact absurd ⟨joined, begins_kind.mpr ⟨_, _, rfl, inside⟩⟩ filled

private theorem negatedField_accepts :
    negatedField.Accepts (Fresh (sign :: ahead)) fun _ => One (· = .identifier) ahead :=
  node (taking (after (takeIf_or .identifier (reportHere_accepts _))))

private theorem anonymousNode_string (opens : sign.kind = .doubleQuote) : anonymousNode.Accepts (Fresh (sign :: ahead))
    fun _ left => ∃ middle, Quoted (sign :: ahead) middle ∧ Suffix true middle left := by
  have quoted : stringOrWildcard.Accepts (Fresh (sign :: ahead)) fun _ => Quoted (sign :: ahead) := by
    refine step (takeIf_left ?_) (string_accepts opens)
    simp [begins, opens]
  exact node (sequence quoted fun _ _ => suffix_accepts)

private theorem anonymousNode_wildcard (wild : sign.kind = .underscore) :
    anonymousNode.Accepts (Fresh (sign :: ahead)) fun _ => Suffix true ahead := by
  have wildcard : stringOrWildcard.Accepts (Fresh (sign :: ahead)) fun _ left => left = ahead :=
    step (takeIf_taken wild) idle
  exact node (past wildcard suffix_accepts)

private theorem argument_accepts : (argument sign.kind).Accepts (Fresh (sign :: ahead)) fun _ => Argument true (sign :: ahead) := by
  unfold argument
  split
  next sigil =>
    refine (capture_accepts sigil).congr fun _ left => ⟨.capture, fun argument => ?_⟩
    cases argument with
    | capture inside => exact inside
    | string quoted => simp [quoted_opens quoted] at sigil
    | name named => simp [sigil] at named
  next opens =>
    refine (string_accepts opens).congr fun _ left => ⟨.string, fun argument => ?_⟩
    cases argument with
    | capture inside => simp [capture_opens inside] at opens
    | string quoted => exact quoted
    | name named => simp [opens] at named
  iterate 2
    next named =>
      refine Accepts.take.congr fun _ left => ⟨?_, fun argument => ?_⟩
      · rintro rfl
        exact .name (by simp [named])
      · cases argument with
        | capture inside => simp [capture_opens inside] at named
        | string quoted => simp [quoted_opens quoted] at named
        | name => rfl
  next sigil opens named wild =>
    refine (unexpected_accepts _).congr fun _ left => ⟨False.elim, fun argument => ?_⟩
    cases argument with
    | capture inside => exact sigil (capture_opens inside)
    | string quoted => exact opens (quoted_opens quoted)
    | name fits => exact fits.elim named wild

private theorem argument_opens {rest : List Word} (argument : Argument true ahead rest) :
    begins (fun kind => !kind.isCloser) ahead = true := by
  cases argument with
  | capture inside => cases inside <;> simp_all [begins, TokenKind.isCloser]
  | string quoted => cases quoted <;> simp_all [begins, TokenKind.isCloser]
  | name named => obtain named | named := named <;> simp [begins, named, TokenKind.isCloser]

/-- Members are read one after the other up to a closer or the end. -/
private theorem members_accepts {member : TokenKind → Reading Unit} {part : Phrase}
    (forward : ∀ kind, Obeys Advances (member kind))
    (shrinks : ∀ ahead rest, part ahead rest → rest.length < ahead.length)
    (opens : ∀ ahead rest, part ahead rest → begins (fun kind => !kind.isCloser) ahead = true)
    (each : ∀ word ahead, (member word.kind).Accepts (Fresh (word :: ahead)) fun _ => part (word :: ahead)) :
    (repeatWhile (nextMember member)).Accepts (Fresh ahead) fun _ left =>
      Relation.ReflTransGen part ahead left ∧ begins (fun kind => !kind.isCloser) left = false := by
  refine repeatWhile (advances.nextMember forward) shrinks fun ahead => step current ?_
  have ended (closing : begins (fun kind => !kind.isCloser) ahead = false) :
      (Pure.pure false : Reading Bool).Accepts (Fresh ahead) fun again left =>
        if again = true then part ahead left else begins (fun kind => !kind.isCloser) ahead = false ∧ left = ahead := by
    refine (Accepts.pure false).congr fun again left => ?_
    have never : ¬ part ahead left := fun inside => by simp [opens _ _ inside] at closing
    cases again <;> simp [never, closing]
  cases ahead with
  | nil => exact ended rfl
  | cons word others =>
    change (if word.kind.isCloser = true then _ else _ : Reading Bool).Accepts _ _
    split
    next closer => exact ended (by simp [begins, closer])
    next other =>
      refine (sequence (each word others) fun _ _ => Accepts.pure true).congr fun again left => ?_
      cases again with
      | true => simp
      | false => simp [begins, other]

/-- The members of a list that its closer ends. -/
private theorem closed_iff {rest : List Word} (part : Phrase) (accepts : TokenKind → Bool) (closer : TokenKind)
    (closes : closer.isCloser = true) (other : accepts closer = false) :
    (∃ middle, (Relation.ReflTransGen part ahead middle ∧ begins (fun kind => !kind.isCloser) middle = false) ∧
      One (· = closer) middle rest) ↔
    ∃ closing : Word, Repeated true accepts part ahead (closing :: rest) ∧ closing.kind = closer := by
  simp only [one_kind]
  constructor
  · rintro ⟨_, ⟨parts, _⟩, closing, rfl, rfl⟩
    exact ⟨closing, ⟨parts, fun _ => other⟩, rfl⟩
  · rintro ⟨closing, ⟨parts, _⟩, rfl⟩
    exact ⟨_, ⟨parts, by simp [begins, closes]⟩, closing, rfl, rfl⟩

private theorem predicateMark_accepts : predicateMark.Accepts (Fresh ahead) fun _ =>
    One (fun kind => kind = .question || kind = .bang) ahead := by
  cases question : begins (· = .question) ahead with
  | true =>
    obtain ⟨mark, others, rfl, same⟩ := begins_kind.mp question
    refine step (takeIf_taken same) (idle.congr fun _ left => ⟨?_, ?_⟩)
    · rintro rfl
      exact .word (by simp [same])
    · rintro ⟨_⟩
      rfl
  | false =>
    refine step (takeIf_left question) ((takeIf_or .bang (reportHere_accepts _)).congr fun _ left => ⟨?_, ?_⟩)
    · rintro ⟨fits⟩
      exact .word (by simpa using .inr (of_decide_eq_true fits))
    · rintro ⟨fits⟩
      exact .word (by simp_all [begins])

private theorem predicateName_accepts : predicateName.Accepts (Fresh ahead) fun _ left => ∃ name mark,
    ahead = name :: mark :: left ∧ name.kind = .identifier ∧ (mark.kind = .question ∨ mark.kind = .bang) := by
  cases named : begins (· = .identifier) ahead with
  | true =>
    obtain ⟨name, others, rfl, same⟩ := begins_kind.mp named
    refine step (takeIf_taken same) (predicateMark_accepts.congr fun _ left => ⟨?_, ?_⟩)
    · rintro ⟨fits⟩
      exact ⟨name, _, rfl, same, by simpa using fits⟩
    · rintro ⟨_, mark, read, _, marked⟩
      cases read
      exact .word (by simpa using marked)
  | false =>
    refine step (takeIf_left named) ((reportHere_accepts _).congr fun _ left => ⟨False.elim, ?_⟩)
    rintro ⟨name, mark, rfl, same, _⟩
    simp [begins, same] at named

theorem argumentsAndCloser_accepts (opener : Text.Span) :
    (do arguments; close .parenClose .unclosedNode opener : Reading Unit).Accepts (Fresh ahead) fun _ left =>
      ∃ closing : Word, Repeated true beginsArgument (Argument true) ahead (closing :: left) ∧ closing.kind = .parenClose := by
  have read : arguments.Accepts (Fresh ahead) fun _ left =>
      Relation.ReflTransGen (Argument true) ahead left ∧ begins (fun kind => !kind.isCloser) left = false :=
    node (members_accepts advances.argument (fun _ _ => argument_shrinks) (fun _ _ => argument_opens)
      fun _ _ => argument_accepts)
  refine (sequence read fun _ _ => close_accepts .parenClose .unclosedNode opener).congr fun _ left => ?_
  exact closed_iff (Argument true) beginsArgument .parenClose rfl rfl

private theorem predicate_accepts {sharp : Word} (marks : sharp.kind = .sharp) :
    predicate.Accepts (Fresh (sign :: sharp :: ahead)) fun _ => Invocation true ahead := by
  refine node (asking fun opener => taking (after (past (expect marks) (taking (after ?_)))))
  refine (sequence predicateName_accepts fun middle _ => argumentsAndCloser_accepts opener).congr fun _ left => ?_
  constructor
  · rintro ⟨_, ⟨name, mark, rfl, named, marked⟩, closing, arguments, closes⟩
    exact .parts named marked arguments closes
  · rintro ⟨named, marked, arguments, closes⟩
    exact ⟨_, ⟨_, _, rfl, named, marked⟩, _, arguments, closes⟩

private theorem missingKind_accepts : missingKind.Accepts (Fresh ahead) fun _ =>
    Optional true (fun kind => kind = .identifier || kind = .doubleQuote) MissingKind ahead := by
  refine step current ?_
  split
  next here =>
    obtain ⟨name, others, rfl, named⟩ := begins_kind.mp (head?_kind_iff.mp here)
    refine Accepts.take.congr fun _ left => ?_
    rw [optional_taken (by simp [begins, named])]
    constructor
    · rintro rfl
      exact .kind named
    · intro missing
      cases missing with
      | kind => rfl
      | literal quoted => simp [quoted_opens quoted] at named
  next here =>
    obtain ⟨sign, others, rfl, opens⟩ := begins_kind.mp (head?_kind_iff.mp here)
    refine (string_accepts opens).congr fun _ left => ?_
    rw [optional_taken (by simp [begins, opens])]
    refine ⟨.literal, fun missing => ?_⟩
    cases missing with
    | kind named => simp [opens] at named
    | literal quoted => exact quoted
  next unnamed unquoted =>
    have absent : begins (fun kind => kind = .identifier || kind = .doubleQuote) ahead = false := by
      cases ahead with
      | nil => rfl
      | cons word others => simp_all [begins]
    refine idle.congr fun _ left => (optional_omitted absent fun _ missing => ?_).symm
    cases missing with
    | kind named => simp [begins, named]
    | literal quoted => cases quoted <;> simp_all

private theorem subtype_accepts : subtype.Accepts (Fresh ahead) fun _ => Optional true (· = .slash) Subtype ahead := by
  cases divided : begins (· = .slash) ahead with
  | true =>
    obtain ⟨slash, others, rfl, divides⟩ := begins_kind.mp divided
    refine step (takeIf_taken divides) ((takeIf_or .identifier (reportHere_accepts _)).congr fun _ left => ?_)
    rw [optional_taken divided, one_kind]
    constructor
    · rintro ⟨_, rfl, named⟩
      exact .path divides named
    · rintro ⟨_, named⟩
      exact ⟨_, rfl, named⟩
  | false =>
    refine step (takeIf_left divided) (idle.congr fun _ left => (optional_omitted divided ?_).symm)
    rintro _ ⟨divides⟩
    exact begins_kind.mpr ⟨_, _, rfl, divides⟩

private theorem kindDetail_accepts {name : Word} : (kindDetail name.text).Accepts (Fresh ahead) fun _ =>
    KindDetail true name ahead := by
  unfold kindDetail
  split
  next reads =>
    refine missingKind_accepts.congr fun _ left => ⟨.missing reads, fun detail => ?_⟩
    cases detail with
    | missing _ detail => exact detail
    | plain other => exact absurd reads other
  next other =>
    refine subtype_accepts.congr fun _ left => ⟨.plain other, fun detail => ?_⟩
    cases detail with
    | missing reads => exact absurd reads other
    | plain _ detail => exact detail

/-- A reading reports nothing exactly for the patterns of this phrase. -/
structure Recognizes (inner : Reading Unit) (phrase : Phrase) : Prop where
  forward : Obeys Advances inner
  accepts : ∀ {ahead}, inner.Accepts (Fresh ahead) fun _ => phrase ahead
  shrinks : ∀ ahead rest, phrase ahead rest → rest.length < ahead.length
  opens : ∀ ahead rest, phrase ahead rest → begins TokenKind.startsPattern ahead = true

section Nested

variable {inner : Reading Unit} {phrase : Phrase} (recognizes : Recognizes inner phrase)
include recognizes

private theorem item_accepts : (item inner sign.kind).Accepts (Fresh (sign :: ahead)) fun _ => Item phrase (sign :: ahead) := by
  unfold item
  split
  next negates =>
    refine negatedField_accepts.congr fun _ left => ?_
    rw [one_kind]
    constructor
    · rintro ⟨name, rfl, named⟩
      exact .negated negates named
    · intro item
      cases item with
      | negated _ named => exact ⟨_, rfl, named⟩
      | pattern nested => simpa [begins, negates, TokenKind.startsPattern] using recognizes.opens _ _ nested
      | anchor anchors => simp [negates] at anchors
      | hanging hangs => simp [hanging_opens hangs] at negates
  next anchors =>
    refine Accepts.take.congr fun _ left => ⟨?_, fun item => ?_⟩
    · rintro rfl
      exact .anchor anchors
    · cases item with
      | negated negates => simp [anchors] at negates
      | pattern nested => simpa [begins, anchors, TokenKind.startsPattern] using recognizes.opens _ _ nested
      | anchor => rfl
      | hanging hangs => simp [hanging_opens hangs] at anchors
  next sigil =>
    refine (detachedCapture_accepts sigil).congr fun _ left => ⟨.hanging, fun item => ?_⟩
    cases item with
    | negated negates => simp [sigil] at negates
    | pattern nested => simpa [begins, sigil, TokenKind.startsPattern] using recognizes.opens _ _ nested
    | anchor anchors => simp [sigil] at anchors
    | hanging hangs => exact hangs
  next negates anchors sigil =>
    have nested_of_item {left : List Word} (item : Item phrase (sign :: ahead) left) : phrase (sign :: ahead) left := by
      cases item with
      | negated bang => exact absurd bang negates
      | pattern nested => exact nested
      | anchor dot => exact absurd dot anchors
      | hanging hangs => exact absurd (hanging_opens hangs) sigil
    split
    next => exact recognizes.accepts.congr fun _ left => ⟨.pattern, nested_of_item⟩
    next other =>
      refine (unexpected_accepts _).congr fun _ left => ⟨False.elim, fun item => ?_⟩
      exact other (recognizes.opens _ _ (nested_of_item item))

private theorem item_opens {ahead rest : List Word} (item : Item phrase ahead rest) :
    begins (fun kind => !kind.isCloser) ahead = true := by
  cases item with
  | pattern nested =>
    have first := recognizes.opens _ _ nested
    cases ahead with
    | nil => cases first
    | cons word others =>
      simp only [begins, List.head?_cons, Option.any_some] at first ⊢
      cases sort : word.kind <;> simp_all [TokenKind.startsPattern, TokenKind.isCloser]
  | negated negates => simp [begins, negates, TokenKind.isCloser]
  | anchor anchors => simp [begins, anchors, TokenKind.isCloser]
  | hanging hangs => cases hangs; simp_all [begins, TokenKind.isCloser]

private theorem body_accepts {closer : TokenKind} (unclosed : Diagnostic.Kind) (opener : Text.Span)
    (closes : closer.isCloser = true) (other : beginsItem closer = false) :
    (do items inner; close closer unclosed opener; suffix : Reading Unit).Accepts (Fresh ahead) fun _ =>
      Body true phrase closer ahead := by
  have read : (items inner).Accepts (Fresh ahead) fun _ left =>
      Relation.ReflTransGen (Item phrase) ahead left ∧ begins (fun kind => !kind.isCloser) left = false :=
    members_accepts (advances.item recognizes.forward) (fun _ _ => item_shrinks recognizes.shrinks)
      (fun _ _ => item_opens recognizes) fun _ _ => item_accepts recognizes
  refine (sequence read fun middle _ => sequence (close_accepts closer unclosed opener) fun _ _ =>
    suffix_accepts).congr fun _ left => ?_
  constructor
  · rintro ⟨middle, parts, after, closed, suffix⟩
    obtain ⟨closing, items, same⟩ := (closed_iff _ beginsItem closer closes other).mp ⟨middle, parts, closed⟩
    exact .parts items same suffix
  · rintro ⟨items, same, suffix⟩
    obtain ⟨middle, parts, closed⟩ := (closed_iff _ beginsItem closer closes other).mpr ⟨_, items, same⟩
    exact ⟨middle, parts, _, closed, suffix⟩

private theorem namedNode_accepts {opening name : Word} :
    (namedNode inner).Accepts (Fresh (opening :: name :: ahead)) fun _ left =>
    ∃ middle, KindDetail true name ahead middle ∧ Body true phrase .parenClose middle left := by
  refine node (asking fun opener => taking (after (step currentText (taking (after ?_)))))
  exact sequence kindDetail_accepts fun _ _ => body_accepts recognizes _ opener rfl rfl

private theorem grouping_accepts {opening : Word} :
    (grouping inner).Accepts (Fresh (opening :: ahead)) fun _ => Body true phrase .parenClose ahead :=
  node (asking fun opener => taking (after (body_accepts recognizes _ opener rfl rfl)))

private theorem list_accepts {opening : Word} :
    (list inner).Accepts (Fresh (opening :: ahead)) fun _ => Body true phrase .bracketClose ahead :=
  node (asking fun opener => taking (after (body_accepts recognizes _ opener rfl rfl)))

private theorem fieldDefinition_accepts {name colon : Word} (divides : colon.kind = .colon) :
    (fieldDefinition inner).Accepts (Fresh (name :: colon :: ahead)) fun _ =>
      Optional true TokenKind.startsValue
        (fun ahead rest => begins TokenKind.startsValue ahead = true ∧ phrase ahead rest) ahead := by
  refine node (taking (after (past (expect divides) (taking (after (step current ?_))))))
  rw [Option.any_map]
  change (if begins TokenKind.startsValue ahead = true then _ else _ : Reading Unit).Accepts _ _
  split
  next valued =>
    refine recognizes.accepts.congr fun _ left => ?_
    rw [optional_taken valued, and_iff_right valued]
  next other =>
    exact idle.congr fun _ left => (optional_omitted (Bool.eq_false_iff.mpr other) fun _ => And.left).symm

private theorem namedNodeOrGrouping_accepts {opening name : Word} (opens : opening.kind = .parenOpen)
    (named : name.kind = .identifier ∨ name.kind = .underscore) :
    (namedNodeOrGrouping inner).Accepts (Fresh (opening :: name :: ahead)) fun _ =>
      Construct true phrase (opening :: name :: ahead) := by
  refine step (lookahead 2) ?_
  change (if ahead[0]?.map Word.kind = some .colon then _ else _ : Reading Unit).Accepts _ _
  rw [← List.head?_eq_getElem?]
  split
  next divided =>
    have plain : ¬ Special (name :: ahead) := by
      rintro (marked | ⟨_, whole⟩)
      · obtain ⟨_, _, same, marks⟩ := begins_kind.mp marked
        cases same
        simp [marks] at named
      · simp [head?_kind_iff.mp divided] at whole
    exact (grouping_accepts recognizes).congr fun _ left => (construct_grouping opens plain).symm
  next whole =>
    have undivided := Bool.eq_false_iff.mpr (mt head?_kind_iff.mpr whole)
    exact (namedNode_accepts recognizes).congr fun _ left => (construct_named opens named undivided).symm

/-- What an opening parenthesis begins is decided by the two words after it. -/
private theorem parenthesized_accepts {opening : Word} (opens : opening.kind = .parenOpen) :
    (parenthesized inner).Accepts (Fresh (opening :: ahead)) fun _ => Construct true phrase (opening :: ahead) := by
  refine step (lookahead 1) ?_
  have second : (opening :: ahead)[1]? = ahead.head? := (List.head?_eq_getElem? ..).symm
  rw [second]
  split
  next here =>
    obtain ⟨sharp, others, rfl, marks⟩ := begins_kind.mp (head?_kind_iff.mp here)
    exact (predicate_accepts marks).congr fun _ left => (construct_predicate opens marks).symm
  iterate 2
    next here =>
      obtain ⟨name, others, rfl, named⟩ := begins_kind.mp (head?_kind_iff.mp here)
      exact namedNodeOrGrouping_accepts recognizes opens (by simp [named])
  next unmarked unnamed other =>
    have plain : ¬ Special ahead := by
      cases ahead with
      | nil => simp [Special, begins]
      | cons word others => simp_all [Special, begins]
    exact (grouping_accepts recognizes).congr fun _ left => (construct_grouping opens plain).symm

private theorem construct_accepts : (construct inner).Accepts (Fresh ahead) fun _ => Construct true phrase ahead := by
  refine step current ?_
  split
  next here =>
    obtain ⟨opening, others, rfl, opens⟩ := begins_kind.mp (head?_kind_iff.mp here)
    exact parenthesized_accepts recognizes opens
  next here =>
    obtain ⟨opening, others, rfl, opens⟩ := begins_kind.mp (head?_kind_iff.mp here)
    exact (list_accepts recognizes).congr fun _ left => (construct_list opens).symm
  next here =>
    obtain ⟨opening, others, rfl, opens⟩ := begins_kind.mp (head?_kind_iff.mp here)
    exact (anonymousNode_string opens).congr fun _ left => (construct_literal opens).symm
  next here =>
    obtain ⟨mark, others, rfl, wild⟩ := begins_kind.mp (head?_kind_iff.mp here)
    exact (anonymousNode_wildcard wild).congr fun _ left => (construct_wildcard wild).symm
  next here =>
    obtain ⟨name, others, rfl, named⟩ := begins_kind.mp (head?_kind_iff.mp here)
    refine step (lookahead 1) ?_
    change (if others[0]?.map Word.kind = some .colon then _ else _ : Reading Unit).Accepts _ _
    rw [← List.head?_eq_getElem?]
    split
    next divided =>
      obtain ⟨colon, more, rfl, divides⟩ := begins_kind.mp (head?_kind_iff.mp divided)
      exact (fieldDefinition_accepts recognizes divides).congr fun _ left => (construct_field named divides).symm
    next whole =>
      have undivided := Bool.eq_false_iff.mpr (mt head?_kind_iff.mpr whole)
      apply bareIdentifier_accepts.congr
      intro _ left
      exact iff_of_false id (not_construct_name named undivided)
  next noParen noBracket noQuote noMark noName =>
    apply (unexpected_accepts _).congr
    intro _ left
    refine iff_of_false id fun construct => ?_
    have started := construct_begins construct
    cases ahead with
    | nil => cases started
    | cons word others => cases sort : word.kind <;> simp_all [begins, TokenKind.startsPattern]

private theorem nested_accepts : (nested inner).Accepts (Fresh ahead) fun _ => Construct true phrase ahead := by
  have last (middle : List Word) : (Reading.move Cursor.rested).Accepts (Fresh middle) fun _ left => left = middle :=
    move fun _ => Fresh.rested
  refine moving (fun _ => Fresh.rested) ((sequence (construct_accepts recognizes) fun middle _ => last middle).congr
    fun _ left => ⟨?_, fun construct => ⟨left, construct, rfl⟩⟩)
  rintro ⟨_, construct, rfl⟩
  exact construct

end Nested

private theorem giveUp_accepts : giveUp.Accepts (Fresh ahead) fun _ _ => False :=
  asking fun _ => asking fun _ => reporting (reportLast _)

private theorem pattern_recognizes (room : Nat) : Recognizes (pattern room) (Pattern true room) := by
  refine ⟨advances.pattern room, ?_, pattern_shrinks room, fun _ _ => pattern_begins⟩
  induction room with
  | zero => exact unlessExhausted giveUp_accepts
  | succ room ih =>
    have inner : Recognizes (pattern room) (Pattern true room) :=
      ⟨advances.pattern room, ih, pattern_shrinks room, fun _ _ => pattern_begins⟩
    intro ahead
    exact unlessExhausted (nested_accepts inner)

variable {limit : Nat}

private theorem topLevel_accepts : (topLevel limit (some sign.kind)).Accepts (Fresh (sign :: ahead)) fun _ =>
    TopLevel true limit (sign :: ahead) := by
  unfold topLevel
  split
  next same =>
    have sigil : sign.kind = .atSign := Option.some.inj same
    refine (detachedCapture_accepts sigil).congr fun _ left => ⟨.hanging, fun top => ?_⟩
    cases top with
    | hanging hangs => exact hangs
    | pattern pattern => simpa [begins, sigil, TokenKind.startsPattern] using pattern_begins pattern
  next other =>
    have pattern_of_topLevel {left : List Word} (top : TopLevel true limit (sign :: ahead) left) :
        Pattern true limit (sign :: ahead) left := by
      cases top with
      | pattern pattern => exact pattern
      | hanging hangs => exact absurd (congrArg some (hanging_opens hangs)) other
    split
    next => exact (pattern_recognizes limit).accepts.congr fun _ left => ⟨.pattern, pattern_of_topLevel⟩
    next stray =>
      refine (unexpected_accepts _).congr fun _ left => ⟨False.elim, fun top => ?_⟩
      exact stray (pattern_begins (pattern_of_topLevel top))

theorem nextTopLevel_accepts : (nextTopLevel limit).Accepts (Fresh ahead) fun again left =>
    if again = true then TopLevel true limit ahead left else ahead = [] ∧ left = ahead := by
  refine step atEnd ?_
  cases ahead with
  | nil =>
    refine (Accepts.pure false).congr fun again left => ?_
    cases again with
    | true =>
      have never : ¬ TopLevel true limit [] left := fun top => Nat.not_lt_zero _ (topLevel_shrinks top)
      simp [never]
    | false => simp
  | cons word others =>
    refine step current ((sequence topLevel_accepts fun middle _ => Accepts.pure true).congr fun again left => ?_)
    cases again <;> simp

private theorem program_accepts : (program limit).Accepts (Fresh ahead) fun _ left => Derives true limit ahead ∧ left = [] := by
  have placed (middle : List Word) : placeWaiting.Accepts (Fresh middle) fun _ left => left = middle := by
    intro cursor fresh
    refine ⟨fun _ => fresh.sees, ?_⟩
    rintro _ _ rfl
    exact ⟨rfl, rfl, fresh.unplaced⟩
  have read : (Reading.repeatWhile (nextTopLevel limit)).Accepts (Fresh ahead) fun _ left =>
      Relation.ReflTransGen (TopLevel true limit) ahead left ∧ left = [] :=
    repeatWhile (advances.nextTopLevel limit) (fun _ _ => topLevel_shrinks) fun _ => nextTopLevel_accepts
  refine node ((sequence read fun middle _ => moving (fun _ => Fresh.skip) (placed middle)).congr fun _ left => ?_)
  constructor
  · rintro ⟨_, ⟨derived, rfl⟩, rfl⟩
    exact ⟨derived, rfl⟩
  · rintro ⟨derived, rfl⟩
    exact ⟨[], ⟨derived, rfl⟩, rfl⟩

end Parser

open Phrase in
/-- The parser reports nothing exactly for the texts of the grammar, where each optional part is
taken, and each repetition goes on, wherever the next token can begin it. -/
theorem parse_silent_iff (limit : Nat) (source : String) :
    (parse limit source).reports = [] ↔ Derives true limit (words (Token.ofText source)) := by
  have begun : Fresh (words (Token.ofText source)) (.start (Token.ofText source)) := ⟨rfl, rfl, rfl⟩
  obtain ⟨quiet, silent⟩ := Parser.program_accepts _ begun
  constructor
  · intro none
    exact (quiet none).1
  · intro derived
    exact (silent () [] ⟨derived, rfl⟩).1

open Phrase in
/-- Where the choice is free the grammar allows more: what `MISSING` stands before can be left out, a
sign of its own can be the capture before it, and a value can stand beside its field. -/
theorem free_reading_reported :
    (Derives false 512 (words (Token.ofText "(MISSING \"a\"*)")) ∧ (parse 512 "(MISSING \"a\"*)").reports ≠ []) ∧
    (Derives false 512 (words (Token.ofText "(a) @b: (c)")) ∧ (parse 512 "(a) @b: (c)").reports ≠ []) ∧
    (Derives false 1 (words (Token.ofText "x: (b)")) ∧ (parse 1 "x: (b)").reports ≠ []) := by
  have bare (ahead : List Word) : Suffix false ahead ahead := .parts (.omitted nofun) ⟨.refl, nofun⟩
  have empty {inner : Phrase} {closing : Word} {rest : List Word} (closes : closing.kind = .parenClose) :
      Body false inner .parenClose (closing :: rest) rest := .parts ⟨.refl, nofun⟩ closes (bare rest)
  refine ⟨⟨?_, by decide +kernel⟩, ⟨?_, by decide +kernel⟩, ⟨?_, by decide +kernel⟩⟩
  · have cut : words (Token.ofText "(MISSING \"a\"*)") =
        [⟨.parenOpen, "(", true⟩, ⟨.identifier, "MISSING", false⟩, ⟨.doubleQuote, "\"", true⟩,
          ⟨.stringContent, "a", true⟩, ⟨.doubleQuote, "\"", true⟩, ⟨.star, "*", true⟩, ⟨.parenClose, ")", false⟩] := by
      decide +kernel
    have literal : Item (Pattern false 511)
        [⟨.doubleQuote, "\"", true⟩, ⟨.stringContent, "a", true⟩, ⟨.doubleQuote, "\"", true⟩, ⟨.star, "*", true⟩,
          ⟨.parenClose, ")", false⟩] [⟨.parenClose, ")", false⟩] :=
      .pattern (.string (.filled rfl rfl rfl rfl rfl) (.parts (.taken (.word rfl)) ⟨.refl, nofun⟩))
    rw [cut]
    exact .single (.pattern (.named rfl (.inl rfl) rfl (.missing rfl (.omitted nofun))
      (.parts ⟨.single literal, nofun⟩ rfl (bare []))))
  · have cut : words (Token.ofText "(a) @b: (c)") =
        [⟨.parenOpen, "(", true⟩, ⟨.identifier, "a", true⟩, ⟨.parenClose, ")", false⟩, ⟨.atSign, "@", true⟩,
          ⟨.identifier, "b", true⟩, ⟨.colon, ":", false⟩, ⟨.parenOpen, "(", true⟩, ⟨.identifier, "c", true⟩,
          ⟨.parenClose, ")", false⟩] := by decide +kernel
    have value : Pattern false 511 [⟨.parenOpen, "(", true⟩, ⟨.identifier, "c", true⟩, ⟨.parenClose, ")", false⟩] [] :=
      .named rfl (.inl rfl) rfl (.plain (by decide) (.omitted nofun)) (empty rfl)
    have field : TopLevel false 512 [⟨.identifier, "b", true⟩, ⟨.colon, ":", false⟩, ⟨.parenOpen, "(", true⟩,
        ⟨.identifier, "c", true⟩, ⟨.parenClose, ")", false⟩] [] := .pattern (.field rfl rfl (.taken ⟨rfl, value⟩))
    rw [cut]
    refine .head (.pattern (.named rfl (.inl rfl) rfl (.plain (by decide) (.omitted nofun)) ?_)) (.single field)
    exact .parts ⟨.refl, nofun⟩ rfl (.parts (.omitted nofun) ⟨.single (.bare rfl nofun), nofun⟩)
  · have cut : words (Token.ofText "x: (b)") =
        [⟨.identifier, "x", true⟩, ⟨.colon, ":", false⟩, ⟨.parenOpen, "(", true⟩, ⟨.identifier, "b", true⟩,
          ⟨.parenClose, ")", false⟩] := by decide +kernel
    have named : TopLevel false 1 [⟨.parenOpen, "(", true⟩, ⟨.identifier, "b", true⟩, ⟨.parenClose, ")", false⟩] [] :=
      .pattern (.named rfl (.inl rfl) rfl (.plain (by decide) (.omitted nofun)) (empty rfl))
    rw [cut]
    exact .head (.pattern (.field rfl rfl (.omitted nofun))) (.single named)

end TreeQuery.Syntax
