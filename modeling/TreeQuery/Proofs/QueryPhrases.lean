import TreeQuery.Syntax.Token
import Mathlib.Logic.Relation

/-! The grammar of queries, said without a parser. A phrase reads words from the front of a list and
leaves the rest. Optional and repeated parts leave a choice; read eagerly, such a part is taken
wherever the next word can begin it. -/

namespace TreeQuery.Syntax

/-- A token that is not trivia. -/
structure Word where
  kind : TokenKind
  text : String
  /-- The next token is no trivia either. -/
  joined : Bool
deriving Repr, DecidableEq

def words : List Token → List Word
  | [] => []
  | token :: rest =>
    if token.isTrivia then words rest
    else ⟨token.kind, token.text, rest.head?.any (!·.isTrivia)⟩ :: words rest

/-- Whether there is a next word, of such a kind. -/
def begins (accepts : TokenKind → Bool) (ahead : List Word) : Bool := ahead.head?.any (accepts ·.kind)

theorem begins_kind {kind : TokenKind} {ahead : List Word} :
    begins (· = kind) ahead = true ↔ ∃ word rest, ahead = word :: rest ∧ word.kind = kind := by
  cases ahead <;> simp [begins]

theorem head?_kind_iff {kind : TokenKind} {ahead : List Word} :
    ahead.head?.map Word.kind = some kind ↔ begins (· = kind) ahead = true := by
  cases ahead <;> simp [begins]

abbrev Phrase := List Word → List Word → Prop

namespace Phrase

/-- One word of such a kind. -/
inductive One (accepts : TokenKind → Bool) : Phrase
  | word {word : Word} {rest : List Word} (fits : accepts word.kind = true) : One accepts (word :: rest) rest

theorem one_kind {kind : TokenKind} {ahead rest : List Word} :
    One (· = kind) ahead rest ↔ ∃ word, ahead = word :: rest ∧ word.kind = kind := by
  constructor
  · rintro ⟨fits⟩
    exact ⟨_, rfl, of_decide_eq_true fits⟩
  · rintro ⟨word, rfl, same⟩
    exact .word (decide_eq_true same)

inductive Optional (eager : Bool) (accepts : TokenKind → Bool) (part : Phrase) : Phrase
  | taken {ahead rest : List Word} (inside : part ahead rest) : Optional eager accepts part ahead rest
  | omitted {ahead : List Word} (free : eager = true → begins accepts ahead = false) :
    Optional eager accepts part ahead ahead

theorem optional_taken {accepts : TokenKind → Bool} {part : Phrase} {ahead rest : List Word}
    (next : begins accepts ahead = true) : Optional true accepts part ahead rest ↔ part ahead rest := by
  constructor
  · intro optional
    cases optional with
    | taken inside => exact inside
    | omitted free => simp [free rfl] at next
  · exact .taken

theorem optional_omitted {accepts : TokenKind → Bool} {part : Phrase} {ahead rest : List Word}
    (other : begins accepts ahead = false) (starts : ∀ rest, part ahead rest → begins accepts ahead = true) :
    Optional true accepts part ahead rest ↔ rest = ahead := by
  constructor
  · intro optional
    cases optional with
    | taken inside => simp [starts _ inside] at other
    | omitted => rfl
  · rintro rfl
    exact .omitted fun _ => other

structure Repeated (eager : Bool) (accepts : TokenKind → Bool) (part : Phrase) (ahead rest : List Word) : Prop where
  parts : Relation.ReflTransGen part ahead rest
  free : eager = true → begins accepts rest = false

/-- The word after a sign is its name: an identifier that follows at once. -/
def NameFollows (sign : Word) (rest : List Word) : Prop := sign.joined = true ∧ begins (· = .identifier) rest = true

/-- `@name`, or a lone `@`. -/
inductive Capture (eager : Bool) : Phrase
  | named {sign name : Word} {rest : List Word} (sigil : sign.kind = .atSign) (joined : sign.joined = true)
    (named : name.kind = .identifier) : Capture eager (sign :: name :: rest) rest
  | bare {sign : Word} {rest : List Word} (sigil : sign.kind = .atSign) (free : eager = true → ¬ NameFollows sign rest) :
    Capture eager (sign :: rest) rest

/-- An `@` that follows no pattern and has no name. -/
inductive Hanging : Phrase
  | sign {sign : Word} {rest : List Word} (sigil : sign.kind = .atSign) (nameless : ¬ NameFollows sign rest) :
    Hanging (sign :: rest) rest

/-- A terminated string: two quotes with at most one content between, each right after the other. -/
inductive Quoted : Phrase
  | empty {opening closing : Word} {rest : List Word} (opens : opening.kind = .doubleQuote)
    (joined : opening.joined = true) (closes : closing.kind = .doubleQuote) : Quoted (opening :: closing :: rest) rest
  | filled {opening content closing : Word} {rest : List Word} (opens : opening.kind = .doubleQuote)
    (joined : opening.joined = true) (inside : content.kind = .stringContent) (adjoined : content.joined = true)
    (closes : closing.kind = .doubleQuote) : Quoted (opening :: content :: closing :: rest) rest

def Captures (eager : Bool) : Phrase := Repeated eager (· = .atSign) (Capture eager)

/-- A quantifier, then captures. -/
inductive Suffix (eager : Bool) : Phrase
  | parts {ahead middle rest : List Word}
    (quantifier : Optional eager TokenKind.isQuantifier (One TokenKind.isQuantifier) ahead middle)
    (captures : Captures eager middle rest) : Suffix eager ahead rest

/-- What `MISSING` stands before. -/
inductive MissingKind : Phrase
  | kind {name : Word} {rest : List Word} (named : name.kind = .identifier) : MissingKind (name :: rest) rest
  | literal {ahead rest : List Word} (quoted : Quoted ahead rest) : MissingKind ahead rest

/-- `/subtype` -/
inductive Subtype : Phrase
  | path {slash name : Word} {rest : List Word} (divides : slash.kind = .slash) (named : name.kind = .identifier) :
    Subtype (slash :: name :: rest) rest

/-- What comes between the name of a named node and its items. -/
inductive KindDetail (eager : Bool) (name : Word) (ahead rest : List Word) : Prop
  | missing (reads : name.text = "MISSING")
    (detail : Optional eager (fun kind => kind = .identifier || kind = .doubleQuote) MissingKind ahead rest) :
    KindDetail eager name ahead rest
  | plain (reads : name.text ≠ "MISSING") (detail : Optional eager (· = .slash) Subtype ahead rest) :
    KindDetail eager name ahead rest

inductive Argument (eager : Bool) : Phrase
  | capture {ahead rest : List Word} (inside : Capture eager ahead rest) : Argument eager ahead rest
  | string {ahead rest : List Word} (quoted : Quoted ahead rest) : Argument eager ahead rest
  | name {word : Word} {rest : List Word} (named : word.kind = .identifier ∨ word.kind = .underscore) :
    Argument eager (word :: rest) rest

def beginsArgument (kind : TokenKind) : Bool :=
  kind = .atSign || kind = .doubleQuote || kind = .identifier || kind = .underscore

/-- `eq? arguments...)`, or with `!`. -/
inductive Invocation (eager : Bool) : Phrase
  | parts {name mark closing : Word} {ahead rest : List Word} (named : name.kind = .identifier)
    (marked : mark.kind = .question ∨ mark.kind = .bang)
    (arguments : Repeated eager beginsArgument (Argument eager) ahead (closing :: rest))
    (closes : closing.kind = .parenClose) : Invocation eager (name :: mark :: ahead) rest

def beginsItem (kind : TokenKind) : Bool :=
  kind = .bang || kind = .dot || kind = .atSign || kind.startsPattern

section Nesting

-- `inner` reads the patterns one level deeper.
variable (eager : Bool) (inner : Phrase)

inductive Item : Phrase
  | pattern {ahead rest : List Word} (nested : inner ahead rest) : Item ahead rest
  | negated {bang name : Word} {rest : List Word} (negates : bang.kind = .bang) (named : name.kind = .identifier) :
    Item (bang :: name :: rest) rest
  | anchor {dot : Word} {rest : List Word} (anchors : dot.kind = .dot) : Item (dot :: rest) rest
  | hanging {ahead rest : List Word} (hangs : Hanging ahead rest) : Item ahead rest

/-- Items, their closer and a suffix. -/
inductive Body (closer : TokenKind) : Phrase
  | parts {closing : Word} {ahead middle rest : List Word}
    (items : Repeated eager beginsItem (Item inner) ahead (closing :: middle)) (closes : closing.kind = closer)
    (suffix : Suffix eager middle rest) : Body closer ahead rest

/-- What stands after an opening parenthesis makes no grouping: a predicate or a named node. -/
def Special (inside : List Word) : Prop :=
  begins (· = .sharp) inside = true ∨
  begins (fun kind => kind = .identifier || kind = .underscore) inside = true ∧ begins (· = .colon) inside.tail = false

inductive Construct : Phrase
  | named {opening name : Word} {ahead middle rest : List Word} (opens : opening.kind = .parenOpen)
    (named : name.kind = .identifier ∨ name.kind = .underscore) (whole : begins (· = .colon) ahead = false)
    (detail : KindDetail eager name ahead middle) (body : Body eager inner .parenClose middle rest) :
    Construct (opening :: name :: ahead) rest
  | grouping {opening : Word} {inside rest : List Word} (opens : opening.kind = .parenOpen) (plain : ¬ Special inside)
    (body : Body eager inner .parenClose inside rest) : Construct (opening :: inside) rest
  | list {opening : Word} {inside rest : List Word} (opens : opening.kind = .bracketOpen)
    (body : Body eager inner .bracketClose inside rest) : Construct (opening :: inside) rest
  | string {ahead middle rest : List Word} (quoted : Quoted ahead middle) (suffix : Suffix eager middle rest) :
    Construct ahead rest
  | wildcard {mark : Word} {ahead rest : List Word} (wild : mark.kind = .underscore) (suffix : Suffix eager ahead rest) :
    Construct (mark :: ahead) rest
  | field {name colon : Word} {ahead rest : List Word} (named : name.kind = .identifier) (divides : colon.kind = .colon)
    (value : Optional eager TokenKind.startsValue
      (fun ahead rest => begins TokenKind.startsValue ahead = true ∧ inner ahead rest) ahead rest) :
    Construct (name :: colon :: ahead) rest
  | predicate {opening sharp : Word} {ahead rest : List Word} (opens : opening.kind = .parenOpen)
    (marks : sharp.kind = .sharp) (invocation : Invocation eager ahead rest) :
    Construct (opening :: sharp :: ahead) rest

end Nesting

/-- A pattern in which patterns nest at most this deep, itself included. -/
def Pattern (eager : Bool) : (room : Nat) → Phrase
  | 0 => fun _ _ => False
  | room + 1 => Construct eager (Pattern eager room)

inductive TopLevel (eager : Bool) (limit : Nat) : Phrase
  | pattern {ahead rest : List Word} (pattern : Pattern eager limit ahead rest) : TopLevel eager limit ahead rest
  | hanging {ahead rest : List Word} (hangs : Hanging ahead rest) : TopLevel eager limit ahead rest

/-- These are the words of a document in which patterns nest at most `limit` deep. -/
def Derives (eager : Bool) (limit : Nat) (ahead : List Word) : Prop :=
  Relation.ReflTransGen (TopLevel eager limit) ahead []

section Extent

/-! Every phrase but the optional ones uses up a word. -/

variable {eager : Bool} {ahead rest : List Word}

theorem begins_one {accepts : TokenKind → Bool} (one : One accepts ahead rest) : begins accepts ahead = true := by
  cases one with
  | word fits => exact fits

theorem capture_shrinks (capture : Capture eager ahead rest) : rest.length < ahead.length := by
  cases capture <;> simp only [List.length_cons] <;> omega

private theorem hanging_shrinks (hangs : Hanging ahead rest) : rest.length < ahead.length := by
  cases hangs
  exact Nat.lt_succ_self _

private theorem quoted_shrinks (quoted : Quoted ahead rest) : rest.length < ahead.length := by
  cases quoted <;> simp only [List.length_cons] <;> omega

private theorem steps_shorten {part : Phrase} (shrinks : ∀ ahead rest, part ahead rest → rest.length < ahead.length)
    (parts : Relation.ReflTransGen part ahead rest) : rest.length ≤ ahead.length := by
  induction parts with
  | refl => exact Nat.le_refl _
  | tail _ last ih =>
    have fewer := shrinks _ _ last
    omega

private theorem suffix_shortens (suffix : Suffix eager ahead rest) : rest.length ≤ ahead.length := by
  obtain ⟨quantified, captured⟩ := suffix
  have fewer := steps_shorten (fun _ _ => capture_shrinks) captured.parts
  cases quantified with
  | omitted => exact fewer
  | taken one =>
    cases one
    exact Nat.le_succ_of_le fewer

theorem argument_shrinks (argument : Argument eager ahead rest) : rest.length < ahead.length := by
  cases argument with
  | capture inside => exact capture_shrinks inside
  | string quoted => exact quoted_shrinks quoted
  | name => exact Nat.lt_succ_self _

private theorem detail_shortens {name : Word} (detail : KindDetail eager name ahead rest) : rest.length ≤ ahead.length := by
  cases detail with
  | missing _ detail =>
    cases detail with
    | omitted => exact Nat.le_refl _
    | taken kind =>
      cases kind with
      | kind => exact Nat.le_succ _
      | literal quoted => exact Nat.le_of_lt (quoted_shrinks quoted)
  | plain _ detail =>
    cases detail with
    | omitted => exact Nat.le_refl _
    | taken subtype =>
      cases subtype
      simp only [List.length_cons]
      omega

private theorem invocation_shrinks (invocation : Invocation eager ahead rest) : rest.length < ahead.length := by
  obtain ⟨_, _, arguments, _⟩ := invocation
  have fewer := steps_shorten (fun _ _ => argument_shrinks) arguments.parts
  simp only [List.length_cons] at fewer ⊢
  omega

section Nesting

variable {inner : Phrase} (shrinks : ∀ ahead rest, inner ahead rest → rest.length < ahead.length)
include shrinks

theorem item_shrinks (item : Item inner ahead rest) : rest.length < ahead.length := by
  cases item with
  | pattern nested => exact shrinks _ _ nested
  | negated =>
    simp only [List.length_cons]
    omega
  | anchor => exact Nat.lt_succ_self _
  | hanging hangs => exact hanging_shrinks hangs

private theorem body_shrinks {closer : TokenKind} (body : Body eager inner closer ahead rest) : rest.length < ahead.length := by
  obtain ⟨items, _, suffix⟩ := body
  have fewer := steps_shorten (fun _ _ => item_shrinks shrinks) items.parts
  have last := suffix_shortens suffix
  simp only [List.length_cons] at fewer
  omega

private theorem construct_shrinks (construct : Construct eager inner ahead rest) : rest.length < ahead.length := by
  cases construct with
  | named _ _ _ detail body =>
    have detailed := detail_shortens detail
    have fewer := body_shrinks shrinks body
    simp only [List.length_cons]
    omega
  | grouping _ _ body => exact Nat.lt_succ_of_lt (body_shrinks shrinks body)
  | list _ body => exact Nat.lt_succ_of_lt (body_shrinks shrinks body)
  | string quoted suffix => exact Nat.lt_of_le_of_lt (suffix_shortens suffix) (quoted_shrinks quoted)
  | wildcard _ suffix => exact Nat.lt_succ_of_le (suffix_shortens suffix)
  | field _ _ value =>
    cases value with
    | omitted =>
      simp only [List.length_cons]
      omega
    | taken valued =>
      have fewer := shrinks _ _ valued.2
      simp only [List.length_cons]
      omega
  | predicate _ _ invocation =>
    have fewer := invocation_shrinks invocation
    simp only [List.length_cons]
    omega

omit shrinks in
theorem construct_begins (construct : Construct eager inner ahead rest) :
    begins TokenKind.startsPattern ahead = true := by
  cases construct with
  | string quoted => cases quoted <;> simp_all [begins, TokenKind.startsPattern]
  | _ => simp_all [begins, TokenKind.startsPattern]

end Nesting

theorem pattern_begins {room : Nat} (pattern : Pattern eager room ahead rest) :
    begins TokenKind.startsPattern ahead = true := by
  cases room with
  | zero => cases pattern
  | succ room => exact construct_begins pattern

theorem pattern_shrinks (room : Nat) : ∀ ahead rest, Pattern eager room ahead rest → rest.length < ahead.length := by
  induction room with
  | zero => exact fun _ _ => False.elim
  | succ room ih => exact fun _ _ => construct_shrinks ih

theorem topLevel_shrinks {limit : Nat} (top : TopLevel eager limit ahead rest) : rest.length < ahead.length := by
  cases top with
  | pattern pattern => exact pattern_shrinks limit _ _ pattern
  | hanging hangs => exact hanging_shrinks hangs

end Extent

section Opening

/-! The first word of a phrase tells its form, but for an opening parenthesis, where the two words after
it tell. -/

variable {eager : Bool} {inner : Phrase} {word opening : Word} {ahead rest : List Word}

theorem quoted_opens (quoted : Quoted (word :: ahead) rest) : word.kind = .doubleQuote := by
  cases quoted with
  | empty opens => exact opens
  | filled opens => exact opens

theorem capture_opens (capture : Capture eager (word :: ahead) rest) : word.kind = .atSign := by
  cases capture with
  | named sigil => exact sigil
  | bare sigil => exact sigil

theorem hanging_opens (hangs : Hanging (word :: ahead) rest) : word.kind = .atSign := by
  cases hangs with
  | sign sigil => exact sigil

theorem construct_list (opens : opening.kind = .bracketOpen) :
    Construct eager inner (opening :: ahead) rest ↔ Body eager inner .bracketClose ahead rest := by
  constructor
  · intro construct
    cases construct with
    | list _ body => exact body
    | string quoted => simp [quoted_opens quoted] at opens
    | named | grouping | wildcard | field | predicate => simp_all
  · exact .list opens

theorem construct_literal (opens : opening.kind = .doubleQuote) : Construct eager inner (opening :: ahead) rest ↔
    ∃ middle, Quoted (opening :: ahead) middle ∧ Suffix eager middle rest := by
  constructor
  · intro construct
    cases construct with
    | string quoted suffix => exact ⟨_, quoted, suffix⟩
    | named | grouping | list | wildcard | field | predicate => simp_all
  · rintro ⟨middle, quoted, suffix⟩
    exact .string quoted suffix

theorem construct_wildcard (wild : word.kind = .underscore) :
    Construct eager inner (word :: ahead) rest ↔ Suffix eager ahead rest := by
  constructor
  · intro construct
    cases construct with
    | wildcard _ suffix => exact suffix
    | string quoted => simp [quoted_opens quoted] at wild
    | named | grouping | list | field | predicate => simp_all
  · exact .wildcard wild

theorem construct_field {name colon : Word} (named : name.kind = .identifier) (divides : colon.kind = .colon) :
    Construct eager inner (name :: colon :: ahead) rest ↔ Optional eager TokenKind.startsValue
      (fun ahead rest => begins TokenKind.startsValue ahead = true ∧ inner ahead rest) ahead rest := by
  constructor
  · intro construct
    cases construct with
    | field _ _ value => exact value
    | string quoted => simp [quoted_opens quoted] at named
    | named | grouping | list | wildcard | predicate => simp_all
  · exact .field named divides

/-- A lone identifier is no pattern. -/
theorem not_construct_name {name : Word} (named : name.kind = .identifier)
    (undivided : begins (· = .colon) ahead = false) : ¬ Construct eager inner (name :: ahead) rest := by
  intro construct
  cases construct with
  | field _ divides => simp [begins, divides] at undivided
  | string quoted => simp [quoted_opens quoted] at named
  | named | grouping | list | wildcard | predicate => simp_all

theorem construct_predicate {sharp : Word} (opens : opening.kind = .parenOpen) (marks : sharp.kind = .sharp) :
    Construct eager inner (opening :: sharp :: ahead) rest ↔ Invocation eager ahead rest := by
  constructor
  · intro construct
    cases construct with
    | predicate _ _ invocation => exact invocation
    | grouping _ plain => exact absurd (.inl (by simp [begins, marks])) plain
    | string quoted => simp [quoted_opens quoted] at opens
    | named | list | wildcard | field => simp_all
  · exact .predicate opens marks

theorem construct_grouping (opens : opening.kind = .parenOpen) (plain : ¬ Special ahead) :
    Construct eager inner (opening :: ahead) rest ↔ Body eager inner .parenClose ahead rest := by
  constructor
  · intro construct
    cases construct with
    | grouping _ _ body => exact body
    | named _ named whole =>
      apply absurd _ plain
      exact .inr ⟨by simpa [begins] using named, whole⟩
    | predicate _ marks => exact absurd (.inl (by simp [begins, marks])) plain
    | string quoted => simp [quoted_opens quoted] at opens
    | list | wildcard | field => simp_all
  · exact .grouping opens plain

theorem construct_named {name : Word} (opens : opening.kind = .parenOpen)
    (named : name.kind = .identifier ∨ name.kind = .underscore) (whole : begins (· = .colon) ahead = false) :
    Construct eager inner (opening :: name :: ahead) rest ↔
      ∃ middle, KindDetail eager name ahead middle ∧ Body eager inner .parenClose middle rest := by
  constructor
  · intro construct
    cases construct with
    | named _ _ _ detail body => exact ⟨_, detail, body⟩
    | grouping _ plain =>
      apply absurd _ plain
      exact .inr ⟨by simpa [begins] using named, whole⟩
    | string quoted => simp [quoted_opens quoted] at opens
    | list | wildcard | field | predicate => simp_all
  · rintro ⟨middle, detail, body⟩
    exact .named opens named whole detail body

end Opening

end Phrase

end TreeQuery.Syntax
