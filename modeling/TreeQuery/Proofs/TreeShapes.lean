import Mathlib.Computability.RegularExpressions
import TreeQuery.Syntax.Construct

/-! The shapes that nodes have in a tree: what stands in them, blank space and comments left out, as
one regular expression for each kind of node. A node that nests patterns takes one level of what is
allowed, and where no level is left stands an error in place of a pattern. -/

namespace TreeQuery.Syntax

namespace Shape

def token (kind : TokenKind) : RegularExpression Kind := .char (.token kind)

def node (kind : NodeKind) : RegularExpression Kind := .char (.node kind)

def oneOf (kinds : List Kind) : RegularExpression Kind := (kinds.map .char).sum

def many (kinds : List Kind) : RegularExpression Kind := .star (oneOf kinds)

def maybe (part : RegularExpression Kind) : RegularExpression Kind := 1 + part

/-- The kinds that a shape mentions. -/
def letters : RegularExpression Kind → List Kind
  | .zero | .epsilon => []
  | .char kind => [kind]
  | .plus first second | .comp first second => letters first ++ letters second
  | .star part => letters part

variable {kind : Kind} {kinds word rest : List Kind} {first second part : RegularExpression Kind}

private theorem mem_one : word ∈ (1 : RegularExpression Kind).matches' ↔ word = [] := Iff.rfl

theorem mem_char : word ∈ (RegularExpression.char kind).matches' ↔ word = [kind] := Iff.rfl

theorem mem_maybe : word ∈ (maybe part).matches' ↔ word = [] ∨ word ∈ part.matches' := Iff.rfl

theorem mem_oneOf : word ∈ (oneOf kinds).matches' ↔ ∃ kind ∈ kinds, word = [kind] := by
  induction kinds with
  | nil =>
    constructor
    · intro member
      cases member
    · intro ⟨_, member, _⟩
      cases member
  | cons first others ih =>
    have split : word ∈ (oneOf (first :: others)).matches' ↔ word = [first] ∨ word ∈ (oneOf others).matches' := Iff.rfl
    rw [split, ih]
    simp

theorem mem_many : word ∈ (many kinds).matches' ↔ ∀ kind ∈ word, kind ∈ kinds := by
  have star : word ∈ (many kinds).matches' ↔
      ∃ words : List (List Kind), word = words.flatten ∧ ∀ one ∈ words, one ∈ (oneOf kinds).matches' :=
    Language.mem_kstar
  rw [star]
  constructor
  · intro ⟨words, joined, each⟩ kind member
    rw [joined] at member
    obtain ⟨one, among, inside⟩ := List.mem_flatten.mp member
    obtain ⟨letter, known, rfl⟩ := mem_oneOf.mp (each one among)
    exact List.mem_singleton.mp inside ▸ known
  · intro known
    refine ⟨word.map ([·]), ?_, ?_⟩
    · rw [← List.flatMap_def, List.flatMap_singleton']
    · intro one among
      obtain ⟨kind, member, rfl⟩ := List.mem_map.mp among
      exact mem_oneOf.mpr ⟨kind, known kind member, rfl⟩

theorem mem_seq : word ∈ (first * second).matches' ↔
    ∃ left ∈ first.matches', ∃ right ∈ second.matches', left ++ right = word := Language.mem_mul

theorem append_mem (before : word ∈ first.matches') (after : rest ∈ second.matches') :
    word ++ rest ∈ (first * second).matches' := mem_seq.mpr ⟨word, before, rest, after, rfl⟩

theorem nil_many : ∀ word ∈ (1 : RegularExpression Kind).matches', word ∈ (many kinds).matches' := by
  intro word empty
  rw [mem_one.mp empty]
  exact mem_many.mpr nofun

theorem oneOf_many : ∀ word ∈ (oneOf kinds).matches', word ∈ (many kinds).matches' := by
  intro word member
  obtain ⟨kind, known, rfl⟩ := mem_oneOf.mp member
  exact mem_many.mpr fun other inside => List.mem_singleton.mp inside ▸ known

theorem oneOf_mono {more : List Kind} (within : ∀ kind ∈ kinds, kind ∈ more) :
    ∀ word ∈ (oneOf kinds).matches', word ∈ (oneOf more).matches' := by
  intro word member
  obtain ⟨kind, known, same⟩ := mem_oneOf.mp member
  exact mem_oneOf.mpr ⟨kind, within kind known, same⟩

theorem many_many : ∀ word ∈ (many kinds * many kinds).matches', word ∈ (many kinds).matches' := by
  intro word member
  obtain ⟨before, begins, after, ends, rfl⟩ := mem_seq.mp member
  apply mem_many.mpr
  intro kind inside
  rcases List.mem_append.mp inside with inside | inside
  · exact mem_many.mp begins kind inside
  · exact mem_many.mp ends kind inside

theorem mem_letters (member : word ∈ part.matches') : ∀ kind ∈ word, kind ∈ letters part := by
  induction part generalizing word with
  | zero => cases member
  | epsilon =>
    cases member
    exact nofun
  | char letter =>
    cases member
    exact fun _ => id
  | plus first second left right =>
    intro kind inside
    rcases member with member | member
    · exact List.mem_append_left _ (left member kind inside)
    · exact List.mem_append_right _ (right member kind inside)
  | comp first second left right =>
    obtain ⟨before, begins, after, ends, rfl⟩ := mem_seq.mp member
    intro kind inside
    rcases List.mem_append.mp inside with inside | inside
    · exact List.mem_append_left _ (left begins kind inside)
    · exact List.mem_append_right _ (right ends kind inside)
  | star part each =>
    obtain ⟨words, rfl, all⟩ := Language.mem_kstar.mp member
    intro kind inside
    obtain ⟨one, among, inside⟩ := List.mem_flatten.mp inside
    exact each (all one among) kind inside

end Shape

open Shape

def solidTokens : List Kind := (TokenKind.all.filter (!·.isTrivia)).map .token

/-- What the value of a field can be if nesting goes that deep. -/
def valueKinds : List Kind := [.node .namedNode, .node .grouping, .node .list, .node .anonymousNode, .node .predicate]

/-- What can stand for a pattern, if only in its place. -/
def patternKinds : List Kind := .node .error :: .node .fieldDefinition :: valueKinds

def itemKinds : List Kind := .node .negatedField :: .token .dot :: .node .capture :: patternKinds

def argumentKinds : List Kind :=
  [.node .capture, .node .string, .token .identifier, .token .underscore, .node .error]

def suffixShape : RegularExpression Kind := maybe (node .quantifier) * many [.node .capture]

def bodyShape (closer : TokenKind) : RegularExpression Kind :=
  many itemKinds * (maybe (token closer) * suffixShape)

/-- After `MISSING` what is missing, else a subtype. -/
def detailShape (missing : Bool) : RegularExpression Kind :=
  if missing then maybe (oneOf [.token .identifier, .node .string])
  else maybe (token .slash * maybe (token .identifier))

/-- The shape of a node. Only a named node goes by whether its name is `MISSING`. -/
def shape (missing : Bool) : NodeKind → RegularExpression Kind
  | .error => oneOf solidTokens * many solidTokens
  | .program => many (.node .capture :: patternKinds)
  | .namedNode =>
    token .parenOpen * (oneOf [.token .identifier, .token .underscore] * (detailShape missing * bodyShape .parenClose))
  | .anonymousNode => oneOf [.token .underscore, .node .string] * suffixShape
  | .grouping => token .parenOpen * bodyShape .parenClose
  | .list => token .bracketOpen * bodyShape .bracketClose
  | .fieldDefinition => token .identifier * (token .colon * maybe (oneOf (.node .error :: valueKinds)))
  | .negatedField => token .bang * maybe (token .identifier)
  | .capture => token .atSign * maybe (token .identifier)
  | .quantifier => oneOf [.token .star, .token .plus, .token .question]
  | .predicate =>
    token .parenOpen * (token .sharp *
      (maybe (token .identifier * maybe (oneOf [.token .question, .token .bang])) *
        (node .parameters * maybe (token .parenClose))))
  | .parameters => many argumentKinds
  | .string => token .doubleQuote * (maybe (token .stringContent) * maybe (token .doubleQuote))

/-- The kinds that can stand in a node, trivia apart. -/
def NodeKind.parts (kind : NodeKind) : List Kind := letters (shape true kind) ++ letters (shape false kind)

/-- The kinds of trees that stand side by side, trivia left out. -/
def row (trees : List Tree) : List Kind := (trees.map Tree.kind).filter (!·.isTrivia)

def readsMissing (children : List Tree) : Bool :=
  (children.find? fun child => child.kind = .token .identifier || child.kind = .token .underscore).any
    (·.text = "MISSING")

def Kind.startsPattern : Kind → Bool
  | .token kind => kind.startsPattern
  | .node _ => false

/-- Whether the first token is one that a pattern begins with. -/
def opensPattern (children : List Tree) : Bool := (row children).head?.any Kind.startsPattern

def NodeKind.nests : NodeKind → Bool
  | .namedNode | .grouping | .list | .fieldDefinition => true
  | _ => false

/-- The levels left inside a node. -/
def NodeKind.inside (kind : NodeKind) (room : Nat) : Nat := if kind.nests then room - 1 else room

/-- Whether nothing but its shape is said of a node. -/
def NodeKind.isPlain : NodeKind → Bool
  | .program | .anonymousNode | .negatedField | .quantifier | .predicate | .parameters | .string => true
  | _ => false

variable {trees later children : List Tree} {kind : NodeKind} {room : Nat} {stray deep : Prop}

theorem row_append (trees later : List Tree) : row (trees ++ later) = row trees ++ row later := by
  rw [row, List.map_append, List.filter_append]
  rfl

theorem row_eq_nil : row trees = [] ↔ ∀ tree ∈ trees, tree.kind.isTrivia = true := by
  simp [row]

theorem row_blanks {tokens : List Token} (blank : ∀ token ∈ tokens, token.isTrivia = true) :
    row (tokens.map .leaf) = [] := by
  apply row_eq_nil.mpr
  intro tree member
  obtain ⟨token, inside, rfl⟩ := List.mem_map.mp member
  exact blank token inside

theorem row_solid {token : Token} (solid : token.isTrivia = false) : row [.leaf token] = [.token token.kind] := by
  simp [row, Tree.kind, Kind.isTrivia, show token.kind.isTrivia = false from solid]

theorem mem_row {tree : Tree} (member : tree ∈ trees) (solid : tree.kind.isTrivia = false) : tree.kind ∈ row trees :=
  List.mem_filter.mpr ⟨List.mem_map_of_mem member, by rw [solid]; rfl⟩

theorem mem_parts {missing : Bool} {tree : Tree} (fits : row children ∈ (shape missing kind).matches')
    (member : tree ∈ children) (solid : tree.kind.isTrivia = false) : tree.kind ∈ kind.parts := by
  have known := mem_letters fits _ (mem_row member solid)
  cases missing with
  | true => exact List.mem_append_left _ known
  | false => exact List.mem_append_right _ known

theorem readsMissing_blanks {blanks : List Token} (blank : ∀ token ∈ blanks, token.isTrivia = true) (rest : List Tree) :
    readsMissing (blanks.map .leaf ++ rest) = readsMissing rest := by
  have unnamed : (blanks.map Tree.leaf).find? (fun child =>
      child.kind = .token .identifier || child.kind = .token .underscore) = none := by
    apply List.find?_eq_none.mpr
    intro child member
    obtain ⟨token, among, rfl⟩ := List.mem_map.mp member
    have trivia : token.kind.isTrivia = true := blank token among
    cases kind : token.kind <;> simp [kind, TokenKind.isTrivia, Tree.kind] at trivia ⊢
  rw [readsMissing, List.find?_append, unnamed]
  rfl

theorem readsMissing_token {token : Token} (names : token.kind = .identifier ∨ token.kind = .underscore) (rest : List Tree) :
    readsMissing (.leaf token :: rest) = decide (token.text = "MISSING") := by
  have named : (Tree.leaf token).kind = .token .identifier ∨ (Tree.leaf token).kind = .token .underscore :=
    names.imp (congrArg Kind.token) (congrArg Kind.token)
  simp [readsMissing, named, Tree.text, Tree.leaves]

theorem readsMissing_opener {token : Token} (opens : token.kind = .parenOpen) (rest : List Tree) :
    readsMissing (.leaf token :: rest) = readsMissing rest := by
  simp [readsMissing, Tree.kind, opens]

/-- A node with its children where `room` more levels are allowed. An error is placed for one token that
does not belong, and nothing of that is silent, or stands at the limit for a pattern, and then it is deep. -/
structure Wellmade (stray : Prop) (room : Nat) (deep : Prop) (kind : NodeKind) (children : List Tree) : Prop where
  fits : row children ∈ (shape (readsMissing children) kind).matches'
  tight : kind = .capture → ∀ child ∈ children, child.kind.isTrivia = false
  nests : kind.nests = true → 0 < room
  invokes : kind = .predicate → 0 < room
  error : kind = .error → (room = 0 ∧ opensPattern children = true) ∧ deep ∨
    ¬ (room = 0 ∧ opensPattern children = true) ∧ stray ∧ (row children).length = 1
  value : kind = .fieldDefinition → ∀ inside, .node .error inside ∈ children → room = 1 ∧ opensPattern inside = true

/-- Trees that stand side by side where `room` more levels are allowed, all nodes in them well made. What is
deep has nothing but trivia after it. -/
inductive Formed (stray : Prop) : Nat → Prop → List Tree → Prop
  | nil {room : Nat} {deep : Prop} : Formed stray room deep []
  | leaf {room : Nat} {deep : Prop} {rest : List Tree} (token : Token) (after : Formed stray room deep rest) :
    Formed stray room deep (.leaf token :: rest)
  | node {room : Nat} {deep : Prop} {kind : NodeKind} {children rest : List Tree}
    (made : Wellmade stray room (deep ∧ row rest = []) kind children)
    (inside : Formed stray (kind.inside room) (deep ∧ row rest = []) children) (after : Formed stray room deep rest) :
    Formed stray room deep (.node kind children :: rest)

theorem Wellmade.plain (plain : kind.isPlain = true) (invokes : kind = .predicate → 0 < room)
    (fits : row children ∈ (shape false kind).matches') : Wellmade stray room deep kind children := by
  cases kind with
  | error | namedNode | grouping | list | fieldDefinition | capture => cases plain
  | program | anonymousNode | negatedField | quantifier | predicate | parameters | string =>
    exact ⟨fits, nofun, nofun, invokes, nofun, nofun⟩

theorem Wellmade.weaken {more further : Prop} (made : Wellmade stray room deep kind children)
    (straying : stray → more) (deeper : deep → further) : Wellmade more room further kind children := by
  refine ⟨made.fits, made.tight, made.nests, made.invokes, fun error => ?_, made.value⟩
  rcases made.error error with ⟨limit, reached⟩ | ⟨inner, strayed, single⟩
  · exact .inl ⟨limit, deeper reached⟩
  · exact .inr ⟨inner, straying strayed, single⟩

namespace Formed

theorem weaken {more further : Prop} (formed : Formed stray room deep trees) (straying : stray → more)
    (deeper : deep → further) : Formed more room further trees := by
  induction formed generalizing further with
  | nil => exact .nil
  | leaf token after ih => exact .leaf token (ih deeper)
  | @node _ _ _ _ rest made inside after within beyond =>
    have still : _ ∧ row rest = [] → further ∧ row rest = [] := And.imp_left deeper
    exact .node (made.weaken straying still) (within still) (beyond deeper)

theorem append (first : Formed stray room (deep ∧ row later = []) trees) (second : Formed stray room deep later) :
    Formed stray room deep (trees ++ later) := by
  generalize both : (deep ∧ row later = []) = last at first
  induction first with
  | nil => exact second
  | leaf token after ih => exact .leaf token (ih second both)
  | @node room last kind children rest made inside after within beyond =>
    have ends : last ∧ row rest = [] → deep ∧ row (rest ++ later) = [] := by
      subst both
      intro ⟨⟨reached, last⟩, empty⟩
      exact ⟨reached, by rw [row_append, empty, last]; rfl⟩
    exact .node (made.weaken id ends) (inside.weaken id ends) (beyond second both)

theorem leaves (tokens : List Token) : Formed stray room deep (tokens.map .leaf) := by
  induction tokens with
  | nil => exact .nil
  | cons token rest ih => exact .leaf token ih

end Formed

end TreeQuery.Syntax
