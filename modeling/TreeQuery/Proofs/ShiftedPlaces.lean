import TreeQuery.Lint.Run

/-! Places that stand further on. Nothing that is read off a construct asks where it stands, so a construct moved by
some distance has the same parts, moved as far. -/

namespace TreeQuery

namespace Text.Span

def shift (distance : Nat) (span : Span) : Span := ⟨span.start + distance, span.stop + distance⟩

end Text.Span

namespace Syntax.Placed

variable (distance : Nat)

def shift (place : Placed) : Placed := ⟨place.start + distance, place.tree⟩

variable (place : Placed)

@[simp] theorem shift_tree : (place.shift distance).tree = place.tree := rfl

@[simp] theorem shift_start : (place.shift distance).start = place.start + distance := rfl

@[simp] theorem shift_stop : (place.shift distance).stop = place.stop + distance := Nat.add_right_comm ..

@[simp] theorem shift_kind : (place.shift distance).kind = place.kind := rfl

@[simp] theorem shift_isNode (kind : NodeKind) : (place.shift distance).isNode kind = place.isNode kind := rfl

@[simp] theorem shift_text : (place.shift distance).text = place.text := rfl

@[simp] theorem shift_span : (place.shift distance).span = place.span.shift distance := by
  simp [span, Text.Span.shift]

private theorem line_shift (start : Nat) (trees : List Tree) :
    line (start + distance) trees = (line start trees).map (shift distance) := by
  induction trees generalizing start with
  | nil => rfl
  | cons tree rest ih => simp [line, shift, ← ih, Nat.add_right_comm]

@[simp] theorem shift_children : (place.shift distance).children = place.children.map (shift distance) :=
  line_shift distance place.start place.tree.children

/-- A test that does not ask where a place stands passes and fails as before. -/
private theorem find?_shift (test : Placed → Bool) (blind : ∀ place, test (place.shift distance) = test place)
    (places : List Placed) :
    (places.map (shift distance)).find? test = (places.find? test).map (shift distance) := by
  rw [List.find?_map, show test ∘ shift distance = test from funext blind]

private theorem filter_shift (test : Placed → Bool) (blind : ∀ place, test (place.shift distance) = test place)
    (places : List Placed) :
    (places.map (shift distance)).filter test = (places.filter test).map (shift distance) := by
  rw [List.filter_map, show test ∘ shift distance = test from funext blind]

private theorem dropWhile_shift (test : Placed → Bool) (blind : ∀ place, test (place.shift distance) = test place)
    (places : List Placed) : (places.map (shift distance)).dropWhile test = (places.dropWhile test).map (shift distance) := by
  rw [List.dropWhile_map, show test ∘ shift distance = test from funext blind]

@[simp] theorem shift_firstToken? (wanted : TokenKind → Bool) :
    (place.shift distance).firstToken? wanted = (place.firstToken? wanted).map (shift distance) := by
  rw [firstToken?, shift_children, find?_shift distance _ fun _ => rfl, firstToken?]

@[simp] theorem shift_firstNode? (wanted : NodeKind) :
    (place.shift distance).firstNode? wanted = (place.firstNode? wanted).map (shift distance) := by
  rw [firstNode?, shift_children, find?_shift distance _ fun _ => rfl, firstNode?]

@[simp] theorem shift_identifier? : (place.shift distance).identifier? = place.identifier?.map (shift distance) :=
  shift_firstToken? ..

@[simp] theorem shift_kindName? : (place.shift distance).kindName? = place.kindName?.map (shift distance) :=
  shift_firstToken? ..

@[simp] theorem shift_predicateMark? : (place.shift distance).predicateMark? = place.predicateMark?.map (shift distance) :=
  shift_firstToken? ..

@[simp] theorem shift_content? : (place.shift distance).content? = place.content?.map (shift distance) :=
  shift_firstToken? ..

@[simp] theorem shift_string? : (place.shift distance).string? = place.string?.map (shift distance) :=
  shift_firstNode? ..

@[simp] theorem shift_parameters? : (place.shift distance).parameters? = place.parameters?.map (shift distance) :=
  shift_firstNode? ..

@[simp] theorem shift_subtype? : (place.shift distance).subtype? = place.subtype?.map (shift distance) := by
  rw [subtype?, shift_children, dropWhile_shift distance _ fun _ => rfl, find?_shift distance _ fun _ => rfl, subtype?]

@[simp] theorem shift_items : (place.shift distance).items = place.items.map (shift distance) := by
  rw [items, shift_children, filter_shift distance _ fun _ => rfl, items]

@[simp] theorem shift_strings : (place.shift distance).strings = place.strings.map (shift distance) := by
  rw [strings, shift_children, filter_shift distance _ fun _ => rfl, strings]

@[simp] theorem shift_value? : (place.shift distance).value? = place.value?.map (shift distance) := by
  rw [value?, shift_items, List.head?_map, value?]

@[simp] theorem shift_isWildcard : (place.shift distance).isWildcard = place.isWildcard := by
  rw [isWildcard, shift_kindName?, Option.any_map, isWildcard]
  rfl

@[simp] theorem shift_predicateName? : (place.shift distance).predicateName? = place.predicateName? := by
  simp only [predicateName?, shift_identifier?, shift_predicateMark?]
  cases place.identifier? <;> cases place.predicateMark? <;> rfl

@[simp] theorem shift_isBlank : (place.shift distance).isBlank = place.isBlank := by
  rw [isBlank, shift_children, List.all_map, isBlank]
  rfl

@[simp] theorem shift_stringValue : (place.shift distance).stringValue = place.stringValue := by
  rw [stringValue, shift_content?, stringValue]
  cases place.content? <;> rfl

end Syntax.Placed

namespace Lint
open Syntax

variable (distance : Nat)

mutual

private theorem spread_shift (start : Nat) : (tree : Tree) →
    spread (start + distance) tree = (spread start tree).map (Placed.shift distance)
  | .leaf _ => rfl
  | .node kind children => by
    rw [spread, spread]
    split
    · exact spreadAll_shift start children
    · split <;> rfl

private theorem spreadAll_shift (start : Nat) : (trees : List Tree) →
    spreadAll (start + distance) trees = (spreadAll start trees).map (Placed.shift distance)
  | [] => rfl
  | tree :: rest => by
    rw [spreadAll, spreadAll, List.map_append, spread_shift start tree, Nat.add_right_comm,
      spreadAll_shift (start + tree.length) rest]

end

@[simp] theorem flatItems_shift (place : Placed) :
    flatItems (place.shift distance) = (flatItems place).map (Placed.shift distance) :=
  spreadAll_shift distance place.start place.tree.children

@[simp] theorem flatValues_shift (field : Placed) :
    flatValues (field.shift distance) = (flatValues field).map (Placed.shift distance) := by
  rw [flatValues, Placed.shift_value?, flatValues]
  cases field.value? with
  | none => rfl
  | some value => exact spread_shift distance value.start value.tree

@[simp] theorem checkableName?_shift (node : Placed) :
    checkableName? (node.shift distance) = (checkableName? node).map (Placed.shift distance) := by
  simp only [checkableName?, Placed.shift_isWildcard, Placed.shift_kindName?, Placed.shift_subtype?]
  cases node.isWildcard with
  | true => rfl
  | false =>
    cases node.kindName? with
    | none => rfl
    | some name =>
      by_cases pseudo : name.text ∈ pseudoKinds
      · simp [pseudo]
      · cases node.subtype? <;> simp [pseudo]

end Lint

end TreeQuery
