import TreeQuery.Proofs.WaitingFields

/-! In which form field names are offered. At the name of a field that has its colon they are offered bare, at an
identifier that stands by itself among the items of a node with a colon. Where such an identifier stands in the value
of a field, it is taken for the name of that field. -/

namespace TreeQuery.Completion
open Syntax

/-- Whether a site is the name of a field definition. -/
def namesField (site : Site) : Bool :=
  site.above.head?.any fun field => field.isNode .fieldDefinition && field.identifier? = some site.place

/-- Whether an identifier stands by itself, in an error, and belongs to a construct of this kind. Those among the
arguments of a predicate belong to none. -/
def standsAlone (kind : NodeKind) (site : Site) : Bool :=
  site.place.kind = .token .identifier && site.above.head?.any (·.isNode .error) &&
    (site.above.find? (isEnclosing ·.kind)).any (·.isNode kind) && !site.above.any (·.isNode .predicate)

section Rules

variable {enclosing terminal parent : Placed} {above : List Placed} {wrapped : Bool} {type : Option String}

private theorem kindNameIn_fieldName : kindNameIn above ≠ .fieldName wrapped type := by
  unfold kindNameIn fieldValueIn
  grind

/-- Of the rules for a pair those for an identifier in a field or in a named node offer field names. -/
private theorem contextIn_fieldName (offered : contextIn enclosing above terminal parent = .fieldName wrapped type) :
    terminal.kind = .token .identifier ∧
      (enclosing.kind = .node .fieldDefinition ∧ wrapped = false ∨
        enclosing.kind = .node .namedNode ∧ identifierIn enclosing above terminal parent = .fieldName wrapped type) := by
  have valued : ∀ inner, fieldValueIn inner enclosing above ≠ .fieldName wrapped type := by
    intro inner
    unfold fieldValueIn
    grind
  unfold contextIn at offered
  grind

/-- In a named node they are offered at what is neither its name nor a subtype nor another word of the node itself. -/
private theorem identifierIn_fieldName (offered : identifierIn enclosing above terminal parent = .fieldName wrapped type) :
    wrapped = true ∧ parent.isNode .namedNode = false := by
  unfold identifierIn at offered
  split at offered
  next => exact absurd offered kindNameIn_fieldName
  next =>
    split at offered
    next => cases offered
    next =>
      split at offered
      next => cases offered
      next other =>
        cases offered
        exact ⟨rfl, Bool.eq_false_iff.mpr other⟩

private theorem identifierIn_bare (unnamed : enclosing.kindName?.any (·.start = terminal.start) = false)
    (whole : enclosing.subtype?.any (·.start = terminal.start) = false) (other : parent.isNode .namedNode = false) :
    identifierIn enclosing above terminal parent = .fieldName true (kindOf? enclosing) := by
  simp [identifierIn, unnamed, whole, other]

end Rules

variable {limit offset : Nat} {source : String} {site : Site} {field holder enclosing : Placed} {above rest : List Placed}
  {wrapped : Bool} {type : Option String}

private theorem classify_told (told : tokenBefore? (parse limit source).tree offset = some site) :
    classify (parse limit source).tree offset = (chainAt? (parse limit source).tree offset).elim .none contextOf := by
  have bounds : site.place.start < offset ∧ offset ≤ site.place.stop := by simpa using List.find?_some told
  have within := parse_token_within (List.mem_of_find?_eq_some told)
  rw [classify, if_neg (by omega), if_neg (by rw [parse_length]; omega)]
  cases chainAt? (parse limit source).tree offset <;> rfl

/-- A cursor at an identifier is in it. -/
private theorem chainAt?_identifier (told : tokenBefore? (parse limit source).tree offset = some site)
    (word : site.place.kind = .token .identifier) :
    chainAt? (parse limit source).tree offset = some (site.place :: site.above) := by
  simp [chainAt?, told, closesConstruct, word, Kind.isTrivia, TokenKind.isTrivia]

/-- Field names are offered at identifiers only. -/
private theorem fieldName_told (told : tokenBefore? (parse limit source).tree offset = some site)
    (offered : classify (parse limit source).tree offset = .fieldName wrapped type) :
    site.place.kind = .token .identifier := by
  rw [classify_told told] at offered
  cases located : chainAt? (parse limit source).tree offset with
  | none => rw [located] at offered; cases offered
  | some chain =>
    rw [located] at offered
    have context := contextOf_told chain
    rw [show contextOf chain = .fieldName wrapped type from offered] at context
    generalize same : Context.fieldName wrapped type = found at context
    cases context with
    | silent | sign | apart => cases same
    | @pair enclosing terminal above around dispatched =>
      have word := (contextIn_fieldName same.symm).1
      have member := dispatched.terminal_mem
      cases chainAt?_located located with
      | @token other found =>
        obtain rfl : other = site := Option.some.inj (found.symm.trans told)
        rwa [Tree.token_below_nodes (List.mem_of_find?_eq_some told) member word] at word
      | @colon other among waits =>
        rw [Tree.token_below_nodes among member word, waits] at word
        cases word
      | @closed other found =>
        have inside := (leaveClosed_suffix offset other.above).subset member
        obtain ⟨kind, shape⟩ := (Tree.token_lineage (List.mem_of_find?_eq_some found)).above_nodes terminal inside
        rw [word] at shape
        cases shape

/-- An identifier is the terminal of its own chain, and the constructs around it are those above it. -/
private theorem identifier_dispatched (member : site ∈ (parse limit source).tree.tokenSites)
    (word : site.place.kind = .token .identifier)
    (found : site.above.dropWhile (!isEnclosing ·.kind) = enclosing :: above)
    (outside : site.above.any (·.isNode .predicate) = false) :
    Dispatched (site.place :: site.above) enclosing above site.place site.above := by
  refine ⟨?_, ?_, ?_, by simp [word], ?_⟩
  · simp only [List.any_eq_false, List.mem_cons, decide_eq_true_eq]
    rintro other (rfl | inside) comment
    · rw [word] at comment
      cases comment
    · obtain ⟨kind, made⟩ := (Tree.token_lineage member).above_nodes other inside
      rw [made] at comment
      cases comment
  · exact List.dropWhile_cons_of_neg (by simp [word, isTerminal])
  · rwa [List.dropWhile_cons_of_pos (by simp [word, isEnclosing])]
  · have free : (site.place :: site.above).any (·.isNode .predicate) = false := by
      simpa [Placed.isNode, word] using outside
    rw [free]
    rfl

/-- Field names are offered at an identifier by the rule for it and for the nearest construct around it. -/
private theorem fieldName_dispatched (told : tokenBefore? (parse limit source).tree offset = some site) :
    classify (parse limit source).tree offset = .fieldName wrapped type ↔ ∃ enclosing above,
      site.place.kind = .token .identifier ∧ site.above.dropWhile (!isEnclosing ·.kind) = enclosing :: above ∧
        site.above.any (·.isNode .predicate) = false ∧
        contextIn enclosing above site.place (site.above.headD site.place) = .fieldName wrapped type := by
  constructor
  · intro offered
    have word := fieldName_told told offered
    rw [classify_told told, chainAt?_identifier told word] at offered
    have context := contextOf_told (site.place :: site.above)
    rw [show contextOf (site.place :: site.above) = .fieldName wrapped type from offered] at context
    generalize same : Context.fieldName wrapped type = found at context
    cases context with
    | silent | sign | apart => cases same
    | @pair enclosing terminal above around dispatched =>
      obtain ⟨rfl, rfl⟩ : site.place = terminal ∧ site.above = around := by
        simpa [List.dropWhile_cons, word, isTerminal] using dispatched.first
      have found : site.above.dropWhile (!isEnclosing ·.kind) = enclosing :: above := by
        simpa [List.dropWhile_cons, word, isEnclosing] using dispatched.found
      refine ⟨enclosing, above, word, found, ?_, rfl⟩
      by_contra within
      obtain ⟨place, inside, shape⟩ := List.any_eq_true.mp (Bool.eq_true_of_not_eq_false within)
      have captures := dispatched.inside_predicate (List.mem_cons_of_mem _ inside) (of_decide_eq_true shape)
      have rule := (contextIn_fieldName same.symm).2
      simp [captures] at rule
  · rintro ⟨enclosing, above, word, found, outside, offered⟩
    have dispatched := identifier_dispatched (List.mem_of_find?_eq_some told) word found outside
    rw [classify_told told, chainAt?_identifier told word, Option.elim_some, dispatched.contextOf_eq]
    exact offered

/-- The only identifier among the words of a field is its name. -/
private theorem identifier?_child {token : Placed} (lineage : Lineage ⟨0, (parse limit source).tree⟩ (token :: field :: rest))
    (shape : field.kind = .node .fieldDefinition) (word : token.kind = .token .identifier) :
      field.identifier? = some token := by
  have fits := parse_fits lineage.tail.mem_sites shape
  obtain ⟨name, named⟩ := Option.isSome_iff_exists.mp (fieldName?_isSome fits)
  obtain ⟨own, _, kind, wanted⟩ := firstToken?_child named
  obtain rfl := of_decide_eq_true wanted
  obtain ⟨_, rfl, after, behind, same⟩ := Shape.mem_seq.mp fits
  have other : .token .identifier ∉ after := fun inside => absurd (Shape.mem_letters behind _ inside) (by decide)
  rw [← Placed.solids_kinds] at same
  obtain ⟨first, others, split, _, kinds⟩ := List.map_eq_cons_iff.mp same.symm
  have alone (child : Placed) (inside : child ∈ field.children) (identifier : child.kind = .token .identifier) :
      child = first := by
    have solid : child ∈ field.solids := List.mem_filter.mpr ⟨inside, by rw [identifier]; rfl⟩
    rw [split] at solid
    rcases List.mem_cons.mp solid with here | later
    · exact here
    · have listed : child.kind ∈ after := by
        have mapped := List.mem_map_of_mem (f := Placed.kind) later
        rwa [kinds] at mapped
      exact absurd (identifier ▸ listed) other
  rw [named, alone name own kind, alone token lineage.inside word]

/-- Outside predicates an identifier is a word of the nearest construct around it, or stands in an error. -/
private theorem identifier_holder {token holder : Placed}
    (lineage : Lineage ⟨0, (parse limit source).tree⟩ (token :: holder :: rest))
    (word : token.kind = .token .identifier) (outside : (holder :: rest).any (·.isNode .predicate) = false) :
    isEnclosing holder.kind = true ∨ holder.kind = .node .error := by
  obtain ⟨kind, made⟩ := lineage.above_nodes holder List.mem_cons_self
  have part := parse_parts lineage made (by rw [word]; rfl)
  rw [word] at part
  cases kind with
  | error => exact .inr made
  | predicate => simp [Placed.isNode, made] at outside
  | parameters =>
    cases rest with
    | nil =>
      obtain ⟨children, whole⟩ := parse_program limit source
      have root : holder = ⟨0, (parse limit source).tree⟩ := Option.some.inj lineage.tail.last
      simp [root, Placed.kind, whole, Tree.kind] at made
    | cons outer rest =>
      obtain ⟨other, shape⟩ := lineage.tail.above_nodes outer List.mem_cons_self
      have inside := parse_parts lineage.tail shape (by rw [made]; rfl)
      rw [made] at inside
      have invokes : ∀ kind : NodeKind, .node .parameters ∈ kind.parts → kind = .predicate := by
        intro kind
        cases kind <;> decide
      rw [invokes other inside] at shape
      simp [Placed.isNode, shape] at outside
  | namedNode | fieldDefinition | negatedField | capture =>
    rw [made]
    exact .inl rfl
  | program | anonymousNode | grouping | list | quantifier | string => exact absurd part (by decide)

section Cursor

variable (told : tokenBefore? (parse limit source).tree offset = some site)
include told

private theorem token_held : ∃ holder rest, site.above = holder :: rest ∧
    Lineage ⟨0, (parse limit source).tree⟩ (site.place :: holder :: rest) := by
  have member := List.mem_of_find?_eq_some told
  have lineage := Tree.token_lineage member
  cases outer : site.above with
  | nil =>
    obtain ⟨children, whole⟩ := parse_program limit source
    have root : site.place = ⟨0, (parse limit source).tree⟩ := by
      rw [outer] at lineage
      exact Option.some.inj lineage.last
    have isToken := (List.mem_filter.mp member).2
    simp [Site.isToken, root, Placed.kind, whole, Tree.kind] at isToken
  | cons holder rest => exact ⟨holder, rest, rfl, outer ▸ lineage⟩

omit told in
private theorem standsAlone_iff {holder : Placed} {kind : NodeKind} (split : site.above = holder :: rest) :
    standsAlone kind site = true ↔ site.place.kind = .token .identifier ∧ holder.kind = .node .error ∧
      (∃ enclosing above, site.above.dropWhile (!isEnclosing ·.kind) = enclosing :: above ∧ enclosing.kind = .node kind) ∧
      site.above.any (·.isNode .predicate) = false := by
  have nearest : (site.above.find? (isEnclosing ·.kind)).any (·.isNode kind) = true ↔
      ∃ enclosing above, site.above.dropWhile (!isEnclosing ·.kind) = enclosing :: above ∧ enclosing.kind = .node kind := by
    rw [List.find?_eq_head?_dropWhile_not]
    cases site.above.dropWhile (!isEnclosing ·.kind) with
    | nil => simp
    | cons enclosing above => simp [Placed.isNode]
  simp only [standsAlone, Bool.and_eq_true, nearest, Bool.not_eq_true', decide_eq_true_eq, and_assoc]
  simp [split, Placed.isNode]

/-- A bare form is offered at the name of a field, and at what stands by itself in the value of one. -/
private theorem fieldName_bare : (∃ type, classify (parse limit source).tree offset = .fieldName false type) ↔
    namesField site = true ∨ standsAlone .fieldDefinition site = true := by
  obtain ⟨holder, rest, split, lineage⟩ := token_held told
  constructor
  · rintro ⟨type, offered⟩
    obtain ⟨enclosing, above, word, found, outside, rule⟩ := (fieldName_dispatched told).mp offered
    have held : enclosing.kind = .node .fieldDefinition := by
      rcases (contextIn_fieldName rule).2 with field | ⟨_, other⟩
      · exact field.1
      · cases (identifierIn_fieldName other).1
    rcases identifier_holder lineage word (split ▸ outside) with encloses | error
    · obtain rfl : holder = enclosing := by
        rw [split, List.dropWhile_cons_of_neg (by simp [encloses])] at found
        exact (List.cons.inj found).1
      left
      simp [namesField, split, Placed.isNode, held, identifier?_child lineage held word]
    · exact .inr ((standsAlone_iff split).mpr ⟨word, error, ⟨enclosing, above, found, held⟩, outside⟩)
  · rintro (names | bare)
    · have field : holder.kind = .node .fieldDefinition ∧ holder.identifier? = some site.place := by
        simpa [namesField, split, Placed.isNode] using names
      obtain ⟨_, kind, word, wanted⟩ := firstToken?_child field.2
      obtain rfl := of_decide_eq_true wanted
      have found : site.above.dropWhile (!isEnclosing ·.kind) = holder :: rest := by
        rw [split]
        exact List.dropWhile_cons_of_neg (by simp [field.1, isEnclosing])
      have outside : site.above.any (·.isNode .predicate) = false := by
        simp only [split, List.any_eq_false, List.mem_cons, Placed.isNode, decide_eq_true_eq]
        rintro other (rfl | inside) invokes
        · rw [field.1] at invokes
          cases invokes
        · rcases above_nesting lineage.tail (by rw [field.1]; rfl) inside with around | whole
          · rw [invokes] at around
            cases around
          · rw [invokes] at whole
            cases whole
      exact ⟨_, (fieldName_dispatched told).mpr ⟨holder, rest, word, found, outside, by simp [contextIn, field.1, word]; rfl⟩⟩
    · obtain ⟨word, error, ⟨enclosing, above, found, held⟩, outside⟩ := (standsAlone_iff split).mp bare
      exact ⟨_, (fieldName_dispatched told).mpr ⟨enclosing, above, word, found, outside, by simp [contextIn, held, word]; rfl⟩⟩

/-- The form with a colon is offered at what stands by itself among the items of a node. -/
private theorem fieldName_wrapped : (∃ type, classify (parse limit source).tree offset = .fieldName true type) ↔
    standsAlone .namedNode site = true := by
  obtain ⟨holder, rest, split, lineage⟩ := token_held told
  constructor
  · rintro ⟨type, offered⟩
    obtain ⟨enclosing, above, word, found, outside, rule⟩ := (fieldName_dispatched told).mp offered
    obtain ⟨held, inside⟩ : enclosing.kind = .node .namedNode ∧
        identifierIn enclosing above site.place (site.above.headD site.place) = .fieldName true type := by
      rcases (contextIn_fieldName rule).2 with ⟨_, other⟩ | named
      · cases other
      · exact named
    have other := (identifierIn_fieldName inside).2
    rcases identifier_holder lineage word (split ▸ outside) with encloses | error
    · rw [split, List.dropWhile_cons_of_neg (by simp [encloses])] at found
      rw [split, (List.cons.inj found).1] at other
      simp [Placed.isNode, held] at other
    · exact (standsAlone_iff split).mpr ⟨word, error, ⟨enclosing, above, found, held⟩, outside⟩
  · intro bare
    obtain ⟨word, error, ⟨enclosing, above, found, held⟩, outside⟩ := (standsAlone_iff split).mp bare
    have located := chainAt?_identifier told word
    have parted : site.above.takeWhile (!isEnclosing ·.kind) ++ enclosing :: above = site.above := by
      rw [← found]
      exact List.takeWhile_append_dropWhile
    rw [← parted] at located
    -- The error is between the identifier and the node, so that it is no word of the node itself.
    have apart (child : Placed) (kind : TokenKind) (inside : child ∈ enclosing.children) (token : child.kind = .token kind) :
        child.start ≠ site.place.start := by
      intro same
      have direct := (child_is_cursor located word inside token same).1
      rw [split, List.takeWhile_cons_of_pos (by simp [error, isEnclosing])] at direct
      cases direct
    have unnamed : enclosing.kindName?.any (·.start = site.place.start) = false := by
      refine (Option.any_eq_false _ _).mpr fun name named => ?_
      obtain ⟨inside, kind, token, _⟩ := firstToken?_child named
      exact decide_eq_false (apart name kind inside token)
    have whole : enclosing.subtype?.any (·.start = site.place.start) = false := by
      refine (Option.any_eq_false _ _).mpr fun subtype below => ?_
      obtain ⟨inside, token⟩ := subtype?_child below
      exact decide_eq_false (apart subtype _ inside token)
    have other : (site.above.headD site.place).isNode .namedNode = false := by simp [split, Placed.isNode, error]
    have bare : identifierIn enclosing above site.place (site.above.headD site.place) = .fieldName true (kindOf? enclosing) :=
      identifierIn_bare unnamed whole other
    have rule : contextIn enclosing above site.place (site.above.headD site.place) = .fieldName true (kindOf? enclosing) := by
      rw [← bare]
      simp [contextIn, held, word]
    exact ⟨_, (fieldName_dispatched told).mpr ⟨enclosing, above, word, found, outside, rule⟩⟩

end Cursor

/-- At every place of a text but its first field names are offered bare exactly at the name of a field or at an identifier
by itself in the value of one, and with a colon exactly at an identifier by itself among the items of a node. -/
theorem fieldName_forms (limit : Nat) (source : String) (offset : Nat) (after : 0 < offset)
    (within : offset ≤ source.utf8ByteSize) : ∃ site, tokenBefore? (parse limit source).tree offset = some site ∧
      ((∃ type, classify (parse limit source).tree offset = .fieldName false type) ↔
        namesField site = true ∨ standsAlone .fieldDefinition site = true) ∧
      ((∃ type, classify (parse limit source).tree offset = .fieldName true type) ↔ standsAlone .namedNode site = true) := by
  obtain ⟨site, member, begins, ends⟩ := parse_token_covers limit after within
  have told := tokenBefore?_parse member begins ends
  exact ⟨site, told, fieldName_bare told, fieldName_wrapped told⟩

/-- In `(a b x: [c])` the name of the field is completed bare, and the identifier before it with a colon. -/
theorem names_and_bare_words :
    (∃ type, classify (parse Parser.defaultLimit "(a b x: [c])").tree 6 = .fieldName false type) ∧
      ∃ type, classify (parse Parser.defaultLimit "(a b x: [c])").tree 4 = .fieldName true type := by
  have names : (tokenBefore? (parse Parser.defaultLimit "(a b x: [c])").tree 6).any namesField = true := by decide +kernel
  have bare : (tokenBefore? (parse Parser.defaultLimit "(a b x: [c])").tree 4).any (standsAlone .namedNode) = true := by
    decide +kernel
  obtain ⟨name, told, offered, _⟩ := fieldName_forms Parser.defaultLimit "(a b x: [c])" 6 (by decide) (by decide)
  obtain ⟨word, found, _, spelled⟩ := fieldName_forms Parser.defaultLimit "(a b x: [c])" 4 (by decide) (by decide)
  rw [told] at names
  rw [found] at bare
  exact ⟨offered.mpr (.inl names), spelled.mpr bare⟩

/-- In `(a x: [foo])` the identifier in the list is completed like the name of the field. -/
theorem bare_word_in_value : (tokenBefore? (parse Parser.defaultLimit "(a x: [foo])").tree 9).any namesField = false ∧
    classify (parse Parser.defaultLimit "(a x: [foo])").tree 9 = .fieldName false (some "a") := by
  decide +kernel

end TreeQuery.Completion
