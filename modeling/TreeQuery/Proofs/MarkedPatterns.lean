import TreeQuery.Proofs.LiteralReading
import TreeQuery.Proofs.ReportRanges
import TreeQuery.Proofs.StringPairing

/-! What a fault of a regular expression marks. A pattern stands in the text as it is checked unless there is an escape in
it, and then it is not the same as what is checked. So comparing the two tells whether a place in the one is a place in the
other. -/

namespace TreeQuery
open Syntax

namespace Text.Span

variable {span : Span} {text part : String}

private theorem Reads.extract (reads : span.Reads text part) : String.Pos.Raw.extract text ⟨span.start⟩ ⟨span.stop⟩ = part := by
  obtain ⟨front, back, rfl, starts, stops⟩ := reads
  have middle := String.extract_of_valid front.toList part.toList back.toList
  rw [String.utf8Len_toList, String.utf8Len_toList, ← String.toList_append, ← String.toList_append, String.ofList_toList,
    String.ofList_toList] at middle
  rw [stops, starts, middle]

end Text.Span

namespace Syntax

namespace Token
open Computability

/-- What stands between the quotes of a literal, or behind the only one. -/
def Literal.content (literal : Literal) : List Char :=
  if isClosed literal.body then literal.body.dropLast else literal.body

private theorem Literal.split (literal : Literal) : splitString literal.body =
    quoteMark :: (contentTokens literal.content ++ if isClosed literal.body then [quoteMark] else []) := by
  rw [splitString, content]
  split <;> simp

private theorem Literal.content_parts {literal : Literal} (known : '"' :: literal.body ∈ declared .stringLiteral) :
    literal.content ∈ stringPart∗ := by
  unfold content
  split
  next closed =>
    obtain ⟨_, inside⟩ := cons_mem_one_mul.mp ((isClosed_iff_mem known).mp closed)
    obtain ⟨content, parts, _, ⟨_, rfl, rfl⟩, same⟩ := Language.mem_mul.mp inside
    rw [← same, List.dropLast_concat]
    exact parts
  next unclosed =>
    rcases known with closed | parts
    · exact absurd ((isClosed_iff_mem (.inl closed)).mpr closed) unclosed
    · exact (cons_mem_one_mul.mp parts).2

/-- A backslash in a string has the character behind it in the string, so that resolving it changes the string. -/
private theorem unescapeChars_parts {content : List Char} (parts : content ∈ stringPart∗) :
    Text.unescapeChars content = content ↔ '\\' ∉ content := by
  rw [Text.unescapeChars_eq_self_iff, not_iff_not]
  refine ⟨List.mem_of_mem_dropLast, fun member => ?_⟩
  rcases List.eq_nil_or_concat content with rfl | ⟨front, last, same⟩
  · cases member
  · rw [List.concat_eq_append] at same
    subst same
    rw [List.dropLast_concat]
    by_contra plain
    obtain rfl : '\\' = last := by simpa [plain] using member
    have other : front.getLast? ≠ some '\\' := fun ends => plain (List.mem_of_getLast? ends)
    have one : trailing (front ++ ['\\']) = 1 := trailing_run other 1
    exact absurd (parts_even parts) (by rw [one]; decide)

variable {start : Nat} {tokens : List Token} {literals : List Literal}

private theorem Lexes.known (lexes : Lexes start tokens literals) :
    ∀ literal ∈ literals, '"' :: literal.body ∈ declared .stringLiteral := by
  induction lexes with
  | ended => exact List.forall_mem_nil _
  | plain _ _ _ ih => exact ih
  | string known _ _ ih => exact List.forall_mem_cons.mpr ⟨known, ih⟩

private theorem Lexes.contents (lexes : Lexes start tokens literals) :
    ∀ token ∈ tokens, token.kind = .stringContent → ∃ literal ∈ literals, token.text = String.ofList literal.content := by
  induction lexes with
  | ended => exact List.forall_mem_nil _
  | plain _ outside _ ih => exact List.forall_mem_cons.mpr ⟨fun inside => absurd inside outside, ih⟩
  | @string start body tokens literals known apart further ih =>
    intro token member made
    rcases List.mem_append.mp member with own | later
    · refine ⟨⟨start, body⟩, List.mem_cons_self, ?_⟩
      have other : token ≠ quoteMark := by
        rintro rfl
        cases made
      rw [(Literal.mk start body).split, List.mem_cons, List.mem_append] at own
      rcases own with quote | content | closer
      · exact absurd quote other
      · exact congrArg Token.text (mem_contentTokens content)
      · split at closer
        · exact absurd (List.mem_singleton.mp closer) other
        · cases closer
    · obtain ⟨literal, among, same⟩ := ih token later made
      exact ⟨literal, List.mem_cons_of_mem _ among, same⟩

end Token

private theorem Placed.stop_eq (place : Placed) : place.stop = place.start + place.text.utf8ByteSize := by
  rw [stop, text, Tree.text, Token.length_join, Tree.length_eq_total_leaves]

/-- The content of a literal is behind its opening quote. -/
private theorem Token.Literal.content?_place (literal : Token.Literal) : literal.place.content? =
    if literal.content = [] then none
    else some ⟨literal.start + 1, .leaf ⟨.stringContent, String.ofList literal.content⟩⟩ := by
  rw [place, literal.split]
  cases literal.content with
  | nil => split <;> rfl
  | cons c rest => rfl

variable {limit : Nat} {source : String} {site : Site} {literal : Token.Literal}

private theorem Token.Literal.content_behind {content : Placed} (found : literal.place.content? = some content) :
    literal.place.start < content.start ∧ content.text = String.ofList literal.content := by
  rw [content?_place] at found
  split at found
  · cases found
  · obtain rfl := Option.some.inj found
    exact ⟨Nat.lt_succ_self _, leaf_text ..⟩

private theorem Token.Literal.resolved {text : String} (among : literal ∈ Token.literals source)
    (same : text = String.ofList literal.content) : Text.unescape text = text ↔ '\\' ∉ text.toList := by
  have parts := unescapeChars_parts (content_parts ((lexes_ofText source).known literal among))
  rw [same, Text.unescape, String.toList_ofList, String.ofList_inj, parts]

/-- Every string of a tree is a literal of the text. -/
private theorem string_literal (member : site ∈ (parse limit source).tree.nodeSites) (string : site.place.isNode .string = true) :
    ∃ literal ∈ Token.literals source, site.place = literal.place := by
  obtain ⟨paired, lost, pairs⟩ := parse_literals limit source
  have among : site.place ∈ ((parse limit source).tree.nodeSites.filter (·.place.isNode .string)).map Site.place :=
    List.mem_map_of_mem (List.mem_filter.mpr ⟨member, string⟩)
  rw [stringsOf_tree, pairs.strings] at among
  obtain ⟨literal, own, same⟩ := List.mem_map.mp among
  exact ⟨literal, pairs.split ▸ List.mem_append_left _ own, same.symm⟩

end Syntax

namespace Lint
open Text (Span)

variable {limit : Nat} {source : String} {string content : Placed} {above : List Placed} {span : Span}

private theorem spanInString_whole (value : String) (span : Span) (other : ∀ content ∈ string.content?, content.text ≠ value) :
    spanInString string value span = string.span := by
  rcases spanInString_cases string value span with whole | ⟨content, found, same, _⟩
  · exact whole
  · exact absurd same (other content found)

private theorem spanInString_content (found : string.content? = some content) (fits : span.Fits content.text) :
    spanInString string content.text span = ⟨content.start + span.start, content.start + span.stop⟩ := by
  have within : ¬ content.stop < content.start + span.stop := by
    have bound := fits.within
    rw [content.stop_eq]
    omega
  simp [spanInString, found, within]

/-- A range that stands for a span of what a string resolves to: the whole string just if there is an escape or nothing
in it, and else a range between its quotes where the text reads as what it resolves to does at the span. -/
structure StandsFor (source : String) (string : Placed) (span range : Span) : Prop where
  whole : range = string.span ↔ string.content? = none ∨ ∃ content ∈ string.content?, '\\' ∈ content.text.toList
  inside : range ≠ string.span → ∃ content ∈ string.content?, content.start ≤ range.start ∧ range.stop ≤ content.stop
  reads : range ≠ string.span → range.Fits source ∧
    String.Pos.Raw.extract source ⟨range.start⟩ ⟨range.stop⟩ =
      String.Pos.Raw.extract string.stringValue ⟨span.start⟩ ⟨span.stop⟩

private theorem StandsFor.of_whole {range : Span} (whole : range = string.span)
    (escaped : string.content? = none ∨ ∃ content ∈ string.content?, '\\' ∈ content.text.toList) :
    StandsFor source string span range :=
  ⟨iff_of_true whole escaped, fun other => absurd whole other, fun other => absurd whole other⟩

/-- Without an escape the string resolves to what stands between its quotes. -/
private theorem StandsFor.of_content (lineage : Lineage ⟨0, (parse limit source).tree⟩ (string :: above))
    (found : string.content? = some content) (later : string.start < content.start) (plain : '\\' ∉ content.text.toList)
    (value : string.stringValue = content.text) (fits : span.Fits content.text) :
    StandsFor source string span (spanInString string content.text span) := by
  obtain ⟨part, reads⟩ := fits.reads
  have marked := Lineage.reads (.child lineage (Completion.firstToken?_child found).1) reads
  rw [spanInString_content found fits]
  refine ⟨iff_of_false (fun whole => ?_) ?_, fun _ => ⟨content, found, Nat.le_add_right .., ?_⟩, fun _ => ⟨marked.fits, ?_⟩⟩
  · have begins : content.start + span.start = string.start := congrArg Span.start whole
    omega
  · rintro (none | ⟨inner, own, escape⟩)
    · cases found.symm.trans none
    · exact plain (Option.some.inj (own.symm.trans found) ▸ escape)
  · rw [content.stop_eq]
    exact Nat.add_le_add_left fits.within _
  · rw [value, marked.extract, reads.extract]

private theorem spanInString_stands {site : Site} (listed : site ∈ (parse limit source).tree.nodeSites)
    (made : site.place.isNode .string = true) (fits : span.Fits site.place.stringValue) :
    StandsFor source site.place span (spanInString site.place site.place.stringValue span) := by
  obtain ⟨literal, among, place⟩ := string_literal listed made
  cases found : site.place.content? with
  | none => exact .of_whole (spanInString_whole _ _ (by simp [found])) (.inl found)
  | some content =>
    obtain ⟨later, text⟩ := Token.Literal.content_behind (place ▸ found)
    have resolved := Token.Literal.resolved among text
    have value : site.place.stringValue = Text.unescape content.text := by simp [Placed.stringValue, found]
    by_cases escape : '\\' ∈ content.text.toList
    · have other : content.text ≠ site.place.stringValue := fun same => resolved.mp (value ▸ same.symm) escape
      exact .of_whole (spanInString_whole _ _ (by simpa [found] using other)) (.inr ⟨content, found, escape⟩)
    · have lineage := (Tree.mem_sites_iff _).mp (List.mem_filter.mp listed).1
      have same := value.trans (resolved.mpr escape)
      rw [same] at fits ⊢
      exact .of_content lineage found (place ▸ later) escape same fits

/-- What is in a string resolves to itself just if there is no escape in it. So each range that stands for a span of what it
resolves to is right, whatever the span, and with it the range of every report on a regular expression. -/
theorem pattern_marked (finder : Regex.Finder) (bounded : finder.Bounded) (limit : Nat) (source : String) :
    (∀ token ∈ Token.ofText source, token.kind = .stringContent →
      (Text.unescape token.text = token.text ↔ '\\' ∉ token.text.toList)) ∧
    (∀ site ∈ (parse limit source).tree.nodeSites, site.place.isNode .string = true →
      ∀ span : Span, span.Fits site.place.stringValue →
        StandsFor source site.place span (spanInString site.place site.place.stringValue span)) ∧
    ∀ site ∈ (parse limit source).tree.nodeSites, ∀ report ∈ checkRegex finder site.place,
      ∃ inner ∈ (parse limit source).tree.nodeSites, site.place ∈ inner.above ∧ inner.place.isNode .string = true ∧
        ∃ fault, finder inner.place.stringValue = some fault ∧ StandsFor source inner.place fault.span report.span := by
  refine ⟨fun token member made => ?_, fun site listed made span fits => spanInString_stands listed made fits,
    fun site listed report reported => ?_⟩
  · obtain ⟨literal, among, same⟩ := (Token.lexes_ofText source).contents token member made
    exact Token.Literal.resolved among same
  · have lineage := (Tree.mem_sites_iff _).mp (List.mem_filter.mp listed).1
    obtain ⟨string, parameters, fault, within, made, outcome, rfl⟩ := mem_checkRegex lineage reported
    have inner : ⟨string, parameters :: site.place :: site.above⟩ ∈ (parse limit source).tree.nodeSites :=
      List.mem_filter.mpr ⟨within.mem_sites, by simp [Site.isToken, made]⟩
    refine ⟨_, inner, by simp, decide_eq_true made, fault, outcome, ?_⟩
    exact spanInString_stands inner (decide_eq_true made) (bounded outcome)

/-- In the pattern `é(` the group is not closed. -/
theorem open_group_marked :
    ∃ site ∈ (parse 8 "(#match? @a \"é(\")").tree.nodeSites, ∃ report ∈ checkRegex Regex.fault? site.place,
      report.span = ⟨15, 16⟩ ∧ ∃ inner ∈ (parse 8 "(#match? @a \"é(\")").tree.nodeSites, inner.place.isNode .string = true ∧
        ∃ fault, Regex.fault? inner.place.stringValue = some fault ∧
          StandsFor "(#match? @a \"é(\")" inner.place fault.span ⟨15, 16⟩ := by
  obtain ⟨site, listed, report, told, range⟩ : ∃ site ∈ (parse 8 "(#match? @a \"é(\")").tree.nodeSites,
      ∃ report ∈ checkRegex Regex.fault? site.place, report.span = ⟨15, 16⟩ := by
    decide +kernel
  obtain ⟨inner, among, _, made, fault, found, stands⟩ :=
    (pattern_marked _ Regex.fault?_bounded 8 _).2.2 site listed report told
  exact ⟨site, listed, report, told, range, inner, among, made, fault, found, range ▸ stands⟩

end Lint

end TreeQuery
