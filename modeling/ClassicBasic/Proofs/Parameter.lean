import ClassicBasic.Parameter
import ClassicBasic.Proofs.Phrase
import ClassicBasic.Proofs.Text.TopLevel

namespace ClassicBasic

/-!
# The quotes of a parameter list

Of all that a parameter is made of only its default value has quotes.  So the
quotes of a list of parameters can be counted on what is read from it.
-/

namespace Text

/-- The number of quotes in a text. -/
def quotes (text : Text) : Nat :=
  text.count stringDelimiter

/-- A concatenation begins with its first part. -/
theorem concat_cons
    (part : Text)
    (parts : List Text) :
    concat (part :: parts) = part ++ concat parts :=
  List.flatten_cons

/-- The quotes of two texts are those of the one and those of the other. -/
@[simp] theorem quotes_append
    (front rest : Text) :
    (front ++ rest).quotes = front.quotes + rest.quotes :=
  List.count_append

/-- No blank is a quote, so trimming takes none away. -/
@[simp] theorem quotes_trim
    (text : Text) :
    (trim text).quotes = text.quotes :=
  count_trim (by decide) text

/-- No blank is a quote, so trimming in front takes none away. -/
@[simp] theorem quotes_trimStart
    (text : Text) :
    (trimStart text).quotes = text.quotes :=
  count_trimStart (by decide) text

/-- The quotes of a text stand behind the blanks it begins with. -/
theorem quotes_of_afterBlanks?
    {text rest : Text}
    (read : afterBlanks? text = some rest) :
    rest.quotes = text.quotes :=
  count_of_afterBlanks? (by decide) read

/-- A text without the quote character has no quotes. -/
theorem quotes_eq_zero
    {text : Text}
    (bare : ∀ c ∈ text, c ≠ stringDelimiter) :
    text.quotes = 0 :=
  List.count_eq_zero_of_not_mem fun member => bare _ member rfl

/-- The quotes of a text stand behind a word without quotes. -/
theorem quotes_of_after?
    {word text rest : Text}
    (bare : word.quotes = 0)
    (read : after? word text = some rest) :
    rest.quotes = text.quotes := by
  rw [after?_eq_some_iff.mp read, quotes_append, bare, Nat.zero_add]

end Text

namespace Phrase

/-- The quotes of a text stand behind a keyword if no keyword has any. -/
theorem quotes_of_keyword?
    {recognise : Text → Option α}
    {text rest : Text}
    {found : α}
    (bare : ∀ word value, recognise word = some value → word.quotes = 0)
    (read : keyword? recognise text = some (found, rest)) :
    rest.quotes = text.quotes := by
  have known := bare _ _ (leadingWord_of_keyword? read)
  obtain ⟨⟨word, behind⟩, leads, recognised⟩ := Option.bind_eq_some_iff.mp read
  obtain ⟨blanks, isBehind, same⟩ := Option.map_eq_some_iff.mp leads
  cases same
  obtain ⟨value, -, same⟩ := Option.bind_eq_some_iff.mp recognised
  cases same
  have whole : Text.leadingWord text ++ Text.afterLeadingWord text = text :=
    List.takeWhile_append_dropWhile
  rw [Text.quotes_of_afterBlanks? isBehind, ← whole, Text.quotes_append, known,
    Nat.zero_add, whole]

/-- An optional keyword without quotes leaves all quotes to the phrase behind. -/
theorem quotes_of_optionally
    {recognise : Text → Option α}
    {text written : Text}
    {readOn : Option α → Text → Option β}
    {value : β}
    (bare : ∀ word found, recognise word = some found → word.quotes = 0)
    (readsOn :
      ∀ found rest, readOn found rest = some value → written.quotes = rest.quotes)
    (read : optionally recognise text readOn = some value) :
    written.quotes = text.quotes := by
  rcases optionally_eq_some read with ⟨found, rest, keyword, behind⟩ | unled
  · exact (readsOn _ _ behind).trans (quotes_of_keyword? bare keyword)
  · exact readsOn _ _ unled

/-- A keyword without quotes is recognised only in a word without quotes. -/
theorem quotes_of_word?
    {expected : Text}
    (bare : expected.quotes = 0)
    (word : Text)
    (found : Unit)
    (recognised : word? expected word = some found) :
    word.quotes = 0 := by
  unfold word? at recognised
  split at recognised
  · next same =>
      rw [same, bare]
  · cases recognised

/-- The quotes of a text stand behind the name it begins with. -/
theorem quotes_of_nameFrom?
    {start : Char → Bool}
    {text name rest : Text}
    (bare : start Text.stringDelimiter = false)
    (read : nameFrom? start text = some (name, rest)) :
    rest.quotes = text.quotes := by
  obtain ⟨rfl, isName, -⟩ := nameFrom?_eq_some_iff.mp read
  have noQuotes : name.quotes = 0 := by
    refine Text.quotes_eq_zero fun c member => ?_
    rintro rfl
    cases name with
    | nil =>
        exact isName
    | cons first behind =>
        rcases List.mem_cons.mp member with rfl | inRest
        · exact absurd isName.1 (by simp [bare])
        · exact absurd (isName.2 _ inRest) (by decide)
  rw [Text.quotes_append, noQuotes, Nat.zero_add]

/-- The quotes of a text stand behind the name it begins with and the suffix of its
type. -/
theorem quotes_of_suffixedName?
    {text name rest : Text}
    (read : suffixedName? text = some (name, rest)) :
    rest.quotes = text.quotes := by
  obtain ⟨⟨first, behind⟩, named, suffixed⟩ := Option.bind_eq_some_iff.mp read
  have others := quotes_of_nameFrom? (by decide) named
  cases behind with
  | nil =>
      cases suffixed
      exact others
  | cons suffix behind =>
      dsimp only at suffixed
      split at suffixed
      · next isSuffix =>
          cases suffixed
          have noQuote : suffix ≠ Text.stringDelimiter := by
            rintro rfl
            exact absurd isSuffix (by decide)
          rw [← others]
          exact (List.count_cons_of_ne noQuote).symm
      · cases suffixed
        exact others

/-- The quotes of a text stand behind the name of a type. -/
theorem quotes_of_typeName?
    {text typeName rest : Text}
    (read : typeName? text = some (typeName, rest)) :
    rest.quotes = text.quotes := by
  obtain ⟨⟨first, behind⟩, named, qualified⟩ := Option.bind_eq_some_iff.mp read
  have others := quotes_of_nameFrom? (by decide) named
  dsimp only at qualified
  split at qualified
  · next second last twice =>
      cases qualified
      obtain ⟨dotted, dot, named⟩ := Option.bind_eq_some_iff.mp twice
      rw [quotes_of_nameFrom? (by decide) named, Text.quotes_of_after? (by decide) dot,
        others]
  · cases qualified
    exact others

/-- The quotes of a text stand behind the keyword of a type. -/
theorem quotes_of_afterAs?
    {text rest : Text}
    (read : afterAs? text = some rest) :
    rest.quotes = text.quotes := by
  obtain ⟨blanks, first, read⟩ := Option.bind_eq_some_iff.mp read
  obtain ⟨behind, word, last⟩ := Option.bind_eq_some_iff.mp read
  rw [Text.quotes_of_afterBlanks? last, Text.quotes_of_after? (by decide) word,
    Text.quotes_of_afterBlanks? first]

/-- A final value has all quotes of the text that it stands in. -/
theorem quotes_of_finalValue?
    {text : Text}
    {value : Option Text}
    (read : finalValue? text = some value) :
    (value.getD []).quotes = text.quotes := by
  unfold finalValue? at read
  split at read
  · next nothing =>
      cases read
      rw [List.isEmpty_iff.mp nothing, Option.getD_none]
  · obtain ⟨rest, equals, read⟩ := Option.bind_eq_some_iff.mp read
    have others := Text.quotes_of_after? (by decide) equals
    rw [Text.quotes_trimStart] at others
    rw [← others, ← Text.quotes_trim rest]
    split at read
    · cases read
    · split at read
      · cases read
      · cases read
        rfl

end Phrase

namespace Parameter

/-- The quotes of a text stand behind the parentheses of an array. -/
theorem quotes_bounds
    (text : Text) :
    (bounds text).2.quotes = text.quotes := by
  unfold bounds
  split
  · next rest read =>
      rw [Text.quotes_of_after? (by decide) read, Text.quotes_trimStart]
  · rfl

/-- The quotes of a text stand behind the type of a parameter. -/
theorem quotes_typeClause
    (text : Text) :
    (typeClause text).2.quotes = text.quotes := by
  unfold typeClause
  split
  · next typeName rest read =>
      obtain ⟨behind, isAs, named⟩ := Option.bind_eq_some_iff.mp read
      rw [Phrase.quotes_of_typeName? named, Phrase.quotes_of_afterAs? isAs]
  · rfl

/-- From a name on a parameter has only the quotes of its default value. -/
theorem quotes_of_readNamed?
    {isOptional isParamArray : Bool}
    {passing : PassingMode}
    {text : Text}
    {parameter : Parameter}
    (read : readNamed? isOptional passing isParamArray text = some parameter) :
    (parameter.defaultValue.getD []).quotes = text.quotes := by
  obtain ⟨⟨name, behind⟩, named, read⟩ := Option.bind_eq_some_iff.mp read
  obtain ⟨value, final, same⟩ := Option.bind_eq_some_iff.mp read
  cases same
  have others : (value.getD []).quotes = (typeClause (bounds behind).2).2.quotes :=
    Phrase.quotes_of_finalValue? final
  rw [others, quotes_typeClause, quotes_bounds, Phrase.quotes_of_suffixedName? named]

/-- No keyword for how a parameter is passed has quotes. -/
theorem quotes_of_passing?
    (word : Text)
    (found : PassingMode)
    (recognised : passing? word = some found) :
    word.quotes = 0 := by
  unfold passing? at recognised
  split at recognised
  · next same =>
      rw [same]
      decide
  · split at recognised
    · next same =>
        rw [same]
        decide
    · cases recognised

/-- All quotes of a parameter stand in its default value. -/
theorem quotes_of_read?
    {text : Text}
    {parameter : Parameter}
    (read : read? text = some parameter) :
    (parameter.defaultValue.getD []).quotes = text.quotes :=
  Phrase.quotes_of_optionally (Phrase.quotes_of_word? (by decide))
    (fun _ _ passed =>
      Phrase.quotes_of_optionally quotes_of_passing?
        (fun _ _ array =>
          Phrase.quotes_of_optionally (Phrase.quotes_of_word? (by decide))
            (fun _ _ named => quotes_of_readNamed? named) array)
        passed)
    read

/-! ## Lists -/

/-- The segments that parts of a list give. -/
def segmentsOf (parts : List Text) : List Text :=
  (parts.map Text.trim).filter fun segment => !segment.isEmpty

/-- A blank part gives no segment, and every other part gives one. -/
theorem segmentsOf_cons
    (part : Text)
    (parts : List Text) :
    segmentsOf (part :: parts) =
      if Text.trim part = [] then segmentsOf parts
      else Text.trim part :: segmentsOf parts := by
  by_cases blank : Text.trim part = [] <;>
    simp [segmentsOf, blank]

/-- Parts that grow give no fewer segments. -/
theorem length_segmentsOf_le
    {parts longer : List Text}
    (grows : Text.GrowsTo parts longer) :
    (segmentsOf parts).length ≤ (segmentsOf longer).length := by
  induction grows with
  | last part next more =>
      rw [segmentsOf_cons, segmentsOf_cons]
      by_cases blank : Text.trim part = []
      · simp [blank, segmentsOf]
      · have isVisible : Text.trim (part ++ next) ≠ [] := by
          intro nothing
          refine blank (Text.trim_eq_nil_iff.mpr fun c member => ?_)
          exact Text.trim_eq_nil_iff.mp nothing c (List.mem_append_left next member)
        simp [blank, isVisible, segmentsOf]
  | behind part grows inductionHypothesis =>
      rw [segmentsOf_cons, segmentsOf_cons]
      by_cases blank : Text.trim part = []
      · simpa [blank] using inductionHypothesis
      · simpa [blank] using inductionHypothesis

/-- A list that goes on has no fewer segments. -/
theorem length_segments_le
    (front rest : Text) :
    (segments front).length ≤ (segments (front ++ rest)).length :=
  length_segmentsOf_le (Text.growsTo_splitTopLevel ',' front rest)

/-- The quotes of the parts are in their segments. -/
theorem quotes_concat_segmentsOf
    (parts : List Text) :
    (Text.concat (segmentsOf parts)).quotes = (Text.concat parts).quotes := by
  induction parts with
  | nil =>
      rfl
  | cons part parts inductionHypothesis =>
      rw [segmentsOf_cons, Text.concat_cons, Text.quotes_append, ← Text.quotes_trim part]
      by_cases blank : Text.trim part = []
      · rw [if_pos blank, inductionHypothesis, blank]
        exact (Nat.zero_add _).symm
      · rw [if_neg blank, Text.concat_cons, Text.quotes_append, inductionHypothesis]

/-- No quote of a list stands between its segments. -/
theorem quotes_concat_segments
    (text : Text) :
    (Text.concat (segments text)).quotes = text.quotes :=
  (quotes_concat_segmentsOf _).trans (Text.count_concat_splitTopLevel (by decide) text)

/-- Nothing is skipped exactly if every segment is read as a parameter. -/
theorem skipped_eq_nil_iff
    {text : Text} :
    skipped text = [] ↔ ∀ segment ∈ segments text, (read? segment).isSome = true := by
  rw [skipped, List.filter_eq_nil_iff]
  simp only [Option.isNone_iff_eq_none, Option.isSome_iff_ne_none]

/-- Every segment is a parameter exactly if there are as many of both. -/
theorem length_readAll_eq_iff
    {text : Text} :
    (readAll text).length = (segments text).length ↔ skipped text = [] := by
  rw [readAll, List.filterMap_length_eq_length, skipped_eq_nil_iff]

/-- The default value of a parameter's node, which is empty where none is written. -/
def writtenDefault (node : Node) : Text :=
  match node.payload with
  | .parameter _ _ _ value => value.getD []
  | _ => []

/-- The quotes of parts that are all read as parameters are in their default
values. -/
theorem quotes_concat_filterMap
    {parts : List Text}
    (areParameters : ∀ part ∈ parts, (read? part).isSome = true)
    (line : Nat) :
    (Text.concat
        (((parts.filterMap read?).map fun parameter => parameter.node line).map
          writtenDefault)).quotes =
      (Text.concat parts).quotes := by
  induction parts with
  | nil =>
      rfl
  | cons part others inductionHypothesis =>
      obtain ⟨here, behind⟩ := List.forall_mem_cons.mp areParameters
      obtain ⟨parameter, read⟩ := Option.isSome_iff_exists.mp here
      have quotes : (writtenDefault (parameter.node line)).quotes = part.quotes :=
        quotes_of_read? read
      rw [List.filterMap_cons_some read, List.map_cons, List.map_cons, Text.concat_cons,
        Text.concat_cons, Text.quotes_append, Text.quotes_append,
        inductionHypothesis behind, quotes]

/-- If no segment of a list is skipped, all its quotes stand in default values. -/
theorem quotes_concat_nodes
    {text : Text}
    (whole : skipped text = [])
    (line : Nat) :
    (Text.concat ((nodes text line).map writtenDefault)).quotes = text.quotes := by
  rw [← quotes_concat_segments text]
  exact quotes_concat_filterMap (skipped_eq_nil_iff.mp whole) line

/-- If no segment of a list is skipped and a front of it has the same parameters,
then the front has all its quotes. -/
theorem quotes_eq_zero_of_nodes_eq
    {front rest : Text}
    {line : Nat}
    (whole : skipped (front ++ rest) = [])
    (same : nodes front line = nodes (front ++ rest) line) :
    rest.quotes = 0 := by
  have count : (readAll front).length = (readAll (front ++ rest)).length := by
    simpa [nodes] using congrArg List.length same
  have inFront : skipped front = [] := by
    rw [← length_readAll_eq_iff]
    refine Nat.le_antisymm (List.length_filterMap_le _ _) ?_
    rw [count, length_readAll_eq_iff.mpr whole]
    exact length_segments_le front rest
  have quotes := quotes_concat_nodes inFront line
  rw [same, quotes_concat_nodes whole, Text.quotes_append] at quotes
  omega

end Parameter

end ClassicBasic
