import ClassicBasic.Line.Instruction
import ClassicBasic.Proofs.Line.Comment

namespace ClassicBasic

/-!
# Instructions in front of a comment

Splitting a line into instructions and cutting it at its comment are two scans
of one text.  They find the same comment, and the instructions in front of it
are those of the code alone.  Only the last of them can differ: a colon at the
end of the code ends a label there, and does not where a comment follows it.
-/

/-! ## The older form of comments -/

/-- A text starts with a word if no character of an identifier follows the word. -/
theorem Text.startsWithWord_iff
    {word text : Text} :
    Text.startsWithWord word text = true ↔
      ∃ rest, text = word ++ rest ∧ rest.head?.any Text.isIdentifierChar = false := by
  unfold Text.startsWithWord
  cases opens : Text.after? word text with
  | none =>
      simp only [Bool.false_eq_true, false_iff, not_exists, not_and]
      intro rest shape
      rw [Text.after?_eq_some_iff.mpr shape] at opens
      cases opens
  | some rest =>
      rw [Text.after?_eq_some_iff] at opens
      simp [opens]

namespace Line

/-- A comment in the older form starts with its keyword as a word, blanks aside. -/
theorem startsWithRem_iff
    {text : Text} :
    startsWithRem text = true ↔
      ∃ rest,
        Text.trimStart text = remKeyword ++ rest ∧
          rest.head?.any Text.isIdentifierChar = false :=
  Text.startsWithWord_iff

/-- A trimmed comment in the older form is still one. -/
theorem startsWithRem_trim
    {text : Text}
    (isRem : startsWithRem text = true) :
    startsWithRem (Text.trim text) = true := by
  obtain ⟨rest, opens, ends⟩ := startsWithRem_iff.mp isRem
  have trimmed : Text.trim text = remKeyword ++ Text.trimEnd rest := by
    have spelled : remKeyword = ['R', 'e', 'm'] := by
      decide
    rw [Text.trim, opens, spelled]
    simp only [List.cons_append, List.nil_append]
    rw [Text.trimEnd_cons (by decide), Text.trimEnd_cons (by decide),
      Text.trimEnd_cons (by decide)]
  refine startsWithRem_iff.mpr ⟨Text.trimEnd rest, ?_, ?_⟩
  · rw [trimmed]
    exact Text.trimStart_cons_visible (by decide) _
  · cases first : (Text.trimEnd rest).head? with
    | none =>
        rfl
    | some c =>
        rwa [Text.head?_trimEnd first] at ends

/-- A visible character that ends words, such as a comment marker, leaves it to the text
in front of it whether the whole starts with the older comment keyword. -/
theorem startsWithRem_append_cons
    {c : Char}
    (isVisible : Text.isBlank c = false)
    (endsWords : Text.isIdentifierChar c = false)
    (code rest : Text) :
    startsWithRem (code ++ c :: rest) = startsWithRem code := by
  rw [Bool.eq_iff_iff, startsWithRem_iff, startsWithRem_iff,
    Text.trimStart_append_cons isVisible]
  constructor
  · rintro ⟨behind, opens, ends⟩
    -- The keyword ends in the code, or it would have to contain the character behind.
    rcases List.append_eq_append_iff.mp opens with
      ⟨inside, isKeyword, shape⟩ | ⟨later, isCode, shape⟩
    · cases inside with
      | nil =>
          exact ⟨[], by simpa using isKeyword.symm, rfl⟩
      | cons other inside =>
          obtain ⟨rfl, -⟩ := List.cons.inj shape
          have inKeyword : c ∈ remKeyword := by
            simp [isKeyword]
          have continues : remKeyword.all Text.isIdentifierChar = true := by
            decide
          rw [List.all_eq_true.mp continues c inKeyword] at endsWords
          cases endsWords
    · refine ⟨later, isCode, ?_⟩
      cases later with
      | nil =>
          rfl
      | cons other later =>
          rwa [shape] at ends
  · rintro ⟨behind, opens, ends⟩
    refine ⟨behind ++ c :: rest, by rw [opens, List.append_assoc], ?_⟩
    cases behind with
    | nil =>
        exact endsWords
    | cons other behind =>
        exact ends

end Line

/-! ## Pieces -/

namespace Instruction

open Line

variable
  {first : Bool}
  {offset : Nat}

/-- A segment gives the instruction that stands in it without the blanks around,
unless it is blank. -/
theorem mem_piece_iff
    {segment : Text}
    {instruction : Instruction} :
    instruction ∈ piece offset segment ↔
      Text.trim segment ≠ [] ∧
        instruction =
          ⟨offset + (segment.takeWhile Text.isBlank).length + 1,
            Text.trim segment⟩ := by
  unfold piece
  split
  · next nothing =>
      simp [nothing]
  · next isVisible =>
      simpa using fun _ => isVisible

/-- A segment that is not blank gives one instruction. -/
theorem piece_of_visible
    {segment : Text}
    (isVisible : Text.trim segment ≠ []) :
    piece offset segment =
      [⟨offset + (segment.takeWhile Text.isBlank).length + 1,
        Text.trim segment⟩] := by
  unfold piece
  split
  · next nothing =>
      exact (isVisible nothing).elim
  · rfl

/-- A blank segment gives no instruction. -/
theorem piece_of_blank
    {segment : Text}
    (blank : Text.trim segment = []) :
    piece offset segment = [] := by
  unfold piece
  rw [blank]

/-- Behind a separator the blanks in front of it are no longer at an end. -/
theorem trim_append_separator
    {segment : Text}
    (isVisible : Text.trim segment ≠ []) :
    Text.trim (segment ++ [separator]) = Text.trimStart segment ++ [separator] := by
  rw [Text.trim, Text.trimStart_append (Text.trimStart_ne_nil isVisible),
    Text.trimEnd_append_visible (by decide)]

/-- What stands in front of the colon of a label is visible. -/
theorem trim_ne_nil_of_isLabelHead
    {segment : Text}
    (isHead : isLabelHead segment = true) :
    Text.trim segment ≠ [] := by
  intro nothing
  simp [isLabelHead, nothing] at isHead

/-- Blanks in front do not matter to a label. -/
theorem isLabelHead_trimStart
    (segment : Text) :
    isLabelHead (Text.trimStart segment) = isLabelHead segment := by
  rw [isLabelHead, isLabelHead, Text.trim_trimStart]

/-- Whether the colon behind a segment stays with it. -/
def keepsSeparator (first : Bool) (segment rest : Text) : Bool :=
  isLabelHead segment && (first || (Text.trim rest).isEmpty)

/-- The instruction in front of a colon. -/
def led (first : Bool) (offset : Nat) (segment rest : Text) : List Instruction :=
  piece offset
    (if keepsSeparator first segment rest then segment ++ [separator] else segment)

/-- A comment in the older form is one instruction, whatever stands in it. -/
theorem splitFrom_of_rem
    {text : Text}
    (isRem : startsWithRem text = true) :
    splitFrom first offset text = piece offset text := by
  rw [splitFrom, if_pos isRem]

section Steps

variable
  {text segment : Text}
  (notRem : startsWithRem text = false)
include notRem

/-- Without a marker all that is left is one instruction. -/
theorem splitFrom_of_last
    (span : spanCode endsInstruction text = (segment, [])) :
    splitFrom first offset text = piece offset segment := by
  rw [splitFrom, if_neg (by simp [notRem])]
  split
  · next cut _ =>
      rw [span] at cut
      cases cut
      rfl
  · next cut _ =>
      rw [span] at cut
      cases cut

/-- A comment is the last instruction, behind the one that it ends. -/
theorem splitFrom_of_comment
    {rest : Text}
    (span : spanCode endsInstruction text = (segment, commentMarker :: rest)) :
    splitFrom first offset text =
      piece offset segment ++
        piece (offset + segment.length) (commentMarker :: rest) := by
  rw [splitFrom, if_neg (by simp [notRem])]
  split
  · next cut _ =>
      rw [span] at cut
      cases cut
  · next cut _ =>
      rw [span] at cut
      cases cut
      rfl

/-- Behind a separator the line is split as before, and it stays at its first
instruction as long as none has been found. -/
theorem splitFrom_of_separator
    {rest : Text}
    (span : spanCode endsInstruction text = (segment, separator :: rest)) :
    splitFrom first offset text =
      led first offset segment rest ++
        splitFrom (first && (led first offset segment rest).isEmpty)
          (offset + segment.length + 1) rest := by
  rw [splitFrom, if_neg (by simp [notRem])]
  split
  · next cut _ =>
      rw [span] at cut
      cases cut
  · next cut _ =>
      rw [span] at cut
      cases cut
      rfl

end Steps

/-- An instruction is ended by a comment or by a separator. -/
theorem endsInstruction_iff
    {c : Char} :
    endsInstruction c = true ↔ c = commentMarker ∨ c = separator := by
  simp [endsInstruction]

/-- Splitting goes from separator to separator.  What holds of a text that is split no
further, and of one behind whose first separator it holds, holds of all texts. -/
theorem separator_induction
    {motive : Bool → Nat → Text → Prop}
    (oldComment :
      ∀ {first : Bool} {offset : Nat} {text : Text},
        startsWithRem text = true →
        motive first offset text)
    (last :
      ∀ {first : Bool} {offset : Nat} {text segment : Text},
        startsWithRem text = false →
        spanCode endsInstruction text = (segment, []) →
        motive first offset text)
    (comment :
      ∀ {first : Bool} {offset : Nat} {text segment rest : Text},
        startsWithRem text = false →
        spanCode endsInstruction text = (segment, commentMarker :: rest) →
        motive first offset text)
    (separated :
      ∀ {first : Bool} {offset : Nat} {text segment rest : Text},
        startsWithRem text = false →
        spanCode endsInstruction text = (segment, separator :: rest) →
        motive (first && (led first offset segment rest).isEmpty)
          (offset + segment.length + 1) rest →
        motive first offset text)
    (first : Bool)
    (offset : Nat)
    (text : Text) :
    motive first offset text := by
  induction first, offset, text using splitFrom.induct with
  | case1 first offset text isRem =>
      exact oldComment isRem
  | case2 first offset text notRem segment _ span =>
      exact last (by simpa using notRem) span
  | case3 first offset text notRem segment rest _ _ _ _ span _ inductionHypothesis =>
      exact separated (by simpa using notRem) span inductionHypothesis
  | case4 first offset text notRem segment marker rest _ span _ isOther =>
      have isMarker := (endsInstruction_iff.mp (marker_of_found span)).resolve_right isOther
      rw [isMarker] at span
      exact comment (by simpa using notRem) span

/-- What stands in front of a marker opens with `Rem` only where the text does. -/
theorem notRem_of_found
    {marker : Char → Bool}
    {c : Char}
    {text front rest : Text}
    (isVisible : Text.isBlank c = false)
    (endsWords : Text.isIdentifierChar c = false)
    (found : spanCode marker text = (front, c :: rest))
    (notRem : startsWithRem text = false) :
    startsWithRem front = false := by
  rwa [← append_of_spanFrom found, startsWithRem_append_cons isVisible endsWords] at notRem

/-! ## Cuts of a line at its comment -/

/-- Whatever ends an instruction, a comment marker among it. -/
theorem endsInstruction_of_isCommentMarker
    {c : Char}
    (marks : isCommentMarker c = true) :
    endsInstruction c = true := by
  simp only [isCommentMarker, decide_eq_true_eq] at marks
  simp [endsInstruction, marks]

/-- A scan for a comment goes on behind a separator that ends an instruction. -/
theorem spanComment_of_separator
    {text segment rest : Text}
    (span : spanCode endsInstruction text = (segment, separator :: rest)) :
    spanCode isCommentMarker text =
      (segment ++ separator :: (spanCode isCommentMarker rest).1,
        (spanCode isCommentMarker rest).2) := by
  have notComment : isCommentMarker separator = false := by
    decide
  have sameZone :
      Zone.code.next (segment.foldl visible none) separator rest = .code := by
    simp [Zone.next, separator, Text.stringDelimiter, dateDelimiter]
  have seen :
      visible (segment.foldl visible none) separator = some separator := by
    exact if_neg (by decide)
  have alike :
      (some separator).any dateOperators.contains =
        (none : Option Char).any dateOperators.contains := by
    decide
  unfold spanCode at span ⊢
  rw [spanFrom_of_coarser (fun _ => endsInstruction_of_isCommentMarker) span,
    spanFrom_cons_of_passes (by simp [notComment]), sameZone, seen,
    spanFrom_congr alike]

/-- A scan for a comment stops at a comment that ends an instruction. -/
theorem spanComment_of_comment
    {text segment rest : Text}
    (span : spanCode endsInstruction text = (segment, commentMarker :: rest)) :
    spanCode isCommentMarker text = (segment, commentMarker :: rest) := by
  unfold spanCode at span ⊢
  rw [spanFrom_of_coarser (fun _ => endsInstruction_of_isCommentMarker) span,
    spanFrom_cons_of_stops ⟨rfl, by decide⟩, List.append_nil]

/-- A scan for a comment finds none where nothing ends an instruction. -/
theorem spanComment_of_last
    {text segment : Text}
    (span : spanCode endsInstruction text = (segment, [])) :
    spanCode isCommentMarker text = (segment, []) := by
  unfold spanCode at span ⊢
  rw [spanFrom_of_coarser (fun _ => endsInstruction_of_isCommentMarker) span]
  simp [spanFrom]

/-- A cut in front of the comment leaves the separators of the code in place. -/
theorem spanCode_of_separator
    {text segment rest code comment : Text}
    (span : spanCode endsInstruction text = (segment, separator :: rest))
    (cut : spanCode isCommentMarker rest = (code, comment)) :
    spanCode endsInstruction (segment ++ separator :: code) =
      (segment, separator :: code) := by
  have restShape := append_of_spanFrom cut
  have textShape := append_of_spanFrom span
  unfold spanCode at span cut
  have shape : text = segment ++ separator :: code ++ comment := by
    simp [← textShape, ← restShape]
  have whole := spanComment_of_separator span
  unfold spanCode at whole ⊢
  rw [cut, shape] at whole
  rw [shape] at span
  have settled := settled_of_spanFrom whole
  rcases found : spanFrom endsInstruction .code none (segment ++ separator :: code)
    with ⟨front, behind⟩
  cases behind with
  | nil =>
      rw [spanFrom_append_of_not_found settled (by rw [found])] at span
      have tooLong := congrArg List.length (Prod.mk.inj span).1
      simp only [List.length_append, List.length_cons] at tooLong
      omega
  | cons c behind =>
      rw [spanFrom_append_of_found settled found] at span
      obtain ⟨rfl, sameBehind⟩ := Prod.mk.inj span
      rw [← restShape, ← List.cons_append] at sameBehind
      rw [List.append_cancel_right sameBehind]

/-- Nothing ends an instruction inside the instruction. -/
theorem spanCode_of_comment
    {text segment comment : Text}
    (span : spanCode endsInstruction text = (segment, comment)) :
    spanCode endsInstruction segment = (segment, []) := by
  rw [← append_of_spanFrom span] at span
  exact spanFrom_of_cut span

/-- The same instructions, except that the last may lack the colon of a label. -/
inductive LacksColon : List Instruction → List Instruction → Prop where
  | same (instructions : List Instruction) :
      LacksColon instructions instructions
  | label
      {before : List Instruction}
      {column : Nat}
      {head : Text}
      (isHead : isLabelHead head = true) :
      LacksColon (before ++ [⟨column, Text.trimEnd head⟩])
        (before ++ [⟨column, head ++ [separator]⟩])

/-- Instructions in front do not matter to whether the last lacks its colon. -/
theorem LacksColon.append
    {fewer more : List Instruction}
    (lacks : LacksColon fewer more)
    (before : List Instruction) :
    LacksColon (before ++ fewer) (before ++ more) := by
  cases lacks with
  | same =>
      exact .same _
  | label isHead =>
      simp only [← List.append_assoc]
      exact .label isHead

/-- Only an instruction can lack a colon. -/
theorem LacksColon.eq_nil
    {fewer : List Instruction}
    (lacks : LacksColon fewer []) :
    fewer = [] := by
  generalize isEmpty : ([] : List Instruction) = more at lacks
  cases lacks with
  | same =>
      rfl
  | label isHead =>
      simp at isEmpty

/-- A segment does not open with what ends an instruction. -/
theorem endsInstruction_opening?
    {text segment behind : Text}
    {c : Char}
    (span : spanCode endsInstruction text = (segment, behind))
    (opens : segment.opening? = some c) :
    endsInstruction c = false := by
  have opensCut :
      Text.opening? (spanFrom endsInstruction .code none text).1 = some c := by
    rw [← spanCode, span]
    exact opens
  exact marker_opening?_spanFrom opensCut

/-- An instruction that a marker ends does not open with a comment marker. -/
theorem not_comment_of_mem_piece
    {text segment behind : Text}
    {instruction : Instruction}
    (span : spanCode endsInstruction text = (segment, behind))
    (member : instruction ∈ piece offset segment) :
    instruction.text.head? ≠ some commentMarker := by
  obtain ⟨-, rfl⟩ := mem_piece_iff.mp member
  intro opens
  rw [Text.head?_trim] at opens
  exact absurd (endsInstruction_opening? span opens) (by decide)

/-- Nor does an instruction that a separator ends open with a comment marker,
whether it keeps the separator or not. -/
theorem not_comment_of_mem_led
    {text segment rest behind : Text}
    {instruction : Instruction}
    (span : spanCode endsInstruction text = (segment, behind))
    (member : instruction ∈ led first offset segment rest) :
    instruction.text.head? ≠ some commentMarker := by
  unfold led at member
  split at member
  · obtain ⟨-, rfl⟩ := mem_piece_iff.mp member
    intro opens
    rw [Text.head?_trim, Text.opening?, List.find?_append] at opens
    cases first : Text.opening? segment with
    | none =>
        rw [← Text.opening?, first] at opens
        revert opens
        decide
    | some c =>
        rw [← Text.opening?, first, Option.some_or, Option.some.injEq] at opens
        subst c
        exact absurd (endsInstruction_opening? span first) (by decide)
  · exact not_comment_of_mem_piece span member

/-- Blanks hold no instruction. -/
theorem splitFrom_of_blank
    {text : Text}
    (blank : Text.trim text = []) :
    splitFrom first offset text = [] := by
  have notRem : startsWithRem text = false := by
    cases isRem : startsWithRem text with
    | false =>
        rfl
    | true =>
        have trimmed := startsWithRem_trim isRem
        rw [blank] at trimmed
        revert trimmed
        decide
  rcases span : spanCode endsInstruction text with ⟨segment, behind⟩
  have whole := append_of_spanFrom span
  cases behind with
  | nil =>
      rw [splitFrom_of_last notRem span, piece_of_blank]
      rwa [← whole, List.append_nil] at blank
  | cons c behind =>
      have isBlank : Text.isBlank c = true :=
        Text.trim_eq_nil_iff.mp blank c (by simp [← whole])
      rcases endsInstruction_iff.mp (marker_of_found span) with rfl | rfl
      · exact absurd isBlank (by decide)
      · exact absurd isBlank (by decide)

/-- Where a comment follows, a colon at the end of the code is kept for the
first instruction only. -/
theorem led_eq_or_lacksColon
    (first : Bool)
    (offset : Nat)
    (segment code : Text)
    {rest : Text}
    (isVisible : Text.trim rest ≠ []) :
    led first offset segment rest = led first offset segment code ∨
      Text.trim code = [] ∧
        LacksColon (led first offset segment rest)
          (led first offset segment code) := by
  by_cases same : keepsSeparator first segment rest = keepsSeparator first segment code
  · left
    rw [led, led, same]
  · right
    have follows : (Text.trim rest).isEmpty = false := by
      simpa using isVisible
    simp only [keepsSeparator, follows, Bool.or_false] at same
    have isHead : isLabelHead segment = true := by
      cases head : isLabelHead segment <;> simp [head] at same ⊢
    have notFirst : first = false := by
      cases first <;> simp at same ⊢
    have blank : Text.trim code = [] := by
      simpa [isHead, notFirst] using same
    refine ⟨blank, ?_⟩
    have segmentVisible := trim_ne_nil_of_isLabelHead isHead
    have trimmed := trim_append_separator segmentVisible
    have sameHead : isLabelHead (Text.trimStart segment) = true := by
      rwa [isLabelHead_trimStart]
    have kept : led first offset segment code = piece offset (segment ++ [separator]) := by
      simp [led, keepsSeparator, isHead, blank]
    have dropped : led first offset segment rest = piece offset segment := by
      simp [led, keepsSeparator, notFirst, isVisible]
    rw [kept, dropped, piece_of_visible segmentVisible,
      piece_of_visible (by rw [trimmed]; simp), trimmed,
      Text.takeWhile_isBlank_append (Text.trimStart_ne_nil segmentVisible)]
    rw [← List.nil_append [_], ← List.nil_append [_]]
    exact .label sameHead

/-- A line in the older form of comments is an instruction in that form. -/
theorem notRem_of_splitFrom
    {text : Text}
    (noRem :
      ∀ instruction ∈ splitFrom first offset text,
        startsWithRem instruction.text = false) :
    startsWithRem text = false := by
  cases isRem : startsWithRem text with
  | false =>
      rfl
  | true =>
      have trimmed := startsWithRem_trim isRem
      have isVisible : Text.trim text ≠ [] := by
        intro nothing
        rw [nothing] at trimmed
        exact absurd trimmed (by decide)
      rw [splitFrom_of_rem isRem, piece_of_visible isVisible] at noRem
      exact absurd trimmed (by simpa using noRem)

/-- A comment is one instruction, from its marker on. -/
theorem piece_comment
    (offset : Nat)
    (comment : Text) :
    piece offset (commentMarker :: comment) =
      [⟨offset + 1, Text.trimEnd (commentMarker :: comment)⟩] := by
  have marked : Text.isBlank commentMarker = false := by
    decide
  have trimmed :
      Text.trim (commentMarker :: comment) =
        Text.trimEnd (commentMarker :: comment) := by
    rw [Text.trim, Text.trimStart_cons_visible marked]
  have isVisible : Text.trim (commentMarker :: comment) ≠ [] := by
    rw [trimmed, Text.trimEnd_cons marked]
    simp
  rw [piece_of_visible isVisible, trimmed]
  simp [marked]

/-- The last instruction of a line with a comment is the comment, and those in
front of it are the instructions of the code. -/
theorem splitFrom_of_spanComment
    {text code comment : Text}
    (noRem :
      ∀ instruction ∈ splitFrom first offset text,
        startsWithRem instruction.text = false)
    (span : spanCode isCommentMarker text = (code, commentMarker :: comment)) :
    ∃ front,
      splitFrom first offset text =
          front ++
            [⟨offset + code.length + 1,
              Text.trimEnd (commentMarker :: comment)⟩] ∧
        (∀ instruction ∈ front,
          instruction.text.head? ≠ some commentMarker) ∧
        LacksColon front (splitFrom first offset code) := by
  induction first, offset, text using separator_induction generalizing code with
  | oldComment isRem =>
      rw [notRem_of_splitFrom noRem] at isRem
      cases isRem
  | last _ ends =>
      rw [spanComment_of_last ends] at span
      cases span
  | @comment _ offset _ segment _ notRem ends =>
      rw [spanComment_of_comment ends] at span
      cases span
      have codeNotRem := notRem_of_found (by decide) (by decide) ends notRem
      refine ⟨piece offset segment, ?_, ?_, ?_⟩
      · rw [splitFrom_of_comment notRem ends, piece_comment]
      · exact fun instruction member => not_comment_of_mem_piece ends member
      · rw [splitFrom_of_last codeNotRem (spanCode_of_comment ends)]
        exact .same _
  | @separated first offset _ segment rest notRem ends inductionHypothesis =>
      have codeNotRem := notRem_of_found (by decide) (by decide) span notRem
      rcases cut : spanCode isCommentMarker rest with ⟨inner, behind⟩
      rw [spanComment_of_separator ends, cut] at span
      cases span
      have restVisible : Text.trim rest ≠ [] := by
        intro blank
        have isBlank : Text.isBlank commentMarker = true :=
          Text.trim_eq_nil_iff.mp blank _ (by simp [← append_of_spanFrom cut])
        exact absurd isBlank (by decide)
      rw [splitFrom_of_separator notRem ends] at noRem ⊢
      obtain ⟨front, splits, noComment, lacks⟩ :=
        inductionHypothesis
          (fun instruction member => noRem instruction (List.mem_append_right _ member)) cut
      refine ⟨led first offset segment rest ++ front, ?_, ?_, ?_⟩
      · have column :
            offset + segment.length + 1 + inner.length + 1 =
              offset + (segment ++ separator :: inner).length + 1 := by
          simp only [List.length_append, List.length_cons]
          omega
        rw [splits, column, List.append_assoc]
      · intro instruction member
        rcases List.mem_append.mp member with isLed | isFront
        · exact not_comment_of_mem_led ends isLed
        · exact noComment instruction isFront
      · rw [splitFrom_of_separator codeNotRem (spanCode_of_separator ends cut)]
        -- Without its comment the line may end behind the separator, where a label
        -- loses its colon.
        rcases led_eq_or_lacksColon first offset segment inner restVisible with
          same | ⟨blank, lacksHere⟩
        · rw [← same]
          exact lacks.append _
        · rw [splitFrom_of_blank blank] at lacks ⊢
          rw [lacks.eq_nil, List.append_nil, List.append_nil]
          exact lacksHere

/-- A line without a comment has no instruction that is one. -/
theorem not_comment_of_mem_splitFrom
    {text : Text}
    {instruction : Instruction}
    (notFound : (spanCode isCommentMarker text).2 = [])
    (member : instruction ∈ splitFrom first offset text) :
    instruction.text.head? ≠ some commentMarker := by
  induction first, offset, text using separator_induction with
  | oldComment isRem =>
      rw [splitFrom_of_rem isRem] at member
      obtain ⟨-, rfl⟩ := mem_piece_iff.mp member
      obtain ⟨rest, opens, -⟩ := startsWithRem_iff.mp isRem
      have first : (remKeyword ++ rest).head? = some 'R' := rfl
      rw [Text.head?_trim, ← Text.head?_trimStart, opens, first]
      decide
  | last notRem ends =>
      rw [splitFrom_of_last notRem ends] at member
      exact not_comment_of_mem_piece ends member
  | comment _ ends =>
      rw [spanComment_of_comment ends] at notFound
      cases notFound
  | separated notRem ends inductionHypothesis =>
      rw [spanComment_of_separator ends] at notFound
      rw [splitFrom_of_separator notRem ends] at member
      rcases List.mem_append.mp member with isLed | isLater
      · exact not_comment_of_mem_led ends isLed
      · exact inductionHypothesis notFound isLater

/-! ## Lines -/

/-- Splitting a line finds a comment exactly where cutting the line does.  The
comment is the last instruction, and the only one that opens like a comment;
those in front of it are the instructions of the code. -/
theorem split_eq_of_commentOffset?
    {text : Text}
    (noRem :
      ∀ instruction ∈ split text, startsWithRem instruction.text = false) :
    (commentOffset? text = none ↔
        ∀ instruction ∈ split text,
          instruction.text.head? ≠ some commentMarker) ∧
      ∀ position,
        commentOffset? text = some position →
          ∃ code comment front,
            text = code ++ comment ∧
              code.utf8Size = position ∧
              split text =
                front ++ [⟨code.length + 1, Text.trimEnd comment⟩] ∧
              (Text.trimEnd comment).head? = some commentMarker ∧
              (∀ instruction ∈ front,
                instruction.text.head? ≠ some commentMarker) ∧
              LacksColon front (split code) := by
  -- Both sides look for the first marker in code; the scan for it decides them
  -- together.
  rcases span : spanCode isCommentMarker text with ⟨code, behind⟩
  cases behind with
  | nil =>
      have notFound : (spanCode isCommentMarker text).2 = [] := by
        rw [span]
      have none := commentOffset?_eq_none_iff.mpr notFound
      refine ⟨?_, ?_⟩
      · exact iff_of_true none fun instruction member =>
          not_comment_of_mem_splitFrom notFound member
      · intro position found
        rw [none] at found
        cases found
  | cons c comment =>
      have isMarker : c = commentMarker := by
        simpa [isCommentMarker] using marker_of_found span
      subst c
      have found : commentOffset? text = some code.utf8Size := by
        simp [commentOffset?, cutComment_of_found span]
      have whole := append_of_cutComment (cutComment_of_found span)
      have opens :
          (Text.trimEnd (commentMarker :: comment)).head? = some commentMarker := by
        rw [Text.trimEnd_cons (by decide), List.head?_cons]
      obtain ⟨front, splits, noComment, lacks⟩ :=
        splitFrom_of_spanComment noRem span
      rw [Nat.zero_add] at splits
      refine ⟨?_, ?_⟩
      · refine iff_of_false (by simp [found]) fun none => ?_
        refine none ⟨code.length + 1, Text.trimEnd (commentMarker :: comment)⟩ ?_ opens
        rw [split, splits]
        simp
      · intro position samePosition
        rw [found, Option.some.injEq] at samePosition
        exact
          ⟨code, commentMarker :: comment, front, whole.symm, samePosition, splits,
            opens, noComment, lacks⟩

/-- A label in front of a comment lacks the colon that it keeps without it. -/
theorem split_eq_of_commentOffset?_label :
    let text : Text := "d = #1:00# : done : 'a: \"b"
    (∀ instruction ∈ split text, startsWithRem instruction.text = false) ∧
      commentOffset? text = some 20 ∧
      (∃ code comment front,
        text = code ++ comment ∧
          code.utf8Size = 20 ∧
          split text = front ++ [⟨code.length + 1, Text.trimEnd comment⟩] ∧
          (Text.trimEnd comment).head? = some commentMarker ∧
          (∀ instruction ∈ front,
            instruction.text.head? ≠ some commentMarker) ∧
          LacksColon front (split code)) ∧
      split text = [⟨1, "d = #1:00#"⟩, ⟨14, "done"⟩, ⟨21, "'a: \"b"⟩] ∧
      split "d = #1:00# : done : " = [⟨1, "d = #1:00#"⟩, ⟨14, "done :"⟩] := by
  intro text
  have noRem :
      ∀ instruction ∈ split text, startsWithRem instruction.text = false := by
    decide +kernel
  have found : commentOffset? text = some 20 := by
    decide
  exact
    ⟨noRem, found, (split_eq_of_commentOffset? noRem).2 20 found,
      by decide +kernel, by decide +kernel⟩

end Instruction

end ClassicBasic
