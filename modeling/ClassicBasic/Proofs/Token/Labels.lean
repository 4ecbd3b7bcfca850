import ClassicBasic.Proofs.Token.Splitting

namespace ClassicBasic

/-!
# Labels

Splitting decides by what stands in front of a colon whether the colon stays with
it; the matcher of labels only looks for a colon at the end of an instruction.  Both
agree, because the scan of a line leaves no other colon at the end of an
instruction: one that stands in a literal is followed by the end of the literal.
-/

/-! ## Heads of labels -/

namespace Instruction

open Line

/-- What keeps the colon behind it: a `Case` clause, a line number, or a name that
starts with a letter and is not reserved. -/
inductive IsLabelHead : Text → Prop where
  | caseClause
      {text : Text}
      (opens : Text.startsWithWord "Case" text = true) :
      IsLabelHead text
  | lineNumber
      {first : Char}
      {rest : Text}
      (areDigits : ∀ c ∈ first :: rest, c.isDigit = true) :
      IsLabelHead (first :: rest)
  | name
      {first : Char}
      {rest : Text}
      (isLetter : Text.isIdentifierLetter first = true)
      (isIdentifier : ∀ c ∈ first :: rest, Text.isIdentifierChar c = true)
      (notReserved : isReservedWord (first :: rest) = false) :
      IsLabelHead (first :: rest)

/-- What may stand in front of the colon of a label is decided on the trimmed
text. -/
theorem isLabelHead_iff
    {segment : Text} :
    isLabelHead segment = true ↔ IsLabelHead (Text.trim segment) := by
  unfold isLabelHead
  generalize Text.trim segment = trimmed
  cases trimmed with
  | nil =>
      refine iff_of_false (by simp) fun isHead => ?_
      cases isHead with
      | caseClause opens =>
          exact absurd opens (by decide)
  | cons first rest =>
      simp only [Bool.or_eq_true, Bool.and_eq_true, Bool.not_eq_true', List.all_eq_true]
      constructor
      · rintro ((opens | areDigits) | ⟨⟨isLetter, isIdentifier⟩, notReserved⟩)
        · exact .caseClause opens
        · exact .lineNumber areDigits
        · exact .name isLetter isIdentifier notReserved
      · intro isHead
        cases isHead with
        | caseClause opens =>
            exact .inl (.inl opens)
        | lineNumber areDigits =>
            exact .inl (.inr areDigits)
        | name isLetter isIdentifier notReserved =>
            exact .inr ⟨⟨isLetter, isIdentifier⟩, notReserved⟩

/-- A digit may stand in an identifier. -/
theorem isIdentifierChar_of_isDigit
    {c : Char}
    (isDigit : c.isDigit = true) :
    Text.isIdentifierChar c = true := by
  have isAscii : c.toNat < 0x80 := by
    have continues : Phrase.isNameChar c = true := by
      simp [Phrase.isNameChar, Char.isAlphanum, isDigit]
    exact (Phrase.toNat_of_isNameChar continues).2
  simp [Text.isIdentifierChar, Text.isNumeric, Text.isDecimalDigit, isAscii, isDigit]

namespace IsLabelHead

variable
  {head : Text}
  (isHead : IsLabelHead head)
include isHead

/-- No reserved word is a label. -/
theorem notReserved :
    isReservedWord head = false := by
  have noCase :
      reservedWords.all (fun word => !Text.startsWithWord "Case" word) = true := by
    decide +kernel
  have noDigit :
      reservedWords.all (fun word => word.all fun c => !c.isDigit) = true := by
    decide
  have inTable : isReservedWord head = true → head ∈ reservedWords :=
    List.contains_iff_mem.mp
  cases isHead with
  | caseClause opens =>
      by_contra reserved
      have none := List.all_eq_true.mp noCase _ (inTable (by simpa using reserved))
      rw [opens] at none
      cases none
  | @lineNumber first rest areDigits =>
      by_contra reserved
      have none := List.all_eq_true.mp noDigit _ (inTable (by simpa using reserved))
      rw [List.all_cons, areDigits first List.mem_cons_self] at none
      cases none
  | name _ _ notReserved =>
      exact notReserved

/-- A label that is no `Case` clause is a single word. -/
theorem case_or_isIdentifier :
    Text.startsWithWord "Case" head = true ∨
      ∀ c ∈ head, Text.isIdentifierChar c = true := by
  cases isHead with
  | caseClause opens =>
      exact .inl opens
  | lineNumber areDigits =>
      exact .inr fun c member => isIdentifierChar_of_isDigit (areDigits c member)
  | name _ isIdentifier =>
      exact .inr isIdentifier

/-- Of all labels only one opens like an attribute line. -/
theorem opensAttribute_iff
    {blanks : Text}
    (areBlank : ∀ c ∈ blanks, Text.isBlank c = true) :
    Text.startsWithWord "Attribute" (head ++ (blanks ++ [separator])) = true ↔
      head = "Attribute" := by
  have stops : (blanks ++ [separator]).head?.any Text.isIdentifierChar = false := by
    cases blanks with
    | nil =>
        decide
    | cons blank blanks =>
        exact Text.not_identifierChar_of_isBlank (areBlank _ List.mem_cons_self)
  have opensOther
      {rest : Text}
      (ends : rest.head?.any Text.isIdentifierChar = false) :
      ∀ c ∈ rest.head?, Text.isIdentifierChar c = false := by
    intro c isFirst
    rwa [Option.mem_def.mp isFirst] at ends
  rw [Text.startsWithWord_iff]
  constructor
  · rintro ⟨rest, shape, ends⟩
    rcases isHead.case_or_isIdentifier with isCase | isIdentifier
    · obtain ⟨behind, rfl, -⟩ := Text.startsWithWord_iff.mp isCase
      have first := congrArg List.head? shape
      exact absurd first (by simp)
    · have isWord : "Attribute".toList.all Text.isIdentifierChar = true := by
        decide
      have sameRest :=
        Text.tail_eq_of_append_eq shape isIdentifier (List.all_eq_true.mp isWord)
          (opensOther stops) (opensOther ends)
      rw [sameRest] at shape
      exact List.append_cancel_right shape
  · rintro rfl
    exact ⟨blanks ++ [separator], rfl, stops⟩

end IsLabelHead

/-! ## Colons that are kept -/

/-- Whether the scan of a line ends outside string literals: at a comment of either
form, or behind the last character of the line. -/
def IsClosed (text : Text) : Prop :=
  (∃ instruction ∈ split text, instruction.IsComment) ∨ endZone text ≠ .string

/-- An instruction of a line that is a head with the colon behind it.  The colon is
the first marker that the scan of the line finds behind the head, and the
instruction leads the line or ends it. -/
structure KeepsColon (text : Text) (instruction : Instruction) (head : Text) : Prop where
  spelled : instruction.text = head ++ [separator]
  isHead : IsLabelHead (Text.trim head)
  placed :
    ∃ front rest,
      text = front ++ (head ++ separator :: rest) ∧
        instruction.column = front.length + 1 ∧
        spanCode endsInstruction (head ++ separator :: rest) = (head, separator :: rest) ∧
        ((split text).head? = some instruction ∨ Text.trim rest = [])

/-- The head of a label has no blanks in front. -/
theorem trim_eq_trimEnd_of_spelled
    {instruction : Instruction}
    {head : Text}
    (isTrimmed : Text.trim instruction.text = instruction.text)
    (spelled : instruction.text = head ++ [separator]) :
    Text.trim head = Text.trimEnd head := by
  cases head with
  | nil =>
      rfl
  | cons c rest =>
      have visible : Text.isBlank c = false := by
        have opens : c ∈ (Text.trim instruction.text).head? := by
          rw [isTrimmed, spelled]
          rfl
        exact Text.isBlank_of_head?_trim opens
      rw [Text.trim, Text.trimStart_cons_visible visible]

/-- A label head with its colon is laid out in the line as the splitting found it. -/
theorem keepsColon_of_keepsSeparator
    {text segment rest : Text}
    {instruction : Instruction}
    {before : List Instruction}
    {last : Remainder}
    (reaches : Remainder.Reaches ⟨true, 0, text⟩ before last)
    (notRem : startsWithRem last.text = false)
    (span : spanCode endsInstruction last.text = (segment, separator :: rest))
    (keeps : keepsSeparator last.first segment rest = true)
    (member : instruction ∈ piece last.offset (segment ++ [separator])) :
    KeepsColon text instruction (Text.trimStart segment) := by
  have stays := keeps
  rw [keepsSeparator, Bool.and_eq_true, Bool.or_eq_true, List.isEmpty_iff] at stays
  obtain ⟨isHead, leadsOrEnds⟩ := stays
  have isVisible := trim_ne_nil_of_isLabelHead isHead
  have whole := append_of_spanFrom span
  obtain ⟨front, shape, offset⟩ := reaches.text_eq
  obtain ⟨pieceVisible, rfl⟩ := mem_piece_iff.mp member
  refine ⟨trim_append_separator isVisible, ?_, ?_⟩
  · rw [← isLabelHead_iff, isLabelHead_trimStart, isHead]
  · refine ⟨front ++ segment.takeWhile Text.isBlank, rest, ?_, ?_, ?_, ?_⟩
    · have blanks : segment.takeWhile Text.isBlank ++ Text.trimStart segment = segment :=
        List.takeWhile_append_dropWhile
      rw [List.append_assoc, ← List.append_assoc (segment.takeWhile Text.isBlank), blanks,
        whole]
      exact shape
    · dsimp only at offset ⊢
      rw [Text.takeWhile_isBlank_append (Text.trimStart_ne_nil isVisible), offset,
        List.length_append, Nat.zero_add]
    · have found :=
        spanCode_trimStart (fun _ => isBlank_of_endsInstruction) last.text
      rwa [span, ← whole, Text.trimStart_append_cons (by decide)] at found
    · refine leadsOrEnds.imp_left fun first => ?_
      have isFirst : split text = last.split := by
        rw [← List.nil_append last.split, ← reaches.before_eq_nil first]
        exact reaches.split_eq
      rw [isFirst, Remainder.split, splitFrom_of_separator notRem span, led, if_pos keeps,
        piece_of_visible pieceVisible]
      rfl

/-- An instruction that keeps its colon opens an attribute only if there is nothing
else in front of the colon. -/
theorem KeepsColon.opensAttribute_iff
    {text head : Text}
    {instruction : Instruction}
    (keeps : KeepsColon text instruction head)
    (isTrimmed : Text.trim instruction.text = instruction.text) :
    Text.startsWithWord "Attribute" instruction.text = true ↔
      Text.trim head = "Attribute" := by
  obtain ⟨blanks, whole, areBlank⟩ := Text.exists_blanks_of_trimEnd head
  rw [← keeps.isHead.opensAttribute_iff areBlank,
    trim_eq_trimEnd_of_spelled isTrimmed keeps.spelled, ← List.append_assoc, ← whole,
    keeps.spelled]

section Kept

variable
  {text : Text}
  {instruction : Instruction}
  (closed : IsClosed text)
  (notComment : ¬instruction.IsComment)
include closed notComment

/-- What stands in front of a marker, or of the end of a closed line, ends in code. -/
theorem endZone_of_plain
    {before : List Instruction}
    {last : Remainder}
    {segment behind : Text}
    (reaches : Remainder.Reaches ⟨true, 0, text⟩ before last)
    (notRem : startsWithRem last.text = false)
    (span : spanCode endsInstruction last.text = (segment, behind))
    (member : instruction ∈ piece last.offset segment) :
    endZone segment = .code := by
  cases behind with
  | cons c rest =>
      exact zoneFrom_of_found span
  | nil =>
      have whole := append_of_spanFrom span
      rw [List.append_nil] at whole
      have sameZone : endZone text = endZone segment := by
        rw [show segment = last.text from whole]
        exact reaches.endZone_eq
      -- No line ends in a date, and a closed one ends in a literal only inside its
      -- comment.
      have notDate : endZone text ≠ .date :=
        zoneFrom_ne_date (by simp)
      have notString : endZone text ≠ .string := by
        rcases closed with ⟨other, isPart, isComment⟩ | notString
        · have splits : split text = before ++ piece last.offset segment := by
            rw [← splitFrom_of_last notRem span]
            exact reaches.split_eq
          rw [splits] at isPart
          rcases List.mem_append.mp isPart with isBefore | isLast
          · exact (reaches.not_isComment other isBefore isComment).elim
          · obtain ⟨-, rfl⟩ := mem_piece_iff.mp isLast
            obtain ⟨-, rfl⟩ := mem_piece_iff.mp member
            exact (notComment isComment).elim
        · exact notString
      rw [← sameZone]
      cases zone : endZone text with
      | code =>
          rfl
      | string =>
          exact (notString zone).elim
      | date =>
          exact (notDate zone).elim

/-- A colon ends an instruction only where the splitting of the line has kept it. -/
theorem keepsColon_of_spelled
    {head : Text}
    (member : instruction ∈ split text)
    (spelled : instruction.text = head ++ [separator]) :
    KeepsColon text instruction head := by
  obtain ⟨before, last, reaches, yields⟩ :=
    Remainder.exists_yields_of_mem_split member
  cases yields with
  | oldComment isRem isPiece =>
      obtain ⟨-, rfl⟩ := mem_piece_iff.mp isPiece
      exact (notComment (.inr (startsWithRem_trim isRem))).elim
  | comment isPiece =>
      obtain ⟨-, rfl⟩ := mem_piece_iff.mp isPiece
      refine (notComment (.inl ?_)).elim
      rw [Text.head?_trim]
      rfl
  | @plain segment behind notRem span isPiece =>
      have inCode := endZone_of_plain closed notComment reaches notRem span isPiece
      obtain ⟨-, rfl⟩ := mem_piece_iff.mp isPiece
      have found :=
        spanCode_trim (fun _ => isBlank_of_endsInstruction) (spanCode_of_comment span)
      dsimp only at spelled
      rw [← endZone_trim, spelled] at inCode
      rw [spelled] at found
      have notFound : (spanFrom endsInstruction .code none (head ++ [separator])).2 = [] := by
        rw [← spanCode, found]
      exact
        (zoneFrom_ne_code_of_marker (by decide) (by decide) (by decide) notFound inCode).elim
  | @label segment rest notRem span keeps isPiece =>
      have kept := keepsColon_of_keepsSeparator reaches notRem span keeps isPiece
      have same := kept.spelled
      rw [spelled] at same
      rwa [List.append_cancel_right same]

end Kept

end Instruction

/-! ## Matching labels -/

namespace Matcher

variable
  {text name : Text}
  {isCase : Bool}

/-- A label is what ends with the separator, and its name is what stands in
front. -/
theorem label?_eq_some_iff :
    label? text = some (.label name isCase) ↔
      ∃ head,
        Text.trim text = head ++ [Instruction.separator] ∧
          name = Text.trimEnd head ∧
            isCase = (Text.after? "Case " (Text.trim text)).isSome := by
  rw [label?, Option.bind_eq_bind, Option.bind_eq_some_iff]
  constructor
  · rintro ⟨head, ends, same⟩
    cases same
    exact ⟨head, Text.before?_eq_some_iff.mp ends, rfl, rfl⟩
  · rintro ⟨head, ends, rfl, rfl⟩
    exact ⟨head, Text.before?_eq_some_iff.mpr ends, rfl⟩

/-- Only what starts with the keyword of attributes is taken for an attribute
line. -/
theorem attributeLine?_eq_none_iff :
    attributeLine? text = none ↔
      Text.startsWithWord "Attribute" (Text.trimStart text) = false := by
  unfold attributeLine?
  split <;>
    simp_all

/-- Only one matcher makes labels. -/
theorem eq_label_of_kind?
    {matcher : Matcher}
    (accepts : matcher.kind? text = some (.label name isCase)) :
    matcher = .label := by
  cases matcher with
  | label =>
      rfl
  | comment =>
      simp only [kind?, comment?] at accepts
      split at accepts <;>
        cases accepts
  | attributeLine =>
      simp only [kind?, attributeLine?] at accepts
      split at accepts <;>
        cases accepts
  | declaration =>
      simp only [kind?, declaration?] at accepts
      split at accepts
      · cases accepts
      · split at accepts <;>
          cases accepts
  | instruction =>
      simp only [kind?, instruction?] at accepts
      split at accepts <;>
        cases accepts
  | statement =>
      obtain ⟨word, -, same⟩ := Option.bind_eq_some_iff.mp accepts
      cases same
  | expression =>
      simp only [kind?, expression?] at accepts
      split at accepts <;>
        cases accepts
  | procedureCall =>
      simp only [kind?, procedureCall?] at accepts
      split at accepts <;>
        cases accepts

section Tables

variable
  {matcher : Matcher}
  {matchers : List Matcher}
  {location : Location}

/-- Only what is not blank becomes a token. -/
theorem visible_of_classify?
    {token : Token}
    (classifies : classify? matchers text location = some token) :
    (Text.trim text).isEmpty = false := by
  by_contra blank
  rw [classify?, if_pos (by simpa using blank)] at classifies
  cases classifies

/-- A matcher that does not accept leaves the instruction to those behind it. -/
theorem classify?_cons_of_rejects
    (rejects : matcher.kind? text = none) :
    classify? (matcher :: matchers) text location = classify? matchers text location := by
  simp only [classify?, List.findSome?_cons, token?, rejects, Option.map_none]

/-- The first matcher decides if it accepts. -/
theorem classify?_cons_of_accepts
    {kind : TokenKind}
    (visible : (Text.trim text).isEmpty = false)
    (accepts : matcher.kind? text = some kind) :
    classify? (matcher :: matchers) text location = some ⟨kind, text, location⟩ := by
  simp only [classify?, visible, Bool.false_eq_true, if_false, List.findSome?_cons, token?,
    accepts, Option.map_some]

/-- A label is what the matcher of labels accepts and the two in front of it do
not. -/
theorem kind_eq_label_iff_of_classify?
    {token : Token}
    (classifies : classify? table text location = some token) :
    token.kind = .label name isCase ↔
      comment? text = none ∧
        attributeLine? text = none ∧ label? text = some (.label name isCase) := by
  have visible := visible_of_classify? classifies
  have noOther
      {matcher : Matcher}
      (accepts : matcher.kind? text = some token.kind)
      (other : matcher ≠ .label) :
      token.kind ≠ .label name isCase :=
    fun isLabel => other (eq_label_of_kind? (isLabel ▸ accepts))
  -- The table asks for comments, attribute lines and labels in this order; nothing else
  -- makes labels.
  rw [table] at classifies
  cases comment : kind? .comment text with
  | some kind =>
      rw [classify?_cons_of_accepts visible comment] at classifies
      cases classifies
      refine iff_of_false (noOther comment (by decide)) fun rejects => ?_
      rw [show comment? text = _ from comment] at rejects
      cases rejects.1
  | none =>
      rw [classify?_cons_of_rejects comment] at classifies
      cases stated : kind? .attributeLine text with
      | some kind =>
          rw [classify?_cons_of_accepts visible stated] at classifies
          cases classifies
          refine iff_of_false (noOther stated (by decide)) fun rejects => ?_
          rw [show attributeLine? text = _ from stated] at rejects
          cases rejects.2.1
      | none =>
          rw [classify?_cons_of_rejects stated] at classifies
          refine Iff.trans ?_ (and_iff_right_of_imp fun _ => comment).symm
          refine Iff.trans ?_ (and_iff_right_of_imp fun _ => stated).symm
          cases label : kind? .label text with
          | some kind =>
              rw [classify?_cons_of_accepts visible label] at classifies
              cases classifies
              rw [show label? text = _ from label, Option.some.injEq]
          | none =>
              obtain ⟨matcher, member, accepts⟩ := exists_token?_of_classify? classifies
              have isOther : matcher ≠ .label := by
                rintro rfl
                rw [token?, label] at accepts
                cases accepts
              refine iff_of_false (noOther (token?_eq_some_iff.mp accepts).1 isOther) ?_
              rw [show label? text = _ from label]
              simp

end Tables

end Matcher

namespace Token

open Instruction

/-- Splitting and matching agree on labels.  The default table makes a label of an
instruction exactly if the splitting kept the colon that the instruction ends in,
unless its head is the word that opens attribute lines; the label is named by the
head.  So no reserved word is a label, and only a `Case` clause is one that is not a
single word. -/
theorem kind_eq_label_iff
    {line : Line}
    {instruction : Instruction}
    (closed : IsClosed line.text)
    (member : instruction ∈ split line.text)
    (notComment : ¬instruction.IsComment) :
    ∃ token,
      Matcher.classify? Matcher.table instruction.text
          ⟨line.number, instruction.column⟩ =
        some token ∧
      (∀ name isCase,
        token.kind = .label name isCase ↔
          ∃ head,
            KeepsColon line.text instruction head ∧
              Text.trim head ≠ "Attribute" ∧
              name = Text.trimEnd head ∧
              isCase = (Text.after? "Case " instruction.text).isSome) ∧
      ∀ name isCase,
        token.kind = .label name isCase →
          isReservedWord name = false ∧
            (Text.startsWithWord "Case" name = true ∨
              ∀ c ∈ name, Text.isIdentifierChar c = true) := by
  obtain ⟨token, classifies, -, -⟩ :=
    exists_classify?_of_mem_split member ⟨line.number, instruction.column⟩
  obtain ⟨isTrimmed, -⟩ := trim_of_mem_split member
  have starts : Text.trimStart instruction.text = instruction.text := by
    rw [← isTrimmed, Text.trimStart_trim]
  -- The matcher sees the colon of the instruction; that the line kept it there is
  -- decided in the split.
  have agrees
      (name : Text)
      (isCase : Bool) :
      token.kind = .label name isCase ↔
        ∃ head,
          KeepsColon line.text instruction head ∧
            Text.trim head ≠ "Attribute" ∧
            name = Text.trimEnd head ∧
            isCase = (Text.after? "Case " instruction.text).isSome := by
    rw [Matcher.kind_eq_label_iff_of_classify? classifies, Matcher.label?_eq_some_iff,
      Matcher.attributeLine?_eq_none_iff, starts, isTrimmed]
    constructor
    · rintro ⟨-, notAttribute, head, spelled, isName, caseFlag⟩
      have keeps := keepsColon_of_spelled closed notComment member spelled
      refine ⟨head, keeps, ?_, isName, caseFlag⟩
      rw [Ne, ← keeps.opensAttribute_iff isTrimmed, notAttribute]
      exact Bool.false_ne_true
    · rintro ⟨head, keeps, notAttribute, isName, caseFlag⟩
      refine ⟨?_, ?_, head, keeps.spelled, isName, caseFlag⟩
      · rw [Matcher.comment?, starts, if_neg]
        simpa [IsComment] using notComment
      · rw [← Bool.not_eq_true, keeps.opensAttribute_iff isTrimmed]
        exact notAttribute
  refine ⟨token, classifies, agrees, ?_⟩
  intro name isCase isLabel
  obtain ⟨head, keeps, -, rfl, -⟩ := (agrees name isCase).mp isLabel
  have isHead := keeps.isHead
  rw [trim_eq_trimEnd_of_spelled isTrimmed keeps.spelled] at isHead
  exact ⟨isHead.notReserved, isHead.case_or_isIdentifier⟩

/-- A clause whose colons in literals are no separators, at the end of its line. -/
theorem kind_eq_label_iff_case :
    let line : Line := ⟨"End : Case \"a:\", #1:00# :", 7⟩
    let clause : Instruction := ⟨7, "Case \"a:\", #1:00# :"⟩
    IsClosed line.text ∧
      clause ∈ split line.text ∧
      ¬clause.IsComment ∧
      ∃ token,
        Matcher.classify? Matcher.table clause.text ⟨7, 7⟩ = some token ∧
        (token.kind = .label "Case \"a:\", #1:00#" true ↔
          ∃ head,
            KeepsColon line.text clause head ∧
              Text.trim head ≠ "Attribute" ∧
              "Case \"a:\", #1:00#" = Text.trimEnd head ∧
              true = (Text.after? "Case " clause.text).isSome) ∧
        token.kind = .label "Case \"a:\", #1:00#" true := by
  intro line clause
  have closed : IsClosed line.text := .inr (by decide)
  have member : clause ∈ split line.text := by
    decide +kernel
  have notComment : ¬clause.IsComment := by
    unfold IsComment
    decide
  obtain ⟨token, classifies, agrees, -⟩ := kind_eq_label_iff closed member notComment
  refine ⟨closed, member, notComment, token, classifies, agrees _ _, ?_⟩
  have computed :
      (Matcher.classify? Matcher.table clause.text ⟨7, 7⟩).map kind =
        some (.label "Case \"a:\", #1:00#" true) := by
    decide +kernel
  have same := congrArg (Option.map kind) classifies
  rw [computed] at same
  exact (Option.some.inj same).symm

end Token

end ClassicBasic
