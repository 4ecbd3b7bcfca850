import ClassicBasic.Proofs.Declaration.Declarators
import ClassicBasic.Proofs.Keyword
import ClassicBasic.Proofs.Line.Comment
import ClassicBasic.Proofs.Line.Opening
import ClassicBasic.Proofs.Node.Shape
import ClassicBasic.Reading

namespace ClassicBasic

/-!
# Lines of variables and constants written out and read back

A line of declarations is tried as a signature, as the name of an interface and as a
`Declare` statement before it is read as what it is.  All of these look for a keyword
behind modifiers, and there they find the keywords of variables or the first declarator,
which leads with no keyword.
-/

/-! ## Instructions -/

namespace DeclaringInstruction

/-- The keywords of variables and constants, which are all modifiers but `Const`. -/
def variableWords : List Text :=
  ["Dim", "Static", "Public", "Private", "Friend", "Global", "Const"]

/-- Whether a text is a list with keywords of variables in front of it. -/
inductive IsLed (list : Text) : Text → Prop where
  | bare :
      IsLed list list
  | behind
      {word rest : Text}
      (isKeyword : word ∈ variableWords)
      (led : IsLed list rest) :
      IsLed list (Phrase.writtenKeyword (some word) ++ rest)

/-- The keywords of variables are words. -/
theorem isWord_of_mem_variableWords :
    ∀ word ∈ variableWords, Phrase.IsWord word := by
  decide

/-- Every access modifier may stand in front of variables. -/
theorem modifier_mem_variableWords
    (modifier : AccessModifier) :
    modifier.keyword ∈ variableWords := by
  cases modifier <;>
    decide

/-- The keyword of a declaration of variables is one of theirs. -/
theorem keyword_mem_variableWords
    {keyword : DeclarationKeyword}
    (declares : Node.declaresVariables keyword = true) :
    keyword.keyword ∈ variableWords := by
  revert declares
  cases keyword <;>
    decide

/-- Whether only keywords of declarations are recognised. -/
def OnlyDeclares (recognise : Text → Option α) : Prop :=
  ∀ word found, recognise word = some found → word ∈ declarationWords

/-- What only recognises keywords of declarations recognises no other word. -/
theorem OnlyDeclares.eq_none
    {recognise : Text → Option α}
    {word : Text}
    (declares : OnlyDeclares recognise)
    (noKeyword : word ∉ declarationWords) :
    recognise word = none := by
  cases known : recognise word with
  | none =>
      rfl
  | some found =>
      exact (noKeyword (declares word found known)).elim

/-- A single keyword of declarations is recognised only where it stands. -/
theorem onlyDeclares_word
    {expected : Text}
    (declares : expected ∈ declarationWords) :
    OnlyDeclares (Phrase.word? expected) := by
  intro word found known
  rw [Phrase.word?, Option.ite_none_right_eq_some] at known
  rw [known.1]
  exact declares

/-- All access modifiers are keywords of declarations. -/
theorem onlyDeclares_modifier :
    OnlyDeclares AccessModifier.ofKeyword? := by
  intro word modifier known
  have spelled := List.find?_some known
  rw [← of_decide_eq_true spelled]
  cases modifier <;>
    decide

/-- Some of these keywords are keywords of declarations, too. -/
theorem OnlyDeclares.filter
    {recognise : Text → Option α}
    (declares : OnlyDeclares recognise)
    (allowed : α → Bool) :
    OnlyDeclares fun word => (recognise word).filter allowed :=
  fun word found known => declares word found (Option.filter_eq_some_iff.mp known).1

/-- All keywords that declare are keywords of declarations. -/
theorem onlyDeclares_keyword :
    OnlyDeclares keyword? := by
  intro word keyword known
  obtain ⟨spelled, -⟩ := Option.filter_eq_some_iff.mp known
  have isWritten := List.mem_of_find?_eq_some spelled
  have same := List.find?_some spelled
  rw [← of_decide_eq_true same]
  revert isWritten
  cases keyword <;>
    decide

/-- All keywords of procedures are keywords of declarations. -/
theorem onlyDeclares_procedure :
    OnlyDeclares Signature.procedure? := by
  intro word kind known
  rw [Signature.procedure?] at known
  split at known
  · next spelled =>
      rw [spelled]
      decide
  · obtain ⟨method, spelled, -⟩ := Option.map_eq_some_iff.mp known
    have same := List.find?_some spelled
    rw [← of_decide_eq_true same]
    cases method <;>
      decide

section Led

variable
  {list text : Text}
  (listTrimmed : list.IsTrimmed)
  (noKeyword : Text.leadingWord list ∉ declarationWords)
  (led : IsLed list text)
include led

include listTrimmed in
/-- A list with keywords in front of it has no blanks at its ends. -/
theorem IsLed.isTrimmed :
    text.IsTrimmed := by
  induction led with
  | bare =>
      exact listTrimmed
  | behind isKeyword led inductionHypothesis =>
      refine Phrase.isTrimmed_writtenKeyword ?_ inductionHypothesis
      rintro word ⟨⟩
      exact isWord_of_mem_variableWords _ isKeyword

include noKeyword

/-- A keyword that leads to other declarations is not found in front of the list. -/
theorem IsLed.keyword?_eq_none
    {recognise : Text → Option α}
    (declares : OnlyDeclares recognise)
    (different : ∀ word ∈ variableWords, recognise word = none) :
    Phrase.keyword? recognise text = none := by
  refine Phrase.keyword?_eq_none ?_
  cases led with
  | bare =>
      exact declares.eq_none noKeyword
  | @behind word rest isKeyword led =>
      have areWords : ∀ written ∈ some word, Phrase.IsWord written := by
        rintro written ⟨⟩
        exact isWord_of_mem_variableWords word isKeyword
      rw [Phrase.leadingWord_written areWords]
      exact different word isKeyword

include listTrimmed

/-- What stands behind a keyword is again led to the list. -/
theorem IsLed.of_keyword?
    {recognise : Text → Option α}
    {found : α}
    {rest : Text}
    (declares : OnlyDeclares recognise)
    (keyword : Phrase.keyword? recognise text = some (found, rest)) :
    IsLed list rest := by
  cases led with
  | bare =>
      exact (noKeyword (declares _ found (Phrase.leadingWord_of_keyword? keyword))).elim
  | behind isKeyword led =>
      have isWord := isWord_of_mem_variableWords _ isKeyword
      rw [Phrase.keyword?_written isWord _ (led.isTrimmed listTrimmed).trimStart_eq] at keyword
      obtain ⟨_, _, same⟩ := Option.map_eq_some_iff.mp keyword
      cases same
      exact led

/-- Behind a leading keyword, or where there is none, the list is still led by
keywords of variables. -/
theorem IsLed.leading
    {recognise : Text → Option α}
    (declares : OnlyDeclares recognise) :
    IsLed list (Signature.leading recognise text).2 := by
  unfold Signature.leading
  cases keyword : Phrase.keyword? recognise text with
  | none =>
      exact led
  | some pair =>
      exact led.of_keyword? listTrimmed noKeyword declares keyword

/-- No declaration of variables is a signature. -/
theorem IsLed.noSignature :
    Signature.read? text = none := by
  have unmodified :=
    led.leading listTrimmed noKeyword
      (onlyDeclares_modifier.filter Signature.modifiers.contains)
  change IsLed list (Signature.leading Signature.modifier? text).2 at unmodified
  rcases modified : Signature.leading Signature.modifier? text with ⟨modifier, behind⟩
  rw [modified] at unmodified
  have unqualified :=
    unmodified.leading listTrimmed noKeyword
      (onlyDeclares_word (by decide : ("Static" : Text) ∈ declarationWords))
  rcases qualified : Signature.leading (Phrase.word? "Static") behind with ⟨isStatic, rest⟩
  rw [qualified] at unqualified
  have noProcedure :=
    unqualified.keyword?_eq_none noKeyword onlyDeclares_procedure (by decide)
  simp only [Signature.read?, modified, qualified, noProcedure, Option.bind_eq_bind,
    Option.bind_none]

/-- No declaration of variables is a `Declare` statement. -/
theorem IsLed.noExternal :
    ExternalDeclaration.read? text = none := by
  have undeclared
      {rest : Text}
      (led : IsLed list rest)
      (modifier : Option AccessModifier) :
      ExternalDeclaration.readUnmodified? modifier rest = none := by
    have noDeclare :=
      led.keyword?_eq_none noKeyword
        (onlyDeclares_word (by decide : ("Declare" : Text) ∈ declarationWords)) (by decide)
    rw [ExternalDeclaration.readUnmodified?, noDeclare]
    rfl
  unfold ExternalDeclaration.read?
  cases keyword : Phrase.keyword? ExternalDeclaration.modifier? text with
  | none =>
      exact undeclared led none
  | some pair =>
      have behind :=
        led.of_keyword? listTrimmed noKeyword (onlyDeclares_modifier.filter _) keyword
      exact undeclared behind _

end Led

/-- A declaration of variables or constants as it is written. -/
def writtenVariables
    (modifier : Option AccessModifier)
    (keyword : DeclarationKeyword)
    (list : List Declarator.Parts) :
    Text :=
  Phrase.writtenKeyword (modifier.map AccessModifier.keyword) ++
    (Phrase.writtenKeyword (some keyword.keyword) ++ Declarator.writtenList list)

/-- The modifier of a declaration: that in front of its keyword, or else the keyword
itself if it is one. -/
def modifierOf (modifier : Option AccessModifier) (keyword : DeclarationKeyword) :
    Option AccessModifier :=
  modifier <|> AccessModifier.ofKeyword? keyword.keyword

section Variables

variable
  {list : List Declarator.Parts}
  {keyword : DeclarationKeyword}
  (areWritable : ∀ parts ∈ list, parts.IsWritable)
  (isVisible : list ≠ [])
  (declares : Node.declaresVariables keyword = true)
include declares

/-- A list is led by its keyword. -/
theorem isLed_keyword :
    IsLed (Declarator.writtenList list)
      (Phrase.writtenKeyword (some keyword.keyword) ++ Declarator.writtenList list) :=
  .behind (keyword_mem_variableWords declares) .bare

/-- A list is led by its modifier, if any, and its keyword. -/
theorem isLed_writtenVariables
    (modifier : Option AccessModifier) :
    IsLed (Declarator.writtenList list) (writtenVariables modifier keyword list) := by
  have led :
      IsLed (Declarator.writtenList list)
        (Phrase.writtenKeyword (some keyword.keyword) ++ Declarator.writtenList list) :=
    isLed_keyword declares
  cases modifier with
  | none =>
      exact led
  | some modifier =>
      exact .behind (modifier_mem_variableWords modifier) led

/-- A declaration of variables leads with one of their keywords. -/
theorem leadingWord_writtenVariables
    (modifier : Option AccessModifier) :
    Text.leadingWord (writtenVariables modifier keyword list) ∈ variableWords := by
  have areWords : ∀ word ∈ modifier.map AccessModifier.keyword, Phrase.IsWord word := by
    intro word member
    obtain ⟨given, -, rfl⟩ := Option.map_eq_some_iff.mp member
    exact given.isWord_keyword
  have isWord : ∀ word ∈ some keyword.keyword, Phrase.IsWord word := by
    rintro word ⟨⟩
    exact keyword.isWord_keyword
  rw [writtenVariables, Phrase.leadingWord_written areWords,
    Phrase.leadingWord_written isWord, Option.getD_some]
  cases modifier with
  | none =>
      exact keyword_mem_variableWords declares
  | some modifier =>
      exact modifier_mem_variableWords modifier

include areWritable isVisible

/-- The keyword is read, and the list is left. -/
theorem readKeyword?_written :
    readKeyword?
        (Phrase.writtenKeyword (some keyword.keyword) ++ Declarator.writtenList list) =
      some (keyword, Declarator.writtenList list) := by
  have isTrimmed := Declarator.isTrimmed_writtenList areWritable isVisible
  have known : keyword? keyword.keyword = some keyword := by
    revert declares
    cases keyword <;>
      decide
  have isEmpty : (Declarator.writtenList list).isEmpty = false :=
    List.isEmpty_eq_false_iff.mpr isTrimmed.1
  have isOneLine : (Declarator.writtenList list).contains '\n' = false := by
    simpa using (Declarator.isPassed_writtenList areWritable).2
  rw [readKeyword?, Phrase.keyword?_written keyword.isWord_keyword _ isTrimmed.trimStart_eq,
    known]
  simp only [Option.map_some, Option.bind_eq_bind, Option.bind_some, isEmpty, isOneLine,
    Bool.or_false, Bool.false_eq_true, if_false]

/-- The first keyword is a modifier if another one follows. -/
theorem readLeading?_written
    (modifier : Option AccessModifier) :
    readLeading? (writtenVariables modifier keyword list) =
      some (modifierOf modifier keyword, keyword, Declarator.writtenList list) := by
  have isTrimmed := Declarator.isTrimmed_writtenList areWritable isVisible
  have noKeyword := Declarator.leadingWord_writtenList areWritable isVisible
  have led :
      IsLed (Declarator.writtenList list)
        (Phrase.writtenKeyword (some keyword.keyword) ++ Declarator.writtenList list) :=
    isLed_keyword declares
  have starts := (led.isTrimmed isTrimmed).trimStart_eq
  have reads := readKeyword?_written areWritable isVisible declares
  rw [readLeading?, writtenVariables]
  cases modifier with
  | some modifier =>
      have leads :
          Phrase.keyword? AccessModifier.ofKeyword?
              (Phrase.writtenKeyword (some modifier.keyword) ++
                (Phrase.writtenKeyword (some keyword.keyword) ++
                  Declarator.writtenList list)) =
            some
              (modifier,
                Phrase.writtenKeyword (some keyword.keyword) ++
                  Declarator.writtenList list) := by
        rw [Phrase.keyword?_written modifier.isWord_keyword _ starts,
          modifier.ofKeyword?_keyword]
        rfl
      refine Phrase.optionally_of_keyword leads ?_
      rw [reads]
      rfl
  | none =>
      change
        Phrase.optionally AccessModifier.ofKeyword?
            (Phrase.writtenKeyword (some keyword.keyword) ++ Declarator.writtenList list) _ =
          _
      -- The keyword may be one that is also a modifier; then no keyword is left behind
      -- it.
      refine (Phrase.optionally_of_fails fun found rest leads => ?_).trans ?_
      · rw [Phrase.keyword?_written keyword.isWord_keyword _ isTrimmed.trimStart_eq] at leads
        obtain ⟨_, _, same⟩ := Option.map_eq_some_iff.mp leads
        cases same
        rw [readKeyword?, Phrase.keyword?_eq_none (onlyDeclares_keyword.eq_none noKeyword)]
        rfl
      · rw [reads]
        rfl

/-- A declaration of variables or constants is read with all of its declarators. -/
theorem read?_writtenVariables
    (modifier : Option AccessModifier) :
    read? (writtenVariables modifier keyword list) =
      some (.variables (modifierOf modifier keyword) keyword
        (list.map Declarator.Parts.declarator)) := by
  have isTrimmed := Declarator.isTrimmed_writtenList areWritable isVisible
  have noKeyword := Declarator.leadingWord_writtenList areWritable isVisible
  have led : IsLed (Declarator.writtenList list) (writtenVariables modifier keyword list) :=
    isLed_writtenVariables declares modifier
  have noInterface : interface? (writtenVariables modifier keyword list) = none := by
    have different : ∀ word ∈ variableWords, Phrase.word? "Implements" word = none := by
      decide
    have leads : Text.leadingWord (writtenVariables modifier keyword list) ∈ variableWords :=
      leadingWord_writtenVariables declares modifier
    rw [interface?, Phrase.keyword?_eq_none (different _ leads)]
    rfl
  have declared :
      declaration? (writtenVariables modifier keyword list) =
        some (.variables (modifierOf modifier keyword) keyword
          (list.map Declarator.Parts.declarator)) := by
    have declarators := Declarator.declarators_writtenList areWritable
    obtain ⟨first, others, shape⟩ := List.exists_cons_of_ne_nil isVisible
    rw [declaration?, readLeading?_written areWritable isVisible declares,
      Option.bind_eq_bind, Option.bind_some]
    rw [shape, List.map_cons] at declarators ⊢
    revert declares
    cases keyword <;>
      simp [Node.declaresVariables, declarators]
  rw [read?, noInterface, led.noExternal isTrimmed noKeyword, declared]
  rfl

end Variables

end DeclaringInstruction

/-! ## Lines -/

/-- A line of code with its comment, if it has one. -/
def Line.withComment (code : Text) : Option Text → Text
  | none => code
  | some comment => code ++ " '" ++ comment

namespace DeclaringInstruction

section Line

variable
  {list : List Declarator.Parts}
  {keyword : DeclarationKeyword}
  (areWritable : ∀ parts ∈ list, parts.IsWritable)
  (isVisible : list ≠ [])
  (declares : Node.declaresVariables keyword = true)
  (modifier : Option AccessModifier)
include declares

/-- A declaration of variables is neither empty nor a comment of the older form. -/
theorem isSilent_writtenVariables :
    isSilent (writtenVariables modifier keyword list) = false := by
  have leads : Text.leadingWord (writtenVariables modifier keyword list) ∈ variableWords :=
    leadingWord_writtenVariables declares modifier
  have firstLetter :
      ∀ word ∈ variableWords,
        word.head?.any (fun c => Text.isVisible c && c ≠ 'R') = true := by
    decide
  obtain ⟨c, opens, isLetter⟩ := (Option.any_eq_true _ _).mp (firstLetter _ leads)
  obtain ⟨visible, different⟩ : Text.isBlank c = false ∧ c ≠ 'R' := by
    simpa [Text.isVisible] using isLetter
  have isBeginning :
      Text.leadingWord (writtenVariables modifier keyword list) <+:
        writtenVariables modifier keyword list :=
    List.takeWhile_prefix _
  obtain ⟨behind, whole⟩ := isBeginning
  have opensCode : (writtenVariables modifier keyword list).head? = some c := by
    rw [← whole, List.head?_append, opens]
    rfl
  exact isSilent_eq_false opensCode visible different

include areWritable

/-- A declaration of variables is one instruction. -/
theorem isPassed_writtenVariables :
    Line.IsPassed Instruction.endsInstruction (writtenVariables modifier keyword list) := by
  have led : IsLed (Declarator.writtenList list) (writtenVariables modifier keyword list) :=
    isLed_writtenVariables declares modifier
  have areNames : ∀ word ∈ variableWords, word.all Phrase.isNameChar = true := by
    decide
  generalize writtenVariables modifier keyword list = code at led
  induction led with
  | bare =>
      exact (Declarator.isPassed_writtenList areWritable).1
  | @behind word rest isKeyword led inductionHypothesis =>
      have isSegment := Declarator.isSegment_writtenKeyword true (areNames word isKeyword)
      exact isSegment.isPassed.append inductionHypothesis

include isVisible

/-- A written declaration has no blanks at its ends. -/
theorem isTrimmed_writtenVariables :
    (writtenVariables modifier keyword list).IsTrimmed := by
  have led : IsLed (Declarator.writtenList list) (writtenVariables modifier keyword list) :=
    isLed_writtenVariables declares modifier
  exact led.isTrimmed (Declarator.isTrimmed_writtenList areWritable isVisible)

/-- A declaration of variables is one instruction. -/
theorem split_writtenVariables :
    (Instruction.split (writtenVariables modifier keyword list)).map (·.text) =
      [writtenVariables modifier keyword list] := by
  have isTrimmed := isTrimmed_writtenVariables areWritable isVisible declares modifier
  have isSilent : isSilent (writtenVariables modifier keyword list) = false :=
    isSilent_writtenVariables declares modifier
  have notRem : Line.startsWithRem (writtenVariables modifier keyword list) = false :=
    (Bool.or_eq_false_iff.mp isSilent).2
  have span :
      Line.spanCode Instruction.endsInstruction (writtenVariables modifier keyword list) =
        (writtenVariables modifier keyword list, []) :=
    Line.spanFrom_eq_of_snd_eq_nil
      ((isPassed_writtenVariables areWritable declares modifier).notFound none)
  rw [Instruction.split, Instruction.splitFrom_of_last notRem span,
    Instruction.piece_of_visible (by rw [isTrimmed.2]; exact isTrimmed.1), isTrimmed.2]
  rfl

/-- The comment of a declaration of variables is cut off where it was put. -/
theorem splitComment_withComment
    (comment : Option Text) :
    Line.codeText (Line.withComment (writtenVariables modifier keyword list) comment) =
        writtenVariables modifier keyword list ∧
      (Line.splitComment
          (Line.withComment (writtenVariables modifier keyword list) comment)).2 =
        comment.map (Line.commentMarker :: ·) := by
  have isTrimmed := isTrimmed_writtenVariables areWritable isVisible declares modifier
  have passed := isPassed_writtenVariables areWritable declares modifier
  have span :
      Line.spanCode Instruction.endsInstruction (writtenVariables modifier keyword list) =
        (writtenVariables modifier keyword list, []) :=
    Line.spanFrom_eq_of_snd_eq_nil (passed.notFound none)
  have notFound :
      (Line.spanCode Line.isCommentMarker (writtenVariables modifier keyword list)).2 = [] :=
    congrArg Prod.snd (Instruction.spanComment_of_last span)
  have uncut := Line.codeText_of_not_found notFound
  rw [isTrimmed.2] at uncut
  -- Nothing in the declaration ends an instruction, so the comment begins at the marker
  -- written.
  cases comment with
  | none =>
      refine ⟨uncut, ?_⟩
      rw [Line.withComment, Line.splitComment, Line.cutComment_of_not_found notFound]
      rfl
  | some comment =>
      have uncommented := Line.commentOffset?_eq_none_iff.mpr notFound
      have closed : Line.endZone (writtenVariables modifier keyword list) ≠ .string := by
        rw [Line.endZone, passed.endsInCode]
        decide
      have cut :=
        Line.cutComment_append_comment uncommented closed comment
          (.inl (passed.awaitsNothing none))
      have split :
          Line.splitComment
              (Line.withComment (writtenVariables modifier keyword list) (some comment)) =
            (writtenVariables modifier keyword list,
              some (Line.commentMarker :: comment)) := by
        have ends := isTrimmed.2
        rw [Text.trim, isTrimmed.trimStart_eq] at ends
        rw [Line.withComment, Line.splitComment, cut]
        dsimp only
        rw [Text.trimEnd_append_blank (by decide), ends]
      refine ⟨?_, ?_⟩
      · rw [Line.codeText, split, isTrimmed.2]
      · rw [split]
        rfl

/-- The instruction of a declaration declares its list, the comment below the last. -/
theorem readOn_writtenVariables
    (line : Nat)
    (comment : Option Text) :
    DeclarationLine.readOn ⟨line, comment, []⟩ [writtenVariables modifier keyword list] =
      pure
        (.complete
          (Declarator.trees (modifierOf modifier keyword) keyword line
            (comment.elim [] fun text => [Node.leaf .comment text line]) list)) := by
  have isSilent : isSilent (writtenVariables modifier keyword list) = false :=
    isSilent_writtenVariables declares modifier
  have notRem : Line.startsWithRem (writtenVariables modifier keyword list) = false :=
    (Bool.or_eq_false_iff.mp isSilent).2
  have finish :=
    Declarator.finish_declarators areWritable (modifierOf modifier keyword) keyword line
      comment isVisible
  rw [DeclarationLine.readOn, notRem, if_neg Bool.false_ne_true,
    read?_writtenVariables areWritable isVisible declares]
  dsimp only
  rw [DeclarationLine.readOn, List.append_nil, finish]

end Line

end DeclaringInstruction

/-- A line of declarations gives one declaration for each declarator that was written,
in their order and with all of their parts, and the comment belongs to the last. -/
theorem Reading.readLine_writtenVariables
    {list : List Declarator.Parts}
    {keyword : DeclarationKeyword}
    (declares : Node.declaresVariables keyword = true)
    (isVisible : list ≠ [])
    (areWritable : ∀ parts ∈ list, parts.IsWritable)
    (modifier : Option AccessModifier)
    (comment : Option Text)
    (number : Nat)
    {reading : Reading}
    (inDeclarations : reading.place = .declarations) :
    reading.readLine
        ⟨Line.withComment
            (DeclaringInstruction.writtenVariables modifier keyword list) comment,
          number⟩ =
      ⟨[.look number],
        .ok
          { reading with
            declarations :=
              (Declarator.trees (DeclaringInstruction.modifierOf modifier keyword) keyword
                  number
                  (comment.elim [] fun text => [⟨'\'' :: text, number, .comment, []⟩])
                  list).reverse ++
                reading.declarations }⟩ := by
  have isTrimmed := Declarator.isTrimmed_writtenList areWritable isVisible
  have noKeyword := Declarator.leadingWord_writtenList areWritable isVisible
  have led :
      DeclaringInstruction.IsLed (Declarator.writtenList list)
        (DeclaringInstruction.writtenVariables modifier keyword list) :=
    DeclaringInstruction.isLed_writtenVariables declares modifier
  have noSignature := led.noSignature isTrimmed noKeyword
  have isSilent :
      isSilent (DeclaringInstruction.writtenVariables modifier keyword list) = false :=
    DeclaringInstruction.isSilent_writtenVariables declares modifier
  have instructions :=
    DeclaringInstruction.split_writtenVariables areWritable isVisible declares modifier
  have readOn :=
    DeclaringInstruction.readOn_writtenVariables areWritable isVisible declares modifier number
      (comment.map (Line.commentMarker :: ·))
  obtain ⟨code, commented⟩ :=
    DeclaringInstruction.splitComment_withComment areWritable isVisible declares modifier
      comment
  -- From here on only the number, the code and the comment of the line matter.
  generalize shape :
    (⟨Line.withComment (DeclaringInstruction.writtenVariables modifier keyword list) comment,
      number⟩ : Line) = line
  have isNumber : line.number = number := by
    rw [← shape]
  have isCode :
      line.code = DeclaringInstruction.writtenVariables modifier keyword list := by
    rw [← shape]
    exact code
  have isCommented :
      (Line.splitComment line.text).2 = comment.map (Line.commentMarker :: ·) := by
    rw [← shape]
    exact commented
  have reads :
      reading.readLine line =
        (Run.look number).andThen fun _ => reading.readDeclaration line := by
    rw [Reading.readLine, isNumber, inDeclarations, isCode, noSignature]
    rfl
  have declared :
      reading.readDeclaration line =
        pure
          (reading.afterInstructions
            (.complete
              (Declarator.trees (DeclaringInstruction.modifierOf modifier keyword) keyword
                number
                ((comment.map (Line.commentMarker :: ·)).elim [] fun text =>
                  [Node.leaf .comment text number])
                list))) := by
    rw [Reading.readDeclaration, isCode, isSilent, if_neg Bool.false_ne_true, instructions,
      isNumber, isCommented]
    dsimp only
    rw [readOn]
    rfl
  rw [reads, declared, inDeclarations]
  cases comment <;>
    rfl

/-- Keywords that are names, and a value that is full of separators, change nothing. -/
theorem Reading.readLine_writtenVariables_private :
    let counter : Declarator.Parts :=
      ⟨true, "counter#", some "1 To 2, 5", some ⟨true, "Lib.T", none⟩, none⟩
    let text : Declarator.Parts :=
      ⟨false, "WithEvents", none, some ⟨false, "New", some "8"⟩, some "f(1, \"it's: #1#\")"⟩
    (∀ parts ∈ [counter, text], parts.IsWritable) ∧
      Line.withComment
          (DeclaringInstruction.writtenVariables none .private [counter, text])
          (some " see #2") =
        "Private WithEvents counter#(1 To 2, 5) As New Lib.T, WithEvents As New * 8 = f(1, \"it's: #1#\") ' see #2" ∧
      Reading.start.readLine
          ⟨Line.withComment
              (DeclaringInstruction.writtenVariables none .private [counter, text])
              (some " see #2"),
            3⟩ =
        ⟨[.look 3],
          .ok
            ⟨(Declarator.trees (some .private) .private 3 [⟨"' see #2", 3, .comment, []⟩]
                [counter, text]).reverse,
              [], .declarations⟩⟩ := by
  intro counter text
  have counterWritable : counter.IsWritable :=
    { isName := .inr ⟨"counter", '#', rfl, by decide, by decide⟩
      notKeyword := by decide
      isBounds := by
        rintro dimensions ⟨⟩
        simp
      isType := by
        rintro typing ⟨⟩
        exact .inr ⟨"Lib", "T", rfl, by decide, by decide⟩
      isLength := by
        rintro typing ⟨⟩ length ⟨⟩
      isValue := by decide
      isQuiet := by decide }
  have textWritable : text.IsWritable :=
    { isName := .inl (by decide)
      notKeyword := by decide
      isBounds := by decide
      isType := by
        rintro typing ⟨⟩
        exact .inl (by decide)
      isLength := by
        rintro typing ⟨⟩ length ⟨⟩
        exact ⟨by decide, List.all_eq_true.mp (by decide)⟩
      isValue := by decide
      isQuiet := by
        rintro value ⟨⟩ c member
        have quiet :
            (Text.Nesting.top.bare "f(1, \"it's: #1#\")").all
                (fun c => c ∉ ['#', ':', '\'']) =
              true := by
          decide
        exact of_decide_eq_true (List.all_eq_true.mp quiet c member) }
  have areWritable : ∀ parts ∈ [counter, text], parts.IsWritable := by
    simp [counterWritable, textWritable]
  refine ⟨areWritable, by decide +kernel, ?_⟩
  exact
    Reading.readLine_writtenVariables (by decide) (List.cons_ne_nil _ _) areWritable none
      (some " see #2") 3 rfl

end ClassicBasic
