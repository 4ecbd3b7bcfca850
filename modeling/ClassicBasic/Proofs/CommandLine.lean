import ClassicBasic.CommandLine
import ClassicBasic.Proofs.Line.Texts
import ClassicBasic.Proofs.Module.Origin
import ClassicBasic.Proofs.Token.Stream

namespace ClassicBasic

open Node

/-!
# Rows of the output

A tree is printed with one row for each of its nodes, and tokens with one row for
each.  Rows end at line feeds, so no node and no token may hold one in words.  They
take their texts from the lines of a file, which hold none.
-/

/-! ## Tokens in words -/

/-- The name of a kind of token is printed on one line. -/
theorem TokenKind.oneLine_name
    (kind : TokenKind) :
    '\n' ∉ kind.name := by
  unfold name
  split <;>
    decide

/-- A kind that is recognised under a condition has its keyword on one line. -/
theorem TokenKind.oneLine_keyword_of_ite
    {condition : Prop}
    [Decidable condition]
    {recognised kind : TokenKind}
    (oneLine : '\n' ∉ recognised.keyword)
    (recognises : (if condition then some recognised else none) = some kind) :
    '\n' ∉ kind.keyword := by
  obtain ⟨-, same⟩ := Option.ite_none_right_eq_some.mp recognises
  rwa [← Option.some.inj same]

/-- Whatever a matcher recognises an instruction by stands on one line. -/
theorem Matcher.oneLine_keyword
    {matcher : Matcher}
    {text : Text}
    {kind : TokenKind}
    (recognises : matcher.kind? text = some kind) :
    '\n' ∉ kind.keyword := by
  -- A keyword is fixed, from a table, or a run of characters that are no line feeds.
  cases matcher with
  | comment | attributeLine | expression =>
      exact TokenKind.oneLine_keyword_of_ite (by decide) recognises
  | label =>
      obtain ⟨name, -, same⟩ := Option.bind_eq_some_iff.mp recognises
      cases same
      change '\n' ∉ (":" : Text)
      decide
  | declaration =>
      simp only [kind?, declaration?] at recognises
      split at recognises
      · next word found =>
          cases recognises
          have oneLine : ∀ word ∈ declarationWords, '\n' ∉ word := by
            decide
          exact oneLine word (List.mem_of_find?_eq_some found)
      · exact TokenKind.oneLine_keyword_of_ite (by decide) recognises
  | instruction =>
      obtain ⟨isWord, same⟩ := Option.ite_none_right_eq_some.mp recognises
      cases same
      have oneLine : ∀ word ∈ instructionWords, '\n' ∉ word := by
        decide
      exact oneLine _ (List.contains_iff_mem.mp isWord)
  | statement =>
      obtain ⟨word, found, same⟩ := Option.bind_eq_some_iff.mp recognises
      cases same
      have oneLine : ∀ word ∈ statementWords, '\n' ∉ Text.trimEnd word := by
        decide
      exact oneLine word (List.mem_of_find?_eq_some found)
  | procedureCall =>
      simp only [kind?, procedureCall?] at recognises
      split at recognises
      · cases recognises
      · cases recognises
        intro member
        exact absurd (List.mem_takeWhile_imp member) (by decide)

namespace Instruction

/-- The instruction of a segment is made of characters of the segment. -/
theorem mem_of_mem_piece
    {offset : Nat}
    {segment : Text}
    {instruction : Instruction}
    {c : Char}
    (isPiece : instruction ∈ piece offset segment)
    (member : c ∈ instruction.text) :
    c ∈ segment := by
  obtain ⟨-, rfl⟩ := mem_piece_iff.mp isPiece
  exact Text.mem_of_mem_trim member

/-- Instructions have no other characters than their line. -/
theorem mem_of_mem_split
    {text : Text}
    {instruction : Instruction}
    {c : Char}
    (isPart : instruction ∈ split text)
    (member : c ∈ instruction.text) :
    c ∈ text := by
  revert instruction
  refine
    splitFrom_induction
      (motive := fun _ text instructions =>
        ∀ {instruction : Instruction},
          instruction ∈ instructions → c ∈ instruction.text → c ∈ text)
      ?_ ?_ ?_ true 0 text
  · intro offset text instruction isPiece member
    exact mem_of_mem_piece isPiece member
  · intro offset segment behind instruction isPart member
    rcases List.mem_append.mp isPart with isCode | isComment
    · exact List.mem_append_left _ (mem_of_mem_piece isCode member)
    · exact List.mem_append_right _ (mem_of_mem_piece isComment member)
  · intro offset segment rest first later inductionHypothesis instruction isPart member
    rcases List.mem_append.mp isPart with isLed | isLater
    · unfold led at isLed
      split at isLed
      · have inside := mem_of_mem_piece isLed member
        simp only [List.mem_append, List.mem_singleton] at inside
        simp only [List.mem_append, List.mem_cons]
        exact inside.imp id .inl
      · exact List.mem_append_left _ (mem_of_mem_piece isLed member)
    · exact
        List.mem_append_right _
          (List.mem_cons_of_mem _ (inductionHypothesis isLater member))

end Instruction

/-- A token in words stands on one line if its source holds no line feed. -/
theorem Token.oneLine_display
    {source : List Text}
    {matchers : List Matcher}
    {token : Token}
    (oneLine : ∀ text ∈ source, '\n' ∉ text)
    (isToken : token ∈ ofSource matchers source) :
    '\n' ∉ token.display := by
  obtain ⟨line, isLine, onLine⟩ := List.mem_flatMap.mp isToken
  obtain ⟨instruction, isPart, classifies⟩ := List.mem_filterMap.mp onLine
  obtain ⟨matcher, -, accepts⟩ := Matcher.exists_token?_of_classify? classifies
  obtain ⟨recognises, sameText, -⟩ := Matcher.token?_eq_some_iff.mp accepts
  have noBreak := Line.oneLine_of_mem_logical oneLine isLine
  simp only [display, Text.oneLine_concat_cons]
  refine
    ⟨token.kind.oneLine_name, by decide, Matcher.oneLine_keyword recognises, by decide, ?_,
      Text.oneLine_concat_nil⟩
  rw [sameText]
  exact fun member =>
    noBreak (Instruction.mem_of_mem_split isPart (Text.mem_of_mem_trim member))

/-! ## Nodes in words -/

namespace Module

/-- A module is named by one of its attributes, and so stands on one line in words. -/
theorem oneLine_display_root
    {file : Text}
    {source : List Text}
    {header : Header}
    {final : Reading}
    {module : Node}
    (reads : Reads file source header final module) :
    '\n' ∉ module.display := by
  obtain ⟨⟨attributeName, line, payload, children⟩, found, states⟩ :=
    Option.bind_eq_some_iff.mp reads.named
  obtain ⟨number, isFrom⟩ :=
    (Header.placed_of_read reads.readsHeader).isFrom _ (List.mem_of_find?_eq_some found)
  obtain ⟨line, isLine, stands⟩ := isFrom.exists_standsOn
  rw [List.mem_singleton.mp isLine] at stands
  have shown := stands.oneLine List.not_mem_nil
  rw [reads.shape]
  cases payload with
  | attributeLine value quoted =>
      cases states
      simp only [display, Text.oneLine_concat_cons] at shown ⊢
      refine ⟨?_, shown.2.2.2.1, Text.oneLine_concat_nil⟩
      split <;>
        decide
  | _ =>
      cases states

/-- All nodes of a module stand on one line each in words if no line of its source holds
a line feed. -/
theorem oneLine_display_of_parse
    {file : Text}
    {source : List Text}
    {patience : Option Nat}
    {module node : Node}
    (parsed : (parse file source patience).result = .ok module)
    (oneLine : ∀ text ∈ source, '\n' ∉ text)
    (isPart : node ∈ preorder [module]) :
    '\n' ∉ node.display := by
  obtain ⟨header, final, reads⟩ := exists_reads_of_parse parsed
  rcases standsOn_of_mem_preorder reads isPart with
    rfl | ⟨number, stands⟩ | ⟨line, isLine, stands⟩
  · exact oneLine_display_root reads
  · exact stands.oneLine List.not_mem_nil
  · have behind : ∀ text ∈ source.drop header.length, '\n' ∉ text :=
      fun text isText => oneLine text (List.mem_of_mem_drop isText)
    exact stands.oneLine (Line.oneLine_of_mem_logical behind isLine)

end Module

namespace CommandLine

/-! ## Rows -/

/-- Whether a text is one row: its line feed is its last character. -/
def IsRow (text : Text) : Prop :=
  ∃ body, text = body ++ ['\n'] ∧ '\n' ∉ body

/-- The first line feed ends the first row. -/
theorem rows_append_cons
    {body : Text}
    (oneLine : '\n' ∉ body)
    (rest : Text) :
    rows (body ++ '\n' :: rest) = (body ++ ['\n']) :: rows rest := by
  induction body with
  | nil =>
      simp [rows]
  | cons c body inductionHypothesis =>
      obtain ⟨visible, noLater⟩ := not_or.mp (List.mem_cons.not.mp oneLine)
      rw [List.cons_append, rows, if_neg (Ne.symm visible), inductionHypothesis noLater]
      rfl

/-- What is printed row by row has these rows. -/
theorem rows_concat
    {printed : List Text}
    (areRows : ∀ row ∈ printed, IsRow row) :
    rows (Text.concat printed) = printed := by
  induction printed with
  | nil =>
      rfl
  | cons row rest inductionHypothesis =>
      obtain ⟨isRow, others⟩ := List.forall_mem_cons.mp areRows
      obtain ⟨body, rfl, oneLine⟩ := isRow
      rw [Text.concat_cons, List.append_assoc, List.singleton_append,
        rows_append_cons oneLine, inductionHypothesis others]

/-- Only the last row of a text can lack a line feed. -/
theorem isRow_or_of_mem_rows
    {text row : Text}
    (isRow : row ∈ rows text) :
    IsRow row ∨ '\n' ∉ row := by
  induction text generalizing row with
  | nil =>
      cases isRow
  | cons c rest inductionHypothesis =>
      unfold rows at isRow
      split at isRow
      · next isFeed =>
          subst isFeed
          rcases List.mem_cons.mp isRow with rfl | isLater
          · exact .inl ⟨[], rfl, List.not_mem_nil⟩
          · exact inductionHypothesis isLater
      · next visible =>
          have notFirst : '\n' ≠ c := Ne.symm visible
          split at isRow
          · rw [List.mem_singleton.mp isRow]
            exact .inr (by simpa using notFirst)
          · next first others isFirst =>
              rw [isFirst] at inductionHypothesis
              rcases List.mem_cons.mp isRow with rfl | isLater
              · rcases inductionHypothesis List.mem_cons_self with
                  ⟨body, rfl, oneLine⟩ | oneLine
                · exact .inl ⟨c :: body, rfl, by simp [notFirst, oneLine]⟩
                · exact .inr (by simp [notFirst, oneLine])
              · exact inductionHypothesis (List.mem_cons_of_mem _ isLater)

/-- The lines of a file hold no line feed. -/
theorem oneLine_of_mem_lines
    {text line : Text}
    (isLine : line ∈ lines text) :
    '\n' ∉ line := by
  obtain ⟨row, isRow, rfl⟩ := List.mem_map.mp isLine
  have opens := isRow_or_of_mem_rows isRow
  unfold withoutEnding
  split
  · next ending =>
      rcases opens with ⟨body, rfl, -⟩ | oneLine
      · have feed : body ++ ['\n'] = body ++ ("\n" : Text) := by
          simp
        rw [Text.before?_eq_some_iff.mpr feed] at ending
        cases ending
      · exact oneLine
  · next body ending =>
      obtain rfl := Text.before?_eq_some_iff.mp ending
      have oneLine : '\n' ∉ body := by
        rcases opens with ⟨other, same, oneLine⟩ | oneLine
        · rwa [List.append_cancel_right same]
        · exact fun member => oneLine (List.mem_append_left _ member)
      cases returns : Text.before? "\r" body with
      | none =>
          exact oneLine
      | some front =>
          rw [Text.before?_eq_some_iff.mp returns] at oneLine
          exact fun member => oneLine (List.mem_append_left _ member)

/-! ## Printed rows -/

/-- A number is printed on one line. -/
theorem oneLine_nat
    (value : Nat) :
    '\n' ∉ (toString value).toList := by
  rw [Text.toList_toString_nat]
  exact fun member => absurd (Text.isDigit_of_mem_toDigits member) (by decide)

/-- Spaces do not leave the line. -/
theorem oneLine_spaces
    (count : Nat) :
    '\n' ∉ List.replicate count ' ' :=
  fun member => absurd (List.eq_of_mem_replicate member) (by decide)

/-- Filling a text up on the left leaves it on its line. -/
theorem oneLine_padLeft
    {text : Text}
    (oneLine : '\n' ∉ text)
    (width : Nat) :
    '\n' ∉ padLeft width text :=
  fun member => (List.mem_append.mp member).elim (oneLine_spaces _) oneLine

/-- Filling a text up on the right leaves it on its line. -/
theorem oneLine_padRight
    {text : Text}
    (oneLine : '\n' ∉ text)
    (width : Nat) :
    '\n' ∉ padRight width text :=
  fun member => (List.mem_append.mp member).elim oneLine (oneLine_spaces _)

/-- Parts without a line feed make one row with the line feed behind them. -/
theorem isRow_concat
    {parts : List Text}
    (oneLine : '\n' ∉ Text.concat parts) :
    IsRow (Text.concat (parts ++ [("\n" : Text)])) :=
  ⟨Text.concat parts, by simp [Text.concat], oneLine⟩

/-- A token is printed as one row if what it shows is on one line. -/
theorem isRow_tokenLine
    {token : Token}
    (oneLine : '\n' ∉ token.display) :
    IsRow (tokenLine token) := by
  have body :
      '\n' ∉
        Text.concat
          [padLeft 5 (toString token.location.line), ":",
            padRight 3 (toString token.location.column), " ", token.display] := by
    simp only [Text.oneLine_concat_cons]
    exact
      ⟨oneLine_padLeft (oneLine_nat _) 5, by decide, oneLine_padRight (oneLine_nat _) 3,
        by decide, oneLine, Text.oneLine_concat_nil⟩
  exact isRow_concat body

/-- A node is printed as one row if what it shows is on one line. -/
theorem isRow_nodeLine
    {visit : Nat × Node}
    (oneLine : '\n' ∉ visit.2.display) :
    IsRow (nodeLine visit) := by
  have body :
      '\n' ∉
        Text.concat
          [padLeft 5 (toString visit.2.line), " ", List.replicate (2 * visit.1) ' ',
            visit.2.display] := by
    simp only [Text.oneLine_concat_cons]
    exact
      ⟨oneLine_padLeft (oneLine_nat _) 5, by decide, oneLine_spaces _, oneLine,
        Text.oneLine_concat_nil⟩
  exact isRow_concat body

/-! ## Responses -/

/-- A text that is written in UTF-8 is read back. -/
theorem decode_toUTF8
    (text : String) :
    decode text.toUTF8 = .ok text.toList := by
  have valid : text.toUTF8.IsValidUTF8 := text.isValidUTF8
  rw [decode, String.fromUTF8?, dif_pos valid]
  rfl

section

variable
  {options : Options}
  {source : List Text}
  (oneLine : ∀ text ∈ source, '\n' ∉ text)
include oneLine

/-- Tokens are printed whatever the source is, one a row. -/
theorem printLines_tokens
    (tokens : options.tokens = true) :
    (printLines options source).exit = 0 ∧
      rows (printLines options source).output =
        (Token.ofSource Matcher.table source).map tokenLine := by
  rw [printLines, if_pos tokens]
  refine ⟨rfl, rows_concat ?_⟩
  intro row isPrinted
  obtain ⟨token, isToken, rfl⟩ := List.mem_map.mp isPrinted
  exact isRow_tokenLine (Token.oneLine_display oneLine isToken)

/-- The rows of a tree are its nodes. -/
theorem rows_printModule
    {file : Text}
    {patience : Option Nat}
    {module : Node}
    (parsed : (Module.parse file source patience).result = .ok module) :
    rows (printModule module .tree) = module.walk.map nodeLine := by
  refine rows_concat fun row isPrinted => ?_
  obtain ⟨visit, isVisit, rfl⟩ := List.mem_map.mp isPrinted
  have isPart : visit.2 ∈ preorder [module] := by
    rw [← map_snd_walk]
    exact List.mem_map_of_mem isVisit
  exact isRow_nodeLine (Module.oneLine_display_of_parse parsed oneLine isPart)

end

/-- What a file of text is answered with.  Its tokens are printed one a row.  Its tree
is printed one node a row, in walking order and indented by depth, or not at all: where
the file is no module, nothing is printed in any format. -/
theorem respond_print
    {content : ByteArray}
    {text : Text}
    (decoded : decode content = .ok text)
    (options : Options) :
    let source := lines text
    let response := respond (.print options) (.ok content)
    (options.tokens = true →
        response.exit = 0 ∧
          rows response.output = (Token.ofSource Matcher.table source).map tokenLine) ∧
      (options.tokens = false →
        match (Module.parse (displayName options.file) source none).result with
        | .error _ =>
            response.exit = 1 ∧ response.output = []
        | .ok module =>
            response.exit = 0 ∧
              (options.format = .tree →
                (rows response.output).length = module.count ∧
                  (rows response.output =
                    module.walk.map fun (depth, node) =>
                      padLeft 5 (toString node.line) ++ ' ' ::
                        (List.replicate (2 * depth) ' ' ++ (node.display ++ ['\n']))) ∧
                  module.walk.map (·.2) = preorder [module] ∧
                  ∀ node ∈ preorder [module], '\n' ∉ node.display)) := by
  intro source response
  have oneLine : ∀ line ∈ source, '\n' ∉ line :=
    fun line isLine => oneLine_of_mem_lines isLine
  have answers : response = printLines options source := by
    change printFile options (.ok content) = _
    simp only [printFile, Except.bind, decoded]
    rfl
  rw [answers]
  refine ⟨printLines_tokens oneLine, fun noTokens => ?_⟩
  rw [printLines, if_neg (by simp [noTokens])]
  split
  · next fault failed =>
      rw [failed]
      exact ⟨rfl, rfl⟩
  · next module parsed =>
      rw [parsed]
      refine ⟨rfl, fun isTree => ?_⟩
      have printed := rows_printModule oneLine parsed
      dsimp only [succeed]
      rw [isTree, printed]
      refine ⟨?_, ?_, map_snd_walk module, fun node isPart => ?_⟩
      · rw [List.length_map, length_walk]
      · refine List.map_congr_left fun visit _ => ?_
        simp [nodeLine, Text.concat]
      · exact Module.oneLine_display_of_parse parsed oneLine isPart

/-- A module in which one line goes on behind a carriage return. -/
theorem respond_print_continued :
    let text := "Attribute VB_Name = \"A\"\r\nDim x _\r\n As Long 'a\nSub S()\nEnd Sub"
    let response (tokens : Bool) : Response :=
      respond (.print ⟨"b/A.bas", tokens, .tree⟩) (.ok text.toUTF8)
    let tree : List Text :=
      ["    1 Module A\n", "    1   Attribute VB_Name = A\n",
        "    2   Declaration Dim x\n", "    2     Identifier x\n",
        "    2       TypeReference Long\n", "    2     Comment 'a\n",
        "    4   Method Sub S\n", "    4     Identifier S\n", "    4     CodeBlock S\n"]
    let tokens : List Text :=
      ["    1:1   Attribute: [Attribute] Attribute VB_Name = \"A\"\n",
        "    2:1   Declaration: [Dim] Dim x As Long\n", "    2:15  Comment: ['] 'a\n",
        "    4:1   Declaration: [Sub] Sub S()\n",
        "    5:1   Instruction: [End] End Sub\n"]
    decode text.toUTF8 = .ok text.toList ∧
      (response false).exit = 0 ∧ rows (response false).output = tree ∧
        (response true).exit = 0 ∧ rows (response true).output = tokens := by
  intro text response tree tokens
  have decoded := decode_toUTF8 text
  obtain ⟨tokensExit, tokenRows⟩ :=
    (respond_print decoded ⟨"b/A.bas", true, .tree⟩).1 rfl
  have printed := (respond_print decoded ⟨"b/A.bas", false, .tree⟩).2 rfl
  have views :
      (Module.parse (displayName "b/A.bas") (lines text.toList) none).result.map
          (fun module =>
            module.walk.map fun (depth, node) =>
              padLeft 5 (toString node.line) ++ ' ' ::
                (List.replicate (2 * depth) ' ' ++ (node.display ++ ['\n']))) =
        .ok tree := by
    decide +kernel
  obtain ⟨module, parsed, seen⟩ := Run.exists_ok_of_map views
  rw [parsed] at printed
  obtain ⟨treeExit, inTree⟩ := printed
  obtain ⟨-, treeRows, -⟩ := inTree rfl
  have seenTokens :
      (Token.ofSource Matcher.table (lines text.toList)).map tokenLine = tokens := by
    decide +kernel
  exact ⟨decoded, treeExit, treeRows.trans seen, tokensExit, tokenRows.trans seenTokens⟩

end CommandLine

end ClassicBasic
