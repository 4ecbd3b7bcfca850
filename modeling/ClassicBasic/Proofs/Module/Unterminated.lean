import ClassicBasic.Proofs.Header
import ClassicBasic.Proofs.Line.Layout
import ClassicBasic.Proofs.Module.Cancelling
import ClassicBasic.Proofs.Reading.Unclosed
import ClassicBasic.Proofs.Session

namespace ClassicBasic

/-!
# Unterminated blocks

A source that ends inside a block is read to its end, and then it fails with the
innermost block that is open there.  The terminator of that block on one more
line closes it.  So the longer source is a module, or it has no name, or it
fails with a block that was opened on no later line.
-/

/-! ## Terminators -/

namespace Terminator

/-- A terminator stands on a line of its own as it is spelled. -/
theorem isWhole_text
    (terminator : Terminator) :
    Text.trim terminator.text = terminator.text ∧
      terminator.text ≠ [] ∧ Line.continued? terminator.text = none := by
  rcases terminator with _ | _ | _ | ⟨_ | _⟩ | _ | _ <;>
    decide

/-- The text of a terminator is its own code. -/
theorem code_text
    (terminator : Terminator)
    (number : Nat) :
    Line.code ⟨terminator.text, number⟩ = terminator.text := by
  have same : Line.codeText terminator.text = terminator.text := by
    rcases terminator with _ | _ | _ | ⟨_ | _⟩ | _ | _ <;>
      decide
  exact same

end Terminator

/-! ## Modules -/

namespace Module

variable
  {file : Text}
  {source : List Text}
  {header : Header}
  {final : Reading}

/-- One more line behind a header is a logical line of its own. -/
theorem bodyLines_concat
    (readsHeader : (Header.read source).result = .ok header)
    (ends :
      ∀ last ∈ source.getLast?,
        Text.trim last ≠ [] ∧ Line.continued? (Text.trim last) = none)
    (terminator : Terminator) :
    bodyLines (source ++ [terminator.text]) header =
      bodyLines source header ++ [⟨terminator.text, source.length + 1⟩] := by
  have inside := Header.length_le_of_read readsHeader
  obtain ⟨trimmed, visible, complete⟩ := terminator.isWhole_text
  have endsBehind :
      ∀ last ∈ (source.drop header.length).getLast?,
        Text.trim last ≠ [] ∧ Line.continued? (Text.trim last) = none := by
    intro last isLast
    rw [List.getLast?_drop] at isLast
    split at isLast
    · cases isLast
    · exact ends last isLast
  have number :
      header.length + 1 + (source.drop header.length).length = source.length + 1 := by
    rw [List.length_drop]
    omega
  rw [bodyLines, List.drop_append_of_le_length inside,
    Line.logical_concat endsBehind trimmed visible complete, number]
  rfl

/-- A parse that comes to the end of its source ends with a module, or without a
name for it, or with a block that was opened up to a given line. -/
inductive EndsBy (file : Text) (openedAt : Nat) : Except FileFault Node → Prop where
  | complete
      (module : Node) :
      EndsBy file openedAt (.ok module)
  | unnamed :
      EndsBy file openedAt (.error (.inFile file .missingModuleName))
  | unterminated
      {terminator : Terminator}
      {line : Nat}
      (earlier : line ≤ openedAt) :
      EndsBy file openedAt
        (.error (.inFile file (.unterminatedBlock terminator line)))

/-- A source whose lines leave nothing open behind a given line ends by that
line. -/
theorem endsBy_of_lines
    {openedAt : Nat}
    (readsHeader : (Header.read source).result = .ok header)
    (readsLines :
      (Reading.start.readLines (bodyLines source header)).result = .ok final)
    (earlier :
      ∀ innermost outer,
        final.place.unclosed = innermost :: outer → innermost.line ≤ openedAt) :
    EndsBy file openedAt (parse file source none).result := by
  have whole := result_read_of_lines readsHeader readsLines file
  simp only [parse, Run.observe_none, whole, final.finish_eq]
  cases unclosed : final.place.unclosed with
  | nil =>
      cases name? header.attributes with
      | none =>
          exact .unnamed
      | some name =>
          exact .complete _
  | cons innermost outer =>
      exact .unterminated (earlier innermost outer unclosed)

/-- What can stop a parse: it is cancelled, or it fails with its header, with the
innermost block that is open at the end of its source, or for want of a name. -/
inductive StopsBy (source : List Text) : Fault → Prop where
  | cancelled
      (line : Nat) :
      StopsBy source (.cancelled line)
  | header
      {fault : Fault}
      (fails : (Header.read source).result = .error fault) :
      StopsBy source fault
  | unterminated
      {header : Header}
      {final : Reading}
      {terminator : Terminator}
      {openedAt : Nat}
      {outer : List Unclosed}
      (readsHeader : (Header.read source).result = .ok header)
      (readsLines :
        (Reading.start.readLines (bodyLines source header)).result = .ok final)
      (unclosed : final.place.unclosed = ⟨terminator, openedAt⟩ :: outer) :
      StopsBy source (.unterminatedBlock terminator openedAt)
  | unnamed
      {header : Header}
      (readsHeader : (Header.read source).result = .ok header)
      (noName : name? header.attributes = none) :
      StopsBy source .missingModuleName

/-- A reading that fails does so for one of the listed reasons. -/
theorem stopsBy_of_read
    {fault : Fault}
    (fails : (read file source).result = .error fault) :
    StopsBy source fault := by
  cases readsHeader : (Header.read source).result with
  | error other =>
      rw [result_read_of_fault file readsHeader] at fails
      cases fails
      exact .header readsHeader
  | ok header =>
      obtain ⟨final, readsLines⟩ :=
        Reading.start.exists_readLines (bodyLines source header)
      rw [result_read_of_lines readsHeader readsLines, final.finish_eq] at fails
      cases unclosed : final.place.unclosed with
      | nil =>
          rw [unclosed] at fails
          cases named : name? header.attributes with
          | none =>
              rw [named] at fails
              cases fails
              exact .unnamed readsHeader named
          | some name =>
              rw [named] at fails
              cases fails
      | cons innermost outer =>
          rw [unclosed] at fails
          cases fails
          exact .unterminated readsHeader readsLines unclosed

/-- A parse that fails does so for one of the listed reasons. -/
theorem stopsBy_of_parse
    {patience : Option Nat}
    {failure : FileFault}
    (fails : (parse file source patience).result = .error failure) :
    StopsBy source failure.fault := by
  rcases read_fails_of_parse fails with whole | ⟨line, isCancelled⟩
  · exact stopsBy_of_read whole
  · rw [isCancelled]
    exact .cancelled line

/-- Only a source that is read to its end fails with an unterminated block, and
it is the innermost of those that are open. -/
theorem exists_unclosed_of_parse
    {patience : Option Nat}
    {failure : FileFault}
    {terminator : Terminator}
    {openedAt : Nat}
    (fails : (parse file source patience).result = .error failure)
    (unterminated : failure.fault = .unterminatedBlock terminator openedAt) :
    ∃ header final outer,
      (Header.read source).result = .ok header ∧
        (Reading.start.readLines (bodyLines source header)).result = .ok final ∧
        final.place.unclosed = ⟨terminator, openedAt⟩ :: outer := by
  have stops := stopsBy_of_parse fails
  rw [unterminated] at stops
  cases stops with
  | header failsHeader =>
      obtain ⟨line, text, reason, same⟩ :=
        Header.failsMalformed_read source _ failsHeader
      cases same
  | unterminated readsHeader readsLines unclosed =>
      exact ⟨_, _, _, readsHeader, readsLines, unclosed⟩

/-- With the terminator of the innermost block behind it, a source ends with
nothing that was opened on a later line. -/
theorem endsBy_parse_concat
    {innermost : Unclosed}
    {outer : List Unclosed}
    (readsHeader : (Header.read source).result = .ok header)
    (readsLines :
      (Reading.start.readLines (bodyLines source header)).result = .ok final)
    (unclosed : final.place.unclosed = innermost :: outer)
    (ends :
      ∀ last ∈ source.getLast?,
        Text.trim last ≠ [] ∧ Line.continued? (Text.trim last) = none)
    (file : Text) :
    EndsBy file innermost.line
      (parse file (source ++ [innermost.terminator.text]) none).result := by
  let closing : Line := ⟨innermost.terminator.text, source.length + 1⟩
  have stacked :=
    Reading.Stacked.readLines readsLines (Line.logical_increasing _ _)
  obtain ⟨next, readsClosing⟩ := final.exists_readLine closing
  have readsLonger :
      (Reading.start.readLines
          (bodyLines (source ++ [innermost.terminator.text]) header)).result =
        .ok next := by
    rw [bodyLines_concat readsHeader ends]
    exact Reading.readLines_concat_eq_ok_iff.mpr ⟨final, readsLines, readsClosing⟩
  apply endsBy_of_lines (Header.read_append readsHeader _) readsLonger
  intro uncovered rest still
  exact
    stacked.le_of_closes (Reading.advances_of_readLine readsClosing) unclosed
      (innermost.terminator.code_text _) still

end Module

/-! ## Sessions -/

namespace Session

/-- Unless it is cancelled, a reading takes all lines behind the header. -/
theorem readBody_cancelled_or_atEnd
    (session : Session)
    (moment : Option Nat)
    (log : List Event)
    (header : Header) :
    (∃ line,
        (session.readBody moment log header).1.result =
          .error (.inFile session.file (.cancelled line))) ∨
      (session.readBody moment log header).2.cursor.lines =
          Module.bodyLines session.source header ∧
        (session.readBody moment log header).2.cursor.position =
          (Module.bodyLines session.source header).length := by
  have ends :=
    (session.cursor.inFrontOf
        (Line.logical (header.length + 1)
          (session.source.drop header.length))).readLines_cancelled_or_atEnd
      (Run.remaining (session.patience moment) log) .start (Nat.zero_le _)
  simp only [readBody]
  rcases ends with ⟨line, stops⟩ | ⟨⟨final, reads⟩, sameLines, atEnd⟩
  · left
    rw [stops]
    exact ⟨line, rfl⟩
  · right
    rw [reads]
    exact ⟨sameLines, atEnd⟩

/-- A reading that fails with an open block has consumed all lines. -/
theorem cursor_of_unterminated
    {session : Session}
    {moment : Option Nat}
    {header : Header}
    {failure : FileFault}
    {terminator : Terminator}
    {openedAt : Nat}
    (fails : (session.read moment).1.result = .error failure)
    (unterminated : failure.fault = .unterminatedBlock terminator openedAt)
    (readsHeader : (Header.read session.source).result = .ok header) :
    (session.read moment).2.cursor.lines = Module.bodyLines session.source header ∧
      (session.read moment).2.cursor.position =
        (Module.bodyLines session.source header).length := by
  have readsStart : session.readHeader.result = .ok header := readsHeader
  have notCancelled :
      ∀ line, .error (FileFault.inFile session.file (.cancelled line)) ≠
        (.error failure : Except FileFault Node) := by
    intro line same
    cases same
    cases unterminated
  unfold read at fails ⊢
  cases seen : session.readHeader.observe (session.patience moment) with
  | mk log result =>
      rw [seen] at fails
      have seenResult := congrArg Prod.snd seen
      cases result with
      | error fault =>
          rcases Run.result_or_cancelled_of_observe_eq_error seenResult with
            isFault | ⟨line, rfl⟩
          · rw [readsStart] at isFault
            cases isFault
          · exact (notCancelled line fails).elim
      | ok found =>
          have same := Run.result_of_observe_eq_ok seenResult
          rw [readsStart] at same
          cases same
          apply (session.readBody_cancelled_or_atEnd moment log header).resolve_left
          rintro ⟨line, stops⟩
          exact notCancelled line (stops.symm.trans fails)

/-- A reading that fails with an unterminated block tells the line that opens
the block, and it has come to the end of its lines.  If the last physical line
is visible and has no continuation marker, the terminator behind it makes the
parse end with a module, without a name for it, or with a block that was opened
no later. -/
theorem located_of_unterminated
    {session : Session}
    {moment : Option Nat}
    {failure : FileFault}
    {terminator : Terminator}
    {openedAt : Nat}
    (fails : (session.read moment).1.result = .error failure)
    (unterminated : failure.fault = .unterminatedBlock terminator openedAt) :
    failure.fault.line = openedAt ∧
      ∃ header,
        (Header.read session.source).result = .ok header ∧
          (∃ line ∈ Module.bodyLines session.source header,
            line.number = openedAt ∧ line.Opens terminator) ∧
          (session.read moment).2.cursor.lines =
            Module.bodyLines session.source header ∧
          (session.read moment).2.cursor.position =
            (Module.bodyLines session.source header).length ∧
          ((∀ last ∈ session.source.getLast?,
              Text.trim last ≠ [] ∧ Line.continued? (Text.trim last) = none) →
            Module.EndsBy session.file openedAt
              (Module.parse session.file (session.source ++ [terminator.text])
                none).result) := by
  have failsParse := fails
  rw [fst_read] at failsParse
  obtain ⟨header, final, outer, readsHeader, readsLines, unclosed⟩ :=
    Module.exists_unclosed_of_parse failsParse unterminated
  obtain ⟨sameLines, atEnd⟩ := cursor_of_unterminated fails unterminated readsHeader
  have stacked :=
    Reading.Stacked.readLines readsLines (Line.logical_increasing _ _)
  refine ⟨?_, header, readsHeader, ?_, sameLines, atEnd, ?_⟩
  · rw [unterminated]
    rfl
  · apply stacked.opened ⟨terminator, openedAt⟩
    rw [unclosed]
    exact List.mem_cons_self
  · intro ends
    exact Module.endsBy_parse_concat readsHeader readsLines unclosed ends session.file

/-- A line opens a type and then an enumeration, and neither is closed.  With the
terminator of the type behind it, the source fails with the enumeration. -/
theorem located_of_unterminated_sharedLine :
    let source : List Text :=
      ["Attribute VB_Name = \"A\"", "Type T: Enum E", "x As Long"]
    let session := Session.named "A.bas" source
    (session.read none).1.result = .error ⟨"A.bas", .unterminatedBlock .endType 2⟩ ∧
      (Fault.unterminatedBlock .endType 2).line = 2 ∧
      (∃ header,
        (Header.read source).result = .ok header ∧
          (∃ line ∈ Module.bodyLines source header,
            line.number = 2 ∧ line.Opens .endType) ∧
          (session.read none).2.cursor.lines = Module.bodyLines source header ∧
          (session.read none).2.cursor.position =
            (Module.bodyLines source header).length ∧
          Module.EndsBy "A.bas" 2
            (Module.parse "A.bas" (source ++ [Terminator.endType.text]) none).result) ∧
      (Module.parse "A.bas" (source ++ [Terminator.endType.text]) none).result =
        .error ⟨"A.bas", .unterminatedBlock .endEnum 2⟩ := by
  intro source session
  have views :
      (Module.parse "A.bas" source none).result.map (fun module => module.name) =
        .error ⟨"A.bas", .unterminatedBlock .endType 2⟩ := by
    decide +kernel
  have viewsLonger :
      (Module.parse "A.bas" (source ++ [Terminator.endType.text]) none).result.map
          (fun module => module.name) =
        .error ⟨"A.bas", .unterminatedBlock .endEnum 2⟩ := by
    decide +kernel
  have fails :
      (session.read none).1.result =
        .error ⟨"A.bas", .unterminatedBlock .endType 2⟩ := by
    rw [fst_read]
    exact Run.eq_error_of_map views
  obtain ⟨sameLine, header, readsHeader, opens, sameLines, atEnd, closes⟩ :=
    located_of_unterminated fails rfl
  exact
    ⟨fails, sameLine,
      ⟨header, readsHeader, opens, sameLines, atEnd, closes (by decide)⟩,
      Run.eq_error_of_map viewsLonger⟩

end Session

end ClassicBasic
