import ClassicBasic.Proofs.Header
import ClassicBasic.Proofs.Reading
import ClassicBasic.Proofs.Reading.Quiet

namespace ClassicBasic

/-!
# Cancelling only truncates

The header of a module is read without any look, and every line behind it is
looked at before anything else is done with it.  So a cancelled reading stops
between two lines behind the header, with all that was reported up to there.
-/

/-! ## Lines -/

namespace Reading

/-- Opening a member looks nowhere. -/
theorem looks_openMember
    (reading : Reading)
    (signature : Signature)
    (line : Line) :
    (reading.openMember signature line).looks = [] := by
  simp [openMember, OpenMember.ofSignature]

/-- A line between members is read without a look of its own. -/
theorem looks_readOutside
    (reading : Reading)
    (line : Line) :
    (reading.readOutside line).looks = [] := by
  unfold readOutside
  split
  · rfl
  · split
    · exact looks_openMember _ _ _
    · simp

/-- A line is looked at before it is read.  Only the signature that ends the
declarations is looked at again. -/
theorem looks_readLine
    (reading : Reading)
    (line : Line) :
    (reading.readLine line).looks = [line.number] ∨
      (reading.readLine line).looks = [line.number, line.number] := by
  unfold readLine
  rw [Run.looks_look_bind]
  split
  · split
    · right
      simp [endDeclarations, looks_openMember]
    · left
      rw [(reading.isQuiet_readDeclaration line).looks_eq]
  · left
    rw [(reading.isQuiet_readBlock _ _ _ line).looks_eq]
  · left
    rw [looks_readOutside]
  · left
    rw [(reading.isQuiet_readMember _ line).looks_eq]

/-- Lines in a row are looked at nowhere else. -/
theorem mem_looks_readLines
    {reading : Reading}
    {lines : List Line}
    {number : Nat}
    (isLook : number ∈ (reading.readLines lines).looks) :
    ∃ line ∈ lines, line.number = number := by
  induction lines generalizing reading with
  | nil =>
      simp [readLines] at isLook
  | cons line rest inductionHypothesis =>
      unfold readLines at isLook
      rw [Run.looks_bind, List.mem_append] at isLook
      rcases isLook with isFirst | isLater
      · refine ⟨line, by simp, ?_⟩
        rcases looks_readLine reading line with once | twice
        · rw [once] at isFirst
          simpa [eq_comm] using isFirst
        · rw [twice] at isFirst
          simpa [eq_comm] using isFirst
      · split at isLater
        · next next _ =>
            obtain ⟨later, isRest, same⟩ := inductionHypothesis isLater
            exact ⟨later, List.mem_cons_of_mem line isRest, same⟩
        · simp at isLater

/-- A reading of lines looks at the first of them first. -/
theorem looks_readLines_cons
    (reading : Reading)
    (line : Line)
    (rest : List Line) :
    ∃ later, (reading.readLines (line :: rest)).looks = line.number :: later := by
  unfold readLines
  rw [Run.looks_bind]
  rcases looks_readLine reading line with once | twice
  · exact ⟨_, by rw [once, List.singleton_append]⟩
  · exact ⟨_, by rw [twice, List.cons_append]⟩

end Reading

/-! ## Modules -/

namespace Module

variable
  {source : List Text}
  {header : Header}
  {fault : Fault}

/-- The looks of a reading are those at the lines behind the header. -/
theorem looks_read_of_header
    (file : Text)
    (readsHeader : (Header.read source).result = .ok header) :
    (read file source).looks =
      (Reading.start.readLines (bodyLines source header)).looks := by
  unfold read
  rw [Run.looks_report_bind, Run.looks_bind_of_ok readsHeader,
    (Header.isQuiet_read source).looks_eq, List.nil_append, Run.looks_bind_of_no_later]
  · exact Run.looks_bind_of_no_later fun reading => rfl
  · intro nodes
    dsimp only
    split <;>
      rfl

/-- A reading that stops in the header looks nowhere. -/
theorem looks_read_of_fault
    (file : Text)
    (fails : (Header.read source).result = .error fault) :
    (read file source).looks = [] := by
  unfold read
  rw [Run.looks_report_bind, Run.looks_bind, (Header.isQuiet_read source).looks_eq, fails,
    List.nil_append]

/-- A reading that stops in the header ends with the fault of the header. -/
theorem result_read_of_fault
    (file : Text)
    (fails : (Header.read source).result = .error fault) :
    (read file source).result = .error fault := by
  unfold read
  rw [Run.result_report_bind, Run.result_bind, fails]
  rfl

/-- A line that a reading looks at stands behind a header that is read. -/
theorem exists_line_of_looks_read
    {file : Text}
    {number : Nat}
    (isLook : number ∈ (read file source).looks) :
    ∃ header,
      (Header.read source).result = .ok header ∧
        ∃ line ∈ bodyLines source header, line.number = number := by
  cases readsHeader : (Header.read source).result with
  | error fault =>
      rw [looks_read_of_fault file readsHeader] at isLook
      simp at isLook
  | ok header =>
      rw [looks_read_of_header file readsHeader] at isLook
      exact ⟨header, rfl, Reading.mem_looks_readLines isLook⟩

/-- Cancelling a parse only truncates it.  Either nothing changes, or the parse
stops at a line behind the header with a beginning of its events, which holds
those up to the moment of cancellation.  Cancelled from the start, it stops at
the first line behind a header that can be read, and otherwise at the same line
of the header as ever. -/
theorem parse_cancelled
    (file : Text)
    (source : List Text)
    (patience : Nat) :
    (parse file source (some patience) = parse file source none ∨
        ∃ header,
          (Header.read source).result = .ok header ∧
            ∃ line ∈ bodyLines source header,
              (parse file source (some patience)).result =
                  .error (.inFile file (.cancelled line.number)) ∧
                (parse file source (some patience)).log <+:
                  (parse file source none).log ∧
                patience ≤ (parse file source (some patience)).log.length) ∧
      (∀ header first rest,
        (Header.read source).result = .ok header →
          bodyLines source header = first :: rest →
            (parse file source (some 0)).result =
              .error (.inFile file (.cancelled first.number))) ∧
      (∀ fault,
        (Header.read source).result = .error fault →
          Header.IsMalformed fault ∧
            (parse file source none).result = .error (.inFile file fault) ∧
            parse file source (some 0) = parse file source none) := by
  refine ⟨?_, ?_, ?_⟩
  · rcases Run.observe_some patience (read file source) with
      same | ⟨log, number, stops, isLook, isBeginning, enough⟩
    · left
      simp only [parse, same]
    · right
      obtain ⟨header, readsHeader, line, isLine, rfl⟩ :=
        exists_line_of_looks_read isLook
      refine ⟨header, readsHeader, line, isLine, ?_, ?_, ?_⟩
      · simp only [parse, stops, Except.mapError]
      · simpa only [parse, stops, Run.observe_none] using isBeginning
      · simpa only [parse, stops] using enough
  · intro header first rest readsHeader lines
    obtain ⟨later, looksFirst⟩ :=
      Reading.looks_readLines_cons Reading.start first rest
    have looks := looks_read_of_header file readsHeader
    rw [lines, looksFirst] at looks
    simp only [parse, Run.observe_zero_of_looks looks, Except.mapError]
  · intro fault fails
    have noLooks := looks_read_of_fault file fails
    refine ⟨Header.failsMalformed_read source fault fails, ?_, ?_⟩
    · simp only [parse, Run.observe_none, result_read_of_fault file fails,
        Except.mapError]
    · simp only [parse, Run.observe_zero_of_no_looks noLooks]

/-- A method is cut at its first line, or at the line behind the event that
comes with the moment of cancellation; an empty source has no header, and
cancelling does not change what is said of it. -/
theorem parse_cancelled_method :
    let source : List Text :=
      ["Attribute VB_Name = \"A\"", "Sub A()", "y = 1", "End Sub"]
    (parse "A.bas" source (some 0)).result = .error ⟨"A.bas", .cancelled 2⟩ ∧
      (∃ header,
        (Header.read source).result = .ok header ∧
          ∃ line ∈ bodyLines source header,
            (parse "A.bas" source (some 3)).result =
                .error (.inFile "A.bas" (.cancelled line.number)) ∧
              (parse "A.bas" source (some 3)).log <+: (parse "A.bas" source none).log ∧
              3 ≤ (parse "A.bas" source (some 3)).log.length) ∧
      parse "A.bas" [] (some 0) = parse "A.bas" [] none := by
  intro source
  have viewsLines :
      (Header.read source).result.map (bodyLines source) =
        .ok [⟨"Sub A()", 2⟩, ⟨"y = 1", 3⟩, ⟨"End Sub", 4⟩] := by
    decide +kernel
  obtain ⟨header, readsHeader, lines⟩ := Run.exists_ok_of_map viewsLines
  obtain ⟨-, stopsAtFirst, -⟩ := parse_cancelled "A.bas" source 0
  obtain ⟨truncates, -, -⟩ := parse_cancelled "A.bas" source 3
  obtain ⟨-, -, malformed⟩ := parse_cancelled "A.bas" [] 0
  refine ⟨stopsAtFirst header _ _ readsHeader lines, ?_, ?_⟩
  · refine truncates.resolve_left fun same => ?_
    have differs :
        (parse "A.bas" source (some 3)).log.length ≠
          (parse "A.bas" source none).log.length := by
      decide +kernel
    exact differs (by rw [same])
  · have fails :
        (Header.read []).result = .error (Header.malformed 0 [] .endOfInput) := by
      rfl
    exact (malformed _ fails).2.2

end Module

end ClassicBasic
