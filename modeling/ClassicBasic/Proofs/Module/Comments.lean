import ClassicBasic.Proofs.Line.Texts
import ClassicBasic.Proofs.Module.Origin
import ClassicBasic.Proofs.Token.Comments

namespace ClassicBasic

/-!
# Comments of a module and comments among tokens

A module has comments behind its declarations only.  Each is what its line is cut at,
and its line has one comment among its tokens.  Both are the same unless the line has
a comment in the older form that itself holds a comment marker: then the token takes
all of the comment, and the module only the ending behind the marker.
-/

open Node

namespace Module

/-- The comments of a module are what the lines behind its header are cut at. -/
theorem standsOn_of_comment
    {file : Text}
    {source : List Text}
    {header : Header}
    {final : Reading}
    {module comment : Node}
    (reads : Reads file source header final module)
    (isPart : comment ∈ preorder [module])
    (isComment : comment.kind = .comment) :
    ∃ line ∈ bodyLines source header, comment.StandsOn line := by
  rcases standsOn_of_mem_preorder reads isPart with rfl | ⟨number, stands⟩ | isBehind
  · rw [reads.shape] at isComment
    cases isComment
  · cases stands.comment isComment
  · exact isBehind

/-- The line of each comment of a module has one comment among its tokens.  The module
has the comment of the token where no instruction of the line is a comment in the
older form, and otherwise has an ending of that comment alone. -/
theorem comments_of_parse
    {file : Text}
    {source : List Text}
    {patience : Option Nat}
    {module : Node}
    (parsed : (parse file source patience).result = .ok module) :
    ∃ header,
      (Header.read source).result = .ok header ∧
        ∀ comment ∈ preorder [module], comment.kind = .comment →
          ∃ line ∈ bodyLines source header,
            line.number = comment.line ∧
              ∃ token,
                Token.commentsOfLine line = [token] ∧
                  (token.instruction = comment.name ↔
                    ∀ instruction ∈ Instruction.split line.text,
                      Line.startsWithRem instruction.text = false) ∧
                  (token.instruction ≠ comment.name →
                    Line.startsWithRem token.instruction = true ∧
                      ∃ start ≠ [], token.instruction = start ++ comment.name) := by
  obtain ⟨header, final, reads⟩ := exists_reads_of_parse parsed
  refine ⟨header, reads.readsHeader, fun comment isPart isComment => ?_⟩
  obtain ⟨line, isLine, stands⟩ := standsOn_of_comment reads isPart isComment
  have isTrimmed := Line.trimEnd_of_mem_logical isLine
  have cut :
      Line.splitComment line.text = ((Line.splitComment line.text).1, some comment.name) :=
    Prod.ext rfl (stands.comment isComment)
  exact
    ⟨line, isLine, stands.number.symm, Token.commentsOfLine_of_splitComment isTrimmed cut⟩

/-- A comment behind several declarations, and one that names the older form. -/
theorem comments_of_parse_apart :
    ∃ (source : List Text) (module : Node),
      (parse "A.bas" source none).result = .ok module ∧
        ((preorder [module]).filter fun node => node.kind = .comment).map
            (fun node => (node.line, node.name)) =
          ([(2, "'a: \"b"), (4, "' Rem it's")] : List (Nat × Text)) ∧
        ∃ header,
          (Header.read source).result = .ok header ∧
            ∀ comment ∈ preorder [module], comment.kind = .comment →
              ∃ line ∈ bodyLines source header,
                line.number = comment.line ∧
                  ∃ token,
                    Token.commentsOfLine line = [token] ∧
                      (token.instruction = comment.name ↔
                        ∀ instruction ∈ Instruction.split line.text,
                          Line.startsWithRem instruction.text = false) ∧
                      (token.instruction ≠ comment.name →
                        Line.startsWithRem token.instruction = true ∧
                          ∃ start ≠ [], token.instruction = start ++ comment.name) := by
  let source : List Text :=
    ["Attribute VB_Name = \"A\"", "Dim d, e: Dim f 'a: \"b", "Rem it's", "Dim g _",
      " As _", "Long   ' Rem it's  "]
  have views :
      (parse "A.bas" source none).result.map
          (fun module =>
            ((preorder [module]).filter fun node => node.kind = .comment).map
              fun node => (node.line, node.name)) =
        .ok [(2, "'a: \"b"), (4, "' Rem it's")] := by
    decide +kernel
  obtain ⟨module, parsed, seen⟩ := Run.exists_ok_of_map views
  exact ⟨source, module, parsed, seen, comments_of_parse parsed⟩

/-- Where a comment in the older form holds a comment marker, a declaration gets only
the ending of the comment behind the marker. -/
theorem exists_comment_inside_comment :
    let source : List Text := ["Attribute VB_Name = \"A\"", "Dim x: Rem it's"]
    let line : Line := ⟨"Dim x: Rem it's", 2⟩
    ∃ header module,
      (Header.read source).result = .ok header ∧
        (parse "" source none).result = .ok module ∧
          bodyLines source header = [line] ∧
            module.declarations =
              [⟨"x", 2, .declaration (some .dim) .dim none false none,
                [.leaf .identifier "x" 2, .leaf .comment "'s" 2]⟩] ∧
              Token.commentsOfLine line = [⟨.comment, "Rem it's", ⟨2, 8⟩⟩] := by
  intro source line
  have behind : (Header.read source).result.map (bodyLines source) = .ok [line] := by
    decide +kernel
  have views :
      (parse "" source none).result.map Node.declarations =
        .ok
          [⟨"x", 2, .declaration (some .dim) .dim none false none,
            [.leaf .identifier "x" 2, .leaf .comment "'s" 2]⟩] := by
    decide +kernel
  obtain ⟨header, readsHeader, lines⟩ := Run.exists_ok_of_map behind
  obtain ⟨module, parsed, declarations⟩ := Run.exists_ok_of_map views
  exact ⟨header, module, readsHeader, parsed, lines, declarations, by decide +kernel⟩

end Module

end ClassicBasic
