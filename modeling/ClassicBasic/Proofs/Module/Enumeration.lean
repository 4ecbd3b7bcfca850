import ClassicBasic.Proofs.Declaration.Numbering
import ClassicBasic.Proofs.Module.Spans
import ClassicBasic.Proofs.Reading.Block

namespace ClassicBasic

open Node

/-!
# The enumerations of a module

Every enumeration in the tree of a module was read from a block in the lines behind its
header.  Its members are the lines of that block that declare one, numbered in their
order from zero; a line that declares none changes no number.
-/

/-- An enumeration whose members are those of a block in some lines, with the values
that its literals give and those counted on from them. -/
inductive IsEnumeration (lines : List Line) (node : Node) : Prop where
  | mk
      {block : OpenBlock}
      {values : List Int64}
      (holds : HoldBlock lines block)
      (isEnum : block.kind = .enum)
      (named : node.name = block.name)
      (numbered : node.line = block.line)
      (numbers :
        IsNumbering 0
          ((OpenBlock.declaredMembers block.lines.reverse).map Prod.fst) values)
      (members :
        node.childrenOfKind .enumMember =
          List.zipWith (fun member value => member.1.node value member.2)
            (OpenBlock.declaredMembers block.lines.reverse) values) :
      IsEnumeration lines node

/-- Besides its members an enumeration has an identifier and comments. -/
theorem OpenBlock.enumMembers_withChildren
    {block : OpenBlock}
    {comments : List Node}
    (isEnum : block.kind = .enum)
    (areComments : ∀ comment ∈ comments, comment.kind = .comment) :
    (block.node.withChildren comments).childrenOfKind .enumMember =
      numberMembers 0 (declaredMembers block.lines.reverse) := by
  have children :
      (block.node.withChildren comments).children =
        identifier block.name none none none block.line ::
          (numberMembers 0 (declaredMembers block.lines.reverse) ++ comments) := by
    simp only [withChildren, OpenBlock.node, isEnum]
    rfl
  have identifies :
      (identifier block.name none none none block.line).kind = .identifier :=
    rfl
  have areMembers :
      ∀ node ∈ numberMembers 0 (declaredMembers block.lines.reverse),
        node.kind = .enumMember := by
    intro node isMember
    cases isEnumMember_of_mem_numberMembers isMember
    rfl
  have noMembers :
      comments.filter (fun comment => comment.kind = .enumMember) = [] := by
    rw [List.filter_eq_nil_iff]
    intro comment isComment
    simp [areComments comment isComment]
  rw [childrenOfKind, children, List.filter_cons_of_neg (by simp [identifies]),
    List.filter_append, noMembers, List.append_nil,
    List.filter_eq_self.mpr (by simpa using areMembers)]

/-- An enumeration that comes from a block numbers the members of that block. -/
theorem Node.IsFromBlock.isEnumeration
    {lines : List Line}
    {node : Node}
    (isFrom : node.IsFromBlock lines)
    (isEnum : node.blockKind? = some .enum) :
    IsEnumeration lines node := by
  obtain ⟨block, comments, holds, kind, areComments, rfl⟩ := isFrom .enum isEnum
  obtain ⟨values, numbers, nodes⟩ :=
    OpenBlock.exists_numberMembers 0
      (OpenBlock.declaredMembers block.lines.reverse)
  exact
    .mk holds kind rfl rfl numbers
      ((OpenBlock.enumMembers_withChildren kind areComments).trans nodes)

namespace Module

/-- A node of a module that declares a block is one of the declarations that have been
read. -/
theorem mem_declarations_of_blockKind?
    {file : Text}
    {source : List Text}
    {header : Header}
    {final : Reading}
    {module node : Node}
    {kind : BlockKind}
    (reads : Reads file source header final module)
    (isPart : node ∈ preorder [module])
    (isBlock : node.blockKind? = some kind) :
    node ∈ final.declarations := by
  have shaped := Reading.Shaped.start.readLines reads.readsLines
  have areAttributes := (Header.wellFormed_of_read reads.readsHeader).isAttribute
  have absurdWithout
      {top : Node}
      (without : top.WithoutBlocks)
      (isInside : node ∈ preorder [top]) :
      node ∈ final.declarations := by
    simp [without node isInside] at isBlock
  rcases mem_preorder_singleton.mp isPart with rfl | ⟨top, isTop, isInside⟩
  · rw [reads.shape] at isBlock
    cases isBlock
  · rw [reads.shape] at isTop
    rcases List.mem_append.mp isTop with isEarlier | isMember
    · rcases List.mem_append.mp isEarlier with isAttribute | isDeclaration
      · exact absurdWithout (areAttributes top isAttribute).withoutBlocks isInside
      · rw [List.mem_reverse] at isDeclaration
        obtain ⟨comment, isDeclared⟩ := shaped.declarations top isDeclaration
        rcases mem_preorder_singleton.mp isInside with rfl | ⟨child, isChild, isInside⟩
        · exact isDeclaration
        · exact absurdWithout (isDeclared.withoutBlocks child isChild) isInside
    · exact
        absurdWithout (shaped.members top (List.mem_reverse.mp isMember)).withoutBlocks
          isInside

/-- Every enumeration in the tree of a module has the members of its block, in their
order and with the values that they write or count on to. -/
theorem isEnumeration_of_parse
    {file : Text}
    {source : List Text}
    {patience : Option Nat}
    {module : Node}
    (parsed : (parse file source patience).result = .ok module) :
    ∃ header,
      (Header.read source).result = .ok header ∧
        ∀ node ∈ preorder [module],
          node.blockKind? = some .enum →
            IsEnumeration (bodyLines source header) node := by
  obtain ⟨header, final, reads⟩ := exists_reads_of_parse parsed
  refine ⟨header, reads.readsHeader, fun node isPart isEnum => ?_⟩
  have isDeclaration := mem_declarations_of_blockKind? reads isPart isEnum
  have holds := Reading.Holds.readLines reads.readsLines
  exact (holds.declarations node isDeclaration).isEnumeration isEnum

/-- A line with two blocks and a comment, the second of them an enumeration with lines
that declare nothing, a value that is no literal, and the largest value. -/
theorem isEnumeration_of_parse_wrapping :
    ∃ (source : List Text) (module : Node),
      (parse "A.bas" source none).result = .ok module ∧
        ((preorder [module]).filter fun node => node.blockKind? = some .enum).map
            (fun node =>
              (node.childrenOfKind .enumMember).map fun member =>
                (member.line, member.payload)) =
          [[(5, .enumMember 0 false),
            (8, .enumMember 9223372036854775807 true),
            (10, .enumMember (-9223372036854775808) false),
            (12, .enumMember (-9223372036854775807) false),
            (13, .enumMember 16 true),
            (14, .enumMember 17 false)]] ∧
        ∃ header,
          (Header.read source).result = .ok header ∧
            ∀ node ∈ preorder [module],
              node.blockKind? = some .enum →
                IsEnumeration (bodyLines source header) node := by
  let source : List Text :=
    ["Attribute VB_Name = \"A\"", "Type T: Enum E ' c", "x As Long", "End Type", "A",
      "", "Rem A = 5", "B = 9223372036854775807", "' B = 7", "C", "3 = 1", "D = A + 1",
      "[F G] = &H10", "h", "End Enum"]
  have views :
      (parse "A.bas" source none).result.map
          (fun module =>
            ((preorder [module]).filter fun node => node.blockKind? = some .enum).map
              fun node =>
                (node.childrenOfKind .enumMember).map fun member =>
                  (member.line, member.payload)) =
        .ok
          [[(5, .enumMember 0 false),
            (8, .enumMember 9223372036854775807 true),
            (10, .enumMember (-9223372036854775808) false),
            (12, .enumMember (-9223372036854775807) false),
            (13, .enumMember 16 true),
            (14, .enumMember 17 false)]] := by
    decide +kernel
  obtain ⟨module, parsed, seen⟩ := Run.exists_ok_of_map views
  exact ⟨source, module, parsed, seen, isEnumeration_of_parse parsed⟩

end Module

end ClassicBasic
