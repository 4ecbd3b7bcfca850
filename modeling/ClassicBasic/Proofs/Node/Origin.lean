import ClassicBasic.Declaration.Line
import ClassicBasic.Node.Display
import ClassicBasic.Proofs.Node.Listing
import ClassicBasic.Proofs.OneLine
import ClassicBasic.Proofs.Text.Decimal

namespace ClassicBasic

/-!
# Where nodes come from

Every node of a tree stands on one of the lines that the tree was read from, and
below a node stand no nodes of earlier lines.  What a node shows in words is written
on its line, and the text of a comment is all that its line has for a comment.
-/

namespace Node

/-- How a node stands on a line. -/
structure StandsOn (node : Node) (line : Line) : Prop where
  number : node.line = line.number
  oneLine : '\n' ∉ line.text → '\n' ∉ node.display
  comment : node.kind = .comment → (Line.splitComment line.text).2 = some node.name

/-- Whether a tree comes from lines. -/
def IsFrom (lines : List Line) (node : Node) : Prop :=
  ∀ part ∈ preorder [node],
    (∃ line ∈ lines, part.StandsOn line) ∧
      ∀ child ∈ part.children, part.line ≤ child.line

/-! ## Trees -/

section

variable
  {lines more : List Line}
  {line : Line}
  {node : Node}

/-- A tree from some lines is from any lines that have these. -/
theorem IsFrom.mono
    (isFrom : node.IsFrom lines)
    (within : ∀ line ∈ lines, line ∈ more) :
    node.IsFrom more := by
  intro part isPart
  obtain ⟨⟨line, isLine, stands⟩, ordered⟩ := isFrom part isPart
  exact ⟨⟨line, within line isLine, stands⟩, ordered⟩

/-- A tree is from lines if its root is, and the trees below are from no earlier
line than the root. -/
theorem isFrom_iff :
    node.IsFrom lines ↔
      (∃ line ∈ lines, node.StandsOn line) ∧
        ∀ child ∈ node.children, node.line ≤ child.line ∧ child.IsFrom lines := by
  constructor
  · intro isFrom
    obtain ⟨stands, ordered⟩ := isFrom node (by simp)
    refine ⟨stands, fun child isChild => ⟨ordered child isChild, ?_⟩⟩
    intro part isPart
    refine isFrom part ?_
    exact mem_preorder_singleton.mpr (.inr ⟨child, isChild, isPart⟩)
  · rintro ⟨stands, below⟩ part isPart
    rcases mem_preorder_singleton.mp isPart with rfl | ⟨child, isChild, isInside⟩
    · exact ⟨stands, fun child isChild => (below child isChild).1⟩
    · exact (below child isChild).2 part isInside

/-- The root of a tree stands on one of its lines. -/
theorem IsFrom.exists_standsOn
    (isFrom : node.IsFrom lines) :
    ∃ line ∈ lines, node.StandsOn line :=
  (isFrom_iff.mp isFrom).1

/-- All nodes from one line have its number. -/
theorem IsFrom.line_of_mem
    {part : Node}
    (isFrom : node.IsFrom [line])
    (isPart : part ∈ preorder [node]) :
    part.line = line.number := by
  obtain ⟨⟨other, isOther, stands⟩, -⟩ := isFrom part isPart
  rw [stands.number, List.mem_singleton.mp isOther]

/-- The root of a tree from one line has its number. -/
theorem IsFrom.line_eq
    (isFrom : node.IsFrom [line]) :
    node.line = line.number :=
  isFrom.line_of_mem (by simp)

/-- A tree of a single line. -/
theorem isFrom_singleton
    (stands : node.StandsOn line)
    (below : ∀ child ∈ node.children, child.IsFrom [line]) :
    node.IsFrom [line] := by
  refine isFrom_iff.mpr ⟨⟨line, by simp, stands⟩, fun child isChild => ?_⟩
  have isBelow := below child isChild
  exact ⟨by rw [stands.number, isBelow.line_eq], isBelow⟩

/-- A tree may get more trees below it, if these are from no earlier line. -/
theorem IsFrom.withChildren
    {children : List Node}
    (isFrom : node.IsFrom lines)
    (below : ∀ child ∈ children, node.line ≤ child.line ∧ child.IsFrom lines) :
    (node.withChildren children).IsFrom lines := by
  obtain ⟨⟨line, isLine, stands⟩, before⟩ := isFrom_iff.mp isFrom
  refine
    isFrom_iff.mpr
      ⟨⟨line, isLine, stands.number, stands.oneLine, stands.comment⟩, ?_⟩
  intro child isChild
  rcases List.mem_append.mp isChild with earlier | isNew
  · exact before child earlier
  · exact below child isNew

/-- A tree from one line may get more trees from that line below it. -/
theorem IsFrom.withChildren_singleton
    {children : List Node}
    (isFrom : node.IsFrom [line])
    (below : ∀ child ∈ children, child.IsFrom [line]) :
    (node.withChildren children).IsFrom [line] :=
  isFrom.withChildren fun child isChild =>
    ⟨by rw [isFrom.line_eq, (below child isChild).line_eq], below child isChild⟩

end

/-! ## Nodes in words -/

/-- The keyword of a declaration is on one line. -/
theorem oneLine_keyword
    (keyword : DeclarationKeyword) :
    '\n' ∉ keyword.keyword := by
  cases keyword <;>
    decide

/-- A leading keyword is on one line, with the space behind it. -/
theorem oneLine_leadingKeyword
    {modifier : Option AccessModifier}
    {leading : Option Text}
    (isKeyword : ∀ word ∈ leading, word ∈ modifier.map (·.keyword)) :
    '\n' ∉ leadingKeyword leading := by
  cases leading with
  | none =>
      exact List.not_mem_nil
  | some word =>
      obtain ⟨found, -, rfl⟩ := Option.map_eq_some_iff.mp (isKeyword word rfl)
      cases found <;>
        decide

/-- What a parameter shows is on one line if its name and its default value are. -/
theorem oneLine_displayParameter
    {name : Text}
    {passing : PassingMode}
    {isOptional isParamArray : Bool}
    {defaultValue : Option Text}
    (oneLine : '\n' ∉ name)
    (isValue : ∀ value ∈ defaultValue, '\n' ∉ value) :
    '\n' ∉ displayParameter name passing isOptional isParamArray defaultValue := by
  have optional : '\n' ∉ if isOptional then (" Optional" : Text) else "" := by
    cases isOptional <;>
      decide
  have passes :
      '\n' ∉
        if passing = .unspecified then ("" : Text)
        else Text.concat [" ", passing.name] := by
    cases passing <;>
      decide
  have array : '\n' ∉ if isParamArray then (" ParamArray" : Text) else "" := by
    cases isParamArray <;>
      decide
  have value :
      '\n' ∉ defaultValue.elim ("" : Text) fun value => Text.concat [" = ", value] := by
    cases defaultValue with
    | none =>
        exact List.not_mem_nil
    | some value =>
        change '\n' ∉ Text.concat _
        simp only [Text.oneLine_concat_cons]
        exact ⟨by decide, isValue value rfl, Text.oneLine_concat_nil⟩
  simp only [displayParameter, Text.oneLine_concat_cons]
  exact ⟨by decide, oneLine, optional, passes, array, value, Text.oneLine_concat_nil⟩

/-- An integer is shown on one line. -/
theorem oneLine_int
    (value : Int) :
    '\n' ∉ (toString value).toList := by
  rw [Text.toList_toString_int]
  intro member
  rcases List.mem_append.mp member with isSign | isDigit
  · split at isSign <;>
      simp at isSign
  · exact absurd (Text.isDigit_of_mem_toDigits isDigit) (by decide)

/-- The value in a payload that a node in words shows. -/
def shownValue? : Payload → Option Text
  | .attributeLine value _ => some value
  | .parameter _ _ _ defaultValue => defaultValue
  | _ => none

/-- A node in words holds no line feed if its name holds none, nor the value that it
shows. -/
theorem oneLine_display
    {node : Node}
    (name : '\n' ∉ node.name)
    (isShown : ∀ value ∈ shownValue? node.payload, '\n' ∉ value) :
    '\n' ∉ node.display := by
  rcases node with ⟨ownName, line, payload, children⟩
  change '\n' ∉ ownName at name
  change ∀ value ∈ shownValue? payload, _ at isShown
  -- Most kinds of nodes show the name of the kind and their own.
  have kindName (kind : NodeKind) : '\n' ∉ Text.concat [kind.name, " ", ownName] := by
    simp only [Text.oneLine_concat_cons]
    refine ⟨?_, by decide, name, Text.oneLine_concat_nil⟩
    cases kind <;>
      decide
  cases payload with
  | module fileName classFlags =>
      simp only [display, Text.oneLine_concat_cons]
      refine ⟨?_, name, Text.oneLine_concat_nil⟩
      split <;>
        decide
  | attributeLine value quoted =>
      simp only [display, Text.oneLine_concat_cons]
      exact ⟨by decide, name, by decide, isShown value rfl, Text.oneLine_concat_nil⟩
  | declaration modifier keyword constantValue withEvents externalProcedure =>
      simp only [display, Text.oneLine_concat_cons]
      refine ⟨by decide, ?_, oneLine_keyword keyword, by decide, name, Text.oneLine_concat_nil⟩
      exact oneLine_leadingKeyword fun word isWord => (Option.mem_filter_iff.mp isWord).1
  | property modifier isStatic accessor =>
      simp only [display, Text.oneLine_concat_cons]
      refine
        ⟨by decide, oneLine_leadingKeyword fun word isWord => isWord, ?_, by decide,
          name, Text.oneLine_concat_nil⟩
      cases accessor <;>
        decide
  | method modifier isStatic kind =>
      simp only [display, Text.oneLine_concat_cons]
      refine
        ⟨by decide, oneLine_leadingKeyword fun word isWord => isWord, ?_, by decide,
          name, Text.oneLine_concat_nil⟩
      cases kind <;>
        decide
  | parameter passing isOptional isParamArray defaultValue =>
      exact oneLine_displayParameter name isShown
  | enumMember value isExplicit =>
      simp only [display, Text.oneLine_concat_cons]
      exact ⟨by decide, name, by decide, oneLine_int _, Text.oneLine_concat_nil⟩
  | _ =>
      exact kindName _

/-! ## Parts of a declaration -/

/-- A node that is no comment stands on its line if it shows only what is written
there. -/
theorem standsOn_of_shown
    {node : Node}
    {line : Line}
    (number : node.line = line.number)
    (noComment : node.kind ≠ .comment)
    (name : '\n' ∉ line.text → '\n' ∉ node.name)
    (isShown :
      '\n' ∉ line.text → ∀ value ∈ shownValue? node.payload, '\n' ∉ value) :
    node.StandsOn line where
  number := number
  oneLine := fun oneLine => oneLine_display (name oneLine) (isShown oneLine)
  comment := fun isComment => absurd isComment noComment

section

variable {line : Line}

/-- A leaf that is no comment and shows no value comes from the line of its name. -/
theorem isFrom_leaf
    {payload : Payload}
    {name : Text}
    (noComment : payload.kind ≠ .comment)
    (oneLine : '\n' ∉ line.text → '\n' ∉ name)
    (shown : shownValue? payload = none) :
    (leaf payload name line.number).IsFrom [line] := by
  have isShown : ∀ value ∈ shownValue? payload, '\n' ∉ value := by
    simp [shown]
  exact
    isFrom_singleton (standsOn_of_shown rfl noComment oneLine fun _ => isShown)
      (by simp [leaf])

/-- The parts of an identifier stand on its line. -/
theorem isFrom_identifier
    {name : Text}
    {arraySpec initializer typeName : Option Text}
    (isName : '\n' ∉ line.text → '\n' ∉ name)
    (isBounds : '\n' ∉ line.text → ∀ bounds ∈ arraySpec, '\n' ∉ bounds)
    (isKeyword : '\n' ∉ line.text → ∀ keyword ∈ initializer, '\n' ∉ keyword)
    (isType : '\n' ∉ line.text → ∀ written ∈ typeName, '\n' ∉ written) :
    (identifier name arraySpec initializer typeName line.number).IsFrom [line] := by
  have reference :
      ∀ child ∈
          ((typeName.filter fun part => !part.isEmpty).map fun name =>
            typeReference name line.number).toList,
        child.IsFrom [line] := by
    intro child isChild
    obtain ⟨written, isWritten, rfl⟩ := by simpa using isChild
    exact
      isFrom_leaf (by decide) (fun oneLine => isType oneLine written isWritten.1) rfl
  have noComment : NodeKind.identifier ≠ .comment := by
    decide
  have shown : ∀ value ∈ shownValue? .identifier, '\n' ∉ value := by
    simp [shownValue?]
  refine isFrom_singleton (standsOn_of_shown rfl noComment isName fun _ => shown) ?_
  intro child isChild
  rcases List.mem_append.mp isChild with inBounds | inTyping
  · obtain ⟨bounds, isWritten, rfl⟩ := by simpa using inBounds
    exact
      isFrom_leaf (by decide) (fun oneLine => isBounds oneLine bounds isWritten.1) rfl
  · split at inTyping
    · next keyword isWritten =>
        rw [List.mem_singleton.mp inTyping]
        have isWord := (Option.mem_filter_iff.mp isWritten).1
        exact
          (isFrom_leaf (by decide) (fun oneLine => isKeyword oneLine keyword isWord)
            rfl).withChildren_singleton reference
    · exact reference child inTyping

/-- A node that an identifier is put below stands where the identifier does. -/
theorem isFrom_leaf_withIdentifier
    {payload : Payload}
    {name : Text}
    {identifier : Node}
    (noComment : payload.kind ≠ .comment)
    (isName : '\n' ∉ line.text → '\n' ∉ name)
    (isShown : '\n' ∉ line.text → ∀ value ∈ shownValue? payload, '\n' ∉ value)
    (isIdentifier : identifier.IsFrom [line]) :
    ((leaf payload name line.number).withChildren [identifier]).IsFrom [line] := by
  refine isFrom_singleton (standsOn_of_shown rfl noComment isName isShown) ?_
  intro child isChild
  rw [List.mem_singleton.mp isChild]
  exact isIdentifier

end

end Node

/-! ## Attributes, parameters and declarations -/

variable {line : Line}

open Node

/-- The node of an attribute stands on any line of its number, because nothing in it
can hold a line feed. -/
theorem Attribute.isFrom_of_readNode?
    {text : Text}
    {node : Node}
    (read : readNode? text line.number = some node) :
    node.IsFrom [line] := by
  obtain ⟨stated, states, rfl⟩ := Option.map_eq_some_iff.mp read
  have statable := isStatable_of_read? states
  obtain ⟨word, -, isWord, named⟩ := statable.name
  have isName : '\n' ∉ stated.name := by
    intro member
    have isWordChar := isWordChar_of_mem_name statable.name '\n' member
    exact absurd isWordChar (by decide +kernel)
  refine
    isFrom_singleton
      (standsOn_of_shown rfl nofun (fun _ => isName) fun _ value isShown => ?_) ?_
  · cases isShown
    exact statable.oneLine
  · intro child isChild
    obtain ⟨member, belongs, rfl⟩ := by simpa [Attribute.node] using isChild
    have isMember : '\n' ∉ member :=
      (statable.member member belongs).oneLine (by decide)
    exact isFrom_leaf nofun (fun _ => isMember) rfl

/-- A parameter comes from its line. -/
theorem Parameter.isFrom_node
    {parameter : Parameter}
    (isOneLine : parameter.IsOneLine) :
    (parameter.node line.number).IsFrom [line] := by
  have isBounds :
      ∀ bounds ∈
          if parameter.isParamArray || parameter.hasBounds then some ("()" : Text)
          else none,
        '\n' ∉ bounds := by
    split
    · simp only [Option.mem_some_iff, forall_eq']
      decide
    · simp
  exact
    isFrom_leaf_withIdentifier nofun (fun _ => isOneLine.name)
      (fun _ => isOneLine.defaultValue)
      (isFrom_identifier (fun _ => isOneLine.name) (fun _ => isBounds) (by simp)
        fun _ => isOneLine.typeName)

/-- The parameters of a list come from the line of the list. -/
theorem Parameter.isFrom_of_mem_nodes
    {text : Text}
    {node : Node}
    (isParameter : node ∈ nodes text line.number) :
    node.IsFrom [line] := by
  obtain ⟨parameter, isRead, rfl⟩ := List.mem_map.mp isParameter
  obtain ⟨segment, -, read⟩ := List.mem_filterMap.mp isRead
  exact isFrom_node (isOneLine_of_read? read)

/-- The parameters of a list, if there is one. -/
theorem Parameter.isFrom_of_mem_list
    {list : Option Text}
    {node : Node}
    (isParameter : node ∈ list.elim [] fun text => nodes text line.number) :
    node.IsFrom [line] := by
  cases list with
  | none =>
      cases isParameter
  | some text =>
      exact isFrom_of_mem_nodes isParameter

/-- A declared variable comes from its line. -/
theorem Declarator.isFrom_node
    {declarator : Declarator}
    (isOneLine : '\n' ∉ line.text → declarator.IsOneLine)
    (modifier : Option AccessModifier)
    (keyword : DeclarationKeyword) :
    (declarator.node modifier keyword line.number).IsFrom [line] := by
  have isKeyword :
      ∀ word ∈ if declarator.isNew then some ("New" : Text) else none,
        '\n' ∉ word := by
    split
    · simp only [Option.mem_some_iff, forall_eq']
      decide
    · simp
  exact
    isFrom_leaf_withIdentifier nofun (fun oneLine => (isOneLine oneLine).name)
      (by simp [shownValue?])
      (isFrom_identifier (fun oneLine => (isOneLine oneLine).name)
        (fun oneLine => (isOneLine oneLine).bounds) (fun _ => isKeyword)
        fun oneLine => (isOneLine oneLine).typeName)

/-- An external procedure comes from its line, with its parameters. -/
theorem ExternalDeclaration.isFrom_node
    {statement : ExternalDeclaration}
    (isOneLine : (DeclaringInstruction.externalProcedure statement).IsOneLine) :
    (statement.node line.number).IsFrom [line] := by
  refine
    isFrom_singleton
      (standsOn_of_shown rfl nofun (fun _ => isOneLine.1) (by simp [node, shownValue?]))
      ?_
  intro child isChild
  rcases List.mem_cons.mp isChild with rfl | isParameter
  · exact
      isFrom_identifier (fun _ => isOneLine.1) (by simp) (by simp) fun _ => isOneLine.2
  · exact Parameter.isFrom_of_mem_list isParameter

/-- An implemented interface comes from its line. -/
theorem DeclarationLine.isFrom_interfaceNode
    {interface : Text}
    (oneLine : '\n' ∉ interface) :
    (interfaceNode interface line.number).IsFrom [line] := by
  have named : (leaf .interface interface line.number).IsFrom [line] :=
    isFrom_leaf nofun (fun _ => oneLine) rfl
  refine named.withChildren_singleton fun child isChild => ?_
  rw [List.mem_singleton.mp isChild]
  exact isFrom_leaf nofun (fun _ => oneLine) rfl

/-- The comment of a line stands on it. -/
theorem Line.isFrom_comment
    {comment : Text}
    (isComment : (Line.splitComment line.text).2 = some comment) :
    (leaf .comment comment line.number).IsFrom [line] := by
  refine isFrom_singleton ⟨rfl, fun oneLine => ?_, fun _ => isComment⟩ (by simp [leaf])
  exact
    oneLine_display
      (fun member => oneLine (Line.mem_of_mem_splitComment.2 comment isComment member))
      (by simp [leaf, shownValue?])

/-! ## Blocks of declarations -/

/-- A field comes from its line. -/
theorem OpenBlock.isFrom_of_field?
    {node : Node}
    (read : field? line = some node) :
    node.IsFrom [line] := by
  obtain ⟨declarator, declares, rfl⟩ := Option.map_eq_some_iff.mp read
  exact
    Declarator.isFrom_node
      (fun oneLine => Declarator.isOneLine_of_read? declares (Line.oneLine_code oneLine)) _ _

/-- A member of an enumeration comes from one of the lines inside, whatever its
number. -/
theorem OpenBlock.isFrom_of_mem_numberMembers
    {members : List (EnumMember × Nat)}
    {lines : List Line}
    {next : Int64}
    {node : Node}
    (areRead :
      ∀ pair ∈ members,
        ∃ line ∈ lines,
          pair.2 = line.number ∧ EnumMember.read? line.code = some pair.1)
    (member : node ∈ numberMembers next members) :
    ∃ line ∈ lines, node.IsFrom [line] := by
  induction members generalizing next with
  | nil =>
      simp [numberMembers] at member
  | cons first rest inductionHypothesis =>
      obtain ⟨⟨line, isLine, number, read⟩, restRead⟩ := List.forall_mem_cons.mp areRead
      rcases first with ⟨enumMember, number'⟩
      cases number
      rw [numberMembers, List.mem_cons] at member
      rcases member with rfl | inRest
      · have oneLine (oneLine : '\n' ∉ line.text) : '\n' ∉ enumMember.name :=
          EnumMember.oneLine_of_read? read (Line.oneLine_code oneLine)
        have noComment : NodeKind.enumMember ≠ .comment := by
          decide
        exact ⟨line, isLine, isFrom_leaf noComment oneLine rfl⟩
      · exact inductionHypothesis restRead inRest

/-- What a block holds besides its identifier comes from its lines. -/
theorem OpenBlock.exists_line_of_mem_children
    {block : OpenBlock}
    {node : Node}
    (isChild : node ∈ block.node.children) :
    node = identifier block.name none none none block.line ∨
      ∃ line ∈ block.lines, node.IsFrom [line] := by
  refine (List.mem_cons.mp isChild).imp_right fun inContent => ?_
  cases kind : block.kind with
  | type =>
      rw [kind] at inContent
      obtain ⟨line, isLine, read⟩ := List.mem_filterMap.mp inContent
      have isLine := List.mem_reverse.mp (List.mem_of_mem_filter isLine)
      exact ⟨line, isLine, isFrom_of_field? read⟩
  | enum =>
      rw [kind] at inContent
      refine isFrom_of_mem_numberMembers ?_ inContent
      intro pair isPair
      obtain ⟨line, isLine, read⟩ := List.mem_filterMap.mp isPair
      obtain ⟨enumMember, reads, rfl⟩ := Option.map_eq_some_iff.mp read
      exact
        ⟨line, List.mem_reverse.mp (List.mem_of_mem_filter isLine), rfl, reads⟩

/-- A block of declarations comes from the line that opens it and the lines in it. -/
theorem OpenBlock.isFrom_node
    {block : OpenBlock}
    {lines : List Line}
    (isOpening : line ∈ lines)
    (opens : block.line = line.number)
    (oneLine : '\n' ∉ block.name)
    (later : ∀ inner ∈ block.lines, inner ∈ lines ∧ line.number ≤ inner.number) :
    block.node.IsFrom lines := by
  have stands : block.node.StandsOn line :=
    standsOn_of_shown opens nofun (fun _ => oneLine) (by simp [node, shownValue?])
  refine isFrom_iff.mpr ⟨⟨line, isOpening, stands⟩, fun child isChild => ?_⟩
  rw [stands.number]
  rcases exists_line_of_mem_children isChild with rfl | ⟨inner, isInner, isFrom⟩
  · have isFrom : (identifier block.name none none none line.number).IsFrom [line] :=
      isFrom_identifier (fun _ => oneLine) (by simp) (by simp) (by simp)
    rw [opens]
    exact ⟨isFrom.line_eq.ge, isFrom.mono (by simpa using isOpening)⟩
  · obtain ⟨isLine, isLater⟩ := later inner isInner
    exact ⟨isFrom.line_eq ▸ isLater, isFrom.mono (by simpa using isLine)⟩

/-! ## Members -/

namespace Signature

variable {signature : Signature}

/-- The identifier of a member comes from the line of the signature. -/
theorem isFrom_identifier
    {code : Text}
    (signed : read? code = some signature) :
    (signature.identifier line.number).IsFrom [line] := by
  obtain ⟨isName, isType⟩ := oneLine_of_read? signed
  unfold identifier
  dsimp only
  split
  · next element cut =>
      obtain ⟨written, isWritten, ends⟩ := Option.bind_eq_some_iff.mp cut
      have isElement : '\n' ∉ Text.trimEnd element := by
        intro member
        have inElement := Text.mem_of_mem_trimEnd member
        refine isType written isWritten ?_
        rw [Text.before?_eq_some_iff.mp ends]
        exact List.mem_append_left _ inElement
      exact
        Node.isFrom_identifier (fun _ => isName)
          (fun _ => by simp only [Option.mem_some_iff, forall_eq']; decide) (by simp)
          (fun _ => by simpa using isElement)
  · exact Node.isFrom_identifier (fun _ => isName) (by simp) (by simp) fun _ => isType

/-- A signature comes from its line, with its parameters. -/
theorem isFrom_node
    {code : Text}
    (signed : read? code = some signature) :
    (signature.node line.number).IsFrom [line] := by
  have isShown : shownValue? signature.payload = none := by
    unfold payload
    split <;>
      rfl
  have noComment : signature.payload.kind ≠ .comment := by
    unfold payload
    split <;>
      nofun
  refine
    isFrom_singleton
      (standsOn_of_shown rfl noComment (fun _ => (oneLine_of_read? signed).1)
        (by simp [node, isShown]))
      ?_
  intro child isChild
  rcases List.mem_cons.mp isChild with rfl | isParameter
  · exact isFrom_identifier signed
  · exact Parameter.isFrom_of_mem_list isParameter

/-- A member comes from its signature and the lines that its attributes and its body
come from. -/
theorem isFrom_memberNode
    {inside : List Line}
    {attributes body : List Node}
    (signed : read? line.code = some signature)
    (later : ∀ inner ∈ inside, line.number ≤ inner.number)
    (attributesFrom : ∀ node ∈ attributes, node.IsFrom inside)
    (bodyFrom : ∀ node ∈ body, node.IsFrom inside) :
    (signature.memberNode line.number attributes body).IsFrom (line :: inside) := by
  have behind
      {node : Node}
      (isFrom : node.IsFrom inside) :
      line.number ≤ node.line ∧ node.IsFrom (line :: inside) := by
    obtain ⟨inner, isInside, stands⟩ := isFrom.exists_standsOn
    exact
      ⟨stands.number ▸ later inner isInside,
        isFrom.mono fun _ => List.mem_cons_of_mem line⟩
  have opening : (signature.node line.number).IsFrom (line :: inside) :=
    (isFrom_node signed).mono (by simp)
  refine opening.withChildren fun child isChild => ?_
  rcases List.mem_append.mp isChild with isAttribute | isBlock
  · exact behind (attributesFrom child isAttribute)
  · rw [List.mem_singleton.mp isBlock]
    refine ⟨Nat.le_refl _, isFrom_iff.mpr ⟨⟨line, by simp, ?_⟩, ?_⟩⟩
    · exact
        standsOn_of_shown rfl nofun (fun _ => (oneLine_of_read? signed).1)
          (by simp [shownValue?])
    · exact fun node isNode => behind (bodyFrom node isNode)

end Signature

/-- The nodes of a body come from the lines that they list. -/
theorem Node.isFrom_of_isCodeBlock
    {node : Node}
    {lines : List Line}
    (isCode : IsCodeBlock node)
    (within : ∀ line ∈ listing [node], line ∈ lines)
    (increasing : ((listing [node]).map Line.number).Pairwise (· < ·)) :
    node.IsFrom lines := by
  induction isCode with
  | @mk name number children isCode inductionHypothesis =>
      have listed :
          listing [⟨name, number, .codeBlock, children⟩] =
            ⟨name, number⟩ :: listing children :=
        listing_block ⟨name, number⟩ children
      rw [listed] at within increasing
      obtain ⟨isFirst, belowIncreasing⟩ := List.pairwise_cons.mp increasing
      have isLine := within ⟨name, number⟩ List.mem_cons_self
      refine isFrom_iff.mpr ⟨⟨⟨name, number⟩, isLine, ?_⟩, fun child isChild => ?_⟩
      · exact standsOn_of_shown rfl nofun (fun oneLine => oneLine) (by simp [shownValue?])
      · have isPart := listing_sublist_of_mem isChild
        have isFirstBelow : child.asLine ∈ listing children :=
          isPart.subset (by simp [listing])
        have below :=
          inductionHypothesis child isChild
            (fun line isListed =>
              within line (List.mem_cons_of_mem _ (isPart.subset isListed)))
            (belowIncreasing.sublist (isPart.map Line.number))
        exact
          ⟨Nat.le_of_lt (isFirst child.line (List.mem_map_of_mem isFirstBelow)), below⟩

end ClassicBasic
