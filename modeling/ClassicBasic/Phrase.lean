import ClassicBasic.Text.Blank

namespace ClassicBasic.Phrase

/-!
# Phrases

The small readings that declarations, parameters and signatures share.  A
reading takes a phrase off the front of a text and returns it with the rest;
it takes as much as it can, because nothing that may follow a name, a type or
a run of blanks can continue it.

A leading keyword is different: `Optional` or `New` may also be a name.  Such
a word is first read as the keyword, and as a name if the rest then makes no
sense.
-/

/-- Whether a character continues a name. -/
def isNameChar (c : Char) : Bool :=
  c.isAlphanum || c = '_'

/-- Whether a character begins the name of a type. -/
def isTypeStart (c : Char) : Bool :=
  c.isAlpha || c = '_'

/-- A name that begins with a character of the given class. -/
def nameFrom? (start : Char → Bool) : Text → Option (Text × Text)
  | [] => none
  | c :: rest =>
      if start c then
        some (c :: rest.takeWhile isNameChar, rest.dropWhile isNameChar)
      else
        none

/-- A name: a letter, and then letters, digits and underscores. -/
def name? : Text → Option (Text × Text) :=
  nameFrom? Char.isAlpha

/-- Characters that give a name a type when they close it. -/
def typeSuffixes : Text := "%&!#@$"

/-- A name with its type suffix, if it has one. -/
def suffixedName? (text : Text) : Option (Text × Text) := do
  let (name, rest) ← name? text
  match rest with
  | suffix :: behind =>
      if typeSuffixes.contains suffix then some (name ++ [suffix], behind)
      else some (name, rest)
  | [] => some (name, [])

/-- A type: a name, or two names with a dot between them. -/
def typeName? (text : Text) : Option (Text × Text) := do
  let (first, rest) ← nameFrom? isTypeStart text
  let qualified := (Text.after? "." rest).bind (nameFrom? isTypeStart)
  match qualified with
  | some (second, behind) => some (first ++ '.' :: second, behind)
  | none => some (first, rest)

/-- What follows `As` and the blanks on both of its sides. -/
def afterAs? (text : Text) : Option Text := do
  let rest ← Text.afterBlanks? text
  let rest ← Text.after? "As" rest
  Text.afterBlanks? rest

/-- A keyword with blanks behind it, given how keywords are recognised. -/
def keyword? (recognise : Text → Option α) (text : Text) : Option (α × Text) := do
  let (word, rest) ← Text.wordThenBlanks? text
  let found ← recognise word
  some (found, rest)

/-- Recognise one word. -/
def word? (expected : Text) (word : Text) : Option Unit :=
  if word = expected then some () else none

/-- Read on behind a keyword if that leads to a reading, and otherwise from
the text as it is. -/
def optionally
    (recognise : Text → Option α)
    (text : Text)
    (readOn : Option α → Text → Option β) :
    Option β :=
  ((keyword? recognise text).bind fun (found, rest) => readOn (some found) rest) <|>
    readOn none text

/-- The end of a declaration or parameter: nothing, or an equals sign and a
value that reaches to the end and holds no line feed. -/
def finalValue? (text : Text) : Option (Option Text) :=
  if text.isEmpty then
    some none
  else do
    let rest ← Text.after? "=" (Text.trimStart text)
    match Text.trim rest with
    | [] => none
    | value => if value.contains '\n' then none else some (some value)

end ClassicBasic.Phrase
