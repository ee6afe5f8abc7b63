import Karnaugh.Yaml.Block
import Karnaugh.Yaml.Plain
import Karnaugh.Yaml.Quoted
import Karnaugh.Yaml.Tag

/-!
# From text to tokens

The lexer goes through a text once. Two things make it more than a table
of characters.

**Indentation.** The columns of the blocks around the place reached are
kept in a stack. A line that is set in less than before closes blocks; an
item or a key that is set in more opens one. Inside brackets indentation
does not count.

**Keys.** That a scalar is the key of a mapping is seen only at the colon
after it. So wherever a key could start, its place is remembered, for each
level of brackets; at a colon, the token for the key is put in there, and
the start of the mapping if it is the first. A key has to be on the line of
its colon, and within 1024 characters of it.
-/

namespace Karnaugh.Yaml

/-- **Where a key could have started.** -/
structure PossibleKey where
  /-- Whether it must be a key, because it starts a line of a mapping. -/
  required : Bool
  /-- The number of tokens before it. -/
  place : Nat
  /-- The number of characters before it. -/
  index : Nat
  /-- The number of lines before it. -/
  line : Nat
  /-- Its column. -/
  column : Nat

/-- **The state of the lexer.** -/
structure Lexer where
  /-- The place reached. -/
  cursor : Cursor
  /-- The tokens so far, the last one first. -/
  tokens : List Token
  /-- The column of the innermost block, or minus one. -/
  indent : Int
  /-- The columns of the blocks around it, the innermost first. -/
  outer : List Int
  /-- Whether a key may start here. -/
  keyAllowed : Bool
  /-- The key that may have started, for each level of brackets, the
  innermost first. -/
  keys : List (Option PossibleKey)

namespace Lexer

/-- The start of a text. -/
def start (text : List Char) : Lexer := ⟨.start text, [], -1, [], true, [none]⟩

variable (l : Lexer)

/-- Whether the place is inside brackets. -/
def inFlow : Bool := 1 < l.keys.length

/-- The column of the place. -/
def column : Int := l.cursor.column

/-- A token more. -/
def push (t : Token) : Lexer := { l with tokens := t :: l.tokens }

/-- A token more, after the first `place` ones. -/
def insert (place : Nat) (t : Token) : Lexer :=
  let after := l.tokens.length - place
  { l with tokens := l.tokens.take after ++ t :: l.tokens.drop after }

/-- The tokens at the place reached, and the place after them. -/
def emit (t : Token) (c : Cursor) : Lexer := { l.push t with cursor := c }

/-- A possible key that the place has left behind; one that was required is
an error. -/
def expire (k : Option PossibleKey) : Option (Option PossibleKey) :=
  match k with
  | none => some none
  | some key =>
    if key.line < l.cursor.line ∨ key.index + 1024 < l.cursor.index then
      if key.required then none else some none
    else some k

/-- Forgets the keys that the place has left behind. -/
def expireKeys : Option Lexer := do
  return { l with keys := ← l.keys.mapM l.expire }

/-- Forgets the key of this level; one that was required is an error. -/
def dropKey : Option Lexer :=
  match l.keys with
  | some key :: rest => if key.required then none else some { l with keys := none :: rest }
  | _ => some l

/-- Remembers that a key may start here. -/
def saveKey : Option Lexer := do
  if !l.keyAllowed then return l
  let l ← l.dropKey
  let key : PossibleKey := {
    required := !l.inFlow && l.indent == l.column
    place := l.tokens.length
    index := l.cursor.index
    line := l.cursor.line
    column := l.cursor.column }
  return { l with keys := some key :: l.keys.drop 1 }

/-- Closes the blocks, of which there are `fuel` at most, that are set in
more than a column. -/
def closeBlocks (column : Int) : Nat → Lexer → Lexer
  | 0, l => l
  | fuel + 1, l =>
    if l.indent ≤ column then l
    else
      match l.outer with
      | [] => l
      | indent :: outer =>
        closeBlocks column fuel { l.push .blockEnd with indent, outer }

/-- Closes the blocks that are set in more than a column. -/
def unroll (column : Int) : Lexer :=
  if l.inFlow then l else closeBlocks column l.outer.length l

/-- Opens a block at a column, if it is set in more than the one around it,
with its token after the first `place` ones. -/
def roll (column : Int) (place : Nat) (t : Token) : Lexer :=
  if l.inFlow ∨ column ≤ l.indent then l
  else { l.insert place t with indent := column, outer := l.indent :: l.outer }

/-- The place of the next token: after blanks, comments and ends of lines.
After a line's end a key may start again. -/
def skipToToken : Nat → Lexer → Lexer
  | 0, l => l
  | fuel + 1, l =>
    let c := if l.cursor.column = 0 ∧ l.cursor.sees '\uFEFF' then l.cursor.advance 1 else l.cursor
    let c := c.skip fun ch => ch == ' ' || (ch == '\t' && (l.inFlow || !l.keyAllowed))
    let c := if c.sees '#' then c.skip fun ch => !isBreak ch else c
    match c.takeBreak? with
    | some (_, next) =>
      skipToToken fuel { l with cursor := next, keyAllowed := l.keyAllowed || !l.inFlow }
    | none => { l with cursor := c }

/-- The end of the text: all blocks are closed. -/
def atEnd : Option Lexer := do
  let l ← (l.unroll (-1)).dropKey
  return { l with keyAllowed := false }.push .streamEnd

/-- A directive. -/
def directive : Option Lexer := do
  let l ← (l.unroll (-1)).dropKey
  let (token, c) ← takeDirective l.cursor
  return { l with keyAllowed := false }.emit token c

/-- A mark between documents. -/
def documentMark (t : Token) : Option Lexer := do
  let l ← (l.unroll (-1)).dropKey
  return { l with keyAllowed := false }.emit t (l.cursor.advance 3)

/-- An opening bracket. -/
def openFlow (t : Token) : Option Lexer := do
  let l ← l.saveKey
  return { l with keys := none :: l.keys, keyAllowed := true }.emit t (l.cursor.advance 1)

/-- A closing bracket. -/
def closeFlow (t : Token) : Option Lexer := do
  let l ← l.dropKey
  let keys := if l.inFlow then l.keys.drop 1 else l.keys
  return { l with keys, keyAllowed := false }.emit t (l.cursor.advance 1)

/-- A comma. -/
def flowEntry : Option Lexer := do
  let l ← l.dropKey
  return { l with keyAllowed := true }.emit .flowEntry (l.cursor.advance 1)

/-- A dash before an item. -/
def blockEntry : Option Lexer := do
  guard (l.inFlow || l.keyAllowed)
  let l ← (l.roll l.column l.tokens.length .blockSequenceStart).dropKey
  return { l with keyAllowed := true }.emit .blockEntry (l.cursor.advance 1)

/-- A question mark before a key. -/
def explicitKey : Option Lexer := do
  guard (l.inFlow || l.keyAllowed)
  let l ← (l.roll l.column l.tokens.length .blockMappingStart).dropKey
  return { l with keyAllowed := !l.inFlow }.emit .key (l.cursor.advance 1)

/-- A colon before a value: after a key, or after nothing. -/
def value : Option Lexer := do
  match l.keys with
  | some key :: rest =>
    let l := (l.insert key.place .key).roll key.column key.place .blockMappingStart
    return { l with keys := none :: rest, keyAllowed := false }.emit .value (l.cursor.advance 1)
  | _ =>
    guard (l.inFlow || l.keyAllowed)
    let l := l.roll l.column l.tokens.length .blockMappingStart
    return { l with keyAllowed := !l.inFlow }.emit .value (l.cursor.advance 1)

/-- A name, of a node here or elsewhere. -/
def name (make : String → Token) : Option Lexer := do
  let l ← l.saveKey
  let (name, c) ← takeName (l.cursor.advance 1)
  return { l with keyAllowed := false }.emit (make name) c

/-- A tag. -/
def tag : Option Lexer := do
  let l ← l.saveKey
  let (token, c) ← takeTag l.inFlow l.cursor
  return { l with keyAllowed := false }.emit token c

/-- A block scalar. -/
def block (literal : Bool) : Option Lexer := do
  let l ← l.dropKey
  let (text, c) ← takeBlock literal l.indent (l.cursor.advance 1)
  let style := if literal then .literal else .folded
  return { l with keyAllowed := true }.emit (.scalar style text) c

/-- A quoted scalar. -/
def quoted (double : Bool) : Option Lexer := do
  let l ← l.saveKey
  let (text, c) ← takeQuoted double (l.cursor.advance 1)
  return { l with keyAllowed := false }.emit (.scalar .quoted text) c

/-- A plain scalar. If a line ended after it, a key may start. -/
def plain : Option Lexer := do
  let l ← l.saveKey
  let (text, broken, c) ← takePlain l.inFlow (l.indent + 1).toNat l.cursor
  return { l with keyAllowed := broken }.emit (.scalar .plain text) c

/-- Whether a plain scalar can start here. -/
def canStartPlain (ch : Char) : Bool :=
  let solidNext := !l.cursor.gapAt 1
  let blankNext := (l.cursor.peek 1).map isBlank == some true
  if ch == '-' then !blankNext
  else if ch == '?' || ch == ':' then !l.inFlow && solidNext
  else
    let marks := ['#', '&', '*', '!', '|', '>', '\'', '"', '%', '@', '\x60']
    !isFlowMark ch && !marks.contains ch

/-- The token at the place reached. -/
def nextToken : Option Lexer :=
  match l.cursor.rest with
  | [] => l.atEnd
  | ch :: _ =>
    if l.cursor.column == 0 && ch == '%' then l.directive
    else if l.cursor.atDocumentMark then
      l.documentMark (if ch = '-' then .documentStart else .documentEnd)
    else
      let gapNext := l.cursor.gapAt 1
      match ch with
      | '[' => l.openFlow .flowSequenceStart
      | '\x7b' => l.openFlow .flowMappingStart
      | ']' => l.closeFlow .flowSequenceEnd
      | '\x7d' => l.closeFlow .flowMappingEnd
      | ',' => l.flowEntry
      | '*' => l.name .alias
      | '&' => l.name .anchor
      | '!' => l.tag
      | '\'' => l.quoted false
      | '"' => l.quoted true
      | ch =>
        if ch == '-' && gapNext then l.blockEntry
        else if ch == '?' && (l.inFlow || gapNext) then l.explicitKey
        else if ch == ':' && (l.inFlow || gapNext) then l.value
        else if ch == '|' && !l.inFlow then l.block true
        else if ch == '>' && !l.inFlow then l.block false
        else if l.canStartPlain ch then l.plain
        else none

/-- **One token more**, or several where blocks end. -/
def step : Option Lexer := do
  let l := skipToToken (l.cursor.rest.length + 1) l
  let l ← l.expireKeys
  (l.unroll l.column).nextToken

/-- Goes on to the end of the text, with `fuel` steps at most. -/
def run : Nat → Lexer → Option Lexer
  | 0, l => some l
  | fuel + 1, l => do
    let next ← l.step
    if next.tokens.head? = some .streamEnd then return next
    run fuel next

end Lexer

/-- **The tokens of a text.** -/
def tokens? (text : List Char) : Option (List Token) := do
  guard (text.all isAllowed)
  let l ← Lexer.run (text.length + 2) (.start text)
  return l.tokens.reverse

end Karnaugh.Yaml
