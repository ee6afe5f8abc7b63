import Karnaugh.Yaml.Lexer

/-!
# Nodes

The tokens of a document make one node: a scalar, a sequence or a mapping.
Two ways of writing lead to the same kinds of node, indentation and
brackets, and in both much can be left out: a key without a value, an item
without anything in it, an item that is a mapping with one field.

A node that was given a name can stand again where the name is used later,
also inside itself. There it has no end, and is of no use but to be
passed over.
-/

namespace Karnaugh.Yaml

/-- **A node.** Tags matter for scalars only. -/
inductive Node where
  /-- A text, how it is written, and its tag. -/
  | scalar (style : ScalarStyle) (tag : Option String) (text : String)
  /-- A list of nodes. -/
  | sequence (items : List Node)
  /-- Keys and values. -/
  | mapping (fields : List (Node × Node))
  /-- A node inside itself. -/
  | endless
  deriving Repr

namespace Node

/-- What stands where nothing is written. -/
def nothing : Node := .scalar .plain none ""

/-- **How far a document is read.** -/
structure Progress where
  /-- The tokens ahead. -/
  tokens : List Token
  /-- The nodes with names, the last one first. -/
  named : List (String × Node)

/-- Reading a part of a document, or finding that it is not well formed. -/
abbrev Reading := StateT Progress Option

/-- The token ahead. -/
def peek : Reading (Option Token) := do
  return (← get).tokens.head?

/-- The token ahead, taken. -/
def take : Reading Token := do
  match (← get).tokens with
  | [] => failure
  | t :: rest =>
    modify fun p => { p with tokens := rest }
    return t

/-- Takes the token ahead if it is the given one. -/
def takeIf (t : Token) : Reading Bool := do
  if (← peek) = some t then
    let _ ← take
    return true
  return false

/-- Takes the token ahead, which must be the given one. -/
def expect (t : Token) : Reading Unit := do
  if !(← takeIf t) then failure

/-- The name and the tag, by handle and rest, in front of a node. -/
def properties : Reading (Option String × Option (String × String)) := do
  let p ← get
  match p.tokens with
  | .anchor name :: .tag handle suffix :: rest =>
    set { p with tokens := rest }
    return (some name, some (handle, suffix))
  | .tag handle suffix :: .anchor name :: rest =>
    set { p with tokens := rest }
    return (some name, some (handle, suffix))
  | .anchor name :: rest =>
    set { p with tokens := rest }
    return (some name, none)
  | .tag handle suffix :: rest =>
    set { p with tokens := rest }
    return (none, some (handle, suffix))
  | _ => return (none, none)

/-- A tag in full. A handle must be a known one. -/
def fullTag (handles : List (String × String)) (handle suffix : String) : Reading String :=
  if handle.isEmpty then return suffix
  else
    match handles.lookup handle with
    | some start => return start ++ suffix
    | none => failure

/-- Remembers a name for the node that starts here. -/
def startName (name : Option String) : Reading Unit :=
  match name with
  | some name => modify fun p => { p with named := (name, endless) :: p.named }
  | none => return ()

/-- Gives a name, which `count` others preceded, to the node that has ended
here. -/
def endName (name : Option String) (count : Nat) (node : Node) : Reading Unit :=
  match name with
  | some name =>
    modify fun p => { p with named := p.named.set (p.named.length - 1 - count) (name, node) }
  | none => return ()

/-- The node with a name. -/
def ofName (name : String) : Reading Node := do
  match (← get).named.lookup name with
  | some node => return node
  | none => failure

/-- Whether the brackets close here. If they do not, the comma before the
next entry is taken. -/
def closes (first : Bool) (close : Token) : Reading Bool := do
  if (← takeIf close) then return true
  if first then return false
  expect .flowEntry
  takeIf close

/-- A node of which there is only its name or tag. -/
def missing (isNamed : Bool) (tag : Option String) : Reading Node :=
  if isNamed || tag.isSome then return .scalar .plain tag "" else failure

/-- The tokens before which a value in a block mapping is missing. -/
def fieldEnders : List Token := [.key, .value, .blockEnd]

mutual

/-- **The node ahead.** Block sequences and mappings may be in a `block`
only; as a value of a mapping, a sequence need not be set in. The first
argument is greater than the number of parts that the node can have. -/
def readNode (handles : List (String × String)) : Nat → Bool → Bool → Reading Node
  | 0, _, _ => failure
  | fuel + 1, block, indentless => do
    match ← peek with
    | some (.alias name) =>
      let _ ← take
      ofName name
    | _ =>
      let (name, tag) ← properties
      let tag ← tag.mapM fun (handle, suffix) => fullTag handles handle suffix
      let count := (← get).named.length
      startName name
      let node ← content handles fuel block indentless name.isSome tag
      endName name count node
      return node

/-- The node after its name and tag. -/
def content (handles : List (String × String)) :
    Nat → Bool → Bool → Bool → Option String → Reading Node
  | 0, _, _, _, _ => failure
  | fuel + 1, block, indentless, isNamed, tag => do
    match ← peek with
    | some .blockEntry =>
      if indentless then return .sequence (← openItems handles fuel)
      else missing isNamed tag
    | some (.scalar style text) =>
      let _ ← take
      return .scalar style (if tag = some "!" then none else tag) text
    | some .flowSequenceStart =>
      let _ ← take
      return .sequence (← flowItems handles fuel true)
    | some .flowMappingStart =>
      let _ ← take
      return .mapping (← flowFields handles fuel true)
    | some .blockSequenceStart =>
      if !block then missing isNamed tag
      else
        let _ ← take
        return .sequence (← blockItems handles fuel)
    | some .blockMappingStart =>
      if !block then missing isNamed tag
      else
        let _ ← take
        return .mapping (← blockFields handles fuel)
    | _ => missing isNamed tag

/-- The node ahead, or nothing if one of some tokens is ahead. -/
def readUnless (handles : List (String × String)) :
    Nat → List Token → Bool → Bool → Reading Node
  | 0, _, _, _ => failure
  | fuel + 1, enders, block, indentless => do
    match ← peek with
    | some t => if enders.contains t then return nothing else readNode handles fuel block indentless
    | none => failure

/-- The items of a sequence that is set in. -/
def blockItems (handles : List (String × String)) : Nat → Reading (List Node)
  | 0 => failure
  | fuel + 1 => do
    match ← take with
    | .blockEnd => return []
    | .blockEntry =>
      let item ← readUnless handles fuel [.blockEntry, .blockEnd] true false
      return item :: (← blockItems handles fuel)
    | _ => failure

/-- The items of a sequence that is not set in. -/
def openItems (handles : List (String × String)) : Nat → Reading (List Node)
  | 0 => failure
  | fuel + 1 => do
    if !(← takeIf .blockEntry) then return []
    let item ← readUnless handles fuel (.blockEntry :: fieldEnders) true false
    return item :: (← openItems handles fuel)

/-- The fields of a mapping that is set in. -/
def blockFields (handles : List (String × String)) : Nat → Reading (List (Node × Node))
  | 0 => failure
  | fuel + 1 => do
    match ← take with
    | .blockEnd => return []
    | .key =>
      let key ← readUnless handles fuel fieldEnders true true
      let value ←
        if (← takeIf .value) then readUnless handles fuel fieldEnders true true
        else pure nothing
      return (key, value) :: (← blockFields handles fuel)
    | _ => failure

/-- The items of a sequence in brackets. -/
def flowItems (handles : List (String × String)) : Nat → Bool → Reading (List Node)
  | 0, _ => failure
  | fuel + 1, first => do
    if (← closes first .flowSequenceEnd) then return []
    let item ←
      if (← takeIf .key) then do
        let field ← pair handles fuel
        pure (mapping [field])
      else readNode handles fuel false false
    return item :: (← flowItems handles fuel false)

/-- The only field of a mapping that is an item in brackets. Where its key
is missing, the token in its place is passed over. -/
def pair (handles : List (String × String)) : Nat → Reading (Node × Node)
  | 0 => failure
  | fuel + 1 => do
    let enders := [.flowEntry, .flowSequenceEnd]
    let keyMissing := ((← peek).map (Token.value :: enders).contains).getD true
    let key ← if keyMissing then do let _ ← take; pure nothing else readNode handles fuel false false
    if (← takeIf .value) then
      return (key, ← readUnless handles fuel enders false false)
    else return (key, nothing)

/-- The fields of a mapping in braces. -/
def flowFields (handles : List (String × String)) :
    Nat → Bool → Reading (List (Node × Node))
  | 0, _ => failure
  | fuel + 1, first => do
    if (← closes first .flowMappingEnd) then return []
    let enders := [.flowEntry, .flowMappingEnd]
    let field ←
      if (← takeIf .key) then do
        let key ← readUnless handles fuel (.value :: enders) false false
        if (← takeIf .value) then
          pure (key, ← readUnless handles fuel enders false false)
        else pure (key, nothing)
      else do pure (← readNode handles fuel false false, nothing)
    return field :: (← flowFields handles fuel false)

end

/-- The handles that every document knows. -/
def knownHandles : List (String × String) := [("!", "!"), ("!!", "tag:yaml.org,2002:")]

/-- **The handles of tags** that the directives ahead declare, and the rest.
A document has one version at most, which must be 1.1 or 1.2, and declares
a handle once. -/
def directives? (versionSeen : Bool) (handles : List (String × String)) :
    List Token → Option (List (String × String) × List Token)
  | .version major minor :: rest =>
    if !versionSeen && major == 1 && (minor == 1 || minor == 2) then
      directives? true handles rest
    else none
  | .tagHandle handle start :: rest =>
    if (handles.lookup handle).isSome then none
    else directives? versionSeen (handles ++ [(handle, start)]) rest
  | rest => some (handles ++ knownHandles, rest)

/-- The node ahead and the tokens after it. -/
def readFrom? (handles : List (String × String)) (tokens : List Token) :
    Option (Node × List Token) := do
  let (node, after) ← (readNode handles (4 * tokens.length + 4) true false).run ⟨tokens, []⟩
  return (node, after.tokens)

/-- Whether a token shows that there is nothing in a document. -/
def endsEmpty : Token → Bool
  | .version .. | .tagHandle .. | .documentStart | .documentEnd | .streamEnd => true
  | _ => false

/-- The first document of some tokens. Directives must be followed by three
dashes. -/
def document? (tokens : List Token) : Option (Node × List Token) :=
  match tokens with
  | [.streamEnd] => some (nothing, tokens)
  | .version .. :: _ | .tagHandle .. :: _ | .documentStart :: _ => do
    let (handles, rest) ← directives? false [] tokens
    match rest with
    | .documentStart :: rest =>
      if (rest.head?.map endsEmpty).getD true then return (nothing, rest)
      else readFrom? handles rest
    | _ => none
  | _ => readFrom? knownHandles tokens

/-- **The node of some tokens**, which must be one document. -/
def ofTokens? (tokens : List Token) : Option Node := do
  let (node, rest) ← document? tokens
  guard (rest.dropWhile (· == .documentEnd) = [.streamEnd])
  return node

/-- **Reads a YAML text.** -/
def read? (text : String) : Option Node := do
  ofTokens? (← tokens? text.toList)

end Node

end Karnaugh.Yaml
