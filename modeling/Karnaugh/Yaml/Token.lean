/-!
# YAML tokens

A YAML text is read as a row of tokens first. Where structure is shown by
indentation alone, the tokens show it too: they say where a block starts
and ends, and which scalars are the keys of a mapping.
-/

namespace Karnaugh.Yaml

/-- **How a scalar is written.** -/
inductive ScalarStyle where
  /-- As it is. -/
  | plain
  /-- Between quotes of either kind. -/
  | quoted
  /-- As a block whose lines are kept. -/
  | literal
  /-- As a block whose lines are joined. -/
  | folded
  deriving DecidableEq, Repr

/-- **A token.** -/
inductive Token where
  /-- The end of the text. -/
  | streamEnd
  /-- The version of YAML that a document is in. -/
  | version (major minor : Nat)
  /-- What a handle of tags stands for. -/
  | tagHandle (handle start : String)
  /-- Three dashes. -/
  | documentStart
  /-- Three dots. -/
  | documentEnd
  /-- The start of a sequence by indentation. -/
  | blockSequenceStart
  /-- The start of a mapping by indentation. -/
  | blockMappingStart
  /-- The end of either. -/
  | blockEnd
  /-- An opening bracket. -/
  | flowSequenceStart
  /-- A closing bracket. -/
  | flowSequenceEnd
  /-- An opening brace. -/
  | flowMappingStart
  /-- A closing brace. -/
  | flowMappingEnd
  /-- A dash before an item. -/
  | blockEntry
  /-- A comma. -/
  | flowEntry
  /-- Before a key. -/
  | key
  /-- A colon before a value. -/
  | value
  /-- The name of a node that stands elsewhere. -/
  | alias (name : String)
  /-- The name given to the node that follows. -/
  | anchor (name : String)
  /-- The tag of the node that follows, by handle and rest. -/
  | tag (handle suffix : String)
  /-- A scalar. -/
  | scalar (style : ScalarStyle) (text : String)
  deriving DecidableEq, Repr

end Karnaugh.Yaml
