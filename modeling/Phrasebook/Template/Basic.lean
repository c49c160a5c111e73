/-! # Templates

The text of an alternative is a sequence of segments: literal text, emitted as it
is, and placeholders, which stand for whatever the named category expands to. A
template is in normal form when reading what it prints gives it back.
-/

namespace Phrasebook

inductive Segment where
  | literal (text : String)
  | placeholder (name : String)
deriving DecidableEq, Inhabited

abbrev Template := List Segment

namespace Segment

def name? : Segment → Option String
  | .literal _ => none
  | .placeholder name => some name

def render : Segment → List Char
  | .literal text => text.toList
  | .placeholder name => '{' :: '{' :: (name.toList ++ ['}', '}'])

end Segment

namespace Template

def placeholders (template : Template) : List String := template.filterMap Segment.name?

def render (template : Template) : List Char := template.flatMap Segment.render

end Template

end Phrasebook
