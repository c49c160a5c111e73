import Phrasebook.Proofs.Source.Grammar

/-!
# Writing sources

How a phrase book can be written down: one line for the heading of each category, one for
each alternative, and every text between quotes, so that nothing in it is taken for
anything else.
-/

namespace Phrasebook.Source

/-! ## Quotes -/

inductive QuoteMark where
  | double
  | single
deriving DecidableEq

def escape : Char → List Char
  | '\\' => ['\\', '\\']
  | '"' => ['\\', '"']
  | '\n' => ['\\', 'n']
  | '\t' => ['\\', 't']
  | c => [c]

def doubled : Char → List Char
  | '\'' => ['\'', '\'']
  | c => [c]

def QuoteMark.write : QuoteMark → List Char → List Char
  | .double, text => '"' :: (text.flatMap escape ++ ['"'])
  | .single, text => '\'' :: (text.flatMap doubled ++ ['\''])

/-! ## Drafts -/

/-- An alternative to be written: the digits of its weight, if given, and its text. -/
structure Draft where
  digits : Option (List Char)
  quotes : QuoteMark
  text : List Char

namespace Draft

def content (draft : Draft) : List Char :=
  match draft.digits with
  | none => draft.quotes.write draft.text
  | some digits => digits ++ 'x' :: ' ' :: draft.quotes.write draft.text

/-- The alternative that a draft is about. Single quotes are for texts without line feeds. -/
structure Denotes (draft : Draft) (alternative : Alternative) : Prop where
  absent : draft.digits = none → alternative.weight = .one
  given : ∀ digits ∈ draft.digits, isPlainDecimal digits = true ∧
    Binary64.read? digits = some alternative.weight ∧ alternative.weight.isFinite = true
  unbroken : draft.quotes = .single → '\n' ∉ draft.text
  template : Template.parse draft.text = .ok alternative.template

end Draft

structure DraftCategory where
  name : String
  indent : Nat
  drafts : List Draft

namespace DraftCategory

def headingLine (draft : DraftCategory) : List Char := draft.name.toList ++ [':']

def itemLine (indent : Nat) (draft : Draft) : List Char :=
  List.replicate indent ' ' ++ '-' :: ' ' :: draft.content

def lines (draft : DraftCategory) : List (List Char) :=
  draft.headingLine :: draft.drafts.map (itemLine draft.indent)

/-- The category that a draft is about: its name is one, and there are alternatives. -/
structure Denotes (draft : DraftCategory) (category : Category) : Prop where
  name : category.name = draft.name
  valid : Name.isValid draft.name.toList = true
  drafts : draft.drafts ≠ []
  alternatives : List.Forall₂ Draft.Denotes draft.drafts category.alternatives

end DraftCategory

def write (drafts : List DraftCategory) : String :=
  String.ofList ((drafts.flatMap DraftCategory.lines).flatMap (· ++ ['\n']))

end Phrasebook.Source
