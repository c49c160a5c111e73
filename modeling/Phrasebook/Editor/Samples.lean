/-! # Sample sketches

The sketches that an editor offers to begin with.
-/

namespace Phrasebook.Editor

def thankYou : String :=
  "root:\n" ++
  "- Dear \x7b\x7b giver \x7d\x7d, thank you for the \x7b\x7b object \x7d\x7d.\n" ++
  "- Hey \x7b\x7b giver \x7d\x7d, thanks for the \x7b\x7b object \x7d\x7d!\n" ++
  "\n" ++
  "giver:\n" ++
  "- Aunt Emma\n" ++
  "- Dave and Edna\n" ++
  "- Uncle Bob\n" ++
  "\n" ++
  "object:\n" ++
  "- purple vase\n" ++
  "- golden retriever\n" ++
  "- dishwasher\n"

def shapes : String :=
  "# A row of circles in random colours.\n" ++
  "root:\n" ++
  "- <svg viewBox=\"0 0 300 100\" width=\"300\" height=\"100\">\x7b\x7b circle \x7d\x7d\x7b\x7b circle \x7d\x7d\x7b\x7b circle \x7d\x7d</svg>\n" ++
  "\n" ++
  "circle:\n" ++
  "- <circle cx=\"\x7b\x7b coord \x7d\x7d\" cy=\"50\" r=\"\x7b\x7b radius \x7d\x7d\" fill=\"\x7b\x7b colour \x7d\x7d\"/>\n" ++
  "\n" ++
  "coord:\n" ++
  "- 50\n" ++
  "- 150\n" ++
  "- 250\n" ++
  "\n" ++
  "radius:\n" ++
  "- 3x 20\n" ++
  "- 30\n" ++
  "- 45\n" ++
  "\n" ++
  "colour:\n" ++
  "- \"#e63946\"\n" ++
  "- \"#f1faee\"\n" ++
  "- \"#a8dadc\"\n" ++
  "- 2x \"#457b9d\"\n" ++
  "- \"#1d3557\"\n"

def pulse : String :=
  "%preamble:\n" ++
  "  duration: 3\n" ++
  "  animation: bounce\n" ++
  "\n" ++
  "root:\n" ++
  "- <div style=\"font-size: \x7b\x7b size \x7d\x7dpx\">\x7b\x7b word \x7d\x7d</div>\n" ++
  "\n" ++
  "size:\n" ++
  "- 12\n" ++
  "- 18\n" ++
  "- 24\n" ++
  "- 36\n" ++
  "\n" ++
  "word:\n" ++
  "- hello\n" ++
  "- hola\n" ++
  "- bonjour\n" ++
  "- ciao\n"

def countdown : String :=
  "%preamble:\n" ++
  "  duration: 5\n" ++
  "  animation: once\n" ++
  "\n" ++
  "root:\n" ++
  "- \"\x7b\x7b digit \x7d\x7d... \x7b\x7b digit \x7d\x7d... liftoff!\"\n" ++
  "\n" ++
  "digit:\n" ++
  "- 3\n" ++
  "- 2\n" ++
  "- 1\n"

def recursion : String :=
  "# A sentence that occasionally nests another clause.\n" ++
  "root:\n" ++
  "- \"\x7b\x7b clause \x7d\x7d.\"\n" ++
  "\n" ++
  "clause:\n" ++
  "- 3x the \x7b\x7b animal \x7d\x7d \x7b\x7b verb \x7d\x7d\n" ++
  "- the \x7b\x7b animal \x7d\x7d \x7b\x7b verb \x7d\x7d because \x7b\x7b clause \x7d\x7d\n" ++
  "\n" ++
  "animal:\n" ++
  "- fox\n" ++
  "- owl\n" ++
  "- hare\n" ++
  "\n" ++
  "verb:\n" ++
  "- slept\n" ++
  "- sang\n" ++
  "- ran away\n"

def samples : List (String × String) :=
  [("thank_you", thankYou), ("shapes", shapes), ("pulse", pulse), ("countdown", countdown),
    ("recursion", recursion)]

end Phrasebook.Editor
