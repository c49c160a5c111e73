import Phrasebook.Expansion.Machine
import Phrasebook.Seed.Basic

/-! # Generating texts

The text of a book for a seed and a time: the expansion of a category under a
configuration, with the draws of the seed's state turned by the time.
-/

namespace Phrasebook.Book

def generate (book : Book) (config : Config) (start : String) (bindings : Bindings)
    (seed : Seed) (t : Binary64) : Except Expansion.Error String :=
  let source := Draw.Source.ofTime seed.state t
  Expansion.Task.expand
    ⟨book, bindings, source.at, config.maxDepth, config.maxExpansions⟩ start

def generateDefault (book : Book) (config : Config) (seed : Seed) (t : Binary64) :
    Except Expansion.Error String :=
  book.generate config config.start Bindings.empty seed t

end Phrasebook.Book
