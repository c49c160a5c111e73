/-! # The words of canonical seeds

The words stand in ascending order, each once, so a word and its place determine
each other.
-/

namespace Phrasebook.Seed

def vocabulary : Vector String 128 :=
  #v["acorn", "amber", "anchor", "apple", "arrow", "aspen", "aurora", "autumn",
    "badge", "badger", "bamboo", "basil", "beacon", "birch", "bison", "blossom",
    "bramble", "breeze", "brook", "cactus", "candle", "canyon", "cedar", "cherry",
    "cinder", "clover", "cobalt", "comet", "coral", "cricket", "crystal", "cypress",
    "dahlia", "daisy", "delta", "dove", "dune", "eagle", "elm", "ember",
    "falcon", "fern", "fig", "finch", "fjord", "flint", "fox", "frost",
    "garnet", "ginger", "glacier", "granite", "harbor", "hazel", "heron", "hollow",
    "honey", "iris", "island", "ivy", "jade", "jasmine", "juniper", "kelp",
    "kestrel", "kite", "lagoon", "lark", "laurel", "lemon", "lily", "lotus",
    "lynx", "maple", "marble", "meadow", "mint", "moss", "nectar", "nutmeg",
    "oak", "oasis", "olive", "onyx", "orchid", "otter", "pearl", "pebble",
    "pepper", "pine", "plum", "poppy", "quail", "quartz", "quill", "raven",
    "reed", "river", "robin", "rose", "saffron", "sage", "salmon", "sparrow",
    "spruce", "storm", "sunset", "swan", "thistle", "thyme", "tide", "tiger",
    "topaz", "tulip", "tundra", "umber", "valley", "velvet", "violet", "walnut",
    "willow", "wolf", "wren", "yarrow", "yew", "zebra", "zephyr", "zinnia"]

def wordIndex? (word : String) : Option Nat := vocabulary.toList.idxOf? word

end Phrasebook.Seed
