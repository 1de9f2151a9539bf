import Microblog.Text.Pieces

/-!
# Mentions

A post reaches its author's followers, and besides them the users that it
mentions.  A mention is what follows the first `@` of a word; words are separated
by U+0020 and by nothing else.

## Main definitions

* `mention` — the name that a word mentions.
* `mentions` — the names that a post mentions, each once.
-/

namespace Microblog

open Text

/-- The name that a word mentions, which is empty if it mentions none. -/
def mention (word : List Char) : List Char := (word.dropWhile (· ≠ '@')).drop 1

/-- The names that a post mentions, in the order in which they first occur. -/
def mentions (content : String) : List String :=
  ((((pieces ' ' content.toList).map mention).filter fun name => !name.isEmpty).map
    String.ofList).eraseDups

end Microblog
