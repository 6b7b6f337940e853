/-! # Queue addresses

A pattern is the name of one queue, or a prefix followed by a star.
-/

namespace StreamRpc

/-- Whether a pattern covers the name of a queue.  A star at the end of the pattern stands for any
    ending; a star anywhere else stands for itself. -/
def addressMatches (pattern address : String) : Bool :=
  match pattern.toList.reverse with
  | '*' :: front => front.reverse.isPrefixOf address.toList
  | _ => pattern == address

end StreamRpc
