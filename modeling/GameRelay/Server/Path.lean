/-!
# Paths

Which place of a server a path leads to. A path may carry one line break after the name of the
place, and no other difference is overlooked. A path that misses a place by slashes at its end can
be set right.
-/

set_option autoImplicit false
set_option relaxedAutoImplicit false

namespace GameRelay.Path

def leadsTo (place path : String) : Bool := path = place || path = place ++ "\n"

def trimSlashes (path : String) : String :=
  String.ofList (path.toList.reverse.dropWhile (· = '/')).reverse

/-- A path with its end set the other way: without its slashes when it has any, otherwise with
one. -/
def toggleSlash (path : String) : String :=
  if path.toList.getLast? = some '/' then trimSlashes path else path ++ "/"

end GameRelay.Path
