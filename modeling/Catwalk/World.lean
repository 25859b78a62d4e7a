import Catwalk.Ledger
import Catwalk.Reader

/-!
# Worlds

What a walk touches outside itself: the ledger that it is charged to and the source that it reads.
-/

namespace Catwalk

/-- A ledger and a source of catalogues with a state of type `ρ`. -/
structure World (ρ : Type) where
  ledger : Ledger
  source : ρ

namespace World

/-- An act on the ledger. -/
def charging (act : Act Ledger α) : Act (World ρ) α :=
  Act.within World.ledger (fun ledger world => { world with ledger }) act

/-- The world with another ledger. -/
def updateLedger (world : World ρ) (update : Ledger → Ledger) : World ρ :=
  { world with ledger := update world.ledger }

end World

end Catwalk
