/-!
# Models

The hardware revisions differ, as far as the processor can tell, only in the registers their boot
programs leave behind. Programs look at these to find out what they run on.
-/

namespace GameBoy

/-- **A hardware revision.** -/
inductive Model where
  /-- The first, monochrome one. -/
  | dmg
  /-- The pocket one. -/
  | mgb
  /-- The colour one. -/
  | cgb
  deriving DecidableEq, Repr

/-- The name under which reports and saved records mention a model. -/
def Model.name : Model → String
  | .dmg => "Dmg"
  | .mgb => "Mgb"
  | .cgb => "Cgb"

/-- Every model. -/
def Model.all : List Model := [.dmg, .mgb, .cgb]

end GameBoy
