import Realm.Document

/-!
# Rules

The parameters of the game that are the same for all players.
-/

set_option autoImplicit false

namespace Realm

/-- The rules of a game. -/
structure Rules where
  /-- No land has more slots than this by tilling or by being added. -/
  maxSlotsPerLand : Nat := 2
  /-- The slots of a new land. -/
  baseLandSlots : Nat := 1
  /-- The resource that counts all inhabitants. -/
  populationResource : String := "population_total"
  /-- The stat that says how many inhabitants there may be. -/
  maxPopulationStat : String := "maxPopulation"
  deriving DecidableEq

namespace Rules

/-- The slots of a new land, within the limit. -/
def initialSlots (rules : Rules) : Nat := min rules.baseLandSlots rules.maxSlotsPerLand

variable {α : Type} [Amount α]

def ofDocument? (document : Document α) : Option Rules := do
  let standard : Rules := {}
  let [maxSlots, baseSlots, population, maxPopulation] ←
    document.slots? [["max_slots_per_land"], ["base_land_slots"], ["population_resource"],
      ["max_population_stat"]] | none
  return {
    maxSlotsPerLand := ← Document.defaulted standard.maxSlotsPerLand Document.count? maxSlots
    baseLandSlots := ← Document.defaulted standard.baseLandSlots Document.count? baseSlots
    populationResource := ←
      Document.defaulted standard.populationResource Document.text? population
    maxPopulationStat := ←
      Document.defaulted standard.maxPopulationStat Document.text? maxPopulation }

def toJson (rules : Rules) : Json α :=
  .record [("max_slots_per_land", .count rules.maxSlotsPerLand),
    ("base_land_slots", .count rules.baseLandSlots),
    ("population_resource", .text rules.populationResource),
    ("max_population_stat", .text rules.maxPopulationStat)]

end Rules

end Realm
