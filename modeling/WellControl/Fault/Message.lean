import WellControl.Fault
import WellControl.Text.Amount
import WellControl.Text.Quoted

/-!
# Wording of faults
-/

set_option autoImplicit false

namespace WellControl

open Text

def Number.text : Number Float → String
  | .real x => amount x
  | .whole n => toString n

def Relation.text : Relation → String
  | .above => ">"
  | .atLeast => ">="
  | .atMost => "<="

/-- A phase as it stands in a list of phases. -/
def Phase.text (p : Phase) : String :=
  let name := Enumeration.name p
  "<Phase." ++ name.toUpper ++ ": " ++ quoted name ++ ">"

/-- What is said about a fault.  What is not there to be read, and arrays that cannot be built or do
not fit one another, are reported by their kind alone. -/
def Fault.message? : Fault Float → Option String
  | ragged | negativeExtent | misaligned | missingRate | unknownConstant | otherKindOfWell => none
  | notAMember title text => some (quoted text ++ " is not a valid " ++ title)
  | outOfRange field relation bound value =>
    some ("'" ++ field ++ "' must be " ++ relation.text ++ " " ++ bound.text ++ ": " ++ value.text)
  | noActivePhase => some "At least one phase must be active."
  | duplicatePhases phases =>
    some ("Duplicate phases in phase usage: (" ++
      String.intercalate ", " (phases.map Phase.text) ++ ")")
  | inactivePhase phase =>
    some ("Phase " ++ quoted (Enumeration.name phase) ++ " is not active in this model.")
  | inseparable =>
    some ("The product of the dissolved gas-oil ratio and the vaporized oil-gas ratio must be " ++
      "less than 1.")
  | rateCount expected shape =>
    some ("Expected " ++ toString expected ++ " surface rates, got shape " ++ extents shape ++ ".")
  | undefinedRegion fip pvt =>
    some ("No region properties for FIP region " ++ toString fip ++ " and PVT region " ++
      toString pvt ++ ".")
  | negativeLimit field value =>
    some ("'" ++ field ++ "' must be non-negative, got " ++ amount value)
  | completionNumber value =>
    some ("'completion' must be a positive completion number, got " ++ toString value)
  | duplicateConnections indices =>
    some ("Duplicate connection indices in well: " ++ bracketed (indices.map toString))
  | duplicateWells names => some ("Duplicate well names: " ++ bracketed (names.map quoted))
  | surfaceRatesShape => some "Surface rates must be a 1D array."
  | reservoirRatesShape well shape expected =>
    some ("Reservoir rates of well " ++ quoted well ++ " have shape " ++ extents shape ++
      ", expected " ++ extents expected ++ ".")
  | potentialsShape well shape expected =>
    some ("Potentials of well " ++ quoted well ++ " have shape " ++ extents shape ++
      ", expected " ++ extents expected ++ ".")
  | perforationRatesShape well phases shape =>
    some ("Perforation rates of well " ++ quoted well ++ " must have shape (connections, " ++
      toString phases ++ "), got " ++ extents shape ++ ".")
  | duplicateState well => some ("A state for well " ++ quoted well ++ " already exists.")
  | undefinedGroup group step =>
    some ("Group " ++ quoted group ++ " is not defined at step " ++ toString step ++ ".")
  | noProductionQuantity mode =>
    some ("Group production mode " ++ quoted (Enumeration.name mode) ++
      " has no rate quantity.")
  | noInjectionQuantity mode =>
    some ("Group injection mode " ++ quoted (Enumeration.name mode) ++ " has no rate quantity.")
  | injectedPhase well fluid =>
    some ("Expected WATER, OIL or GAS as type for injector " ++ quoted well ++ ", got " ++
      quoted (Enumeration.name fluid))
  | missingPerforations well available expected =>
    some ("State of well " ++ quoted well ++ " has perforation rates for " ++
      toString available ++ " connections, expected at least " ++ toString expected ++ ".")
  | opposedRates => some "both rates should be in the same direction"
  | brokenExpectation => some ""
  | unlisted name => some (quoted name)

end WellControl
