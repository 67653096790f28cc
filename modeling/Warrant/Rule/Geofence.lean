import Warrant.Json.Record
import Warrant.Number.Layout

/-! Circles on the map, and the text by which enforcement points know them. -/

namespace Warrant

/-- The unit of a radius. -/
inductive DistanceUnit where
  | kilometers
  | miles
deriving DecidableEq

namespace DistanceUnit

/-- The name of a unit. -/
def name : DistanceUnit → String
  | .kilometers => "kilometers"
  | .miles => "miles"

/-- The abbreviation shown beside a radius. -/
def short : DistanceUnit → String
  | .kilometers => "km"
  | .miles => "mi"

/-- The unit of a name. -/
def ofName? (name : String) : Option DistanceUnit :=
  if name = "kilometers" then some .kilometers
  else if name = "miles" then some .miles
  else none

/-- A unit is a JSON string with its name. -/
def toJson (unit : DistanceUnit) : Json :=
  .str unit.name

/-- Reads the name of a unit. -/
def ofDocument? (document : Document) : Option DistanceUnit :=
  document.choice? ofName?

/-- The kilometers of a mile, as far as 32 bits tell. -/
def kilometersPerMile : Finite binary32 := ⟨false, ⟨1070464730, by decide⟩⟩

/-- The kilometers of a mile are the number nearest to 1.60934. -/
theorem toBinary_kilometersPerMile :
    Decimal.toBinary binary32 ⟨false, 160934, -5⟩ = .finite kilometersPerMile := by
  -- Both sides are closed terms.
  decide +kernel

/-- A radius as enforcement points compare it: a thousandth of its kilometers. -/
def enforced (unit : DistanceUnit) (radius : Binary binary32) : Binary binary32 :=
  match unit with
  | .kilometers => radius.divide 1000
  | .miles => (radius.scale kilometersPerMile).divide 1000

end DistanceUnit

/-- A circle on the map. -/
structure Geofence where
  latitude : Binary binary32
  longitude : Binary binary32
  radius : Binary binary32
  unit : DistanceUnit
deriving DecidableEq

namespace Geofence

/-- The center and the enforced radius, separated by commas. -/
def value (fence : Geofence) : String :=
  String.ofList (fence.latitude.write .field ++ ',' :: fence.longitude.write .field ++
    ',' :: (fence.unit.enforced fence.radius).write .field)

/-- Circles with numerically equal fields in the same unit. -/
def isSame (a b : Geofence) : Bool :=
  a.latitude.isSame b.latitude && a.longitude.isSame b.longitude && a.radius.isSame b.radius &&
    a.unit = b.unit

end Geofence

end Warrant
