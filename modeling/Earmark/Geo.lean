import Earmark.Measure
import Earmark.Tags

/-!
Cities and the boxes of coordinates that fence them.

A city is known by one canonical name. The fence of a city is its box on the map or, when a radius
is given, the box that reaches that far in each direction from the centre of the city's box.
-/

namespace Earmark

/-- A box of latitudes and longitudes. -/
structure GeoBounds where
  minLat : Binary64
  maxLat : Binary64
  minLng : Binary64
  maxLng : Binary64
  deriving DecidableEq, Repr

namespace GeoBounds

def contains (bounds : GeoBounds) (lat lng : Binary64) : Bool :=
  bounds.minLat.le lat && lat.le bounds.maxLat && bounds.minLng.le lng && lng.le bounds.maxLng

def centre (bounds : GeoBounds) : Binary64 × Binary64 :=
  (((bounds.minLat.add bounds.maxLat).div (.ofNat 2)),
    ((bounds.minLng.add bounds.maxLng).div (.ofNat 2)))

end GeoBounds

/-- A city with a box on the map. -/
structure City where
  name : String
  title : String
  bounds : GeoBounds
  deriving Repr

/-- A box given in tenths of degrees. -/
def GeoBounds.ofTenths (minLat maxLat minLng maxLng : Nat) : GeoBounds :=
  { minLat := .ofScientific false minLat (-1), maxLat := .ofScientific false maxLat (-1)
    minLng := .ofScientific false minLng (-1), maxLng := .ofScientific false maxLng (-1) }

namespace City

def all : List City :=
  [⟨"chennai", "Chennai", .ofTenths 129 133 801 804⟩,
   ⟨"mumbai", "Mumbai", .ofTenths 189 193 727 731⟩,
   ⟨"delhi", "Delhi", .ofTenths 284 289 768 775⟩,
   ⟨"bengaluru", "Bengaluru", .ofTenths 128 132 774 778⟩,
   ⟨"hyderabad", "Hyderabad", .ofTenths 172 176 783 787⟩,
   ⟨"pune", "Pune", .ofTenths 184 187 737 740⟩]

/-- Other names of cities, each with the canonical one. -/
def aliases : List (String × String) :=
  [("bangalore", "bengaluru"), ("new delhi", "delhi"), ("bombay", "mumbai"), ("madras", "chennai")]

/-- The canonical name behind any case, padding and alias. -/
def canonical (name : String) : String :=
  (aliases.lookup (normalize name)).getD (normalize name)

/-- The city of any of its names. -/
def find? (name : String) : Option City := all.find? (·.name == canonical name)

def kmPerDegree : Binary64 := .ofNat 111

/-- The box that reaches `radius` kilometres in each direction from a centre. -/
def boxAround (centre : Binary64 × Binary64) (radius : Binary64) : GeoBounds :=
  let (lat, lng) := centre
  let shrink := Binary64.max (Binary64.radians lat).cos (.ofScientific false 1 (-6))
  let latDelta := radius.div kmPerDegree
  let lngDelta := radius.div (kmPerDegree.mul shrink)
  { minLat := lat.sub latDelta, maxLat := lat.add latDelta
    minLng := lng.sub lngDelta, maxLng := lng.add lngDelta }

/-- The fence of a city, for a radius in kilometres; a city without a box on the map has none. -/
def fence (name : String) (radius : Option Measure) : Except Failure (Option GeoBounds) :=
  match find? name, radius with
  | none, _ => .ok none
  | some city, none => .ok (some city.bounds)
  | some city, some r => do
    let km ← r.toFloat
    .ok (some (boxAround city.bounds.centre km))

end City

end Earmark
