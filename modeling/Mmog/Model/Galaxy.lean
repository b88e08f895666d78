import Mmog.Ruby.Floating
import Mmog.Ruby.Numeric
import Mmog.Ruby.Pairing
import Mmog.Ruby.Run
import Mmog.Ruby.Table

/-!
# The map

Galaxies lie on a square grid whose opposite borders are joined, sunsystems in
galaxies and planets in sunsystems.  A galaxy keeps one number for both of its
coordinates.  The neighbourhood of what is mentioned comes into being at random.
-/

namespace Mmog.Map

open Ruby Floating

/-- The settings of the world. -/
structure Settings where
  worldLength : ℤ
  worldDistanceFactor : ℤ
  worldLength_pos : 1 ≤ worldLength

structure Galaxy where
  x : ℤ
  deriving DecidableEq

structure Sunsystem where
  y : ℤ
  galaxy : ℕ
  deriving DecidableEq

structure Planet where
  z : ℤ
  special : ℤ
  sunsystem : ℕ
  deriving DecidableEq

structure Universe where
  galaxies : Table Galaxy
  sunsystems : Table Sunsystem
  planets : Table Planet
  /-- Which users have seen which sunsystems. -/
  sunsystemsUsers : List (ℕ × ℕ)

def Universe.empty : Universe := ⟨.empty, .empty, .empty, []⟩

/-! ## Chance -/

/-- The positions 1 to 8 after `shuffle!`. -/
structure Shuffle where
  order : Equiv.Perm (Fin 8)

instance : Inhabited Shuffle := ⟨⟨Equiv.refl (Fin 8)⟩⟩

def Shuffle.at (pos : Shuffle) (n : Fin 8) : ℤ := (pos.order n : ℕ) + 1

/-- What is drawn for one sunsystem. -/
structure SunsystemDraw where
  pos2 : Shuffle
  /-- `Random.rand(5)` -/
  planets : Fin 5
  /-- `Random.rand(7)` of the planets that are not ordinary. -/
  special : Fin 8 → Fin 7
  deriving Inhabited

/-- What is drawn for one galaxy. -/
structure GalaxyDraw where
  pos : Shuffle
  /-- `Random.rand(5)` -/
  sunsystems : Fin 5
  sunsystem : Fin 8 → SunsystemDraw
  deriving Inhabited

namespace GalaxyDraw

def i (draw : GalaxyDraw) : ℕ := draw.sunsystems + 4

theorem i_le (draw : GalaxyDraw) : draw.i ≤ 8 := by
  have hlt := draw.sunsystems.isLt
  unfold i
  omega

end GalaxyDraw

namespace SunsystemDraw

def j (draw : SunsystemDraw) : ℕ := draw.planets + 4

/-- How many planets are ordinary. -/
def k (draw : SunsystemDraw) : ℕ := if 6 < draw.j then 2 else 1

theorem j_le (draw : SunsystemDraw) : draw.j ≤ 8 := by
  have hlt := draw.planets.isLt
  unfold j
  omega

theorem k_le_j (draw : SunsystemDraw) : draw.k ≤ draw.j := by
  unfold k j
  split <;> omega

theorem k_le (draw : SunsystemDraw) : draw.k ≤ 8 := draw.k_le_j.trans draw.j_le

theorem k_pos (draw : SunsystemDraw) : 0 < draw.k := by
  unfold k
  split <;> omega

/-- The position of the `n`-th planet that is not ordinary. -/
def rest (draw : SunsystemDraw) (n : Fin (draw.j - draw.k)) : Fin 8 :=
  ⟨n + draw.k, by have hlt := n.isLt; have hle := draw.j_le; omega⟩

end SunsystemDraw

/-! ## The place of a galaxy -/

namespace Galaxy

def calcX (settings : Settings) : Numeric → Numeric → ℤ
  | .int x, .int y => pairing (x % settings.worldLength) (y % settings.worldLength) + 1
  | _, _ => -1

section Coords

variable (R : Type) [Add R] [Sub R] [Floating R]

def getCoords (self : Galaxy) : ℤ × ℤ :=
  if 0 < self.x then
    let i := self.x - 1
    let j := floor (sqrt (lit (1 / 4) + ofInt (2 * i)) - lit (1 / 2) : R)
    (j - (i - j * (j + 1) / 2), i - j * (j + 1) / 2)
  else (-1, -1)

end Coords

end Galaxy

/-! ## Creation -/

/-- `Planet.create`: what is not ordinary becomes special in one of seven ways. -/
def createPlanet (z special : ℤ) (sunsystem : ℕ) (roll : Fin 7) (world : Universe) : Universe :=
  { world with
    planets := world.planets.create
      { z, special := if special = 0 then special else (roll : ℕ) + 1, sunsystem } }

/-- A sunsystem of the new galaxy `g` with its planets. -/
def createSunsystem (draw : SunsystemDraw) (y : ℤ) (g : ℕ) (world : Universe) : Universe :=
  let s := world.sunsystems.nextId
  let world := { world with sunsystems := world.sunsystems.create { y, galaxy := g } }
  let world := (List.finRange draw.k).foldl (fun world k2 =>
    let n := k2.castLE draw.k_le
    createPlanet (draw.pos2.at n) 0 s (draw.special n) world) world
  (List.finRange (draw.j - draw.k)).foldl (fun world z =>
    createPlanet (draw.pos2.at (draw.rest z)) 1 s (draw.special (draw.rest z)) world) world

/-- Generate a full galaxy at `x`, `y`, if not yet existing. -/
def generateAt (settings : Settings) (draw : GalaxyDraw) (x y : Numeric) (world : Universe) : Universe :=
  let x := Galaxy.calcX settings x y
  if x < 0 ∨ (world.galaxies.first fun galaxy => galaxy.x = x).isSome then world
  else
    let g := world.galaxies.nextId
    let world := { world with galaxies := world.galaxies.create { x } }
    (List.finRange draw.i).foldl (fun world y =>
      let n := y.castLE draw.i_le
      createSunsystem (draw.sunsystem n) (draw.pos.at n) g world) world

/-- What is drawn for the nine cells of a neighbourhood. -/
abbrev Draws := Fin 3 → Fin 3 → GalaxyDraw

def generateNear (settings : Settings) (draws : Draws) (x y : Numeric) (world : Universe) : Universe :=
  (List.finRange 3).foldl (fun world m =>
    (List.finRange 3).foldl (fun world n =>
      generateAt settings (draws m n) (x - .int 1 + .int (m : ℕ)) (y - .int 1 + .int (n : ℕ)) world)
      world) world

/-- `list[0..last]`, where a negative `last` counts from the end. -/
def slice {α : Type} (list : List α) (last : ℤ) : List α :=
  list.take (if 0 ≤ last then last + 1 else list.length + last + 1).toNat

/-- The ids of at most `count` planets of the galaxy, or `false` if there is no galaxy. -/
def discoverNewPlanetAt (settings : Settings) (draw : GalaxyDraw) (shuffle : List ℕ → List ℕ)
    (x y count : Numeric) (world : Universe) : Option (List ℕ) × Universe :=
  match x, y, count with
  | .int x, .int y, .int count =>
      let world := generateAt settings draw (.int x) (.int y) world
      let xxx := Galaxy.calcX settings (.int x) (.int y)
      match world.galaxies.first fun galaxy => galaxy.x = xxx with
      | none => (none, world)
      | some g =>
          let suns := world.sunsystems.select fun sun => sun.galaxy = g
          let plts := suns.flatMap fun sun => world.planets.select fun planet => planet.sunsystem = sun
          (some (slice (shuffle plts) (count - 1)), world)
  | _, _, _ => (some [], world)

/-! ## Discovery -/

section Mention

variable (R : Type) [Add R] [Sub R] [Floating R]

def Galaxy.mention (settings : Settings) (draws : Draws) (self : Galaxy) (world : Universe) : Universe :=
  let pos := self.getCoords R
  generateNear settings draws (.int pos.1) (.int pos.2) world

/-- Nothing if the sunsystem has no galaxy to mention. -/
def Sunsystem.mention (settings : Settings) (draws : Draws) (self : Sunsystem) (world : Universe) :
    Option Universe :=
  (world.galaxies.get self.galaxy).map fun galaxy => galaxy.mention R settings draws world

def Planet.mention (settings : Settings) (draws : Draws) (self : Planet) (world : Universe) :
    Option Universe := do
  let sunsystem ← world.sunsystems.get self.sunsystem
  sunsystem.mention R settings draws world

/-- `sunsystem.users << user` for a user who does not see it yet. -/
def Universe.show (world : Universe) (sunsystem : ℕ) (user : Option ℕ) (isVisible : Bool) : Universe :=
  match user with
  | some user =>
      if isVisible then world
      else { world with sunsystemsUsers := world.sunsystemsUsers ++ [(sunsystem, user)] }
  | none => world

/-- `isVisible` is what `is_visible_by?` answers. -/
def Sunsystem.seenBy (settings : Settings) (draws : Draws) (id : ℕ) (self : Sunsystem) (user : Option ℕ)
    (isVisible : Bool) (world : Universe) : Option Universe :=
  (self.mention R settings draws world).map fun world => world.show id user isVisible

def Planet.seenBy (settings : Settings) (draws : Draws) (self : Planet) (user : Option ℕ)
    (isVisible : Bool) (world : Universe) : Option Universe :=
  (self.mention R settings draws world).map fun world => world.show self.sunsystem user isVisible

/-! ## Calls -/

inductive Call where
  | generateAt (x y : Numeric) (draw : GalaxyDraw)
  | generateNear (x y : Numeric) (draws : Draws)
  | discoverNewPlanetAt (x y count : Numeric) (draw : GalaxyDraw) (shuffle : List ℕ → List ℕ)
  | mentionGalaxy (galaxy : ℕ) (draws : Draws)
  | mentionSunsystem (sunsystem : ℕ) (draws : Draws)
  | mentionPlanet (planet : ℕ) (draws : Draws)
  | sunsystemSeenBy (sunsystem : ℕ) (user : Option ℕ) (isVisible : Bool) (draws : Draws)
  | planetSeenBy (planet : ℕ) (user : Option ℕ) (isVisible : Bool) (draws : Draws)

/-- The world after a call; no call is made on a record that does not exist. -/
def step (settings : Settings) (world : Universe) : Call → Option Universe
  | .generateAt x y draw => some (generateAt settings draw x y world)
  | .generateNear x y draws => some (generateNear settings draws x y world)
  | .discoverNewPlanetAt x y count draw shuffle =>
      some (discoverNewPlanetAt settings draw shuffle x y count world).2
  | .mentionGalaxy id draws =>
      (world.galaxies.get id).map fun galaxy => galaxy.mention R settings draws world
  | .mentionSunsystem id draws =>
      (world.sunsystems.get id).bind fun sunsystem => sunsystem.mention R settings draws world
  | .mentionPlanet id draws =>
      (world.planets.get id).bind fun planet => planet.mention R settings draws world
  | .sunsystemSeenBy id user isVisible draws =>
      (world.sunsystems.get id).bind fun sunsystem =>
        sunsystem.seenBy R settings draws id user isVisible world
  | .planetSeenBy id user isVisible draws =>
      (world.planets.get id).bind fun planet =>
        planet.seenBy R settings draws user isVisible world

end Mention

/-! ## Distances -/

section Distance

variable {R : Type} [LinearOrder R] [Add R] [Sub R] [Mul R] [Floating R]

def Galaxy.getDistance (settings : Settings) (self : Galaxy) : Option Galaxy → R
  | none => ofInt (-1)
  | some other =>
      let pos1 := self.getCoords R
      let pos2 := other.getCoords R
      -- one of the positions is wrong
      if pos1.1 < 0 ∨ pos1.2 < 0 ∨ pos2.1 < 0 ∨ pos2.2 < 0 then ofInt (-1)
      else
        let x := if pos1.1 < pos2.1 then pos2.1 - pos1.1 else pos1.1 - pos2.1
        let y := if pos1.2 < pos2.2 then pos2.2 - pos1.2 else pos1.2 - pos2.2
        let direct : R := sqrt (ofInt (x ^ 2 + y ^ 2))
        let y2 := settings.worldLength - y
        let vertical : R := sqrt (ofInt (x ^ 2 + y2 ^ 2))
        let x2 := settings.worldLength - x
        let both : R := sqrt (ofInt (x2 ^ 2 + y2 ^ 2))
        let horizontal : R := sqrt (ofInt (x2 ^ 2 + y ^ 2))
        min (min (min direct vertical) both) horizontal * ofInt (settings.worldDistanceFactor * 10)

/-- Nothing if the sunsystem itself has no galaxy. -/
def Sunsystem.getDistance (settings : Settings) (world : Universe) (self : Sunsystem) :
    Option Sunsystem → Option R
  | none => some (ofInt (-1))
  | some other => do
      let galaxy ← world.galaxies.get self.galaxy
      let dist1 : R := galaxy.getDistance settings (world.galaxies.get other.galaxy)
      if dist1 < ofInt 0 then
        return ofInt (-1)
      else
        let dist2 :=
          if dist1 = ofInt 0 then
            if self.y < other.y then other.y - self.y else self.y - other.y
          else self.y + other.y
        return dist1 + ofInt (settings.worldDistanceFactor * dist2)

/-- Nothing if the planet itself has no sunsystem. -/
def Planet.getDistance (settings : Settings) (world : Universe) (self : Planet) :
    Option Planet → Option R
  | none => some (ofInt (-1))
  | some other => do
      let sunsystem ← world.sunsystems.get self.sunsystem
      let dist1 : R ← sunsystem.getDistance settings world (world.sunsystems.get other.sunsystem)
      if dist1 < ofInt 0 then
        return ofInt (-1)
      else
        let dist2 :=
          if dist1 = ofInt 0 then
            if self.z < other.z then other.z - self.z else self.z - other.z
          else self.z + other.z
        return dist1 + ofInt dist2

end Distance

end Mmog.Map
