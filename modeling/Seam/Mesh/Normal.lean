import Seam.Mesh.Basic

set_option autoImplicit false

namespace Seam

structure Vec3 where
  x : Float
  y : Float
  z : Float

namespace Vec3

def zero : Vec3 := ⟨0, 0, 0⟩
def add (a b : Vec3) : Vec3 := ⟨a.x + b.x, a.y + b.y, a.z + b.z⟩
def sub (a b : Vec3) : Vec3 := ⟨a.x - b.x, a.y - b.y, a.z - b.z⟩
def scale (a : Vec3) (k : Float) : Vec3 := ⟨a.x * k, a.y * k, a.z * k⟩
def shrink (a : Vec3) (k : Float) : Vec3 := ⟨a.x / k, a.y / k, a.z / k⟩
def cross (a b : Vec3) : Vec3 :=
  ⟨a.y * b.z - a.z * b.y, a.z * b.x - a.x * b.z, a.x * b.y - a.y * b.x⟩
def norm (a : Vec3) : Float := (a.x * a.x + a.y * a.y + a.z * a.z).sqrt

def ofPoint (p : Point) : Vec3 := ⟨p.x.toFloat, p.y.toFloat, p.z.toFloat⟩
def toPoint (a : Vec3) : Point := ⟨.ofFloat a.x, .ofFloat a.y, .ofFloat a.z⟩

def barycenter (corners : List Vec3) : Vec3 :=
  let share := 1.0 / Float.ofNat corners.length
  corners.foldl (fun sum c => sum.add (c.scale share)) zero

-- Half the sum of the cross products of the fan around `center`.
def area (center : Vec3) (corners : List Vec3) : Vec3 :=
  (corners.zip (corners.drop 1 ++ corners.take 1)).foldl
    (fun sum (a, b) => sum.add (((a.sub center).cross (b.sub center)).scale 0.5)) zero

def normal (corners : List Vec3) : Vec3 :=
  if corners.length < 3 then zero
  else
    let total := area (barycenter corners) corners
    let length := total.norm
    if length ≤ 1e-300 then zero else total.shrink length

end Vec3

namespace Mesh

def faceNormal (m : Mesh) (f : Nat) : Result Point := do
  let corners ← m.records (← m.face f)
  return (Vec3.normal (corners.map fun v => .ofPoint v.coord)).toPoint

def faceNormals (m : Mesh) : Result (List Point) := (List.range m.faceCount).mapM m.faceNormal

end Mesh

end Seam
