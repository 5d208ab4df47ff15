import Seam.EdgeSet.Discovery
import Seam.Group.Reconciliation
import Seam.Group.Reduction
import Seam.Group.Selection
import Seam.Listing
import Seam.Mesh.Canonical
import Seam.Mesh.Merge
import Seam.Mesh.Tolerance
import Seam.Settings.Basic

set_option autoImplicit false

namespace Seam

inductive Level where
  | warning
  | info
  | detail
deriving DecidableEq, Repr

structure Note where
  level : Level
  text : String
deriving DecidableEq, Repr

namespace Journal

def onSuccess {α : Type} (result : Result α) (notes : α → List Note) : List Note :=
  match result with
  | .ok value => notes value
  | .error _ => []

def edges (m : Mesh) (result : Result EdgeSet) : List Note :=
  onSuccess result fun s => [⟨.detail, s!"[{m.name}] defined {s.edgeCount} edges over {m.vertexCount} vertices"⟩]

def compaction (m : Mesh) (result : Result (Mesh × Nat)) : List Note :=
  onSuccess result fun (_, removed) =>
    if 0 < removed then [⟨.detail, s!"{m.name}: {removed} vertices removed by vertex_clean"⟩] else []

-- A face that collapsed is worth a detail from verbosity 3 on, one that is left degenerate always a warning.
def collapsedFace (m : Mesh) (verbosity : Int) (gnum : UInt64) (f : Nat) (refs : List Nat) : List Note :=
  let before := refs.length
  let after := (Mesh.collapseOnto [] refs).length
  (if 2 < verbosity ∧ after ≠ before then
    [⟨.detail, s!"{m.name}: face {f} (global number {gnum}) {before} -> {after} vertices"⟩] else []) ++
  (if after < 3 then
    [⟨.warning, s!"{m.name}: face {f} (global number {gnum}) left with {after} vertices"⟩] else [])

def collapse (m : Mesh) (verbosity : Int) (result : Result (Mesh × Nat)) : List Note :=
  let faces := do
    m.check
    m.faces
  onSuccess faces (fun faces => (m.faceGnums.zip faces).zipIdx.flatMap fun ((gnum, refs), f) =>
    collapsedFace m verbosity gnum f refs) ++
  onSuccess result fun (_, removed) =>
    if 0 < verbosity then [⟨.info, s!"{m.name}: {removed} degenerate edge references removed"⟩] else []

def canonical (m : Mesh) (result : Result (Mesh × Nat)) : List Note :=
  onSuccess result fun (_, dropped) =>
    if 0 < dropped then [⟨.detail, s!"{m.name}: {dropped} duplicate faces dropped"⟩] else []

def merge (result : Result Mesh) : List Note :=
  onSuccess result fun m =>
    [⟨.detail, s!"{m.name}: updated to {m.vertexCount} vertices and {m.faceRefs.length} face references"⟩]

def tolerances (m : Mesh) (s : EdgeSet) (fraction : Binary64) : List Note :=
  if s.vertexCount = m.vertexCount ∧ !Mesh.isFraction fraction then
    let shown := Text.positional fraction
    [⟨.warning, s!"{m.name}: tolerance fraction {shown} is not a finite positive number"⟩]
  else []

def reconciliation (seat : Seat) (m : Mesh) (result : Result Nat) : List Note :=
  onSuccess result fun reduced =>
    [⟨.detail, s!"[rank {seat.rank}] {m.name}: {m.vertexCount} vertices synchronized ({reduced} global numbers reduced here)"⟩]

def extreme (settings : Settings) (m : Mesh) (which : String) (v : Vertex) : Note :=
  ⟨.info, s!"[join {settings.number}] {m.name}: {which} tolerance on vertex {v.gnum}\n  {v.describe}"⟩

def toleranceRange (settings : Settings) (m : Mesh) (result : Result (Option ToleranceRange)) : List Note :=
  onSuccess result fun range =>
    match range with
    | some range =>
        if 0 < settings.verbosity then
          [extreme settings m "minimum" range.least, extreme settings m "maximum" range.greatest]
        else []
    | none => []

def shipment (seat : Seat) (sent : Nat) (m : Mesh) : Note :=
  ⟨.detail, s!"[rank {seat.rank}] exchange: {sent} faces sent, {m.faceCount} faces and {m.vertexCount} vertices received"⟩

def selection (seat : Seat) (outcome : Selection.Outcome) : List Note :=
  match outcome.shipped with
  | none => []
  | some (sent, received) =>
      shipment seat sent received ::
      onSuccess outcome.mesh fun m =>
        [⟨.detail, s!"[rank {seat.rank}] {m.name}: {m.faceCount} selected faces assembled over {m.vertexCount} vertices"⟩]

end Journal

end Seam
