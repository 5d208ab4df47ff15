import Seam.Mesh.Tolerance
import Seam.Proofs.Discovery
import Seam.Proofs.Edit

set_option autoImplicit false

namespace Seam.Mesh

variable (m : Mesh) (s : EdgeSet)

def edgeLength (edge : Nat × Nat) : Option Binary64 := do
  return (← m.vertices[edge.1]?).distance (← m.vertices[edge.2]?)

def touches (v : Nat) (edge : Nat × Nat) : Bool := edge.1 = v ∨ edge.2 = v

def lengthsAt (v : Nat) : List Binary64 := (s.ends.filter (touches v)).filterMap m.edgeLength

def shortestAt (v : Nat) : Binary64 := (m.lengthsAt s v).foldl Binary64.least .infinity

def Joins : Prop := ∀ a b, (a, b) ∈ s.ends → a ≠ b ∧ a < m.vertexCount ∧ b < m.vertexCount

theorem shorten_table (size : Nat) (known : Nat → Binary64) (v : Nat) (inside : v < size) (len : Binary64) :
    shorten ((List.range size).map known) v len =
      .ok ((List.range size).map fun w => if w = v then (known w).least len else known w) := by
  have stored := store_table size known (fun w => if w = v then (known w).least len else known w) v inside fun w apart => if_neg apart
  rw [if_pos rfl] at stored
  simp only [shorten, fetch_table size known v inside, bind, Except.bind]
  exact stored

theorem shorten_ends_table (known : Nat → Binary64) (a b : Nat) (different : a ≠ b) (first : a < m.vertexCount)
    (second : b < m.vertexCount) (len : Binary64) (measured : m.edgeLength (a, b) = some len) :
    m.shortenEnds ((List.range m.vertexCount).map known) (a, b) =
      .ok ((List.range m.vertexCount).map fun v => if touches v (a, b) then (known v).least len else known v) := by
  have boundA : a < m.vertices.length := first
  have boundB : b < m.vertices.length := second
  have va : fetch m.vertices a = .ok m.vertices[a] := (fetch_eq_ok_iff _ _ _).mpr (List.getElem?_eq_getElem boundA)
  have vb : fetch m.vertices b = .ok m.vertices[b] := (fetch_eq_ok_iff _ _ _).mpr (List.getElem?_eq_getElem boundB)
  obtain rfl : m.vertices[a].distance m.vertices[b] = len := by simpa [edgeLength, boundA, boundB] using measured
  simp only [shortenEnds, va, vb, bind, Except.bind, shorten_table _ _ a first, shorten_table _ _ b second]
  refine congrArg Except.ok (List.map_congr_left fun v _ => ?_)
  by_cases atFirst : v = a
  · subst atFirst
    simp [touches, different]
  · by_cases atSecond : v = b
    · subst atSecond
      simp [touches, atFirst]
    · simp [touches, atFirst, atSecond, Ne.symm atFirst, Ne.symm atSecond]

-- What the walk over these edges has made of the length at a vertex.
def shortestOf (edges : List (Nat × Nat)) (v : Nat) : Binary64 :=
  ((edges.filter (touches v)).filterMap m.edgeLength).foldl Binary64.least .infinity

theorem shortest_of_append (edges : List (Nat × Nat)) (edge : Nat × Nat) (len : Binary64) (measured : m.edgeLength edge = some len)
    (v : Nat) :
    m.shortestOf (edges ++ [edge]) v = if touches v edge then (m.shortestOf edges v).least len else m.shortestOf edges v := by
  cases touching : touches v edge <;> simp [shortestOf, touching, measured]

theorem walked_edges (edges : List (Nat × Nat))
    (joins : ∀ a b, (a, b) ∈ edges → a ≠ b ∧ a < m.vertexCount ∧ b < m.vertexCount) :
    edges.foldlM m.shortenEnds (List.replicate m.vertexCount .infinity) =
      .ok ((List.range m.vertexCount).map (m.shortestOf edges)) := by
  induction edges using List.reverseRecOn with
  | nil =>
      have blank : (List.range m.vertexCount).map (m.shortestOf []) = (List.range m.vertexCount).map fun _ => .infinity := rfl
      rw [blank, List.map_const', List.length_range]
      rfl
  | append_singleton edges edge ih =>
      obtain ⟨a, b⟩ := edge
      obtain ⟨different, first, second⟩ := joins a b (by simp)
      have boundA : a < m.vertices.length := first
      have boundB : b < m.vertices.length := second
      have measured : m.edgeLength (a, b) = some (m.vertices[a].distance m.vertices[b]) := by simp [edgeLength, boundA, boundB]
      have last := m.shorten_ends_table (m.shortestOf edges) a b different first second _ measured
      rw [List.foldlM_append, ih fun c d member => joins c d (by simp [member])]
      change (m.shortenEnds _ (a, b) >>= fun next => .ok next) = _
      rw [last]
      exact congrArg Except.ok (List.map_congr_left fun v _ => (m.shortest_of_append edges (a, b) _ measured v).symm)

theorem set_tolerances_eq (fraction : Binary64) : m.setTolerances s fraction =
    if s.vertexCount ≠ m.vertexCount then refuse (.connectivity (.edgeVertices s.vertexCount m.vertexCount))
    else (m.shortest s).map fun lengths => { m with vertices := List.zipWith (scaleTolerance fraction) m.vertices lengths } := by
  rw [setTolerances, settingTolerances, Edit.outcome_get_bind]
  by_cases differs : s.vertexCount ≠ m.vertexCount
  · rw [if_pos differs, if_pos differs]
    rfl
  · rw [if_neg differs, if_neg differs]
    cases measured : m.shortest s with
    | error e => exact congrArg (Except.map Prod.fst) (Edit.outcome_look_bind m (.error e) _)
    | ok lengths => exact congrArg (Except.map Prod.fst) (Edit.outcome_look_bind m (.ok lengths) _)

section Joined

variable (joins : m.Joins s)

include joins

theorem set_tolerances_joined (count : s.vertexCount = m.vertexCount) (fraction : Binary64) :
    m.setTolerances s fraction =
      .ok { m with vertices := m.vertices.mapIdx fun v record => scaleTolerance fraction record (m.shortestAt s v) } := by
  have measured : m.shortest s = .ok ((List.range m.vertexCount).map (m.shortestAt s)) := m.walked_edges s.ends joins
  have scaled : List.zipWith (scaleTolerance fraction) m.vertices ((List.range m.vertexCount).map (m.shortestAt s)) =
      m.vertices.mapIdx fun v record => scaleTolerance fraction record (m.shortestAt s v) :=
    List.ext_getElem (by simp [vertexCount]) fun v _ _ => by simp
  rw [m.set_tolerances_eq, if_neg (not_not.mpr count), measured, Except.map, scaled]

end Joined

theorem own_edges_join (own : EdgeSet) (found : EdgeSet.ofMesh m = .ok own) : own.vertexCount = m.vertexCount ∧ m.Joins own := by
  obtain ⟨_, valid, _⟩ := bind_ok _ _ _ found
  obtain ⟨faces, _, made, inside⟩ := EdgeSet.of_valid_mesh m valid
  obtain rfl : EdgeSet.ofEnds m.vertexCount (EdgeSet.ofFaces faces) = own := Except.ok.inj (made.symm.trans found)
  exact ⟨EdgeSet.of_ends_vertex_count _ _, fun a b edge => ⟨(EdgeSet.of_faces_one_way faces).distinct a b edge, inside a b edge⟩⟩

theorem tolerances_by_vertex (fraction : Binary64) :
    (s.vertexCount = m.vertexCount → m.Joins s →
      m.setTolerances s fraction = .ok { m with vertices := m.vertices.mapIdx fun v record =>
        { record with tolerance :=
            if (m.shortestAt s v).isFinite then fraction.mul (m.shortestAt s v) else record.tolerance } }) ∧
    (s.vertexCount ≠ m.vertexCount →
      m.setTolerances s fraction = refuse (.connectivity (.edgeVertices s.vertexCount m.vertexCount)) ∧
        (settingTolerances s fraction).left m = m) ∧
    ∀ own, EdgeSet.ofMesh m = .ok own → own.vertexCount = m.vertexCount ∧ m.Joins own := by
  refine ⟨fun count joins => ?_, fun differs => ?_, m.own_edges_join⟩
  · rw [m.set_tolerances_joined s joins count fraction]
    simp only [scaleTolerance]
    congr
    funext v record
    split <;> rfl
  · rw [m.set_tolerances_eq, if_pos differs, settingTolerances, Edit.left_get_bind, if_pos differs]
    exact ⟨rfl, rfl⟩

def gusset : Mesh :=
  { Mesh.empty "gusset" with
    faceGnums := [1], faceIndex := [0, 3], faceRefs := [0, 1, 2]
    vertices := [⟨1, ⟨0⟩, ⟨⟨0⟩, ⟨0⟩, ⟨0⟩⟩⟩, ⟨2, ⟨0⟩, ⟨⟨0x4010000000000000⟩, ⟨0⟩, ⟨0⟩⟩⟩,
      ⟨3, ⟨0⟩, ⟨⟨0⟩, ⟨0x4008000000000000⟩, ⟨0⟩⟩⟩, ⟨4, ⟨1⟩, ⟨⟨0⟩, ⟨0⟩, ⟨0⟩⟩⟩] }

theorem gusset_toleranced : ∃ own scaled, EdgeSet.ofMesh gusset = .ok own ∧ own.vertexCount = gusset.vertexCount ∧
    gusset.Joins own ∧ gusset.setTolerances own ⟨0x3FE0000000000000⟩ = .ok scaled ∧
    scaled.vertices.map (fun v => v.tolerance.bits) = [0x3FF8000000000000, 0x4000000000000000, 0x3FF8000000000000, 1] := by
  have found : EdgeSet.ofMesh gusset = .ok (EdgeSet.ofEnds 4 [(0, 1), (1, 2), (2, 0)]) := by decide
  obtain ⟨gives, _, fits⟩ := gusset.tolerances_by_vertex (EdgeSet.ofEnds 4 [(0, 1), (1, 2), (2, 0)]) ⟨0x3FE0000000000000⟩
  obtain ⟨count, joins⟩ := fits _ found
  exact ⟨_, _, found, count, joins, gives count joins, by decide +kernel⟩

end Seam.Mesh
