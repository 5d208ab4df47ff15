import Seam.Proofs.Mesh.Rewriting
import Seam.Proofs.Mesh.Strands

set_option autoImplicit false

namespace Seam.Mesh

def Plan.way (p : Plan) (s : EdgeSet) (a b : Nat) : Result (List Nat) := do
  return extendFrom 0 (← p.laySideFrom s 0 [] (a, b)) (← fetch p.image b)

section Sides

theorem inner_side (front rest : List Nat) (x y : Nat) : (x, y) ∈ sides (front ++ x :: y :: rest) := by
  have here : (front ++ x :: y :: rest)[front.length]? = some x := by simp
  have next : ((front ++ x :: y :: rest).drop 1 ++ (front ++ x :: y :: rest).take 1)[front.length]? = some y := by
    rw [List.getElem?_append_left (by simp), List.getElem?_drop]
    simp [Nat.add_comm 1]
  exact List.mem_of_getElem? (List.getElem?_zip_eq_some.mpr ⟨here, next⟩)

theorem closing_side (front : List Nat) (x first : Nat) (starts : (front ++ [x]).head? = some first) :
    (x, first) ∈ sides (front ++ [x]) := by
  have here : (front ++ [x])[front.length]? = some x := by simp
  have next : ((front ++ [x]).drop 1 ++ (front ++ [x]).take 1)[front.length]? = some first := by
    rw [List.getElem?_append_right (by simp), List.length_drop, List.length_append, List.length_singleton, Nat.add_sub_cancel,
      Nat.sub_self, List.getElem?_take_of_lt Nat.one_pos, ← List.head?_eq_getElem?, starts]
  exact List.mem_of_getElem? (List.getElem?_zip_eq_some.mpr ⟨here, next⟩)

theorem neighbours_laid (before after : List Nat) (x y : Nat) (apart : x ≠ y) :
    ∃ front rest, (before ++ [x, y] ++ after).foldl extend [] = front ++ x :: y :: rest := by
  obtain ⟨front, upTo⟩ := List.getLast?_eq_some_iff.mp (extend_last (before.foldl extend []) x)
  have fresh : ¬ (front ++ [x]).getLast? = some y := by simpa using apart
  obtain ⟨rest, behind⟩ := List.head?_eq_some_iff.mp (fold_extend_head [y] after y rfl)
  have onward : after.destutter' (· ≠ ·) y = y :: rest := (extend_from [] y after).symm.trans behind
  refine ⟨front, rest, ?_⟩
  rw [List.foldl_append, List.foldl_append, List.foldl_cons, List.foldl_cons, List.foldl_nil, upTo, extend, if_neg fresh,
    extend_from, onward, List.append_assoc, List.singleton_append]

theorem neighbours_side (chain : List Nat) (x y : Nat) (apart : x ≠ y) (next : [x, y] <:+: chain) :
    (x, y) ∈ sides (collapsed chain) := by
  obtain ⟨before, after, rfl⟩ := next
  obtain ⟨front, rest, laid⟩ := neighbours_laid before after x y apart
  rw [collapsed, ← extend_all, laid]
  split
  · rename_i closes
    rcases List.eq_nil_or_concat' rest with rfl | ⟨inside, last, rfl⟩
    · have ends : front ++ [x, y] = front ++ [x] ++ [y] := by simp
      rw [ends] at closes ⊢
      have starts : (front ++ [x]).head? = some y := by
        have repeats := closes.2.symm
        rw [List.getLast?_concat] at repeats
        cases front with
        | nil => exact absurd repeats (by simpa using apart)
        | cons v front => exact repeats
      rw [List.dropLast_concat]
      exact closing_side front x y starts
    · have ends : front ++ x :: y :: (inside ++ [last]) = front ++ x :: y :: inside ++ [last] := by simp
      rw [ends, List.dropLast_concat]
      exact inner_side front inside x y
  · exact inner_side front rest x y

end Sides

section Strands

variable (ends : List (Nat × Nat)) (rows : List (List Nat)) (image : List Nat)

def sideStrand (side : Nat × Nat) : List Nat :=
  strand (image.getD side.1 0) (image.getD side.2 0) (plannedWay ends rows side.1 side.2)

theorem side_strand_eq (side : Nat × Nat) :
    sideStrand ends rows image side = (rewrittenSide ends rows image side ++ [image.getD side.2 0]).foldl extend [] := rfl

theorem path_head (v stop : Nat) (rest : List Nat) :
    (((v :: rest).zip (rest ++ [stop])).flatMap (rewrittenSide ends rows image)).head? = some (image.getD v 0) := by
  cases rest <;> rfl

theorem strands_joined (v stop : Nat) (rest chain : List Nat) :
    (((v :: rest).zip (rest ++ [stop])).flatMap (sideStrand ends rows image)).foldl extend chain =
      extend ((((v :: rest).zip (rest ++ [stop])).flatMap (rewrittenSide ends rows image)).foldl extend chain)
        (image.getD stop 0) := by
  induction rest generalizing v chain with
  | nil =>
      simp only [List.nil_append, List.zip_cons_cons, List.zip_nil_right, List.flatMap_cons, List.flatMap_nil, List.append_nil]
      rw [side_strand_eq, extend_merged, List.foldl_concat]
  | cons w rest ih =>
      rw [List.cons_append, List.zip_cons_cons, List.flatMap_cons, List.flatMap_cons, List.foldl_append, List.foldl_append, ih w,
        side_strand_eq, extend_merged, List.foldl_concat, extend_restart _ _ _ (path_head ends rows image w stop rest)]

theorem rewritten_strands (refs : List Nat) :
    rewritten ends rows image refs = collapsed ((sides refs).flatMap (sideStrand ends rows image)) := by
  cases refs with
  | nil => rfl
  | cons v rest =>
      obtain ⟨behind, starts⟩ := List.head?_eq_some_iff.mp (path_head ends rows image v v rest)
      have joined := strands_joined ends rows image v v rest []
      have first := fold_extend_head [image.getD v 0] behind (image.getD v 0) rfl
      change collapsed (((v :: rest).zip (rest ++ [v])).flatMap (rewrittenSide ends rows image)) =
        collapsed (((v :: rest).zip (rest ++ [v])).flatMap (sideStrand ends rows image))
      rw [← close_up_laid, ← close_up_laid, joined, starts]
      exact (close_up_again _ _ first).symm

end Strands

section Ways

variable (p : Plan) (vertices : Nat) (ends : List (Nat × Nat)) (rows : List (List Nat)) (oneWay : EdgeSet.OneWay ends)
  (within : ∀ a b, (a, b) ∈ ends → a < vertices ∧ b < vertices) (narrow : 2 * ends.length < UInt64.size)
  (inserts : p.Inserts ends.length rows) (a b : Nat) (known : a ≠ b → (a, b) ∈ ends ∨ (b, a) ∈ ends)

include oneWay known

theorem planned_way_turned : plannedWay ends rows b a = (plannedWay ends rows a b).reverse := by
  by_cases same : a = b
  · simp [plannedWay, same]
  · rcases known same with forward | backward
    · have single := oneWay.single a b forward
      simp [plannedWay, same, Ne.symm same, forward, single]
    · have single := oneWay.single b a backward
      simp [plannedWay, same, Ne.symm same, backward, single]

theorem side_strand_turned_iff (image : List Nat) :
    sideStrand ends rows image (a, b) = (sideStrand ends rows image (b, a)).reverse ↔
      image.getD a 0 = image.getD b 0 ∨ Clear (image.getD a 0) (image.getD b 0) (plannedWay ends rows a b) := by
  rw [← strand_turned_iff, sideStrand, sideStrand, planned_way_turned ends rows oneWay a b known]

include within narrow inserts

theorem way_strand (start : a < p.image.length) (stop : b < p.image.length) :
    p.way (.ofEnds vertices ends) a b = .ok (sideStrand ends rows p.image (a, b)) := by
  have laid := lay_side_rewrites p vertices ends rows oneWay within narrow inserts [] a b start stop known
  have image : fetch p.image b = .ok (p.image.getD b 0) := (fetch_eq_ok_iff _ _ _).mpr (by simp [stop])
  have alone : p.laySideFrom (.ofEnds vertices ends) 0 [] (a, b) = _ := lay_side_append [] p (.ofEnds vertices ends) [] (a, b)
  simp only [Plan.way, alone, laid, image, bind, Except.bind, Except.map, pure, Except.pure]
  rw [side_strand_eq, List.foldl_concat]
  exact congrArg Except.ok (extend_from_append [] _ _)

end Ways

-- The chains that a merge has laid along the sides of the old faces. Each is the one of its side, the new faces are made
-- of them, and what is next to each other in a chain stays so in the new face.
structure Laying (p : Plan) (s : EdgeSet) (faces : List (List Nat)) (result : Mesh) (chain : Nat × Nat → List Nat) :
    Prop where
  ways : ∀ refs ∈ faces, ∀ a b, (a, b) ∈ sides refs → p.way s a b = .ok (chain (a, b))
  joined : result.faces = .ok (faces.map fun refs => collapsed ((sides refs).flatMap chain))
  kept : ∀ refs ∈ faces, ∀ a b, (a, b) ∈ sides refs → ∀ x y, [x, y] <:+: chain (a, b) →
    (x, y) ∈ sides (collapsed ((sides refs).flatMap chain))

theorem merge_lays (m : Mesh) (valid : m.check = .ok ()) (faces : List (List Nat)) (found : m.faces = .ok faces)
    (narrow : 2 * (EdgeSet.ofFaces faces).length < UInt64.size) (p : Plan) (result : Mesh)
    (rows : List (List Nat)) (fits : p.Fits m (EdgeSet.ofFaces faces).length rows)
    (ok : m.merge (.ofEnds m.vertexCount (EdgeSet.ofFaces faces)) p = .ok result) :
    Laying p (.ofEnds m.vertexCount (EdgeSet.ofFaces faces)) faces result
      (sideStrand (EdgeSet.ofFaces faces) rows p.image) where
  ways refs face a b side := by
    have inside := faces_inside m valid faces found
    have bound (v : Nat) (listed : v ∈ refs) : v < p.image.length := (inside refs face v listed).trans_eq fits.length.symm
    obtain ⟨first, second⟩ := sides_inside refs a b side
    exact way_strand p m.vertexCount _ rows (EdgeSet.of_faces_one_way faces) (EdgeSet.of_faces_inside faces m.vertexCount inside)
      narrow fits.inserts a b (EdgeSet.of_faces_complete faces refs face a b side) (bound a first) (bound b second)
  joined := by
    obtain ⟨vertices, _, merged⟩ := merge_fitting m p faces valid found rows fits narrow
    obtain rfl := Except.ok.inj (merged.symm.trans ok)
    have count : faces.length = m.faceCount := by rw [map_m_length _ _ _ found, List.length_range]
    have relaid := List.map_congr_left fun refs (_ : refs ∈ faces) => rewritten_strands (EdgeSet.ofFaces faces) rows p.image refs
    rw [← relaid]
    exact faces_laid _ _ ((List.length_map ..).trans count) rfl rfl
  kept refs _ a b side x y next := by
    have strand : (sideStrand (EdgeSet.ofFaces faces) rows p.image (a, b)).IsChain (· ≠ ·) := by
      rw [side_strand_eq, extend_all]
      exact List.isChain_destutter _ _
    have apart : x ≠ y := by simpa using strand.infix next
    have among : sideStrand (EdgeSet.ofFaces faces) rows p.image (a, b) <:+:
        (sides refs).flatMap (sideStrand (EdgeSet.ofFaces faces) rows p.image) :=
      List.infix_of_mem_flatten (List.mem_map_of_mem side)
    exact neighbours_side _ x y apart (next.trans among)

-- Whatever a merge accepts, the chains on both sides of an edge are each other's reverse exactly if the images of its ends are
-- one vertex, or the plan for the edge does not lead back to the image that it comes from, on either way.
theorem shared_edges_match (m : Mesh) (valid : m.check = .ok ()) :
    ∃ s faces, EdgeSet.ofMesh m = .ok s ∧ m.faces = .ok faces ∧ (2 * s.edgeCount < UInt64.size → ∀ p result,
      m.merge s p = .ok result → ∃ chain, Laying p s faces result chain ∧
        ∀ first ∈ faces, ∀ second ∈ faces, ∀ a b, (a, b) ∈ sides first → (b, a) ∈ sides second →
          ∃ planned, p.between s a b = .ok planned ∧ (chain (a, b) = (chain (b, a)).reverse ↔
            p.image.getD a 0 = p.image.getD b 0 ∨ Clear (p.image.getD a 0) (p.image.getD b 0) planned)) := by
  obtain ⟨faces, found, edges, inside⟩ := EdgeSet.of_valid_mesh m valid
  refine ⟨_, faces, edges, found, fun narrow p result ok => ?_⟩
  obtain ⟨rows, fits⟩ := fits_of_merge m p faces result ok
  refine ⟨_, merge_lays m valid faces found narrow p result rows fits ok, fun first face second _ a b side _ => ?_⟩
  have oneWay := EdgeSet.of_faces_one_way faces
  have known := EdgeSet.of_faces_complete faces first face a b side
  exact ⟨_, between_planned p m.vertexCount _ rows oneWay inside narrow fits.inserts a b known,
    side_strand_turned_iff _ rows oneWay a b known p.image⟩

theorem wafer_edge_matches :
    let split : Plan := ⟨4, [0, 1, 2, 3], some (.ofRows [[0, 3, 3, 1], [], []]), none⟩
    wafer.check = .ok () ∧ ∃ s result chain, EdgeSet.ofMesh wafer = .ok s ∧ 2 * s.edgeCount < UInt64.size ∧
      wafer.merge s split = .ok result ∧ Laying split s [[0, 1, 2], [0, 2, 1]] result chain ∧
      chain (0, 1) = [0, 3, 1] ∧ chain (0, 1) = (chain (1, 0)).reverse := by
  intro split
  have valid : wafer.check = .ok () := by decide
  obtain ⟨s, faces, edges, found, matching⟩ := shared_edges_match wafer valid
  obtain rfl : s = .ofEnds 4 [(0, 1), (1, 2), (2, 0)] := Except.ok.inj (edges.symm.trans (by decide))
  obtain rfl : faces = [[0, 1, 2], [0, 2, 1]] := Except.ok.inj (found.symm.trans (by decide))
  have narrow : 2 * (EdgeSet.ofEnds 4 [(0, 1), (1, 2), (2, 0)]).edgeCount < UInt64.size := by decide
  obtain ⟨result, merged⟩ : ∃ result, wafer.merge (.ofEnds 4 [(0, 1), (1, 2), (2, 0)]) split = .ok result := ⟨_, rfl⟩
  obtain ⟨chain, laying, turned⟩ := matching narrow split result merged
  obtain ⟨planned, way, same⟩ := turned [0, 1, 2] (by decide) [0, 2, 1] (by decide) 0 1 (by decide) (by decide)
  obtain rfl : planned = [0, 3, 3, 1] := Except.ok.inj (way.symm.trans (by decide))
  have first : chain (0, 1) = [0, 3, 1] :=
    Except.ok.inj ((laying.ways [0, 1, 2] (by decide) 0 1 (by decide)).symm.trans (by decide))
  exact ⟨valid, _, result, chain, edges, narrow, merged, laying, first, same.mpr (.inr (by decide))⟩

-- The plan leads from the first end to the fourth vertex and back. The second face leaves out the way back, since it is
-- the end ahead there.
theorem wafer_edge_torn :
    let torn : Plan := ⟨4, [0, 1, 2, 3], some (.ofRows [[3, 0], [], []]), none⟩
    wafer.check = .ok () ∧ wafer.faces = .ok [[0, 1, 2], [0, 2, 1]] ∧ (0, 1) ∈ sides [0, 1, 2] ∧ (1, 0) ∈ sides [0, 2, 1] ∧
      ∃ s result, EdgeSet.ofMesh wafer = .ok s ∧ wafer.merge s torn = .ok result ∧
        result.faces = .ok [[0, 3, 0, 1, 2], [0, 2, 1, 3]] ∧
        torn.way s 0 1 = .ok [0, 3, 0, 1] ∧ torn.way s 1 0 = .ok [1, 3, 0] ∧ [0, 3, 0, 1] ≠ [1, 3, 0].reverse := by
  intro torn
  have merged : wafer.merge (.ofEnds 4 [(0, 1), (1, 2), (2, 0)]) torn = .ok (wafer.withFaces [[0, 3, 0, 1, 2], [0, 2, 1, 3]]) := by
    rw [merge_by_face]
    decide
  exact ⟨by decide, by decide, by decide, by decide, .ofEnds 4 [(0, 1), (1, 2), (2, 0)], _, by decide, merged, by decide, by decide,
    by decide, by decide⟩

end Seam.Mesh
