import Seam.Group.Reconciliation
import Seam.Proofs.Results

set_option autoImplicit false

namespace Seam.Reconciliation

def positions (vertices : List Vertex) (block ranks owner : Nat) : List Nat :=
  vertices.zipIdx.filterMap fun (v, i) => if blockOwner v.gnum block ranks = owner then some i else none

def routes (vertices : List Vertex) (block ranks : Nat) : List (List Nat) :=
  (List.range ranks).map (positions vertices block ranks)

-- What all copies of the number of `v` reduce to.
def agreed (r : Reducer) (copies : List Vertex) (v : Vertex) : Vertex :=
  r.reduce (copies.filter fun copy => copy.gnum == v.gnum)

def distinctGnums (copies : List Vertex) : Nat := (copies.map Vertex.gnum).eraseDups.length

section Routing

variable (vertices : List Vertex) (block ranks : Nat)

theorem positions_append (v : Vertex) (owner : Nat) : positions (vertices ++ [v]) block ranks owner =
    if blockOwner v.gnum block ranks = owner then positions vertices block ranks owner ++ [vertices.length]
    else positions vertices block ranks owner := by
  rw [positions, List.zipIdx_append, List.filterMap_append]
  by_cases owned : blockOwner v.gnum block ranks = owner <;> simp [owned, positions]

theorem positions_below (owner i : Nat) (member : i ∈ positions vertices block ranks owner) : i < vertices.length := by
  obtain ⟨⟨v, j⟩, listed, kept⟩ := List.mem_filterMap.mp member
  have bound := (List.mem_zipIdx' listed).1
  by_cases owned : blockOwner v.gnum block ranks = owner
  · simp only [owned, if_true, Option.some.injEq] at kept
    exact kept ▸ bound
  · simp [owned] at kept

theorem route_next (some : 0 < ranks) (v : Vertex) :
    routeNext block ranks (routes vertices block ranks) (v, vertices.length) = .ok (routes (vertices ++ [v]) block ranks) := by
  have owner : blockOwner v.gnum block ranks < ranks := by
    rw [blockOwner]
    omega
  have fetched := fetch_table ranks (positions vertices block ranks) _ owner
  have pushed : positions vertices block ranks (blockOwner v.gnum block ranks) ++ [vertices.length] =
      positions (vertices ++ [v]) block ranks (blockOwner v.gnum block ranks) := by
    rw [positions_append, if_pos rfl]
  have stored := store_table ranks (positions vertices block ranks) (positions (vertices ++ [v]) block ranks) _ owner
    fun other different => by rw [positions_append, if_neg (Ne.symm different)]
  rw [routeNext, routes, fetched]
  refine Eq.trans ?_ stored
  rw [← pushed]
  rfl

theorem route_eq (some : 0 < ranks) : route vertices block ranks = .ok (routes vertices block ranks) := by
  have walked := fold_m_numbered (routeNext block ranks) (fun before => routes before block ranks) vertices
    fun before v _ => route_next before block ranks some v
  have start : routes [] block ranks = List.replicate ranks [] := by
    have none : positions [] block ranks = fun _ => [] := rfl
    rw [routes, none, List.map_const', List.length_range]
  rwa [start] at walked

theorem collect_eq (all : List Vertex) (some : 0 < ranks) (held : vertices.length ≤ all.length) :
    collect vertices all block ranks = .ok (routes vertices block ranks,
      (routes vertices block ranks).map fun places => places.filterMap fun i => all[i]?) := by
  have each : ∀ places ∈ routes vertices block ranks,
      places.mapM (fetch all) = .ok (places.filterMap fun i => all[i]?) := by
    intro places member
    obtain ⟨owner, -, rfl⟩ := List.mem_map.mp member
    refine map_m_filter_map _ _ _ fun i listed => ?_
    have bound := Nat.lt_of_lt_of_le (positions_below vertices block ranks owner i listed) held
    exact ⟨all[i], List.getElem?_eq_getElem bound, (fetch_eq_ok_iff _ _ _).mpr (List.getElem?_eq_getElem bound)⟩
  rw [collect, route_eq vertices block ranks some]
  have lists := map_m_ok _ _ _ each
  simp only [bind, Except.bind] at lists ⊢
  rw [lists]
  rfl

end Routing

section Folding

variable (r : Reducer)

theorem fold_copy_lookup (table : List (UInt64 × Vertex)) (v : Vertex) (gnum : UInt64) :
    (foldCopy r table v).lookup gnum =
      if gnum = v.gnum then some (r.combine ((table.lookup gnum).getD r.identity) v) else table.lookup gnum := by
  induction table with
  | nil =>
      by_cases same : gnum = v.gnum
      · simp [foldCopy, same]
      · have other : (gnum == v.gnum) = false := by simpa using same
        simp [foldCopy, same, List.lookup_cons, other]
  | cons entry table ih =>
      obtain ⟨known, record⟩ := entry
      rw [foldCopy]
      by_cases here : known = v.gnum
      · rw [if_pos here]
        by_cases same : gnum = v.gnum
        · simp [same, here]
        · have other : (gnum == known) = false := by simpa [here] using same
          simp [same, List.lookup_cons, other]
      · rw [if_neg here, List.lookup_cons, List.lookup_cons, ih]
        by_cases first : gnum = known
        · simp [first, here]
        · have other : (gnum == known) = false := by simpa using first
          simp [other]

theorem fold_copy_numbers (table : List (UInt64 × Vertex)) (v : Vertex) :
    (foldCopy r table v).map Prod.fst =
      if v.gnum ∈ table.map Prod.fst then table.map Prod.fst else table.map Prod.fst ++ [v.gnum] := by
  induction table with
  | nil => simp [foldCopy]
  | cons entry table ih =>
      obtain ⟨known, record⟩ := entry
      rw [foldCopy]
      by_cases here : known = v.gnum
      · simp [here]
      · rw [if_neg here, List.map_cons, List.map_cons, ih]
        have other : v.gnum ≠ known := Ne.symm here
        by_cases listed : v.gnum ∈ table.map Prod.fst <;> simp [listed, other]

theorem fold_copies_append (copies : List Vertex) (v : Vertex) :
    foldCopies r (copies ++ [v]) = foldCopy r (foldCopies r copies) v := by
  rw [foldCopies, List.foldl_append]
  rfl

theorem fold_copies_numbers (copies : List Vertex) :
    (foldCopies r copies).map Prod.fst = (copies.map Vertex.gnum).eraseDups := by
  induction copies using List.reverseRecOn with
  | nil => rfl
  | append_singleton copies v ih =>
      rw [fold_copies_append, fold_copy_numbers, ih, List.map_append, List.eraseDups_append]
      by_cases known : v.gnum ∈ copies.map Vertex.gnum
      · have none : [v.gnum].removeAll (copies.map Vertex.gnum) = [] := by
          simpa [List.removeAll] using List.mem_map.mp known
        rw [if_pos (List.mem_eraseDups.mpr known), List.map_singleton, none, List.eraseDups_nil, List.append_nil]
      · have new : [v.gnum].removeAll (copies.map Vertex.gnum) = [v.gnum] := by
          simpa [List.removeAll] using known
        rw [if_neg fun listed => known (List.mem_eraseDups.mp listed), List.map_singleton, new]
        rfl

theorem fold_copies_lookup (copies : List Vertex) (gnum : UInt64) :
    (foldCopies r copies).lookup gnum =
      if gnum ∈ copies.map Vertex.gnum then some (r.reduce (copies.filter fun copy => copy.gnum == gnum)) else none := by
  induction copies using List.reverseRecOn with
  | nil => rfl
  | append_singleton copies v ih =>
      have reduced (items : List Vertex) : r.reduce (items ++ [v]) = r.combine (r.reduce items) v := by
        rw [Reducer.reduce, List.foldl_append]
        rfl
      rw [fold_copies_append, fold_copy_lookup, ih, List.filter_append]
      by_cases same : gnum = v.gnum
      · subst same
        have last : [v].filter (fun copy => copy.gnum == v.gnum) = [v] := by simp
        rw [if_pos rfl, last, reduced]
        by_cases known : v.gnum ∈ copies.map Vertex.gnum
        · simp [known]
        · have none : copies.filter (fun copy => copy.gnum == v.gnum) = [] := by
            rw [List.filter_eq_nil_iff]
            exact fun copy member same => known (by simpa using ⟨copy, member, by simpa using same⟩)
          simp [known, none, Reducer.reduce]
      · have none : [v].filter (fun copy => copy.gnum == gnum) = [] := by simp [Ne.symm same]
        rw [if_neg same, none, List.append_nil]
        simp [same]

theorem fold_copies_length (copies : List Vertex) : (foldCopies r copies).length = distinctGnums copies := by
  rw [distinctGnums, ← fold_copies_numbers r, List.length_map]

theorem reply_eq (copies all : List Vertex) (among : ∀ v ∈ copies, v ∈ all) :
    reply (foldCopies r all) copies = copies.map (agreed r all) := by
  refine List.map_congr_left fun v member => ?_
  rw [fold_copies_lookup, if_pos (List.mem_map_of_mem (among v member))]
  rfl

end Folding

end Seam.Reconciliation
