import Mathlib.Data.List.Destutter
import Mathlib.Data.List.DropRight
import Seam.Mesh.Collapse

set_option autoImplicit false

namespace Seam.Mesh

def extend (chain : List Nat) (v : Nat) : List Nat :=
  if chain.getLast? = some v then chain else chain ++ [v]

def closeUp : List Nat → List Nat
  | [] => []
  | first :: rest => first :: (rest.reverse.dropWhile (· == first)).reverse

section OneList

variable (before : List Nat)

theorem extend_from_append (chain : List Nat) (v : Nat) :
    extendFrom before.length (before ++ chain) v = before ++ extend chain v := by
  cases chain with
  | nil => simp [extendFrom, extend]
  | cons first rest =>
      have longer : (before ++ first :: rest).length ≠ before.length := by simp
      have ends : (before ++ first :: rest).getLast? = (first :: rest).getLast? :=
        List.getLast?_append_of_ne_nil before (by simp)
      by_cases same : (first :: rest).getLast? = some v
      · rw [extendFrom, if_neg (by simp [same]), extend, if_pos same]
      · rw [extendFrom, if_pos (.inr (ends ▸ same)), extend, if_neg same, List.append_assoc]

theorem fold_extend_from (chain refs : List Nat) :
    refs.foldl (extendFrom before.length) (before ++ chain) = before ++ refs.foldl extend chain := by
  induction refs generalizing chain with
  | nil => rfl
  | cons v refs ih => rw [List.foldl_cons, extend_from_append, ih, List.foldl_cons]

theorem close_from_append (chain : List Nat) : closeFrom before.length (before ++ chain) = before ++ closeUp chain := by
  induction chain using List.reverseRecOn with
  | nil =>
      rw [closeFrom, if_neg (by simp)]
      rfl
  | append_singleton chain v ih =>
      cases chain with
      | nil =>
          rw [closeFrom, if_neg (by simp)]
          rfl
      | cons first rest =>
          have ends : (before ++ (first :: rest ++ [v])).getLast? = some v := by
            rw [← List.append_assoc, List.getLast?_concat]
          have starts : (before ++ (first :: rest ++ [v]))[before.length]? = some first := by simp
          have shorter : (before ++ (first :: rest ++ [v])).dropLast = before ++ (first :: rest) := by
            rw [← List.append_assoc, List.dropLast_concat]
          by_cases repeats : v = first
          · subst repeats
            rw [closeFrom, ends, starts, if_pos ⟨by simp, rfl⟩, shorter, ih]
            simp [closeUp]
          · rw [closeFrom, ends, starts, if_neg fun both => repeats (Option.some.inj both.2)]
            simp [closeUp, repeats]

theorem collapse_onto_append (face : List Nat) : collapseOnto before face = before ++ closeUp (face.foldl extend []) := by
  have laid := fold_extend_from before [] face
  rw [List.append_nil] at laid
  rw [collapseOnto, laid, close_from_append]

end OneList

def collapsed (chain : List Nat) : List Nat :=
  let merged := chain.destutter (· ≠ ·)
  if 1 < merged.length ∧ merged.getLast? = merged.head? then merged.dropLast else merged

theorem extend_from (front : List Nat) (last : Nat) (refs : List Nat) :
    refs.foldl extend (front ++ [last]) = front ++ refs.destutter' (· ≠ ·) last := by
  induction refs generalizing front last with
  | nil => rfl
  | cons v refs ih =>
      rw [List.foldl_cons]
      by_cases same : last = v
      · subst same
        rw [extend, if_pos (by simp), List.destutter'_cons_neg _ (by simp)]
        exact ih front last
      · rw [extend, if_neg (by simpa using same), List.destutter'_cons_pos _ same, ih (front ++ [last]) v, List.append_assoc,
          List.singleton_append]

theorem extend_all (refs : List Nat) : refs.foldl extend [] = refs.destutter (· ≠ ·) := by
  cases refs with
  | nil => rfl
  | cons v refs => exact extend_from [] v refs

-- In a merged chain one reference at most repeats the first one at the end.
theorem close_up_merged (chain : List Nat) (merged : chain.IsChain (· ≠ ·)) :
    closeUp chain = if 1 < chain.length ∧ chain.getLast? = chain.head? then chain.dropLast else chain := by
  cases chain with
  | nil => rfl
  | cons first rest =>
      have drops : closeUp (first :: rest) = first :: rest.rdropWhile (· == first) := rfl
      rw [drops]
      rcases List.eq_nil_or_concat' rest with rfl | ⟨front, last, rfl⟩
      · simp
      by_cases repeats : last = first
      · subst repeats
        have behind := (List.isChain_append.mp merged.tail).2.2
        have settled : front.rdropWhile (· == last) = front := by
          rw [List.rdropWhile_eq_self_iff]
          intro some
          simpa using behind _ (List.getLast?_eq_some_getLast some) last (by simp)
        have dropped : (front ++ [last]).rdropWhile (· == last) = front :=
          (List.rdropWhile_concat_pos _ _ last (by simp)).trans settled
        have ends : (last :: (front ++ [last])).getLast? = some last := List.getLast?_concat (l := last :: front)
        rw [dropped, if_pos ⟨by simp, ends⟩, List.dropLast_cons_of_ne_nil (by simp), List.dropLast_concat]
      · have kept : (front ++ [last]).rdropWhile (· == first) = front ++ [last] :=
          List.rdropWhile_concat_neg _ _ last (by simpa using repeats)
        have ends : (first :: (front ++ [last])).getLast? = some last := List.getLast?_concat (l := first :: front)
        rw [kept, if_neg (by simpa [ends] using repeats)]

theorem close_up_laid (refs : List Nat) : closeUp (refs.foldl extend []) = collapsed refs := by
  rw [extend_all]
  exact close_up_merged _ (List.isChain_destutter _ refs)

section Ends

theorem extend_last (chain : List Nat) (v : Nat) : (extend chain v).getLast? = some v := by
  by_cases same : chain.getLast? = some v
  · rw [extend, if_pos same, same]
  · rw [extend, if_neg same, List.getLast?_concat]

theorem extend_again (chain : List Nat) (v : Nat) : extend (extend chain v) v = extend chain v :=
  if_pos (extend_last chain v)

theorem extend_head (chain : List Nat) (first v : Nat) (starts : chain.head? = some first) :
    (extend chain v).head? = some first := by
  by_cases same : chain.getLast? = some v
  · rwa [extend, if_pos same]
  · rw [extend, if_neg same, List.head?_append, starts, Option.some_or]

theorem fold_extend_head (chain refs : List Nat) (first : Nat) (starts : chain.head? = some first) :
    (refs.foldl extend chain).head? = some first := by
  induction refs generalizing chain with
  | nil => exact starts
  | cons v refs ih => exact ih (extend chain v) (extend_head chain first v starts)

theorem fold_extend_last (chain refs : List Nat) : (refs.foldl extend chain).getLast? = (chain ++ refs).getLast? := by
  induction refs using List.reverseRecOn with
  | nil => simp
  | append_singleton refs v _ => rw [List.foldl_concat, extend_last, ← List.append_assoc, List.getLast?_concat]

theorem extend_restart (chain refs : List Nat) (first : Nat) (starts : refs.head? = some first) :
    refs.foldl extend (extend chain first) = refs.foldl extend chain := by
  cases refs with
  | nil => cases starts
  | cons v refs =>
      obtain rfl : v = first := Option.some.inj starts
      rw [List.foldl_cons, List.foldl_cons, extend_again]

theorem close_up_again (chain : List Nat) (first : Nat) (starts : chain.head? = some first) :
    closeUp (extend chain first) = closeUp chain := by
  by_cases same : chain.getLast? = some first
  · rw [extend, if_pos same]
  · rw [extend, if_neg same]
    cases chain with
    | nil => cases starts
    | cons v rest =>
        obtain rfl : v = first := Option.some.inj starts
        simp [closeUp]

end Ends

section Moves

variable (move : Nat → Nat)

theorem extend_moved (chain refs : List Nat) :
    ((refs.foldl extend []).map move).foldl extend chain = (refs.map move).foldl extend chain := by
  induction refs using List.reverseRecOn with
  | nil => rfl
  | append_singleton refs v ih =>
      rw [List.foldl_concat, List.map_append, List.map_singleton, List.foldl_concat, ← ih]
      by_cases same : (refs.foldl extend []).getLast? = some v
      · have ends : (chain ++ (refs.foldl extend []).map move).getLast? = some (move v) := by simp [same]
        rw [extend, if_pos same]
        exact (if_pos ((fold_extend_last chain _).trans ends)).symm
      · rw [extend, if_neg same, List.map_append, List.map_singleton, List.foldl_concat]

theorem close_up_moved (chain : List Nat) :
    closeUp (((closeUp chain).map move).foldl extend []) = closeUp ((chain.map move).foldl extend []) := by
  cases chain with
  | nil => rfl
  | cons first rest =>
      change closeUp (((first :: rest.rdropWhile (· == first)).map move).foldl extend []) = _
      induction rest using List.reverseRecOn with
      | nil => rfl
      | append_singleton rest v ih =>
          by_cases repeats : v = first
          · have starts : (((first :: rest).map move).foldl extend []).head? = some (move first) :=
              fold_extend_head [move first] (rest.map move) (move first) rfl
            subst repeats
            rw [List.rdropWhile_concat_pos _ _ v (by simp), ih, ← List.cons_append, List.map_append, List.map_singleton,
              List.foldl_concat, close_up_again _ _ starts]
          · rw [List.rdropWhile_concat_neg _ _ v (by simpa using repeats)]

theorem collapsed_moved (refs : List Nat) : collapsed ((collapsed refs).map move) = collapsed (refs.map move) := by
  rw [← close_up_laid, ← close_up_laid, ← close_up_laid, close_up_moved, extend_moved]

end Moves

section Laid

theorem extend_merged (chain refs : List Nat) : (refs.foldl extend []).foldl extend chain = refs.foldl extend chain := by
  simpa using extend_moved id chain refs

theorem mem_laid (refs : List Nat) (v : Nat) : v ∈ refs.foldl extend [] ↔ v ∈ refs := by
  induction refs using List.reverseRecOn with
  | nil => rfl
  | append_singleton refs w ih =>
      rw [List.foldl_concat, List.mem_append, List.mem_singleton, ← ih]
      by_cases same : (refs.foldl extend []).getLast? = some w
      · have listed := List.mem_of_getLast? same
        rw [extend, if_pos same]
        exact ⟨.inl, fun either => either.elim id fun here => here ▸ listed⟩
      · rw [extend, if_neg same, List.mem_append, List.mem_singleton]

theorem extend_cons (v : Nat) (refs : List Nat) :
    (v :: refs).foldl extend [] = if refs.head? = some v then refs.foldl extend [] else v :: refs.foldl extend [] := by
  cases refs with
  | nil => rfl
  | cons w refs =>
      by_cases same : v = w
      · subst same
        rw [List.head?_cons, if_pos rfl]
        exact congrArg (refs.foldl extend) (extend_again [] v)
      · rw [if_neg (by simpa using Ne.symm same), extend_all, extend_all]
        exact List.destutter'_cons_pos refs same

theorem extend_reversed (refs : List Nat) : refs.reverse.foldl extend [] = (refs.foldl extend []).reverse := by
  induction refs with
  | nil => rfl
  | cons v refs ih =>
      have ends : ((refs.foldl extend []).reverse).getLast? = refs.head? := by
        cases refs with
        | nil => rfl
        | cons w refs =>
            rw [List.getLast?_reverse]
            exact fold_extend_head [w] refs w rfl
      rw [List.reverse_cons, List.foldl_concat, ih, extend, ends, extend_cons]
      by_cases same : refs.head? = some v
      · rw [if_pos same, if_pos same]
      · rw [if_neg same, if_neg same, List.reverse_cons]

end Laid

end Seam.Mesh
