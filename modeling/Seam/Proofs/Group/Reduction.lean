import Seam.Group.Reduction
import Seam.Proofs.Group.Collectives

set_option autoImplicit false

namespace Seam

namespace Group

variable {n : Nat}

theorem barrier_lockstep : Lockstep (fun me : Fin n => (Seat.member me).barrier.run) fun _ => .done (.ok ()) := by
  have room : ∀ me : Fin n, (Seat.member me).ranks = [(1 : UInt8)].length * n := fun me => by simp [member_ranks]
  refine lockstep_trans (lockstep_then _ _ _ (gather_into_lockstep (fun _ => [1]) _ room)) (lockstep_of_eq fun me => ?_)
  rw [gathered_same_length _ 1 fun _ => rfl]
  rfl

theorem rows_read {α : Type} (layout : Wire.Layout α) (faithful : layout.Faithful fun _ => True) (items : Fin n → List α)
    (length : Nat) (same : ∀ me, (items me).length = length) :
    (List.ofFn fun me => Wire.write layout (items me)).map (Wire.recordsIn layout length) = List.ofFn items := by
  rw [List.map_ofFn]
  refine congrArg List.ofFn (funext fun me => ?_)
  have decoded := Wire.decode_chunks layout _ faithful (items me) (fun _ _ => trivial) []
  rwa [List.append_nil, same] at decoded

def summed (length : Nat) (buffer : Bytes) : Result (List UInt64) :=
  if length = 0 then .ok []
  else Wire.exactChunks (length * 8) buffer >>= fun rows =>
    rows.foldlM (Seat.takeRow Wire.gnum (· + ·)) (List.replicate length 0)

theorem take_row_ok {α β : Type} (layout : Wire.Layout β) (change : α → β → α) (some : 0 < layout.size) (items : List α)
    (row : Bytes) : ∃ next, Seat.takeRow layout change items row = .ok next := by
  rw [Seat.takeRow, Wire.exactChunks, if_neg (by omega)]
  exact ⟨_, rfl⟩

theorem summed_ok (length : Nat) (buffer : Bytes) : ∃ sums, summed length buffer = .ok sums := by
  unfold summed
  split
  · exact ⟨[], rfl⟩
  · rw [Wire.exactChunks, if_neg (by omega)]
    exact fold_m_exists _ (take_row_ok Wire.gnum _ (by decide)) _ _

theorem summing_outcome (s : Seat) (values : List UInt64) : s.summing.outcome values =
    ((s.gatherInto (Wire.write Wire.gnum values) (values.length * 8 * s.ranks)).run.bind fun result =>
      .done (result >>= summed values.length)).bind fun result => .done (Work.atOnce values result) := by
  simp only [Seat.summing, Work.outcome_get_bind, Work.outcome_collective_bind, Work.outcome_modify_bind, Program.bind_assoc]
  congr 1
  funext result
  cases result with
  | error e => rfl
  | ok buffer =>
      obtain ⟨sums, ok⟩ := summed_ok values.length buffer
      have goes : (Except.ok buffer >>= summed values.length) = .ok sums := ok
      simp only [goes]
      unfold summed at ok
      split
      · rename_i none
        rw [if_pos none] at ok
        rw [List.eq_nil_of_length_eq_zero none, ← Except.ok.inj ok]
        rfl
      · rename_i some
        rw [if_neg some] at ok
        obtain ⟨rows, cut, added⟩ := bind_ok _ _ _ ok
        simp only [cut, Work.outcome_result_bind, Work.outcome_get_bind, List.map_const', added]
        rfl

theorem sum_run (s : Seat) (values : List UInt64) : (s.sum values).run =
    (s.gatherInto (Wire.write Wire.gnum values) (values.length * 8 * s.ranks)).run.bind fun result =>
      .done (result >>= summed values.length) :=
  Work.run_on_at_once _ _ _ (summing_outcome s values)

theorem summed_rows (length : Nat) (rows : List Bytes) (even : ∀ row ∈ rows, row.length = length * 8) :
    summed length rows.flatten =
      .ok ((rows.map (Wire.recordsIn Wire.gnum length)).foldl (List.zipWith (· + ·)) (List.replicate length 0)) := by
  have size : (List.replicate length (0 : UInt64)).length = length := List.length_replicate
  by_cases none : length = 0
  · subst none
    rw [summed, if_pos rfl, List.replicate_zero, fold_zip_nil]
  · rw [summed, if_neg none]
    have taken := take_chunks Wire.gnum (· + ·) (List.replicate length (0 : UInt64)) rows (length * 8) (by decide) (by omega)
      (by rw [size]; exact even) fun _ => by rw [size]; rfl
    rw [size] at taken
    exact taken

def totals (values : Fin n → List UInt64) (length : Nat) : List UInt64 :=
  (List.ofFn values).foldl (List.zipWith (· + ·)) (List.replicate length 0)

theorem sum_lockstep (values : Fin n → List UInt64) (length : Nat) (same : ∀ me, (values me).length = length) :
    Lockstep (fun me => ((Seat.member me).sum (values me)).run) fun _ => .done (.ok (totals values length)) := by
  have written : ∀ me, (Wire.write Wire.gnum (values me)).length = length * 8 := fun me => by
    rw [Wire.write_length _ _ Wire.gnum_faithful, same]
    rfl
  have room : ∀ me, (values me).length * 8 * (Seat.member me).ranks = (Wire.write Wire.gnum (values me)).length * n := fun me => by
    rw [member_ranks, written, same]
  have even : ∀ row ∈ List.ofFn fun other => Wire.write Wire.gnum (values other), row.length = length * 8 := by
    simp [written]
  simp only [sum_run]
  refine lockstep_trans (lockstep_bind _ _ _ (gather_into_lockstep _ _ room)) (lockstep_of_eq fun me => ?_)
  have added := summed_rows length _ even
  rw [rows_read Wire.gnum Wire.gnum_faithful values length same] at added
  rw [gathered_same_length _ _ written, same]
  exact congrArg Program.done added

-- What one rank gets from a reduction of lists. All lengths are compared before the lists are gathered.
def reducedRecords (r : Reducer) (records : Fin n → List Vertex) (me : Fin n) : Result (List Vertex) :=
  match (List.ofFn fun other => UInt64.ofNat (records other).length).find? fun count => count ≠ .ofNat (records me).length with
  | some other => refuse (.wire (.reduceCount (records me).length other))
  | none =>
      (gathered (fun other => Wire.write Wire.vertex (records other)) me).map fun rows =>
        (rows.map (Wire.recordsIn Wire.vertex (records me).length)).foldl (List.zipWith r.combine)
          (List.replicate (records me).length r.identity)

theorem lengths_agree (counts : Fin n → UInt64) :
    (∀ me, (List.ofFn counts).find? (fun count => count ≠ counts me) = none) ∨
    (∀ me, ((List.ofFn counts).find? fun count => count ≠ counts me).isSome) := by
  by_cases same : ∀ me other, counts other = counts me
  · exact .inl fun me => by simp [same me]
  · obtain ⟨a, differs⟩ := not_forall.mp same
    obtain ⟨b, differs⟩ := not_forall.mp differs
    refine .inr fun me => ?_
    simp only [List.find?_isSome, List.mem_ofFn]
    by_cases first : counts a = counts me
    · exact ⟨counts b, ⟨b, rfl⟩, by simpa [← first] using differs⟩
    · exact ⟨counts a, ⟨a, rfl⟩, by simpa using first⟩

theorem reduce_records_lockstep (reducers : Fin n → Reducer) (records : Fin n → List Vertex) :
    Lockstep (fun me => ((Seat.member me).reduceRecords (reducers me) (records me)).run)
      fun me => .done (reducedRecords (reducers me) records me) := by
  simp only [Seat.reduceRecords]
  apply lockstep_trans (lockstep_then _ _ _ (gather_word_lockstep _))
  simp only [proceed]
  rcases lengths_agree fun me => UInt64.ofNat (records me).length with agree | differ
  · simp only [reducedRecords, agree]
    have room : ∀ me, (Wire.write Wire.vertex (records me)).length * (Seat.member me).ranks =
        (Wire.write Wire.vertex (records me)).length * n := fun me => by rw [member_ranks]
    refine lockstep_trans (lockstep_then _ _ _ (gather_into_lockstep _ _ room)) (lockstep_of_eq fun me => ?_)
    cases came : gathered (fun other => Wire.write Wire.vertex (records other)) me with
    | error e => rfl
    | ok rows =>
        have size : (List.replicate (records me).length (reducers me).identity).length = (records me).length := List.length_replicate
        have written : (Wire.write Wire.vertex (records me)).length = (records me).length * Wire.vertex.size :=
          Wire.write_length _ _ Wire.vertex_faithful _
        have even : ∀ row ∈ rows, row.length = (records me).length * Wire.vertex.size := fun row member =>
          (gathered_even _ me rows came row member).trans written
        have taken := take_chunks Wire.vertex (reducers me).combine (List.replicate (records me).length (reducers me).identity)
          rows (max (Wire.write Wire.vertex (records me)).length 1) (by decide) (by omega) (by rwa [size]) fun some => by
            have held : 0 < (records me).length := size ▸ List.length_pos_iff.mpr some
            have wide : 0 < (records me).length * Wire.vertex.size := Nat.mul_pos held (by decide)
            rw [size]
            omega
        rw [size] at taken
        obtain ⟨cuts, cut, folded⟩ := bind_ok _ _ _ taken
        simp only [Except.map, proceed, Collective.run_result_bind, cut]
        exact congrArg Program.done folded
  · apply lockstep_of_eq
    intro me
    obtain ⟨other, found⟩ := Option.isSome_iff_exists.mp (differ me)
    simp only [reducedRecords, found]
    rfl

theorem reduced_records_same_length (r : Reducer) (records : Fin n → List Vertex) (length : Nat)
    (same : ∀ me, (records me).length = length) (me : Fin n) :
    reducedRecords r records me =
      .ok ((List.ofFn records).foldl (List.zipWith r.combine) (List.replicate length r.identity)) := by
  have written : ∀ other, (Wire.write Wire.vertex (records other)).length = length * Wire.vertex.size := fun other => by
    rw [Wire.write_length _ _ Wire.vertex_faithful, same]
  have agree : (List.ofFn fun other => UInt64.ofNat (records other).length).find?
      (fun count => count ≠ .ofNat (records me).length) = none := by simp [same]
  have rows := rows_read Wire.vertex Wire.vertex_faithful records length same
  rw [reducedRecords, agree]
  simp only [gathered_same_length _ _ written, same, Except.map, rows]

def groupTolerances (meshes : Fin n → Mesh) : Option ToleranceRange :=
  let reduced (r : Reducer) := (List.ofFn fun me => [r.reduce (meshes me).vertices]).foldl (List.zipWith r.combine) [r.identity]
  if (totals (fun me => [UInt64.ofNat (meshes me).vertexCount]) 1).headD 0 = 0 then none
  else some ⟨(reduced .least).headD Reducer.least.identity, (reduced .greatest).headD Reducer.greatest.identity⟩

theorem fetch_head {α : Type} (items : List α) (single : items.length = 1) (other : α) :
    fetch items 0 = .ok (items.headD other) := by
  obtain ⟨item, rfl⟩ := List.length_eq_one_iff.mp single
  rfl

theorem fold_zip_length {α β : Type} (change : α → β → α) (start : List α) (rows : List (List β))
    (width : ∀ row ∈ rows, row.length = start.length) : (rows.foldl (List.zipWith change) start).length = start.length := by
  induction rows generalizing start with
  | nil => rfl
  | cons row rows ih =>
      have size : (List.zipWith change start row).length = start.length := by simp [width row (by simp)]
      rw [List.foldl_cons, ih _ fun other member => (width other (by simp [member])).trans size.symm, size]

theorem totals_length (values : Fin n → List UInt64) (length : Nat) (same : ∀ me, (values me).length = length) :
    (totals values length).length = length := by
  rw [totals, fold_zip_length _ _ _ (by simp [same]), List.length_replicate]

theorem tolerance_range_lockstep (meshes : Fin n → Mesh) :
    Lockstep (fun me => (toleranceRange (Seat.member me) (meshes me)).run)
      fun _ => .done (.ok (groupTolerances meshes)) := by
  have single : ∀ r : Reducer, ∀ me, [r.reduce (meshes me).vertices].length = 1 := fun _ _ => rfl
  have reduced (r : Reducer) : fetch ((List.ofFn fun me => [r.reduce (meshes me).vertices]).foldl (List.zipWith r.combine)
      (List.replicate 1 r.identity)) 0 = .ok _ :=
    fetch_head _ (fold_zip_length _ _ _ (by simp)) r.identity
  have total := fetch_head _ (totals_length (fun me => [UInt64.ofNat (meshes me).vertexCount]) 1 fun _ => rfl) 0
  simp only [toleranceRange]
  apply lockstep_trans (lockstep_then _ _ _ (sum_lockstep (fun me => [UInt64.ofNat (meshes me).vertexCount]) 1 fun _ => rfl))
  simp only [proceed, total, Collective.run_result_bind]
  by_cases empty : (totals (fun me => [UInt64.ofNat (meshes me).vertexCount]) 1).headD 0 = 0
  · simp only [groupTolerances, empty, if_true]
    exact lockstep_of_eq fun _ => rfl
  simp only [groupTolerances, empty, if_false]
  apply lockstep_trans (lockstep_then _ _ _ (reduce_records_lockstep (fun _ => .least) _))
  simp only [reduced_records_same_length _ _ 1 (single .least), proceed, reduced, Collective.run_result_bind]
  refine lockstep_trans (lockstep_then _ _ _ (reduce_records_lockstep (fun _ => .greatest) _)) (lockstep_of_eq fun me => ?_)
  simp only [reduced_records_same_length _ _ 1 (single .greatest), proceed, reduced, Collective.run_result_bind]
  rfl

def counted (e : EdgeSet) (total : List UInt64) : Result EdgeSet :=
  (fetch total 0).map fun count => { e with globalEdges := count }

theorem counting_outcome (s : Seat) (e : EdgeSet) : (countingGlobally s).outcome e =
    ((s.sum [.ofNat e.edgeCount]).run.bind fun result => .done (result >>= counted e)).bind fun result =>
      .done (Work.atOnce e result) := by
  simp only [countingGlobally, Work.outcome_get_bind, Work.outcome_collective_bind, Program.bind_assoc]
  congr 1
  funext result
  cases result with
  | error e => rfl
  | ok total =>
      have goes : (Except.ok total >>= counted e) = (fetch total 0).map fun count => { e with globalEdges := count } := rfl
      simp only [goes, Work.outcome_result_bind]
      cases fetch total 0 <;> rfl

theorem count_run (s : Seat) (e : EdgeSet) : (e.countGlobally s).run =
    (s.sum [.ofNat e.edgeCount]).run.bind fun result => .done (result >>= counted e) :=
  Work.run_on_at_once _ _ _ (counting_outcome s e)

theorem count_globally_lockstep (edges : Fin n → EdgeSet) :
    Lockstep (fun me => ((edges me).countGlobally (Seat.member me)).run) fun me =>
      .done (.ok { edges me with globalEdges := (totals (fun me => [UInt64.ofNat (edges me).edgeCount]) 1).headD 0 }) := by
  have total := fetch_head _ (totals_length (fun me => [UInt64.ofNat (edges me).edgeCount]) 1 fun _ => rfl) 0
  simp only [count_run]
  refine lockstep_trans (lockstep_bind _ _ _ (sum_lockstep (fun me => [UInt64.ofNat (edges me).edgeCount]) 1 fun _ => rfl))
    (lockstep_of_eq fun me => ?_)
  have goes : ((Except.ok (totals (fun me => [UInt64.ofNat (edges me).edgeCount]) 1)) >>= counted (edges me)) = _ :=
    congrArg (Except.map _) total
  exact congrArg Program.done goes

end Group

end Seam
