import Mathlib.Data.List.Nodup
import Seam.Group.Reconciliation
import Seam.Group.Reduction
import Seam.Group.Selection
import Seam.Proofs.Group.Work

set_option autoImplicit false

namespace Seam

namespace Collective

variable {α β : Type}

theorem bind_orderly (first : Collective α) (next : α → Collective β) (orderly : first.run.Orderly)
    (rest : ∀ value, (next value).run.Orderly) : (first >>= next).run.Orderly := by
  refine Program.bind_orderly first.run (ExceptT.bindCont next) orderly fun result => ?_
  cases result with
  | ok value => exact rest value
  | error e => exact Program.done_orderly _

theorem pure_orderly (value : α) : (pure value : Collective α).run.Orderly := Program.done_orderly _

theorem result_orderly (result : Result α) : (ofResult result).run.Orderly := Program.done_orderly _

theorem throw_bind_orderly (e : Failure) (next : α → Collective β) : ((throw e : Collective α) >>= next).run.Orderly :=
  Program.done_orderly _

theorem round_orderly (tag : UInt16) (legs : List Leg) (once : (legs.map Leg.peer).Nodup) : (round tag legs).run.Orderly :=
  Program.round_orderly tag legs _ once fun _ => Program.done_orderly _

end Collective

namespace Work

variable {σ α β : Type}

theorem result_bind_orderly (result : Result α) (next : α → Work σ β) (old : σ)
    (rest : ∀ value, ((next value).outcome old).Orderly) : ((ofResult result >>= next).outcome old).Orderly := by
  rw [outcome_result_bind]
  cases result with
  | ok value => exact rest value
  | error e => exact Program.done_orderly _

theorem collective_bind_orderly (c : Collective α) (next : α → Work σ β) (old : σ) (orderly : c.run.Orderly)
    (rest : ∀ value, ((next value).outcome old).Orderly) : ((ofCollective c >>= next).outcome old).Orderly := by
  rw [outcome_collective_bind]
  refine Program.bind_orderly _ _ orderly fun result => ?_
  cases result with
  | ok value => exact rest value
  | error e => exact Program.done_orderly _

theorem on_orderly (work : Work σ Unit) (old : σ) (orderly : (work.outcome old).Orderly) : (work.on old).run.Orderly := by
  rw [run_on]
  exact Program.bind_orderly _ _ orderly fun _ => Program.done_orderly _

end Work

namespace Seat

variable {α β : Type}

theorem peers_once (s : Seat) : s.peers.Nodup := List.nodup_range.filter _

theorem others_once (s : Seat) (items : List α) : ((s.others items).map Prod.fst).Nodup := by
  have positions : (items.zipIdx.map Prod.snd).Nodup := by
    rw [List.zipIdx_map_snd, ← List.range_eq_range']
    exact List.nodup_range
  rw [others, List.map_map]
  exact positions.sublist ((List.filter_sublist).map Prod.snd)

theorem legs_once (s : Seat) (sizes : List Nat) (buffers : List Bytes) :
    ((List.zipWith (fun (size : Nat × Nat) (sent : Nat × Bytes) => (⟨size.1, size.2, sent.2⟩ : Leg))
      (s.others sizes) (s.others buffers)).map Leg.peer).Nodup := by
  have front : ∀ (a : List (Nat × Nat)) (b : List (Nat × Bytes)),
      ((List.zipWith (fun (size : Nat × Nat) (sent : Nat × Bytes) => (⟨size.1, size.2, sent.2⟩ : Leg)) a b).map
        Leg.peer).Sublist (a.map Prod.fst) := by
    intro a
    induction a with
    | nil => intro b; simp
    | cons size rest ih =>
        intro b
        cases b with
        | nil => simp
        | cons sent later => simpa using ih later
  exact (others_once s sizes).sublist (front _ _)

theorem gathering_orderly (s : Seat) (data buffer : Bytes) : ((s.gathering data).outcome buffer).Orderly := by
  simp only [gathering, Work.outcome_get_bind]
  split
  · exact Program.done_orderly _
  rw [Work.outcome_get_bind]
  refine Work.result_bind_orderly _ _ _ fun first => ?_
  rw [Work.outcome_set_bind]
  refine Work.collective_bind_orderly _ _ _ (Collective.round_orderly _ _ ?_) fun answers => ?_
  · simpa [Function.comp_def] using peers_once s
  rw [Work.outcome_get_bind]
  refine Work.result_bind_orderly _ _ _ fun taken => ?_
  rw [Work.outcome_set_bind]
  split <;> exact Program.done_orderly _

theorem gather_into_orderly (s : Seat) (data : Bytes) (length : Nat) : (s.gatherInto data length).run.Orderly :=
  Work.on_orderly _ _ (gathering_orderly s data _)

theorem barrier_orderly (s : Seat) : s.barrier.run.Orderly :=
  Collective.bind_orderly _ _ (gather_into_orderly s [1] _) fun _ => Collective.pure_orderly _

theorem summing_orderly (s : Seat) (values : List UInt64) : (s.summing.outcome values).Orderly := by
  simp only [summing, Work.outcome_get_bind]
  refine Work.collective_bind_orderly _ _ _ (gather_into_orderly s _ _) fun buffer => ?_
  rw [Work.outcome_modify_bind]
  split
  · exact Program.done_orderly _
  refine Work.result_bind_orderly _ _ _ fun rows => ?_
  rw [Work.outcome_get_bind]
  exact Work.result_bind_orderly _ _ _ fun sums => Program.done_orderly _

theorem sum_orderly (s : Seat) (values : List UInt64) : (s.sum values).run.Orderly :=
  Work.on_orderly _ _ (summing_orderly s values)

theorem gather_word_orderly (s : Seat) (value : UInt64) : (s.gatherWord value).run.Orderly :=
  Collective.bind_orderly _ _ (gather_into_orderly s _ _) fun _ =>
    Collective.bind_orderly _ _ (Collective.result_orderly _) fun _ => Collective.pure_orderly _

theorem exchange_counts_orderly (s : Seat) (counts : List Nat) (tag : UInt16) :
    (s.exchangeCounts counts tag).run.Orderly := by
  simp only [exchangeCounts]
  split
  · exact Collective.throw_bind_orderly _ _
  refine Collective.bind_orderly _ _ (Collective.result_orderly _) fun own => ?_
  split
  · exact Collective.pure_orderly _
  refine Collective.bind_orderly _ _ (Collective.round_orderly _ _ ?_) fun answers => ?_
  · rw [List.map_map]
    exact others_once s counts
  · split
    · exact Collective.throw_bind_orderly _ _
    · exact Collective.bind_orderly _ _ (Collective.result_orderly _) fun told => Collective.pure_orderly _

theorem exchange_bytes_orderly (s : Seat) (buffers : List Bytes) (tag : UInt16) :
    (s.exchangeBytes buffers tag).run.Orderly := by
  simp only [exchangeBytes]
  refine Collective.bind_orderly _ _ (exchange_counts_orderly s _ tag) fun sizes => ?_
  refine Collective.bind_orderly _ _ (Collective.result_orderly _) fun own => ?_
  split
  · split
    · exact Collective.throw_bind_orderly _ _
    · exact Collective.pure_orderly _
  · refine Collective.bind_orderly _ _ (Collective.round_orderly _ _ (legs_once s _ _)) fun answers => ?_
    split
    · exact Collective.throw_bind_orderly _ _
    · exact Collective.bind_orderly _ _ (Collective.result_orderly _) fun received => Collective.pure_orderly _

theorem reduce_records_orderly (s : Seat) (r : Reducer) (records : List Vertex) : (s.reduceRecords r records).run.Orderly := by
  simp only [reduceRecords]
  refine Collective.bind_orderly _ _ (gather_word_orderly s _) fun lengths => ?_
  split
  · exact Collective.throw_bind_orderly _ _
  refine Collective.bind_orderly _ _ (gather_into_orderly s _ _) fun buffer => ?_
  exact Collective.bind_orderly _ _ (Collective.result_orderly _) fun rows => Collective.result_orderly _

end Seat

theorem tolerance_range_orderly (s : Seat) (m : Mesh) : (toleranceRange s m).run.Orderly := by
  simp only [toleranceRange]
  refine Collective.bind_orderly _ _ (Seat.sum_orderly s _) fun total => ?_
  refine Collective.bind_orderly _ _ (Collective.result_orderly _) fun count => ?_
  split
  · exact Collective.pure_orderly _
  refine Collective.bind_orderly _ _ (Seat.reduce_records_orderly s .least _) fun least => ?_
  refine Collective.bind_orderly _ _ (Collective.result_orderly _) fun least => ?_
  refine Collective.bind_orderly _ _ (Seat.reduce_records_orderly s .greatest _) fun greatest => ?_
  exact Collective.bind_orderly _ _ (Collective.result_orderly _) fun greatest => Collective.pure_orderly _

theorem counting_globally_orderly (s : Seat) (e : EdgeSet) : ((countingGlobally s).outcome e).Orderly := by
  simp only [countingGlobally, Work.outcome_get_bind]
  refine Work.collective_bind_orderly _ _ _ (Seat.sum_orderly s _) fun total => ?_
  exact Work.result_bind_orderly _ _ _ fun count => Program.done_orderly _

theorem count_globally_orderly (e : EdgeSet) (s : Seat) : (e.countGlobally s).run.Orderly :=
  Work.on_orderly _ _ (counting_globally_orderly s e)

theorem reconcile_orderly (s : Seat) (r : Reducer) (m : Mesh) : (reconcile s r m).Orderly := by
  simp only [reconcile]
  refine Program.bind_orderly _ _ (Seat.gather_word_orderly s _) fun greatest => ?_
  split
  · exact Program.done_orderly _
  split
  · exact Program.done_orderly _
  refine Program.bind_orderly _ _ (Seat.exchange_bytes_orderly s _ _) fun incoming => ?_
  split
  · exact Program.done_orderly _
  refine Program.bind_orderly _ _ (Seat.exchange_bytes_orderly s _ _) fun answers => ?_
  split
  · exact Program.done_orderly _
  · split <;> exact Program.done_orderly _

theorem shipping_orderly (s : Seat) (p : Shipment) (m target : Mesh) : ((shipping s p m).outcome target).Orderly := by
  simp only [shipping]
  refine Work.collective_bind_orderly _ _ _ (Seat.exchange_bytes_orderly s _ _) fun received => ?_
  refine Work.result_bind_orderly _ _ _ fun _ => ?_
  rw [Work.outcome_get_bind]
  exact Work.result_bind_orderly _ _ _ fun assembly => Program.done_orderly _

theorem ship_orderly (s : Seat) (p : Shipment) (m : Mesh) (name : String) : (ship s p m name).run.Orderly :=
  Work.on_orderly _ _ (shipping_orderly s p m _)

theorem select_orderly (s : Seat) (name : String) (selection index : List UInt64) (m : Mesh) :
    (select s name selection index m).Orderly := by
  simp only [select]
  split
  · exact Program.done_orderly _
  refine Program.bind_orderly _ _ (Seat.exchange_bytes_orderly s _ _) fun incoming => ?_
  split
  · exact Program.done_orderly _
  refine Program.bind_orderly _ _ (ship_orderly s _ _ _) fun mesh => ?_
  split
  · exact Program.done_orderly _
  · split
    · exact Program.done_orderly _
    · split <;> exact Program.done_orderly _

end Seam
