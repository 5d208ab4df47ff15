import Mathlib.Order.WellFounded
import Seam.Proofs.Group.Protocol
import Seam.Proofs.Group.Reconciliation
import Seam.Proofs.Network.Answers

set_option autoImplicit false

namespace Seam.Reconciliation

open Program (heardBy)
open Seam.Group (heard)

theorem overwrite_other (vertices : List Vertex) (updates : List (Nat × Vertex)) (i : Nat) (apart : i ∉ updates.map Prod.fst) :
    (overwrite vertices updates)[i]? = vertices[i]? := by
  induction updates generalizing vertices with
  | nil => rfl
  | cons update updates ih =>
      obtain ⟨first, rest⟩ := List.ne_and_not_mem_of_not_mem_cons apart
      rw [overwrite, List.foldl_cons]
      exact (ih _ rest).trans (List.getElem?_set_ne (Ne.symm first))

theorem overwrite_given (vertices : List Vertex) (updates : List (Nat × Vertex)) (once : (updates.map Prod.fst).Nodup)
    (i : Nat) (v : Vertex) (member : (i, v) ∈ updates) (inside : i < vertices.length) :
    (overwrite vertices updates)[i]? = some v := by
  induction updates generalizing vertices with
  | nil => cases member
  | cons update updates ih =>
      obtain ⟨fresh, once⟩ := List.nodup_cons.mp once
      rw [overwrite, List.foldl_cons]
      rcases List.mem_cons.mp member with rfl | later
      · refine (overwrite_other _ updates i fresh).trans ?_
        simp [inside]
      · exact ih _ once later (by simpa using inside)

theorem mem_positions_iff (vertices : List Vertex) (block ranks owner i : Nat) :
    i ∈ positions vertices block ranks owner ↔ ∃ v, vertices[i]? = some v ∧ blockOwner v.gnum block ranks = owner := by
  constructor
  · intro member
    obtain ⟨⟨v, j⟩, listed, same⟩ := List.mem_filterMap.mp member
    have found := List.mem_zipIdx_iff_getElem?.mp listed
    by_cases owned : blockOwner v.gnum block ranks = owner
    · simp only [owned, if_true, Option.some.injEq] at same
      exact ⟨v, same ▸ found, owned⟩
    · simp [owned] at same
  · rintro ⟨v, found, owned⟩
    exact mem_positions vertices block ranks owner i v found owned

theorem positions_nodup (vertices : List Vertex) (block ranks owner : Nat) : (positions vertices block ranks owner).Nodup := by
  have chosen : positions vertices block ranks owner =
      (vertices.zipIdx.filter fun item => blockOwner item.1.gnum block ranks = owner).map Prod.snd := by
    rw [← List.filterMap_eq_map, List.filterMap_filter]
    refine List.filterMap_congr fun item _ => ?_
    by_cases owned : blockOwner item.1.gnum block ranks = owner <;> simp [owned]
  have all : (vertices.zipIdx.map Prod.snd).Nodup := by
    rw [List.zipIdx_map_snd]
    exact List.nodup_range'
  rw [chosen]
  exact all.sublist (List.filter_sublist.map Prod.snd)

section Answers

variable {n : Nat} (places : Fin n → List Nat) (answer : Fin n → Bytes)

def Fits (owner : Fin n) : Prop :=
  ∃ records, Wire.decodeVertices (answer owner) = .ok records ∧ records.length = (places owner).length

def Taken (vertices : List Vertex) (owner : Fin n) : Prop :=
  ∃ records, Wire.decodeVertices (answer owner) = .ok records ∧ records.length = (places owner).length ∧
    ∀ j i : Nat, (places owner)[j]? = some i → vertices[i]? = records[j]?

def Untouched (before after : List Vertex) (owner : Fin n) : Prop := ∀ i ∈ places owner, after[i]? = before[i]?

-- What a rank that held `before` is left with. Only vertices change; success means that all answers were taken, and a
-- failure either comes before everything or at the answer of one owner.
structure Aftermath (before left : Mesh) (result : Result Nat) : Prop where
  frame : left = { before with vertices := left.vertices }
  count : left.vertexCount = before.vertexCount
  success : ∀ numbers, result = .ok numbers → ∀ owner, Taken places answer left.vertices owner
  failure : ∀ e, result = .error e → left = before ∨ ∃ k, ¬ Fits places answer k ∧
    (∀ owner, owner < k → Taken places answer left.vertices owner) ∧
    ∀ owner, k ≤ owner → Untouched places before.vertices left.vertices owner

structure OneOwner (size : Nat) : Prop where
  inside : ∀ owner, ∀ i ∈ places owner, i < size
  covered : ∀ i < size, ∃ owner, i ∈ places owner
  once : ∀ owner, (places owner).Nodup
  unique : ∀ owner other i, i ∈ places owner → i ∈ places other → owner = other

theorem written_front (vertices : List Vertex) (single : OneOwner places vertices.length) (front : List (Fin n)) (nodup : front.Nodup)
    (fits : ∀ owner ∈ front, Fits places answer owner) :
    ∃ records : Fin n → List Vertex, (∀ owner ∈ front, Wire.decodeVertices (answer owner) = .ok (records owner) ∧
        (records owner).length = (places owner).length) ∧
      let left := overwrite vertices (front.flatMap fun owner => (places owner).zip (records owner))
      (∀ owner ∈ front, Taken places answer left owner) ∧ ∀ owner, owner ∉ front → Untouched places vertices left owner := by
  let records (owner : Fin n) := (Wire.decodeVertices (answer owner)).toOption.getD []
  have decoded : ∀ owner ∈ front, Wire.decodeVertices (answer owner) = .ok (records owner) ∧
      (records owner).length = (places owner).length := by
    intro owner member
    obtain ⟨list, ok, length⟩ := fits owner member
    simp only [records, ok]
    exact ⟨rfl, length⟩
  have keys : (front.flatMap fun owner => (places owner).zip (records owner)).map Prod.fst = front.flatMap places := by
    rw [List.map_flatMap]
    exact List.flatMap_congr fun owner member => List.map_fst_zip (Nat.le_of_eq (decoded owner member).2.symm)
  have once : (front.flatMap places).Nodup := by
    refine List.nodup_flatMap.mpr ⟨fun owner _ => single.once owner, ?_⟩
    refine nodup.imp fun different => ?_
    intro i first second
    exact different (single.unique _ _ i first second)
  -- No position is written twice, so it keeps what its own owner wrote.
  refine ⟨records, decoded, fun owner member => ?_, fun owner absent i here => ?_⟩
  · refine ⟨records owner, (decoded owner member).1, (decoded owner member).2, fun j i place => ?_⟩
    obtain ⟨bound, _⟩ := List.getElem?_eq_some_iff.mp place
    have boundRecord : j < (records owner).length := (decoded owner member).2.symm ▸ bound
    rw [List.getElem?_eq_getElem boundRecord]
    refine overwrite_given _ _ (keys.symm ▸ once) i _ (List.mem_flatMap.mpr ⟨owner, member, ?_⟩)
      (single.inside owner i (List.mem_of_getElem? place))
    refine List.mem_of_getElem? (List.getElem?_zip_eq_some.mpr ⟨place, ?_⟩)
    exact List.getElem?_eq_getElem boundRecord
  · refine overwrite_other _ _ i ?_
    rw [keys]
    intro listed
    obtain ⟨other, member, among⟩ := List.mem_flatMap.mp listed
    exact absent (single.unique owner other i here among ▸ member)

theorem write_back_refused (vertices : List Vertex) (k : Fin n) (rest : List ((List Nat × Bytes) × Nat))
    (unfit : ¬ Fits places answer k) :
    ∃ e, writeBack vertices (((places k, answer k), k.val) :: rest) = (vertices, .error e) := by
  rw [writeBack]
  cases decoded : Wire.decodeVertices (answer k) with
  | error e => exact ⟨e, rfl⟩
  | ok records =>
      have mismatch : ¬ records.length = (places k).length := fun same => unfit ⟨records, decoded, same⟩
      exact ⟨_, if_neg mismatch⟩

theorem concluded_wrote (before : Mesh) (routed : List (List Nat)) (answers : List Bytes) (all : List Vertex)
    (after : List Vertex) (written : Result Unit)
    (wrote : writeBack before.vertices (routed.zip answers).zipIdx = (after, written)) :
    concluded before routed none all (.ok answers) =
      ({ before with vertices := after }, written.map fun _ => distinctGnums all) := by
  simp only [concluded, wrote]

theorem answer_entries : ((List.ofFn places).zip (List.ofFn answer)).zipIdx =
    (List.finRange n).map fun owner => ((places owner, answer owner), owner.val) := by
  rw [List.ofFn_eq_map, List.ofFn_eq_map, List.zip_map', ← List.ofFn_eq_map, Group.zip_idx_of_fn]

section Conclusion

variable (before : Mesh) (single : OneOwner places before.vertexCount) (all : List Vertex)

include single

theorem concluded_fits (fits : ∀ owner, Fits places answer owner) :
    ∃ after, concluded before (List.ofFn places) none all (.ok (List.ofFn answer)) =
        ({ before with vertices := after }, .ok (distinctGnums all)) ∧
      ∀ owner, Taken places answer after owner := by
  obtain ⟨records, decoded, taken, _⟩ := written_front places answer before.vertices single (List.finRange n)
    (List.nodup_finRange n) fun owner _ => fits owner
  have wrote := write_back_front before.vertices places answer records (List.finRange n) [] decoded
  rw [List.append_nil, ← answer_entries, writeBack] at wrote
  exact ⟨_, concluded_wrote _ _ _ _ _ _ wrote, fun owner => taken owner (List.mem_finRange owner)⟩

theorem concluded_unfit (k : Fin n) (unfit : ¬ Fits places answer k) (least : ∀ owner, owner < k → Fits places answer owner) :
    ∃ after e, concluded before (List.ofFn places) none all (.ok (List.ofFn answer)) =
        ({ before with vertices := after }, .error e) ∧
      (∀ owner, owner < k → Taken places answer after owner) ∧
      ∀ owner, k ≤ owner → Untouched places before.vertices after owner := by
  obtain ⟨records, decoded, taken, others⟩ := written_front places answer before.vertices single ((List.finRange n).take k)
    ((List.nodup_finRange n).sublist (List.take_sublist ..)) fun owner member => least owner ((Group.mem_front k owner).mp member)
  have wrote := write_back_front before.vertices places answer records ((List.finRange n).take k)
    (((k :: (List.finRange n).drop (k + 1))).map fun owner => ((places owner, answer owner), owner.val)) decoded
  generalize overwrite before.vertices _ = after at wrote taken others
  obtain ⟨e, stops⟩ := write_back_refused places answer after k _ unfit
  rw [← List.map_append, ← Group.fin_range_split, ← answer_entries, List.map_cons, stops] at wrote
  refine ⟨after, e, concluded_wrote _ _ _ _ _ _ wrote, fun owner below => taken owner ((Group.mem_front k owner).mpr below), ?_⟩
  exact fun owner above => others owner fun member => absurd ((Group.mem_front k owner).mp member) (not_lt_of_ge above)

theorem concluded_aftermath :
    let left := concluded before (List.ofFn places) none all (.ok (List.ofFn answer))
    Aftermath places answer before left.1 left.2 ∧
      ((∃ numbers, left.2 = .ok numbers) ↔ ∀ owner, Fits places answer owner) := by
  intro left
  have count : left.1.vertexCount = before.vertexCount := write_back_length before.vertices _
  by_cases fits : ∀ owner, Fits places answer owner
  · obtain ⟨after, final, taken⟩ := concluded_fits places answer before single all fits
    have ended : left = ({ before with vertices := after }, .ok (distinctGnums all)) := final
    rw [ended] at count ⊢
    exact ⟨⟨rfl, count, fun _ _ => taken, fun _ failed => nomatch failed⟩, fun _ => fits, fun _ => ⟨_, rfl⟩⟩
  · obtain ⟨k, unfit, least⟩ := (measure Fin.val).wf.has_min {k : Fin n | ¬ Fits places answer k} (not_forall.mp fits)
    obtain ⟨after, e, final, taken, others⟩ := concluded_unfit places answer before single all k unfit
      fun owner below => not_not.mp fun wrong => least owner wrong below
    have ended : left = ({ before with vertices := after }, .error e) := final
    rw [ended] at count ⊢
    refine ⟨⟨rfl, count, fun _ ok => (nomatch ok), fun _ _ => .inr ⟨k, unfit, taken, others⟩⟩, ?_⟩
    exact ⟨fun ⟨_, ok⟩ => (nomatch ok), fun all => absurd all fits⟩

end Conclusion

end Answers

section Rounds

variable (s : Seat) (r : Reducer) (m : Mesh) (script : List (Option Bytes))

def gathering : Result (List UInt64) × List Program.Call :=
  (s.gatherWord (greatestGnum ((contribution m).map Vertex.gnum))).run.scripted script

def scriptOfCopies : List (Option Bytes) := script.drop (heardBy (gathering s m script).2)

def routing (numbers : List UInt64) : List (List Nat) :=
  routes (contribution m) (blockSize (greatestGnum numbers) s.ranks) s.ranks

def copiesOut (numbers : List UInt64) : List Bytes × Option Failure :=
  encodeAll ((routing s m numbers).map fun places => places.filterMap fun i => m.vertices[i]?)

def spreading (numbers : List UInt64) : Result (List Bytes) × List Program.Call :=
  (s.exchangeBytes (copiesOut s m numbers).1 copiesTag).run.scripted (scriptOfCopies s m script)

def scriptOfReplies (numbers : List UInt64) : List (Option Bytes) :=
  (scriptOfCopies s m script).drop (heardBy (spreading s m script numbers).2)

def repliesOut (incoming : List Bytes) : List Bytes × Option Failure :=
  encodeAll ((decodeAll incoming).1.map fun vertices => vertices.map (agreed r (decodeAll incoming).1.flatten))

def replying (numbers : List UInt64) (incoming : List Bytes) : Result (List Bytes) × List Program.Call :=
  (s.exchangeBytes (repliesOut r incoming).1 repliesTag).run.scripted (scriptOfReplies s m script numbers)

structure Completed (numbers : List UInt64) (incoming answers : List Bytes) : Prop where
  healthy : m.vertices.findIdx? (fun v => v.gnum == 0) = none
  sendable : (copiesOut s m numbers).2 = none
  readable : (decodeAll incoming).2 = none
  answerable : (repliesOut r incoming).2 = none
  gathered : (gathering s m script).1 = .ok numbers
  received : (spreading s m script numbers).1 = .ok incoming
  answered : (replying s r m script numbers incoming).1 = .ok answers

def pendingFault (numbers : List UInt64) (incoming : List Bytes) : Option Failure :=
  ((((m.vertices.findIdx? fun v => v.gnum == 0).map fun i => Failure.error (.zeroGnum s.rank i)) <|> (copiesOut s m numbers).2) <|>
    (decodeAll incoming).2) <|> (repliesOut r incoming).2

theorem pending_fault_none_iff (numbers : List UInt64) (incoming : List Bytes) : pendingFault s r m numbers incoming = none ↔
    ((m.vertices.findIdx? (fun v => v.gnum == 0) = none ∧ (copiesOut s m numbers).2 = none) ∧ (decodeAll incoming).2 = none) ∧
      (repliesOut r incoming).2 = none := by
  rw [pendingFault, Option.orElse_eq_none, Option.orElse_eq_none, Option.orElse_eq_none, Option.map_eq_none_iff]

theorem reconcile_scripted : ((reconcile s r m).scripted script).1 =
    match (gathering s m script).1 with
    | .error e => (m, .error e)
    | .ok numbers =>
        match (spreading s m script numbers).1 with
        | .error e => (m, .error e)
        | .ok incoming => concluded m (routing s m numbers) (pendingFault s r m numbers incoming)
            (decodeAll incoming).1.flatten (replying s r m script numbers incoming).1 := by
  have first : ((reconcile s r m).scripted script).1 =
      ((spreadCopies s r m (gathering s m script).1).scripted (scriptOfCopies s m script)).1 := by
    rw [reconcile_rounds]
    exact Program.scripted_then _ _ _ (Seat.gather_word_orderly s _)
  rw [first]
  cases (gathering s m script).1 with
  | error e => rfl
  | ok numbers =>
      refine (Program.scripted_then _ (answerCopies s r m _ _) _ (Seat.exchange_bytes_orderly s _ _)).trans ?_
      dsimp only
      change ((answerCopies s r m _ _ (spreading s m script numbers).1).scripted (scriptOfReplies s m script numbers)).1 = _
      cases (spreading s m script numbers).1 with
      | error e => rfl
      | ok incoming => exact Program.scripted_then _ _ _ (Seat.exchange_bytes_orderly s _ _)

theorem completed_left (numbers : List UInt64) (incoming answers : List Bytes)
    (completed : Completed s r m script numbers incoming answers) : ((reconcile s r m).scripted script).1 =
      concluded m (routing s m numbers) none (decodeAll incoming).1.flatten (.ok answers) := by
  have nothing := (pending_fault_none_iff s r m numbers incoming).mpr
    ⟨⟨⟨completed.healthy, completed.sendable⟩, completed.readable⟩, completed.answerable⟩
  rw [reconcile_scripted, completed.gathered]
  dsimp only
  rw [completed.received]
  dsimp only
  rw [completed.answered, nothing]

-- A run that does not come so far leaves everything as it was.
theorem incomplete_fails (incomplete : ¬ ∃ numbers incoming answers, Completed s r m script numbers incoming answers) :
    ∃ e, ((reconcile s r m).scripted script).1 = (m, .error e) := by
  rw [reconcile_scripted]
  cases gathered : (gathering s m script).1 with
  | error e => exact ⟨e, rfl⟩
  | ok numbers =>
      dsimp only
      cases received : (spreading s m script numbers).1 with
      | error e => exact ⟨e, rfl⟩
      | ok incoming =>
          dsimp only
          cases answered : (replying s r m script numbers incoming).1 with
          | error e => exact ⟨e, rfl⟩
          | ok answers =>
              cases pending : pendingFault s r m numbers incoming with
              | some e => exact ⟨e, rfl⟩
              | none =>
                  obtain ⟨⟨⟨healthy, sendable⟩, readable⟩, answerable⟩ := (pending_fault_none_iff s r m numbers incoming).mp pending
                  exact absurd ⟨numbers, incoming, answers, healthy, sendable, readable, answerable, gathered, received, answered⟩
                    incomplete

theorem isolated_counts (isolated : s.isolated = true) (counts : List Nat) (tag : UInt16) :
    ∃ result, (s.exchangeCounts counts tag).run = .done result := by
  have silent : s.silent = true := by simp [Seat.silent, isolated]
  rw [Seat.exchangeCounts]
  split
  · exact ⟨_, rfl⟩
  · simp only [Collective.run_result_bind]
    cases fetch counts s.rank <;> exact ⟨_, rfl⟩

theorem isolated_receives (isolated : s.isolated = true) (buffers : List Bytes) (tag : UInt16) (received : List Bytes)
    (ok : ((s.exchangeBytes buffers tag).run.scripted script).1 = .ok received) :
    ∃ own, received = s.place own (s.peers.map fun _ => []) := by
  have silent : s.silent = true := by simp [Seat.silent, isolated]
  obtain ⟨result, done⟩ := isolated_counts s isolated
    ((buffers.map fun b => if b.length < UInt32.size then b else []).map List.length) tag
  rw [Seat.exchangeBytes, Group.run_then, done] at ok
  cases result with
  | error e => cases ok
  | ok sizes =>
      simp only [Program.bind, Group.proceed, Collective.run_result_bind, silent, if_true] at ok
      cases own : fetch (buffers.map fun b => if b.length < UInt32.size then b else []) s.rank with
      | error e =>
          rw [own] at ok
          cases ok
      | ok own' =>
          cases wide : Seat.firstWide (buffers.map List.length) with
          | some n =>
              rw [own, wide] at ok
              cases ok
          | none =>
              rw [own, wide] at ok
              exact ⟨own', (Except.ok.inj ok).symm⟩

end Rounds

section Heard

variable {n : Nat} (me : Fin n) (r : Reducer) (m : Mesh) (script : List (Option Bytes))

def greatestHeard : UInt64 :=
  greatestGnum (List.ofFn (Function.update (fun other => Wire.ofWord ((heard script me 0 other).getD [])) me
    (greatestGnum (m.vertices.map Vertex.gnum))))

def routedTo (owner : Fin n) : List Nat := positions m.vertices (blockSize (greatestHeard me m script) n) n owner

def copiesFrom : Fin n → List Vertex :=
  Function.update (fun source => (Wire.decodeVertices ((heard script me 2 source).getD [])).toOption.getD []) me
    ((routedTo me m script me).filterMap fun i => m.vertices[i]?)

def answerOf : Fin n → Bytes :=
  Function.update (fun owner => (heard script me 4 owner).getD []) me
    (Wire.message Wire.vertex Wire.verticesKind
      ((copiesFrom me m script me).map (agreed r (List.ofFn (copiesFrom me m script)).flatten)))

theorem routed_one_owner : OneOwner (routedTo me m script) m.vertexCount where
  inside owner i member := by
    obtain ⟨v, found, _⟩ := (mem_positions_iff _ _ _ _ _).mp member
    exact (List.getElem?_eq_some_iff.mp found).1
  covered i inside :=
    ⟨⟨_, block_owner_lt m.vertices[i].gnum (blockSize (greatestHeard me m script) n) me⟩,
      (mem_positions_iff _ _ _ _ _).mpr ⟨m.vertices[i], List.getElem?_eq_getElem inside, rfl⟩⟩
  once owner := positions_nodup ..
  unique owner other i first second := by
    obtain ⟨v, found, owned⟩ := (mem_positions_iff _ _ _ _ _).mp first
    obtain ⟨w, again, ownedToo⟩ := (mem_positions_iff _ _ _ _ _).mp second
    obtain rfl := Option.some.inj (found.symm.trans again)
    exact Fin.ext (owned.symm.trans ownedToo)

theorem encode_all_sendable (lists : Fin n → List Vertex) (sendable : (encodeAll (List.ofFn lists)).2 = none) :
    (encodeAll (List.ofFn lists)).1 = List.ofFn (fun owner => Wire.message Wire.vertex Wire.verticesKind (lists owner)) ∧
      ∀ owner, (lists owner).length < UInt32.size := by
  have fits := encode_all_fits _ sendable
  refine ⟨?_, fun owner => fits _ (List.mem_ofFn.mpr ⟨owner, rfl⟩)⟩
  rw [encode_all_ok _ fits, List.map_ofFn]
  rfl

section Completion

variable (numbers : List UInt64) (incoming answers : List Bytes)
  (completed : Completed (Seat.member me) r m script numbers incoming answers)

include completed

theorem completed_routes : routing (Seat.member me) m numbers = List.ofFn (routedTo me m script) ∧
    scriptOfCopies (Seat.member me) m script = script.drop (1 * (n - 1)) := by
  have whole : contribution m = m.vertices := by simp [contribution, completed.healthy]
  obtain ⟨told, used⟩ := Group.gather_word_taken me _ script numbers completed.gathered
  have greatest : greatestGnum numbers = greatestHeard me m script := by
    rw [told, greatestHeard, whole]
  constructor
  · rw [routing, whole, greatest, Group.member_ranks, routes, ← List.map_coe_finRange_eq_range, List.map_map, List.ofFn_eq_map]
    rfl
  · rw [scriptOfCopies, gathering, used, Nat.one_mul]

theorem completed_copies : (decodeAll incoming).1 = List.ofFn (copiesFrom me m script) ∧
    scriptOfReplies (Seat.member me) m script numbers = script.drop (3 * (n - 1)) := by
  obtain ⟨routed, behind⟩ := completed_routes me r m script numbers incoming answers completed
  let outgoing (owner : Fin n) := (routedTo me m script owner).filterMap fun i => m.vertices[i]?
  have out : copiesOut (Seat.member me) m numbers = encodeAll (List.ofFn outgoing) := by
    rw [copiesOut, routed, List.map_ofFn]
    rfl
  obtain ⟨copies, few⟩ := encode_all_sendable outgoing (out ▸ completed.sendable)
  have received := completed.received
  rw [spreading, behind, out, copies] at received
  obtain ⟨came, used⟩ := Group.exchange_taken me _ copiesTag _ incoming received
  constructor
  · rw [came, Group.heard_later script me 1 1, decodeAll, List.map_ofFn, Function.comp_update, decode_message _ (few me)]
    rfl
  · rw [scriptOfReplies, spreading, behind, out, copies, used, List.drop_drop, ← Nat.add_mul]

theorem completed_answers : answers = List.ofFn (answerOf me r m script) := by
  obtain ⟨read, behind⟩ := completed_copies me r m script numbers incoming answers completed
  let reply (source : Fin n) := (copiesFrom me m script source).map (agreed r (List.ofFn (copiesFrom me m script)).flatten)
  have back : repliesOut r incoming = encodeAll (List.ofFn reply) := by
    rw [repliesOut, read, List.map_ofFn]
    rfl
  obtain ⟨replies, _⟩ := encode_all_sendable reply (back ▸ completed.answerable)
  have answered := completed.answered
  rw [replying, behind, back, replies] at answered
  obtain ⟨gave, _⟩ := Group.exchange_taken me _ repliesTag _ answers answered
  rw [gave, Group.heard_later script me 3 1]
  rfl

end Completion

theorem isolated_incomplete (several : 2 ≤ n) (numbers : List UInt64) (incoming answers : List Bytes) :
    ¬ Completed ⟨me.val, n, true⟩ r m script numbers incoming answers := by
  intro completed
  obtain ⟨own, rfl⟩ := isolated_receives _ _ rfl _ _ _ completed.received
  have placed : (⟨me.val, n, true⟩ : Seat).place own ((⟨me.val, n, true⟩ : Seat).peers.map fun _ => []) =
      List.ofFn (Function.update (fun _ => []) me own) := by
    rw [← Group.place_peers]
    refine congrArg _ ((congrArg (List.map _) (Group.member_peers me)).trans ?_)
    rw [List.map_map]
    rfl
  have readable := completed.readable
  rw [placed] at readable
  have := Fin.nontrivial_iff_two_le.mpr several
  obtain ⟨other, different⟩ := exists_ne me
  have empty : Function.update (fun _ => ([] : Bytes)) me own other = [] := Function.update_of_ne different ..
  cases List.findSome?_eq_none_iff.mp readable [] (List.mem_ofFn.mpr ⟨other, empty⟩)

theorem completed_solo (numbers : List UInt64) (incoming answers : List Bytes) :
    Completed Seat.solo r m script numbers incoming answers ↔
      Completed (Seat.member (0 : Fin 1)) r m script numbers incoming answers :=
  ⟨fun ⟨healthy, sendable, readable, answerable, gathered, received, answered⟩ =>
      ⟨healthy, sendable, readable, answerable, gathered, received, answered⟩,
    fun ⟨healthy, sendable, readable, answerable, gathered, received, answered⟩ =>
      ⟨healthy, sendable, readable, answerable, gathered, received, answered⟩⟩

def Accounted (s : Seat) : Prop :=
  let run := ((reconcile s r m).scripted script).1
  Aftermath (routedTo me m script) (answerOf me r m script) m run.1 run.2 ∧
    ((∃ count, run.2 = .ok count) ↔ (∃ numbers incoming answers, Completed s r m script numbers incoming answers) ∧
      ∀ owner, Fits (routedTo me m script) (answerOf me r m script) owner)

theorem incomplete_accounted (s : Seat)
    (incomplete : ¬ ∃ numbers incoming answers, Completed s r m script numbers incoming answers) : Accounted me r m script s := by
  obtain ⟨e, failed⟩ := incomplete_fails s r m script incomplete
  rw [Accounted, failed]
  exact ⟨⟨rfl, rfl, nofun, fun _ _ => .inl rfl⟩, nofun, fun both => absurd both.1 incomplete⟩

theorem member_accounted : Accounted me r m script (Seat.member me) := by
  by_cases complete : ∃ numbers incoming answers, Completed (Seat.member me) r m script numbers incoming answers
  · obtain ⟨numbers, incoming, answers, completed⟩ := complete
    have left := completed_left _ r m script numbers incoming answers completed
    obtain ⟨routed, _⟩ := completed_routes me r m script numbers incoming answers completed
    rw [routed, completed_answers me r m script numbers incoming answers completed] at left
    obtain ⟨aftermath, succeeds⟩ := concluded_aftermath _ (answerOf me r m script) m (routed_one_owner me m script)
      (decodeAll incoming).1.flatten
    rw [Accounted, left]
    exact ⟨aftermath, succeeds.trans ⟨fun fits => ⟨⟨_, _, _, completed⟩, fits⟩, fun both => both.2⟩⟩
  · exact incomplete_accounted me r m script _ complete

theorem isolated_accounted : Accounted me r m script ⟨me.val, n, true⟩ := by
  by_cases alone : n = 1
  · subst alone
    obtain rfl := Subsingleton.elim me 0
    have member := member_accounted (0 : Fin 1) r m script
    simp only [Accounted, ← reconcile_solo, ← completed_solo] at member
    exact member
  · have several : 2 ≤ n := by
      have positive := me.isLt
      omega
    exact incomplete_accounted me r m script _ fun ⟨_, _, _, completed⟩ => isolated_incomplete me r m script several _ _ _ completed

-- Whatever a rank hears, or does not hear: each of its positions is dealt to one owner, and the answers of the owners
-- decide what its vertices become. It succeeds just when it comes to the answers and all of them fit.
theorem reconcile_aftermath (isolated : Bool) :
    let run := ((reconcile ⟨me.val, n, isolated⟩ r m).scripted script).1
    OneOwner (routedTo me m script) m.vertexCount ∧
      Aftermath (routedTo me m script) (answerOf me r m script) m run.1 run.2 ∧
      ((∃ count, run.2 = .ok count) ↔
        (∃ numbers incoming answers, Completed ⟨me.val, n, isolated⟩ r m script numbers incoming answers) ∧
          ∀ owner, Fits (routedTo me m script) (answerOf me r m script) owner) := by
  refine ⟨routed_one_owner me m script, ?_⟩
  cases isolated with
  | false => exact member_accounted me r m script
  | true => exact isolated_accounted me r m script

example :
    let record (gnum tolerance : UInt64) : Vertex := ⟨gnum, ⟨tolerance⟩, ⟨⟨0⟩, ⟨0⟩, ⟨0⟩⟩⟩
    let message (records : List Vertex) : Option Bytes := some (Wire.message Wire.vertex Wire.verticesKind records)
    let m : Mesh := { Mesh.empty "pair" with vertices := [record 1 5, record 2 5] }
    let script := [some (Wire.word 2), some (Wire.count.encode 52), message [record 1 3], some (Wire.count.encode 92),
      message [record 2 4, record 2 4]]
    ((reconcile ⟨0, 2, false⟩ .least m).scripted script).1 =
      ({ m with vertices := [record 1 3, record 2 5] }, refuse (.wire (.answerCount 1 2 1))) := by
  decide +kernel
end Heard

end Seam.Reconciliation
