import Mathlib.Data.Fin.VecNotation
import Seam.Proofs.Group.CopyRounds
import Seam.Proofs.RecordOrder

set_option autoImplicit false

namespace Seam

namespace Reconciliation

theorem overwrite_length (vertices : List Vertex) (updates : List (Nat × Vertex)) :
    (overwrite vertices updates).length = vertices.length := by
  induction updates generalizing vertices with
  | nil => rfl
  | cons update updates ih =>
      rw [overwrite, List.foldl_cons]
      exact (ih _).trans (List.length_set ..)

theorem write_back_length (vertices : List Vertex) (answers : List ((List Nat × Bytes) × Nat)) :
    (writeBack vertices answers).1.length = vertices.length := by
  fun_induction writeBack vertices answers with
  | case1 => rfl
  | case2 => rfl
  | case3 vertices positions answer owner rest records decoded fits ih => rw [ih, overwrite_length]
  | case4 => rfl

theorem overwrite_positions (vertices : List Vertex) (record : Nat → Vertex) (places : List Nat) :
    overwrite vertices (places.map fun i => (i, record i)) =
      vertices.mapIdx fun i v => if i ∈ places then record i else v := by
  induction places generalizing vertices with
  | nil => exact (List.ext_getElem? fun i => by simp [overwrite])
  | cons place places ih =>
      simp only [overwrite, List.map_cons, List.foldl_cons] at ih ⊢
      rw [ih]
      refine List.ext_getElem? fun i => ?_
      by_cases first : place = i
      · subst first
        by_cases inside : place < vertices.length <;> by_cases again : place ∈ places <;> simp [inside, again]
      · simp [first, Ne.symm first]

theorem positions_map (vertices : List Vertex) (block ranks owner : Nat) (fallback : Vertex) (change : Vertex → Vertex) :
    (positions vertices block ranks owner).map (fun i => ((vertices[i]?).map change).getD fallback) =
      (vertices.filter fun v => blockOwner v.gnum block ranks = owner).map change := by
  rw [← positions_records, List.map_filterMap, ← List.filterMap_eq_map]
  apply List.filterMap_congr
  intro i member
  obtain ⟨item, listed, owned⟩ := List.mem_filterMap.mp member
  have found := List.mem_zipIdx_iff_getElem?.mp listed
  by_cases same : blockOwner item.1.gnum block ranks = owner
  · simp only [same, if_true, Option.some.injEq] at owned
    simp [← owned, found]
  · simp [same] at owned

theorem mem_positions (vertices : List Vertex) (block ranks owner i : Nat) (v : Vertex) (found : vertices[i]? = some v)
    (owned : blockOwner v.gnum block ranks = owner) : i ∈ positions vertices block ranks owner :=
  List.mem_filterMap.mpr ⟨(v, i), List.mem_zipIdx_iff_getElem?.mpr found, if_pos owned⟩

theorem write_back_front {n : Nat} (vertices : List Vertex) (places : Fin n → List Nat) (answer : Fin n → Bytes)
    (records : Fin n → List Vertex) (front : List (Fin n)) (rest : List ((List Nat × Bytes) × Nat))
    (fits : ∀ owner ∈ front, Wire.decodeVertices (answer owner) = .ok (records owner) ∧
      (records owner).length = (places owner).length) :
    writeBack vertices (front.map (fun owner => ((places owner, answer owner), owner.val)) ++ rest) =
      writeBack (overwrite vertices (front.flatMap fun owner => (places owner).zip (records owner))) rest := by
  induction front generalizing vertices with
  | nil => rfl
  | cons owner front ih =>
      obtain ⟨decoded, length⟩ := fits owner (by simp)
      rw [List.map_cons, List.cons_append, writeBack, decoded]
      dsimp only
      rw [if_pos length, ih _ fun other member => fits other (by simp [member]), List.flatMap_cons]
      simp only [overwrite, List.foldl_append]

theorem write_back_messages {n : Nat} (vertices : List Vertex) (record : Nat → Vertex) (places : Fin n → List Nat)
    (fits : ∀ owner, (places owner).length < UInt32.size) (owners : List (Fin n)) :
    writeBack vertices (owners.map fun owner =>
        ((places owner, Wire.message Wire.vertex Wire.verticesKind ((places owner).map record)), owner.val)) =
      (overwrite vertices ((owners.flatMap places).map fun i => (i, record i)), .ok ()) := by
  have written := write_back_front vertices places _ (fun owner => (places owner).map record) owners [] fun owner _ =>
    ⟨decode_message ((places owner).map record) (by simpa using fits owner), List.length_map ..⟩
  have pairs : ∀ owner, (places owner).zip ((places owner).map record) = (places owner).map fun i => (i, record i) :=
    fun owner => Group.zip_map_self (places owner) record
  simp only [List.append_nil, pairs] at written
  rw [written, List.map_flatMap]
  rfl

section Group

variable {n : Nat} (meshes : Fin n → Mesh)

def copies : List Vertex := (List.ofFn fun me => contribution (meshes me)).flatten

def received (owner : Fin n) : List Vertex := (List.ofFn fun source => sent meshes source owner).flatten

def Light : Prop := ∀ source owner, Wire.messageSize Wire.vertex (sent meshes source owner) < UInt32.size

instance : Decidable (Light meshes) := inferInstanceAs (Decidable (∀ _ _, _ < _))

theorem received_eq_filter (owner : Fin n) :
    received meshes owner = (copies meshes).filter fun v => blockOwner v.gnum (block meshes) n = owner := by
  rw [received, copies, List.filter_flatten, List.map_ofFn]
  rfl

theorem agreed_received (r : Reducer) (owner : Fin n) (v : Vertex) (owned : blockOwner v.gnum (block meshes) n = owner) :
    agreed r (received meshes owner) v = agreed r (copies meshes) v := by
  rw [agreed, agreed, received_eq_filter, List.filter_filter]
  congr 1
  apply List.filter_congr
  intro copy _
  by_cases same : copy.gnum = v.gnum
  · simp [same, owned]
  · simp [same]

theorem block_owner_lt (gnum : UInt64) (width : Nat) (me : Fin n) : blockOwner gnum width n < n := by
  have positive := me.isLt
  simp only [blockOwner]
  omega

theorem light_length (light : Light meshes) (source owner : Fin n) : (sent meshes source owner).length < UInt32.size := by
  have size := light source owner
  have width : Wire.vertex.size = 40 := rfl
  rw [Wire.messageSize, width] at size
  omega

def replies (reducers : Fin n → Reducer) (owner target : Fin n) : List Vertex :=
  (sent meshes target owner).map (agreed (reducers owner) (received meshes owner))

def outcome (reducers : Fin n → Reducer) (me : Fin n) : Mesh × Result Nat :=
  match (meshes me).vertices.findIdx? fun v => v.gnum == 0 with
  | some i => (meshes me, refuse (.zeroGnum me i))
  | none =>
      let (vertices, written) := writeBack (meshes me).vertices
        ((routes (contribution (meshes me)) (block meshes) n).zip (List.ofFn fun owner =>
          Wire.message Wire.vertex Wire.verticesKind (replies meshes reducers owner me))).zipIdx
      ({ meshes me with vertices }, written.map fun _ => distinctGnums (received meshes me))

theorem met_light (light : Light meshes) (owner : Fin n) : met meshes owner = received meshes owner := by
  have arrive : ∀ source, arrived meshes source owner = sent meshes source owner := fun source =>
    (copies_message meshes source owner (light_length meshes light source owner)).2
  simp only [met, arrive, received]

theorem copies_light (light : Light meshes) (source owner : Fin n) : (copiesTo meshes source owner).length < UInt32.size := by
  rw [(copies_message meshes source owner (light_length meshes light source owner)).1,
    Wire.message_length _ _ Wire.vertex_faithful]
  exact light source owner

theorem replies_light (reducers : Fin n → Reducer) (light : Light meshes) (owner target : Fin n) :
    repliesTo meshes reducers owner target = Wire.message Wire.vertex Wire.verticesKind (replies meshes reducers owner target) := by
  rw [(replies_message meshes reducers owner target (copies_light meshes light target owner)).1, met_light meshes light,
    (copies_message meshes target owner (light_length meshes light target owner)).2, replies]

theorem pending_light (reducers : Fin n → Reducer) (light : Light meshes) (me : Fin n) : pending meshes reducers me =
    ((meshes me).vertices.findIdx? fun v => v.gnum == 0).map fun i => Failure.error (.zeroGnum me.val i) := by
  have lengths := light_length meshes light
  have arrive : ∀ source, arrived meshes source me = sent meshes source me := fun source =>
    (copies_message meshes source me (lengths source me)).2
  have sendable : unsent meshes me = none := by
    rw [unsent, encode_all_ok _ (by simpa using lengths me)]
  have readable : (decodeAll (List.ofFn fun source => copiesTo meshes source me)).2 = none := by
    have message : (List.ofFn fun source => copiesTo meshes source me) =
        (List.ofFn fun source => sent meshes source me).map (Wire.message Wire.vertex Wire.verticesKind) := by
      rw [List.map_ofFn]
      exact congrArg List.ofFn (funext fun source => (copies_message meshes source me (lengths source me)).1)
    rw [message, decode_all_messages _ (by simpa using fun source => lengths source me)]
  have answerable : (encodeAll (List.ofFn fun source =>
      (arrived meshes source me).map (agreed (reducers me) (met meshes me)))).2 = none := by
    rw [encode_all_ok _ (by simpa [arrive] using fun source => lengths source me)]
  rw [pending, fault, sendable, readable, answerable]
  simp

theorem answered_light (reducers : Fin n → Reducer) (light : Light meshes) : answered meshes reducers = outcome meshes reducers := by
  funext me
  simp only [answered, replies_light meshes reducers light, pending_light meshes reducers light, met_light meshes light, outcome]
  cases (meshes me).vertices.findIdx? fun v => v.gnum == 0 <;> rfl

theorem reconcile_lockstep (reducers : Fin n → Reducer) (light : Light meshes) :
    Group.Lockstep (fun me => reconcile (Seat.member me) (reducers me) (meshes me))
      fun me => .done (outcome meshes reducers me) :=
  answered_light meshes reducers light ▸ answers_lockstep meshes reducers (copies_light meshes light)

-- All copies of a number meet on one owner, so each answer is the reduction of all of them.
theorem replies_agree (r : Reducer) (owner target : Fin n) :
    replies meshes (fun _ => r) owner target = (sent meshes target owner).map (agreed r (copies meshes)) := by
  refine List.map_congr_left fun v member => agreed_received meshes r owner v ?_
  simpa using (List.mem_filter.mp member).2

theorem write_back_changes (change : Vertex → Vertex) (me : Fin n)
    (lengths : ∀ owner, (sent meshes me owner).length < UInt32.size)
    (whole : contribution (meshes me) = (meshes me).vertices) :
    writeBack (meshes me).vertices ((routes (contribution (meshes me)) (block meshes) n).zip (List.ofFn fun owner =>
        Wire.message Wire.vertex Wire.verticesKind ((sent meshes me owner).map change))).zipIdx =
      ((meshes me).vertices.map change, .ok ()) := by
  let vertices := (meshes me).vertices
  let places (owner : Fin n) := positions vertices (block meshes) n owner
  let record (i : Nat) := ((vertices[i]?).map change).getD Reducer.least.identity
  have records : ∀ owner, (sent meshes me owner).map change = (places owner).map record := by
    intro owner
    rw [sent, whole]
    exact (positions_map vertices (block meshes) n owner Reducer.least.identity change).symm
  have fits : ∀ owner, (places owner).length < UInt32.size := by
    intro owner
    have length := congrArg List.length (records owner)
    rw [List.length_map, List.length_map] at length
    exact length ▸ lengths owner
  have routed : routes (contribution (meshes me)) (block meshes) n = List.ofFn places := by
    rw [whole, routes, ← List.map_coe_finRange_eq_range, List.map_map, List.ofFn_eq_map]
    rfl
  simp only [records, routed, List.ofFn_eq_map, List.zip_map']
  rw [← List.ofFn_eq_map, Group.zip_idx_of_fn, write_back_messages vertices record places fits, overwrite_positions]
  refine congrArg (fun vertices => (vertices, Except.ok ())) (List.ext_getElem? fun i => ?_)
  cases found : vertices[i]? with
  | none =>
      simp only [List.getElem?_mapIdx, List.getElem?_map, vertices] at found ⊢
      simp [found]
  | some v =>
      have owner : ∃ owner : Fin n, i ∈ places owner :=
        ⟨⟨_, block_owner_lt v.gnum (block meshes) me⟩, mem_positions _ _ _ _ i v found rfl⟩
      simp only [List.getElem?_mapIdx, List.getElem?_map, vertices] at found ⊢
      simp [found, List.mem_flatMap, owner, record, vertices]

theorem write_back_replies (r : Reducer) (me : Fin n) (light : Light meshes)
    (whole : contribution (meshes me) = (meshes me).vertices) :
    writeBack (meshes me).vertices ((routes (contribution (meshes me)) (block meshes) n).zip (List.ofFn fun owner =>
        Wire.message Wire.vertex Wire.verticesKind (replies meshes (fun _ => r) owner me))).zipIdx =
      ((meshes me).vertices.map (agreed r (copies meshes)), .ok ()) := by
  simp only [replies_agree]
  exact write_back_changes meshes (agreed r (copies meshes)) me (light_length meshes light me) whole

def reconciled (r : Reducer) (me : Fin n) : Mesh × Result Nat :=
  match (meshes me).vertices.findIdx? fun v => v.gnum == 0 with
  | some i => (meshes me, refuse (.zeroGnum me i))
  | none =>
      ({ meshes me with vertices := (meshes me).vertices.map (agreed r (copies meshes)) },
        .ok (distinctGnums (received meshes me)))

theorem outcome_one_reducer (r : Reducer) (light : Light meshes) : outcome meshes (fun _ => r) = reconciled meshes r := by
  funext me
  cases faulty : (meshes me).vertices.findIdx? fun v => v.gnum == 0 with
  | some i => simp only [outcome, reconciled, faulty]
  | none =>
      have whole : contribution (meshes me) = (meshes me).vertices := by simp [contribution, faulty]
      simp only [outcome, reconciled, faulty, write_back_replies meshes r me light whole]
      rfl

theorem reconciled_vertex (r : Reducer) (me : Fin n) (i : Nat) (v : Vertex)
    (healthy : (meshes me).vertices.findIdx? (fun v => v.gnum == 0) = none) (found : (meshes me).vertices[i]? = some v) :
    (reconciled meshes r me).1.vertices[i]? = some (agreed r (copies meshes) v) := by
  simp [reconciled, healthy, found]

end Group

theorem reconcile_solo (r : Reducer) (m : Mesh) : reconcile Seat.solo r m = reconcile (Seat.member (0 : Fin 1)) r m := rfl

theorem reconcile_settles {n : Nat} (r : Reducer) (meshes : Fin n → Mesh) (light : Light meshes) :
    Network.Settles (fun me => reconcile (Seat.member me) r (meshes me)) (reconciled meshes r) :=
  outcome_one_reducer meshes r light ▸
    Group.settles_of_lockstep _ _ (fun _ => reconcile_orderly _ _ _) (reconcile_lockstep meshes (fun _ => r) light)

theorem agreed_perm {k n : Nat} (r : Reducer) (meshes : Fin n → Mesh) (others : Fin k → Mesh) (v w : Vertex)
    (spread : (copies others).Perm (copies meshes)) (same : v.gnum = w.gnum) :
    agreed r (copies meshes) v = agreed r (copies others) w := by
  rw [agreed, agreed, same]
  exact Reducer.reduce_perm r _ _ (spread.symm.filter _)

theorem reconcile_reduces_all_copies {n : Nat} (r : Reducer) (meshes : Fin n → Mesh) (light : Light meshes) :
    ∃ outcomes : Fin n → Mesh × Result Nat,
      Network.Settles (fun me => reconcile (Seat.member me) r (meshes me)) outcomes ∧
      (∀ me i, (meshes me).vertices.findIdx? (fun v => v.gnum == 0) = some i →
        outcomes me = (meshes me, refuse (.zeroGnum me i))) ∧
      (∀ me, (meshes me).vertices.findIdx? (fun v => v.gnum == 0) = none → ∃ numbers,
        outcomes me = ({ meshes me with
          vertices := (meshes me).vertices.map fun v =>
            r.reduce ((copies meshes).filter fun copy => copy.gnum == v.gnum) }, .ok numbers)) ∧
      (∀ (k : Nat) (others : Fin k → Mesh), Light others → (copies others).Perm (copies meshes) →
        ∃ results : Fin k → Mesh × Result Nat,
          Network.Settles (fun me => reconcile (Seat.member me) r (others me)) results ∧
          ∀ (me : Fin n) (other : Fin k) (i j : Nat) (v w : Vertex), (meshes me).vertices.findIdx? (fun v => v.gnum == 0) = none →
            (others other).vertices.findIdx? (fun v => v.gnum == 0) = none →
            (meshes me).vertices[i]? = some v → (others other).vertices[j]? = some w → v.gnum = w.gnum →
            (outcomes me).1.vertices[i]? = (results other).1.vertices[j]?) ∧
      (∀ m : Mesh, Light (fun _ : Fin 1 => m) →
        Network.Settles (fun me : Fin 1 => reconcile (Seat.member me) r m) fun _ => (reconcile Seat.solo r m).alone) := by
  refine ⟨reconciled meshes r, reconcile_settles r meshes light, ?faulty, ?healthy, ?spread, ?solo⟩
  case faulty =>
    intro me i first
    simp only [reconciled, first]
  case healthy =>
    intro me none
    exact ⟨distinctGnums (received meshes me), by simp only [reconciled, none]; rfl⟩
  case spread =>
    intro k others lightOthers spread
    refine ⟨reconciled others r, reconcile_settles r others lightOthers, ?_⟩
    intro me other i j v w healthy healthyOther found foundOther same
    rw [reconciled_vertex meshes r me i v healthy found, reconciled_vertex others r other j w healthyOther foundOther,
      agreed_perm r meshes others v w spread same]
  case solo =>
    -- The rounds of a group of one have no legs, so it ends like the run by itself.
    intro m lightAlone
    have steps := reconcile_lockstep (fun _ : Fin 1 => m) (fun _ => r) lightAlone
    rw [outcome_one_reducer _ r lightAlone] at steps
    have alone : (reconcile Seat.solo r m).alone = reconciled (fun _ : Fin 1 => m) r 0 := by
      rw [reconcile_solo]
      exact Group.lockstep_alone _ _ steps 0
    have settles := reconcile_settles r (fun _ : Fin 1 => m) lightAlone
    have same : reconciled (fun _ : Fin 1 => m) r = fun _ => (reconcile Seat.solo r m).alone := by
      funext me
      rw [alone, Subsingleton.elim me 0]
    rwa [same] at settles

def dot (gnum tolerance : UInt64) : Mesh := { Mesh.empty "dot" with vertices := [⟨gnum, ⟨tolerance⟩, ⟨⟨0⟩, ⟨0⟩, ⟨0⟩⟩⟩] }

theorem reconcile_reduces_copies_of_dots :
    Light ![dot 5 2, dot 5 1, dot 0 0] ∧
    ∃ outcomes : Fin 3 → Mesh × Result Nat,
      Network.Settles (fun me => reconcile (Seat.member me) .least (![dot 5 2, dot 5 1, dot 0 0] me)) outcomes ∧
      (outcomes 0).1 = dot 5 1 ∧ (outcomes 1).1 = dot 5 1 ∧ outcomes 2 = (dot 0 0, refuse (.zeroGnum 2 0)) := by
  have light : Light ![dot 5 2, dot 5 1, dot 0 0] := by decide
  obtain ⟨outcomes, settles, faulty, healthy, _⟩ := reconcile_reduces_all_copies .least _ light
  obtain ⟨_, first⟩ := healthy 0 (by decide)
  obtain ⟨_, second⟩ := healthy 1 (by decide)
  refine ⟨light, outcomes, settles, ?_, ?_, faulty 2 0 (by decide)⟩
  · rw [first]
    dsimp only
    decide
  · rw [second]
    dsimp only
    decide

end Reconciliation

end Seam
