import Seam.Proofs.Group.Collectives
import Seam.Proofs.Group.Copies
import Seam.Proofs.Group.Orderly

set_option autoImplicit false

namespace Seam.Reconciliation

def contribution (m : Mesh) : List Vertex :=
  if (m.vertices.findIdx? fun v => v.gnum == 0).isSome then [] else m.vertices

theorem positions_records (vertices : List Vertex) (block ranks owner : Nat) :
    (positions vertices block ranks owner).filterMap (fun i => vertices[i]?) =
      vertices.filter fun v => blockOwner v.gnum block ranks = owner := by
  rw [positions, List.filterMap_filterMap]
  calc vertices.zipIdx.filterMap (fun item =>
        (if blockOwner item.1.gnum block ranks = owner then some item.2 else none).bind fun i => vertices[i]?)
      = vertices.zipIdx.filterMap (fun item => if blockOwner item.1.gnum block ranks = owner then some item.1 else none) := by
        apply List.filterMap_congr
        intro item member
        have found := List.mem_zipIdx_iff_getElem?.mp member
        by_cases owned : blockOwner item.1.gnum block ranks = owner <;> simp [owned, found]
    _ = (vertices.zipIdx.map Prod.fst).filter fun v => blockOwner v.gnum block ranks = owner := by
        rw [← List.filterMap_eq_filter, List.filterMap_map]
        apply List.filterMap_congr
        intro item _
        simp [Option.guard]
    _ = vertices.filter fun v => blockOwner v.gnum block ranks = owner := by rw [List.zipIdx_map_fst]

theorem encode_all_ok (lists : List (List Vertex)) (fits : ∀ list ∈ lists, list.length < UInt32.size) :
    encodeAll lists = (lists.map (Wire.message Wire.vertex Wire.verticesKind), none) := by
  have encoded : ∀ list ∈ lists, Wire.encodeVertices list = .ok (Wire.message Wire.vertex Wire.verticesKind list) :=
    fun list member => Wire.encode_list_ok _ _ list (fits list member)
  rw [encodeAll, Prod.mk.injEq]
  constructor
  · exact List.map_congr_left fun list member => by rw [encoded list member]; rfl
  · rw [List.findSome?_eq_none_iff]
    intro list member
    rw [encoded list member]

theorem encode_all_fits (lists : List (List Vertex)) (fine : (encodeAll lists).2 = none) :
    ∀ list ∈ lists, list.length < UInt32.size := by
  intro list member
  have encoded := List.findSome?_eq_none_iff.mp fine list member
  by_contra many
  simp [Wire.encodeVertices, Wire.encodeList, Wire.narrow, many, refuse, bind, Except.bind] at encoded

theorem decode_message (list : List Vertex) (fits : list.length < UInt32.size) :
    Wire.decodeVertices (Wire.message Wire.vertex Wire.verticesKind list) = .ok list := by
  apply Wire.decode_list_message _ _ Wire.vertex_faithful _ list (fun _ _ => trivial) fits
  have size : Wire.vertex.size = 40 := rfl
  rw [size]
  simp only [UInt32.size, UInt64.size] at fits ⊢
  omega

theorem decode_all_messages (lists : List (List Vertex)) (fits : ∀ list ∈ lists, list.length < UInt32.size) :
    decodeAll (lists.map (Wire.message Wire.vertex Wire.verticesKind)) = (lists, none) := by
  rw [decodeAll, Prod.mk.injEq, List.map_map]
  constructor
  · calc lists.map _ = lists.map id :=
          List.map_congr_left fun list member => by
            simp only [Function.comp_apply, decode_message list (fits list member)]
            rfl
      _ = lists := List.map_id lists
  · rw [List.findSome?_eq_none_iff]
    intro bytes member
    obtain ⟨list, listed, rfl⟩ := List.mem_map.mp member
    rw [decode_message list (fits list listed)]

def concluded (m : Mesh) (routed : List (List Nat)) (pending : Option Failure) (all : List Vertex) :
    Result (List Bytes) → Mesh × Result Nat
  | .error e => (m, .error e)
  | .ok answers =>
      match pending with
      | some e => (m, .error e)
      | none =>
          let (vertices, written) := writeBack m.vertices (routed.zip answers).zipIdx
          ({ m with vertices }, written.map fun _ => distinctGnums all)

def answerCopies (s : Seat) (r : Reducer) (m : Mesh) (routed : List (List Nat)) (pending : Option Failure) :
    Result (List Bytes) → Program (Mesh × Result Nat)
  | .error e => .done (m, .error e)
  | .ok incoming => do
      let (contributions, refused) := decodeAll incoming
      let all := contributions.flatten
      let (replies, unsent) := encodeAll (contributions.map fun vertices => vertices.map (agreed r all))
      let answers ← (s.exchangeBytes replies repliesTag).run
      return concluded m routed ((pending <|> refused) <|> unsent) all answers

theorem pure_concluded (m : Mesh) (routed : List (List Nat)) (pending : Option Failure) (all : List Vertex)
    (answers : List Bytes) :
    (pure (concluded m routed pending all (.ok answers)) : Program (Mesh × Result Nat)) =
      match pending with
      | some e => pure (m, .error e)
      | none =>
          let (vertices, written) := writeBack m.vertices (routed.zip answers).zipIdx
          pure ({ m with vertices }, written.map fun _ => distinctGnums all) := by
  cases pending <;> rfl

def spreadCopies (s : Seat) (r : Reducer) (m : Mesh) : Result (List UInt64) → Program (Mesh × Result Nat)
  | .error e => .done (m, .error e)
  | .ok greatest =>
      let routed := routes (contribution m) (blockSize (greatestGnum greatest) s.ranks) s.ranks
      let (copies, unsent) := encodeAll (routed.map fun places => places.filterMap fun i => m.vertices[i]?)
      let invalid := (m.vertices.findIdx? fun v => v.gnum == 0).map fun i => Failure.error (.zeroGnum s.rank i)
      (s.exchangeBytes copies copiesTag).run >>= answerCopies s r m routed (invalid <|> unsent)

theorem contribution_cases (m : Mesh) : contribution m = [] ∨ contribution m = m.vertices := by
  unfold contribution
  split
  · exact .inl rfl
  · exact .inr rfl

theorem contribution_length (m : Mesh) : (contribution m).length ≤ m.vertices.length := by
  rcases contribution_cases m with none | all
  · simp [none]
  · rw [all]

theorem reconcile_rounds (s : Seat) (r : Reducer) (m : Mesh) :
    reconcile s r m = (s.gatherWord (greatestGnum ((contribution m).map Vertex.gnum))).run >>= spreadCopies s r m := by
  refine congrArg₂ (· >>= ·) rfl (funext fun greatest => ?_)
  cases greatest with
  | error e => rfl
  | ok greatest =>
      have some : 0 < s.ranks := Nat.lt_of_lt_of_le Nat.zero_lt_one (Nat.le_max_right ..)
      have collected := collect_eq (contribution m) (blockSize (greatestGnum greatest) s.ranks) s.ranks m.vertices some
        (contribution_length m)
      simp only [contribution] at collected
      simp only [collected]
      refine congrArg₂ (· >>= ·) rfl (funext fun incoming => ?_)
      cases incoming with
      | error e => rfl
      | ok incoming =>
          have replies : (decodeAll incoming).1.map (reply (foldCopies r (decodeAll incoming).1.flatten)) =
              (decodeAll incoming).1.map fun vertices => vertices.map (agreed r (decodeAll incoming).1.flatten) :=
            List.map_congr_left fun copies member =>
              reply_eq r copies _ fun v held => List.mem_flatten.mpr ⟨copies, member, held⟩
          simp only [replies, fold_copies_length]
          refine congrArg₂ (· >>= ·) rfl (funext fun answers => ?_)
          cases answers with
          | error e => rfl
          | ok answers => exact (pure_concluded m _ _ _ answers).symm

section Group

variable {n : Nat} (meshes : Fin n → Mesh) (reducers : Fin n → Reducer)

def block : Nat :=
  blockSize (greatestGnum (List.ofFn fun me => greatestGnum ((contribution (meshes me)).map Vertex.gnum))) n

def sent (source owner : Fin n) : List Vertex :=
  (contribution (meshes source)).filter fun v => blockOwner v.gnum (block meshes) n = owner

theorem routed_records (me : Fin n) :
    (routes (contribution (meshes me)) (block meshes) n).map
        (fun places => places.filterMap fun i => (meshes me).vertices[i]?) =
      List.ofFn fun owner => sent meshes me owner := by
  have row : ∀ owner, (positions (contribution (meshes me)) (block meshes) n owner).filterMap
      (fun i => (meshes me).vertices[i]?) =
      (contribution (meshes me)).filter fun v => blockOwner v.gnum (block meshes) n = owner := by
    intro owner
    by_cases faulty : ((meshes me).vertices.findIdx? fun v => v.gnum == 0).isSome
    · simp [contribution, faulty, positions]
    · have whole : contribution (meshes me) = (meshes me).vertices := if_neg faulty
      rw [whole]
      exact positions_records _ _ _ owner
  rw [routes, List.map_map, List.ofFn_eq_map, ← List.map_coe_finRange_eq_range, List.map_map]
  exact List.map_congr_left fun owner _ => row owner.val

def copiesTo (source owner : Fin n) : Bytes := (Wire.encodeVertices (sent meshes source owner)).toOption.getD []

def arrived (source owner : Fin n) : List Vertex := (Wire.decodeVertices (copiesTo meshes source owner)).toOption.getD []

def met (owner : Fin n) : List Vertex := (List.ofFn fun source => arrived meshes source owner).flatten

def repliesTo (owner target : Fin n) : Bytes :=
  (Wire.encodeVertices ((arrived meshes target owner).map (agreed (reducers owner) (met meshes owner)))).toOption.getD []

def unsent (me : Fin n) : Option Failure := (encodeAll (List.ofFn fun owner => sent meshes me owner)).2

def fault (me : Fin n) : Option Failure :=
  (((meshes me).vertices.findIdx? fun v => v.gnum == 0).map fun i => Failure.error (.zeroGnum me.val i)) <|> unsent meshes me

theorem copies_lockstep :
    Group.Lockstep (fun me => reconcile (Seat.member me) (reducers me) (meshes me)) fun me =>
      answerCopies (Seat.member me) (reducers me) (meshes me) (routes (contribution (meshes me)) (block meshes) n) (fault meshes me)
        (Group.exchanged (copiesTo meshes) me) := by
  have encoded : ∀ me, encodeAll (List.ofFn fun owner => sent meshes me owner) =
      (List.ofFn (copiesTo meshes me), unsent meshes me) :=
    fun me => Prod.ext (List.map_ofFn ..) rfl
  simp only [reconcile_rounds]
  apply Group.lockstep_trans (Group.lockstep_after _ _ _ (Group.gather_word_lockstep _))
  have width : blockSize (greatestGnum (List.ofFn fun me => greatestGnum ((contribution (meshes me)).map Vertex.gnum))) n =
      block meshes := rfl
  simp only [spreadCopies, Group.member_ranks, width, routed_records, encoded]
  exact Group.lockstep_after _ _ _ (Group.exchange_bytes_lockstep (copiesTo meshes) copiesTag)

-- A rank that cannot send its copies stops, and then nobody succeeds.
theorem starved_without_copies (net : Network n (Mesh × Result Nat))
    (reaches : Network.Reaches (Network.start fun me => reconcile (Seat.member me) (reducers me) (meshes me)) net) (me source : Fin n)
    (e : Failure) (stops : Group.exchanged (copiesTo meshes) source = .error e) (left : Mesh) (numbers : Nat) :
    net.stages me ≠ .ended (left, .ok numbers) := by
  intro ended
  have orderly : (Network.start fun me => reconcile (Seat.member me) (reducers me) (meshes me)).Orderly :=
    Network.start_orderly _ fun _ => reconcile_orderly _ _ _
  have middle := Group.lockstep_reaches _ _ (copies_lockstep meshes reducers)
  cases own : Group.exchanged (copiesTo meshes) me with
  | error failure =>
      have failed : (Network.start fun me => answerCopies (Seat.member me) (reducers me) (meshes me)
          (routes (contribution (meshes me)) (block meshes) n) (fault meshes me)
          (Group.exchanged (copiesTo meshes) me)).stages me = .ended (meshes me, .error failure) := by
        simp only [Network.start, own]
        rfl
      cases Network.ended_agrees _ _ _ orderly me _ _ reaches middle ended failed
  | ok incoming =>
      have different : source ≠ me := by
        rintro rfl
        cases own.symm.trans stops
      have awaits : (answerCopies (Seat.member me) (reducers me) (meshes me) (routes (contribution (meshes me)) (block meshes) n)
          (fault meshes me) (Group.exchanged (copiesTo meshes) me)).Awaits source.val := by
        rw [own]
        refine Program.bind_awaits _ _ _ (Group.exchange_bytes_awaits me source _ repliesTag ?_ different)
        obtain ⟨_, rfl⟩ := (Group.exchanged_ok_iff _ _ _).mp own
        exact (List.length_map ..).trans ((List.length_map ..).trans ((List.length_map ..).trans List.length_ofFn))
      exact Network.starved _ orderly _ middle me source (meshes source, .error e) (by rw [stops]; rfl) awaits net reaches _ ended

theorem copies_message (source owner : Fin n) (fits : (sent meshes source owner).length < UInt32.size) :
    copiesTo meshes source owner = Wire.message Wire.vertex Wire.verticesKind (sent meshes source owner) ∧
      arrived meshes source owner = sent meshes source owner := by
  have message : copiesTo meshes source owner = Wire.message Wire.vertex Wire.verticesKind (sent meshes source owner) := by
    rw [copiesTo, Wire.encodeVertices, Wire.encode_list_ok _ _ _ fits]
    rfl
  refine ⟨message, ?_⟩
  rw [arrived, message, decode_message _ fits]
  rfl

theorem too_many_copies (source owner : Fin n) (many : ¬ (sent meshes source owner).length < UInt32.size) :
    arrived meshes source owner = [] := by
  have nothing : copiesTo meshes source owner = [] := by
    simp [copiesTo, Wire.encodeVertices, Wire.encodeList, Wire.narrow, many, refuse, bind, Except.bind, Except.toOption]
  rw [arrived, nothing]
  rfl

theorem arrived_held (source owner : Fin n) (v : Vertex) (member : v ∈ arrived meshes source owner) :
    v ∈ (meshes source).vertices := by
  have held : v ∈ sent meshes source owner := by
    by_cases fits : (sent meshes source owner).length < UInt32.size
    · rwa [(copies_message meshes source owner fits).2] at member
    · rw [too_many_copies meshes source owner fits] at member
      cases member
  have brought := (List.mem_filter.mp held).1
  rw [contribution] at brought
  split at brought
  · cases brought
  · exact brought

theorem replies_message (owner target : Fin n) (light : (copiesTo meshes target owner).length < UInt32.size) :
    repliesTo meshes reducers owner target = Wire.message Wire.vertex Wire.verticesKind
        ((arrived meshes target owner).map (agreed (reducers owner) (met meshes owner))) ∧
      (repliesTo meshes reducers owner target).length < UInt32.size := by
  have size : Wire.messageSize Wire.vertex (arrived meshes target owner) < UInt32.size := by
    by_cases fits : (sent meshes target owner).length < UInt32.size
    · obtain ⟨message, whole⟩ := copies_message meshes target owner fits
      rwa [message, Wire.message_length _ _ Wire.vertex_faithful, ← whole] at light
    · rw [too_many_copies meshes target owner fits]
      decide
  have few : ((arrived meshes target owner).map (agreed (reducers owner) (met meshes owner))).length < UInt32.size := by
    have width : Wire.vertex.size = 40 := rfl
    rw [Wire.messageSize, width] at size
    rw [List.length_map]
    omega
  have message : repliesTo meshes reducers owner target = Wire.message Wire.vertex Wire.verticesKind
      ((arrived meshes target owner).map (agreed (reducers owner) (met meshes owner))) := by
    rw [repliesTo, Wire.encodeVertices, Wire.encode_list_ok _ _ _ few]
    rfl
  refine ⟨message, ?_⟩
  rw [message, Wire.message_length _ _ Wire.vertex_faithful, Wire.messageSize, List.length_map]
  exact size

def pending (me : Fin n) : Option Failure :=
  (fault meshes me <|> (decodeAll (List.ofFn fun source => copiesTo meshes source me)).2) <|>
    (encodeAll (List.ofFn fun source => (arrived meshes source me).map (agreed (reducers me) (met meshes me)))).2

theorem fault_of_pending (me : Fin n) (fine : pending meshes reducers me = none) : fault meshes me = none := by
  obtain ⟨early, _⟩ := (Option.orElse_eq_none ..).mp fine
  exact ((Option.orElse_eq_none ..).mp early).1

def answered (me : Fin n) : Mesh × Result Nat :=
  concluded (meshes me) (routes (contribution (meshes me)) (block meshes) n) (pending meshes reducers me) (met meshes me)
    (.ok (List.ofFn fun owner => repliesTo meshes reducers owner me))

theorem answers_lockstep (light : ∀ source owner, (copiesTo meshes source owner).length < UInt32.size) :
    Group.Lockstep (fun me => reconcile (Seat.member me) (reducers me) (meshes me)) fun me =>
      .done (answered meshes reducers me) := by
  have small : ∀ owner target, (repliesTo meshes reducers owner target).length < UInt32.size := fun owner target =>
    (replies_message meshes reducers owner target (light target owner)).2
  have decoded : ∀ me, (decodeAll (List.ofFn fun source => copiesTo meshes source me)).1 =
      List.ofFn fun source => arrived meshes source me := fun _ => List.map_ofFn ..
  have mapped : ∀ me, (List.ofFn fun source => arrived meshes source me).map
      (fun vertices => vertices.map (agreed (reducers me) (List.ofFn fun source => arrived meshes source me).flatten)) =
      List.ofFn fun source => (arrived meshes source me).map (agreed (reducers me) (met meshes me)) := fun _ => List.map_ofFn ..
  have replied : ∀ me, (encodeAll (List.ofFn fun source =>
      (arrived meshes source me).map (agreed (reducers me) (met meshes me)))).1 =
      List.ofFn fun target => repliesTo meshes reducers me target := fun _ => List.map_ofFn ..
  apply Group.lockstep_trans (copies_lockstep meshes reducers)
  simp only [Group.exchanged_light _ _ light, answerCopies, decoded, mapped, replied]
  apply Group.lockstep_trans (Group.lockstep_after _ _ _ (Group.exchange_bytes_lockstep (repliesTo meshes reducers) repliesTag))
  simp only [Group.exchanged_light _ _ small]
  exact Group.lockstep_of_eq fun _ => rfl

end Group

end Seam.Reconciliation
