import Seam.Group.AllToAll
import Seam.Proofs.Group.Buffers
import Seam.Proofs.Network.Waiting
import Seam.Proofs.Results

set_option autoImplicit false

namespace Seam

namespace Group

variable {n : Nat} {α β : Type}

def proceed (next : α → Collective β) : Result α → Program (Result β)
  | .ok value => (next value).run
  | .error e => .done (.error e)

theorem run_then (first : Collective α) (next : α → Collective β) : (first >>= next).run = first.run.bind (proceed next) := by
  have cont : (ExceptT.bindCont next : Result α → Program (Result β)) = proceed next := by
    funext result
    cases result <;> rfl
  rw [← cont]
  rfl

theorem lockstep_then (first : Fin n → Collective α) (results : Fin n → Result α) (next : Fin n → α → Collective β)
    (steps : Lockstep (fun me => (first me).run) fun me => .done (results me)) :
    Lockstep (fun me => (first me >>= next me).run) fun me => proceed (next me) (results me) := by
  apply lockstep_trans (lockstep_of_eq fun me => run_then (first me) (next me))
  exact lockstep_bind _ _ (fun me => proceed (next me)) steps

theorem lockstep_after (first : Fin n → Program α) (results : Fin n → α) (next : Fin n → α → Program β)
    (steps : Lockstep first fun me => .done (results me)) :
    Lockstep (fun me => first me >>= next me) fun me => next me (results me) :=
  lockstep_bind _ _ next steps

theorem one_round (tag : UInt16) (traffic : Traffic n) (ranks : Fin n → Program α) (values : Fin n → α)
    (next : Fin n → List (Option Bytes) → Program α) (stands : ∀ me, ranks me = .round tag (traffic.legs me) (next me))
    (answered : ∀ me, next me (traffic.answers me) = .done (values me)) : Lockstep ranks fun me => .done (values me) :=
  lockstep_trans (lockstep_of_eq stands) (lockstep_trans (lockstep_round tag traffic next) (lockstep_of_eq answered))

theorem zip_map_self (items : List α) (f : α → β) : items.zip (items.map f) = items.map fun item => (item, f item) := by
  have pairs : (items.map id).zip (items.map f) = items.map fun item => (item, f item) := List.zip_map'
  rwa [List.map_id] at pairs

-- The data of all ranks as one of them gathers them, when the ranks may give different numbers of bytes.
def gathered (data : Fin n → Bytes) (me : Fin n) : Result (List Bytes) :=
  ((peers me).mapM fun other =>
    Seat.checkGathered (data me).length other.val (some ((data other).take (data me).length))).map
    ((Seat.member me).place (data me))

theorem gather_into_lockstep (data : Fin n → Bytes) (length : Fin n → Nat) (room : ∀ me, length me = (data me).length * n) :
    Lockstep (fun me => ((Seat.member me).gatherInto (data me) (length me)).run)
      fun me => .done ((gathered data me).map List.flatten) := by
  let traffic : Traffic n := ⟨fun me _ => (data me).length, fun me _ => data me⟩
  refine one_round Seat.gatherTag traffic _ _ (fun me answers => .done (filled me (data me) answers))
    (fun me => gather_into_round me (data me) (length me) (room me)) (fun me => ?_)
  rw [Traffic.answers, filled_answers, gathered]
  simp only [traffic, Traffic.arrival]
  cases (peers me).mapM fun other =>
    Seat.checkGathered (data me).length other.val (some ((data other).take (data me).length)) <;> rfl

theorem gathered_even (data : Fin n → Bytes) (me : Fin n) (rows : List Bytes) (ok : gathered data me = .ok rows) :
    ∀ row ∈ rows, row.length = (data me).length := by
  obtain ⟨others, came, rfl⟩ := map_ok _ _ _ ok
  have each := map_m_all _ (fun row : Bytes => row.length = (data me).length)
    (fun _ _ fine => (Seat.check_gathered_length _ _ _ _ fine).2) _ _ came
  intro row member
  simp only [Seat.place, List.mem_append, List.mem_cons] at member
  rcases member with front | rfl | back
  · exact each row (List.mem_of_mem_take front)
  · rfl
  · exact each row (List.mem_of_mem_drop back)

theorem gathered_same_length (data : Fin n → Bytes) (length : Nat) (same : ∀ me, (data me).length = length) (me : Fin n) :
    gathered data me = .ok (List.ofFn data) := by
  have whole : ∀ other, (data other).take length = data other := fun other => List.take_of_length_le (by rw [same])
  have others : (peers me).mapM (fun other =>
      Seat.checkGathered (data me).length other.val (some ((data other).take (data me).length))) = .ok ((peers me).map data) :=
    map_m_ok _ data _ fun other _ => by simp [Seat.checkGathered, whole, same]
  rw [gathered, others]
  have placed := place_peers me (data me) data
  rw [Function.update_eq_self] at placed
  exact congrArg Except.ok placed

theorem gather_word_lockstep (values : Fin n → UInt64) :
    Lockstep (fun me => ((Seat.member me).gatherWord (values me)).run) fun _ => .done (.ok (List.ofFn values)) := by
  have width : ∀ other, (Wire.word (values other)).length = 8 := fun other => Wire.word_length (values other)
  have room : ∀ me : Fin n, 8 * (Seat.member me).ranks = (Wire.word (values me)).length * n := fun me => by
    rw [member_ranks, width]
  refine lockstep_trans (lockstep_then _ _ _ (gather_into_lockstep (fun me => Wire.word (values me)) _ room))
    (lockstep_of_eq fun me => ?_)
  have rows : Wire.exactChunks 8 (List.ofFn fun other => Wire.word (values other)).flatten =
      .ok (List.ofFn fun other => Wire.word (values other)) :=
    exact_chunks_flatten 8 _ (by decide) fun row member => by
      obtain ⟨other, rfl⟩ := List.mem_ofFn.mp member
      exact width other
  have read : (List.ofFn fun other => Wire.word (values other)).map Wire.ofWord = List.ofFn values := by
    rw [List.map_ofFn]
    exact congrArg List.ofFn (funext fun other => Wire.of_word_word (values other))
  rw [gathered_same_length _ 8 width]
  simp only [Except.map, proceed, rows, Collective.run_result_bind, read, Collective.run_pure]

theorem fetch_of_fn (items : Fin n → α) (me : Fin n) : fetch (List.ofFn items) me.val = .ok (items me) := by
  rw [fetch_eq_ok_iff]
  simp

theorem announced_fits (count : Nat) : Seat.announced count < UInt32.size := by
  unfold Seat.announced
  split
  · assumption
  · decide

def toldCounts (counts : Fin n → Fin n → Nat) (me : Fin n) : Result (List Nat) :=
  match Seat.firstWide ((peers me).map (counts me)) with
  | some wide => refuse (.wire (.wideCount wide))
  | none => .ok (List.ofFn (Function.update (fun other => Seat.announced (counts other me)) me (counts me me)))

theorem no_wide_count_iff (me : Fin n) (counts : Fin n → Nat) :
    Seat.firstWide ((peers me).map counts) = none ↔ ∀ other, other ≠ me → counts other < UInt32.size := by
  simp [Seat.firstWide, mem_peers]

theorem told_counts_narrow (counts : Fin n → Fin n → Nat) (me : Fin n)
    (fits : ∀ other, other ≠ me → counts me other < UInt32.size) : toldCounts counts me =
      .ok (List.ofFn (Function.update (fun other => Seat.announced (counts other me)) me (counts me me))) := by
  rw [toldCounts, (no_wide_count_iff me (counts me)).mpr fits]

theorem check_size_announced (peer count : Nat) :
    Seat.checkSize peer (some ((Wire.count.encode (Seat.announced count)).take Wire.count.size)) =
      .ok (Seat.announced count) := by
  have length := Wire.count_faithful.length (Seat.announced count)
  have whole : (Wire.count.encode (Seat.announced count)).take Wire.count.size = Wire.count.encode (Seat.announced count) :=
    List.take_of_length_le (Nat.le_of_eq length)
  rw [whole, Seat.checkSize, if_pos length, Wire.count_faithful.decode_encode _ (announced_fits count)]

theorem exchange_counts_alone (counts : Fin n → Fin n → Nat) (tag : UInt16) (me : Fin n) (alone : n = 1) :
    ((Seat.member me).exchangeCounts (List.ofFn (counts me)) tag).run = .done (toldCounts counts me) := by
  have silent := (member_silent me).mpr alone
  have placed := place_peers me (counts me me) fun _ => 0
  rw [alone_no_peers me alone, List.map_nil] at placed
  have same : Function.update (fun _ => 0) me (counts me me) =
      Function.update (fun other => Seat.announced (counts other me)) me (counts me me) := by
    funext other
    have equal : other = me := by subst alone; exact Subsingleton.elim other me
    simp [equal]
  have size : ¬ (List.ofFn (counts me)).length ≠ (Seat.member me).ranks := by simp [member_ranks]
  simp only [Seat.exchangeCounts, if_neg size, member_rank, fetch_of_fn, Collective.run_result_bind, silent, if_true,
    Collective.run_pure, member_peers, alone_no_peers me alone, List.map_nil, placed, same]
  simp [toldCounts, alone_no_peers me alone, Seat.firstWide]

def readCounts (me : Fin n) (counts : Fin n → Nat) (answers : List (Option Bytes)) : Result (List Nat) :=
  match Seat.firstWide ((peers me).map counts) with
  | some wide => refuse (.wire (.wideCount wide))
  | none => (((peers me).zip answers).mapM fun told => Seat.checkSize told.1.val told.2).map
      ((Seat.member me).place (counts me))

theorem read_counts_answers (me : Fin n) (counts : Fin n → Nat) (answer : Fin n → Option Bytes) :
    readCounts me counts ((peers me).map answer) =
      match Seat.firstWide ((peers me).map counts) with
      | some wide => refuse (.wire (.wideCount wide))
      | none => ((peers me).mapM fun other => Seat.checkSize other.val (answer other)).map
          ((Seat.member me).place (counts me)) := by
  rw [readCounts, zip_map_self, List.mapM_map]
  rfl

theorem exchange_counts_round (me : Fin n) (counts : Fin n → Nat) (tag : UInt16) (several : n ≠ 1) :
    ((Seat.member me).exchangeCounts (List.ofFn counts) tag).run =
      .round tag ((peers me).map fun other : Fin n =>
        (⟨other.val, Wire.count.size, Wire.count.encode (Seat.announced (counts other))⟩ : Leg))
        fun answers => .done (readCounts me counts answers) := by
  have talks : (Seat.member me).silent ≠ true := fun silent => several ((member_silent me).mp silent)
  have size : ¬ (List.ofFn counts).length ≠ (Seat.member me).ranks := by simp [member_ranks]
  simp only [Seat.exchangeCounts, if_neg size, member_rank, fetch_of_fn, Collective.run_result_bind, if_neg talks,
    Collective.run_round_bind, map_others]
  congr 1
  funext answers
  rw [readCounts]
  cases Seat.firstWide ((peers me).map counts) with
  | some wide => rfl
  | none =>
      have each : (((Seat.member me).others (List.ofFn counts)).zip answers).mapM
          (fun told => Seat.checkSize told.1.1 told.2) =
            ((peers me).zip answers).mapM fun told => Seat.checkSize told.1.val told.2 := by
        rw [member_others, List.zip_map_left, List.mapM_map]
        rfl
      simp only [Collective.run_result_map, each]

theorem exchange_counts_lockstep (counts : Fin n → Fin n → Nat) (tag : UInt16) :
    Lockstep (fun me => ((Seat.member me).exchangeCounts (List.ofFn (counts me)) tag).run)
      fun me => .done (toldCounts counts me) := by
  by_cases alone : n = 1
  · exact lockstep_of_eq fun me => exchange_counts_alone counts tag me alone
  let traffic : Traffic n :=
    ⟨fun _ _ => Wire.count.size, fun me other => Wire.count.encode (Seat.announced (counts me other))⟩
  refine one_round tag traffic _ _ (fun me answers => .done (readCounts me (counts me) answers))
    (fun me => exchange_counts_round me (counts me) tag alone) (fun me => ?_)
  have answers : ((peers me).mapM fun other => Seat.checkSize other.val (some (traffic.arrival me other))) =
      .ok ((peers me).map fun other => Seat.announced (counts other me)) :=
    map_m_ok _ _ _ fun other _ => check_size_announced other.val (counts other me)
  rw [Traffic.answers, read_counts_answers, answers, toldCounts]
  cases Seat.firstWide ((peers me).map (counts me)) with
  | some wide => rfl
  | none => simp only [Except.map, place_peers]

-- A buffer as it travels: one whose length no count can tell travels empty.
def capped (buffer : Bytes) : Bytes := if buffer.length < UInt32.size then buffer else []

theorem capped_length (buffer : Bytes) : (capped buffer).length < UInt32.size := by
  unfold capped
  split
  · assumption
  · decide

theorem capped_light (buffer : Bytes) (light : buffer.length < UInt32.size) : capped buffer = buffer := if_pos light

theorem told_lengths (buffers : Fin n → Fin n → Bytes) (me : Fin n) :
    toldCounts (fun me other => (capped (buffers me other)).length) me =
      .ok (List.ofFn fun other => (capped (buffers other me)).length) := by
  have told : ∀ other, Seat.announced (capped (buffers other me)).length = (capped (buffers other me)).length :=
    fun other => if_pos (capped_length _)
  rw [told_counts_narrow _ me fun other _ => capped_length _]
  simp only [told, Function.update_eq_self]

def exchanged (buffers : Fin n → Fin n → Bytes) (me : Fin n) : Result (List Bytes) :=
  match Seat.firstWide (List.ofFn fun other => (buffers me other).length) with
  | some wide => refuse (.wire (.wideCount wide))
  | none => .ok (List.ofFn fun other => capped (buffers other me))

theorem check_payload_capped (peer : Nat) (buffer : Bytes) :
    Seat.checkPayload peer (capped buffer).length (some ((capped buffer).take (capped buffer).length)) = .ok (capped buffer) := by
  rw [List.take_length, Seat.checkPayload, if_pos rfl]

def readPayloads (me : Fin n) (buffers : Fin n → Bytes) (sizes : Fin n → Nat) (answers : List (Option Bytes)) :
    Result (List Bytes) :=
  match Seat.firstWide (List.ofFn fun other => (buffers other).length) with
  | some wide => refuse (.wire (.wideCount wide))
  | none => (((peers me).zip answers).mapM fun sent => Seat.checkPayload sent.1.val (sizes sent.1) sent.2).map
      ((Seat.member me).place (capped (buffers me)))

theorem read_payloads_answers (me : Fin n) (buffers : Fin n → Bytes) (sizes : Fin n → Nat) (answer : Fin n → Option Bytes) :
    readPayloads me buffers sizes ((peers me).map answer) =
      match Seat.firstWide (List.ofFn fun other => (buffers other).length) with
      | some wide => refuse (.wire (.wideCount wide))
      | none => ((peers me).mapM fun other => Seat.checkPayload other.val (sizes other) (answer other)).map
          ((Seat.member me).place (capped (buffers me))) := by
  rw [readPayloads, zip_map_self, List.mapM_map]
  rfl

def payloads (me : Fin n) (buffers : Fin n → Bytes) (tag : UInt16) (sizes : List Nat) : Collective (List Bytes) := do
  let travelling := List.ofFn fun other => capped (buffers other)
  let wide := Seat.firstWide (List.ofFn fun other => (buffers other).length)
  if (Seat.member me).silent then
    if let some n := wide then throw (.error (.wire (.wideCount n)))
    return (Seat.member me).place (capped (buffers me)) ((Seat.member me).peers.map fun _ => [])
  let legs := List.zipWith (fun (p, size) (_, data) => (⟨p, size, data⟩ : Leg)) ((Seat.member me).others sizes)
    ((Seat.member me).others travelling)
  let answers ← Collective.round (tag + 1) legs
  if let some n := wide then throw (.error (.wire (.wideCount n)))
  let received ← Collective.ofResult ((legs.zip answers).mapM fun (leg, a) => Seat.checkPayload leg.peer leg.expected a)
  return (Seat.member me).place (capped (buffers me)) received

theorem exchange_bytes_run (me : Fin n) (buffers : Fin n → Bytes) (tag : UInt16) :
    ((Seat.member me).exchangeBytes (List.ofFn buffers) tag).run =
      ((Seat.member me).exchangeCounts (List.ofFn fun other => (capped (buffers other)).length) tag).run.bind
        (proceed (payloads me buffers tag)) := by
  have cap : (List.ofFn buffers).map (fun b => if b.length < UInt32.size then b else []) =
      List.ofFn fun other => capped (buffers other) := List.map_ofFn ..
  have lengths : (List.ofFn fun other => capped (buffers other)).map List.length =
      List.ofFn fun other => (capped (buffers other)).length := List.map_ofFn ..
  have wide : (List.ofFn buffers).map List.length = List.ofFn fun other => (buffers other).length := List.map_ofFn ..
  rw [← run_then]
  simp only [Seat.exchangeBytes, cap, lengths, wide, member_rank, fetch_of_fn]
  rfl

theorem payloads_alone (me : Fin n) (buffers : Fin n → Bytes) (tag : UInt16) (sizes : List Nat) (alone : n = 1) :
    (payloads me buffers tag sizes).run = .done (readPayloads me buffers (fun _ => 0) []) := by
  have silent := (member_silent me).mpr alone
  simp only [payloads, silent, if_true, member_peers, readPayloads, alone_no_peers me alone, List.map_nil]
  cases Seat.firstWide (List.ofFn fun other => (buffers other).length) <;> rfl

theorem payloads_round (me : Fin n) (buffers : Fin n → Bytes) (tag : UInt16) (sizes : Fin n → Nat) (several : n ≠ 1) :
    (payloads me buffers tag (List.ofFn sizes)).run =
      .round (tag + 1) ((peers me).map fun other : Fin n => (⟨other.val, sizes other, capped (buffers other)⟩ : Leg))
        fun answers => .done (readPayloads me buffers sizes answers) := by
  have talks : (Seat.member me).silent ≠ true := fun silent => several ((member_silent me).mp silent)
  have legs : List.zipWith (fun (size : Nat × Nat) (sent : Nat × Bytes) => (⟨size.1, size.2, sent.2⟩ : Leg))
      ((Seat.member me).others (List.ofFn sizes)) ((Seat.member me).others (List.ofFn fun other => capped (buffers other))) =
        (peers me).map fun other : Fin n => (⟨other.val, sizes other, capped (buffers other)⟩ : Leg) := by
    rw [member_others, member_others, List.zipWith_map, List.zipWith_self]
  simp only [payloads, if_neg talks, Collective.run_round_bind]
  rw [legs]
  congr 1
  funext answers
  rw [readPayloads]
  cases Seat.firstWide (List.ofFn fun other => (buffers other).length) with
  | some wide => rfl
  | none =>
      have each : (((peers me).map fun other : Fin n => (⟨other.val, sizes other, capped (buffers other)⟩ : Leg)).zip answers).mapM
          (fun sent => Seat.checkPayload sent.1.peer sent.1.expected sent.2) =
            ((peers me).zip answers).mapM fun sent => Seat.checkPayload sent.1.val (sizes sent.1) sent.2 := by
        rw [List.zip_map_left, List.mapM_map]
        rfl
      exact (Collective.run_result_map _ _).trans (by rw [each])

theorem exchange_bytes_alone (me : Fin n) (buffers : Fin n → Bytes) (tag : UInt16) (alone : n = 1) :
    ((Seat.member me).exchangeBytes (List.ofFn buffers) tag).run = .done (readPayloads me buffers (fun _ => 0) []) := by
  have counts := exchange_counts_alone (fun _ other => (capped (buffers other)).length) tag me alone
  rw [exchange_bytes_run, counts, told_lengths (fun _ => buffers)]
  exact payloads_alone me buffers tag _ alone

theorem exchange_bytes_lockstep (buffers : Fin n → Fin n → Bytes) (tag : UInt16) :
    Lockstep (fun me => ((Seat.member me).exchangeBytes (List.ofFn (buffers me)) tag).run)
      fun me => .done (exchanged buffers me) := by
  by_cases alone : n = 1
  · apply lockstep_of_eq
    intro me
    have own := place_peers me (capped (buffers me me)) fun other => capped (buffers other me)
    rw [alone_no_peers me alone, List.map_nil, Function.update_eq_self] at own
    refine (exchange_bytes_alone me (buffers me) tag alone).trans (congrArg Program.done ?_)
    rw [readPayloads, alone_no_peers me alone, exchanged]
    cases Seat.firstWide (List.ofFn fun other => (buffers me other).length) with
    | some wide => rfl
    | none => exact congrArg Except.ok own
  apply lockstep_trans (lockstep_of_eq fun me => exchange_bytes_run me (buffers me) tag)
  apply lockstep_trans (lockstep_bind _ _ _ (exchange_counts_lockstep _ tag))
  simp only [told_lengths]
  let traffic : Traffic n := ⟨fun me other => (capped (buffers other me)).length, fun me other => capped (buffers me other)⟩
  let next (me : Fin n) (answers : List (Option Bytes)) : Program (Result (List Bytes)) :=
    .done (readPayloads me (buffers me) (fun other => (capped (buffers other me)).length) answers)
  refine one_round (tag + 1) traffic _ _ next (fun me => payloads_round me (buffers me) tag _ alone) (fun me => ?_)
  have answers : ((peers me).mapM fun other =>
      Seat.checkPayload other.val (capped (buffers other me)).length (some (traffic.arrival me other))) =
        .ok ((peers me).map fun other => capped (buffers other me)) :=
    map_m_ok _ _ _ fun other _ => check_payload_capped other.val (buffers other me)
  simp only [next]
  rw [Traffic.answers, read_payloads_answers, answers, exchanged]
  cases Seat.firstWide (List.ofFn fun other => (buffers me other).length) with
  | some wide => rfl
  | none => simp only [Except.map, place_peers, Function.update_eq_self]

theorem exchanged_ok_iff (buffers : Fin n → Fin n → Bytes) (me : Fin n) (incoming : List Bytes) :
    exchanged buffers me = .ok incoming ↔ (∀ target, (buffers me target).length < UInt32.size) ∧
      incoming = List.ofFn fun other => capped (buffers other me) := by
  have narrow : Seat.firstWide (List.ofFn fun other => (buffers me other).length) = none ↔
      ∀ target, (buffers me target).length < UInt32.size := by
    simp [Seat.firstWide]
  rw [← narrow, exchanged]
  cases Seat.firstWide (List.ofFn fun other => (buffers me other).length) with
  | some wide => simp [refuse]
  | none => simp [eq_comm]

theorem exchanged_light (buffers : Fin n → Fin n → Bytes) (me : Fin n)
    (light : ∀ source target, (buffers source target).length < UInt32.size) :
    exchanged buffers me = .ok (List.ofFn fun other => buffers other me) := by
  refine (exchanged_ok_iff buffers me _).mpr ⟨light me, ?_⟩
  simp only [capped_light _ (light _ _)]

theorem of_fn_get_d (items : List α) (missing : α) (length : items.length = n) :
    (List.ofFn fun other : Fin n => items.getD other missing) = items := by
  subst length
  refine List.ext_getElem (by simp) fun i _ bound => ?_
  simp

theorem exchange_counts_awaits (me other : Fin n) (counts : Fin n → Nat) (tag : UInt16) (different : other ≠ me) :
    ((Seat.member me).exchangeCounts (List.ofFn counts) tag).run.Awaits other.val := by
  have several : n ≠ 1 := by
    rintro rfl
    exact different (Subsingleton.elim other me)
  have talks : (Seat.member me).silent ≠ true := fun silent => several ((member_silent me).mp silent)
  have size : ¬ (List.ofFn counts).length ≠ (Seat.member me).ranks := by simp [member_ranks]
  simp only [Seat.exchangeCounts, if_neg size, member_rank, fetch_of_fn, Collective.run_result_bind, if_neg talks,
    Collective.run_round_bind, member_others]
  refine ⟨tag, _, _, rfl, ⟨other, Wire.count.size, Wire.count.encode (Seat.announced (counts other))⟩, ?_, rfl⟩
  rw [List.map_map]
  exact List.mem_map.mpr ⟨other, (mem_peers me other).mpr different, rfl⟩

theorem exchange_bytes_awaits (me other : Fin n) (buffers : List Bytes) (tag : UInt16) (length : buffers.length = n)
    (different : other ≠ me) : ((Seat.member me).exchangeBytes buffers tag).run.Awaits other.val := by
  let sizes := (buffers.map fun b => if b.length < UInt32.size then b else []).map List.length
  have opening := exchange_counts_awaits me other (fun target : Fin n => sizes.getD target 0) tag different
  rw [of_fn_get_d sizes 0 (by simp [sizes, length])] at opening
  exact Program.bind_awaits _ _ _ opening

end Group

end Seam
