import Mathlib.Data.Fin.VecNotation
import Mathlib.Order.Bounds.Defs
import Seam.Proofs.Group.Collectives
import Seam.Proofs.Group.Orderly
import Seam.Proofs.Group.Scripts

set_option autoImplicit false

namespace Seam.Group

open Program (scripted calls heardBy)

variable {n : Nat}

theorem exchange_transposes (tag : UInt16) (buffers : Fin n → Fin n → Bytes)
    (light : ∀ source target, (buffers source target).length < UInt32.size) :
    Network.Settles (fun me => ((Seat.member me).exchangeBytes (List.ofFn (buffers me)) tag).run)
      fun me => .ok (List.ofFn fun source => buffers source me) := by
  have steps := exchange_bytes_lockstep buffers tag
  have received : exchanged buffers = fun me => .ok (List.ofFn fun source => buffers source me) :=
    funext fun me => exchanged_light buffers me light
  rw [received] at steps
  exact settles_of_lockstep _ _ (fun me => (Seat.member me).exchange_bytes_orderly _ _) steps

theorem two_ranks_transpose :
    let buffers : Fin 2 → Fin 2 → Bytes := ![![[1], []], ![[2, 2], [3]]]
    (∀ source target, (buffers source target).length < UInt32.size) ∧
      Network.Settles (fun me => ((Seat.member me).exchangeBytes (List.ofFn (buffers me)) 65535).run)
        fun me => .ok (![[[1], [2, 2]], [[], [3]]] me) := by
  intro buffers
  have light : ∀ source target, (buffers source target).length < UInt32.size := by decide
  have columns : ∀ me, (List.ofFn fun source => buffers source me) = ![[[1], [2, 2]], [[], [3]]] me := by decide
  have settles := exchange_transposes 65535 buffers light
  simp only [columns] at settles
  exact ⟨light, settles⟩

theorem peers_ascending (me : Fin n) : (peers me).Pairwise (· < ·) := (List.pairwise_lt_finRange n).filter _

theorem peers_before_least (me : Fin n) (odd : Fin n → Prop) (peer : Fin n) (least : IsLeast {other | other ≠ me ∧ odd other} peer) :
    ∃ before after, peers me = before ++ peer :: after ∧ ∀ other ∈ before, ¬ odd other := by
  obtain ⟨⟨different, _⟩, lowest⟩ := least
  obtain ⟨before, after, split⟩ := List.append_of_mem ((mem_peers me peer).mpr different)
  refine ⟨before, after, split, fun other member wrong => ?_⟩
  have among : other ∈ peers me := by simp [split, member]
  have above := lowest ⟨(mem_peers me other).mp among, wrong⟩
  have ascending := peers_ascending me
  rw [split] at ascending
  have below := (List.pairwise_append.mp ascending).2.2 other member peer (by simp)
  exact absurd below (not_lt_of_ge above)

section Checks

variable {β : Type} (me : Fin n) (fine : Fin n → Prop) [DecidablePred fine] (value : Fin n → β) (reason : Fin n → Error)

def checked : Result (List β) := (peers me).mapM fun other => if fine other then .ok (value other) else refuse (reason other)

theorem checked_ok_iff (values : List β) : checked me fine value reason = .ok values ↔
    (∀ other, other ≠ me → fine other) ∧ values = (peers me).map value := by
  have every (all : ∀ other, other ≠ me → fine other) : checked me fine value reason = .ok ((peers me).map value) :=
    map_m_ok _ _ _ fun other member => if_pos (all other ((mem_peers me other).mp member))
  constructor
  · intro ok
    have all : ∀ other, other ≠ me → fine other := by
      intro other different
      obtain ⟨result, passed⟩ := map_m_each _ _ _ ok other ((mem_peers me other).mpr different)
      by_contra wrong
      rw [if_neg wrong] at passed
      cases passed
    exact ⟨all, Except.ok.inj (ok.symm.trans (every all))⟩
  · rintro ⟨all, rfl⟩
    exact every all

theorem checked_least (peer : Fin n) (least : IsLeast {other | other ≠ me ∧ ¬ fine other} peer) :
    checked me fine value reason = refuse (reason peer) := by
  obtain ⟨before, after, split, passed⟩ := peers_before_least me (fun other => ¬ fine other) peer least
  rw [checked, split]
  exact map_m_first _ before after peer _ (fun other member => ⟨value other, if_pos (not_not.mp (passed other member))⟩)
    (if_neg least.1.2)

end Checks

section Counts

variable (counts : Fin n → Fin n → Nat) (me : Fin n)

theorem first_wide_least (peer : Fin n) (least : IsLeast {other | other ≠ me ∧ UInt32.size ≤ counts me other} peer) :
    Seat.firstWide ((peers me).map (counts me)) = some (counts me peer) := by
  obtain ⟨before, after, split, narrow⟩ := peers_before_least me (fun other => UInt32.size ≤ counts me other) peer least
  have passed : before.find? ((fun count => decide (UInt32.size ≤ count)) ∘ counts me) = none := by
    simpa using narrow
  have wide : UInt32.size ≤ counts me peer := least.1.2
  rw [Seat.firstWide, List.find?_map, split, List.find?_append, passed]
  simp [wide]

theorem told_counts_wide_iff :
    (∃ fault, toldCounts counts me = refuse (.wire fault)) ↔ ∃ other, other ≠ me ∧ UInt32.size ≤ counts me other := by
  constructor
  · rintro ⟨fault, failed⟩
    by_contra none_wide
    have fits : ∀ other, other ≠ me → counts me other < UInt32.size := by simpa using none_wide
    rw [told_counts_narrow counts me fits] at failed
    cases failed
  · rintro ⟨other, different, oversized⟩
    cases found : Seat.firstWide ((peers me).map (counts me)) with
    | some count => exact ⟨.wideCount count, by rw [toldCounts, found]⟩
    | none => exact absurd ((no_wide_count_iff me (counts me)).mp found other different) (Nat.not_lt.mpr oversized)

end Counts

-- A rank with a count that no field holds fails, and names its first one. Each rank still hears from it: a count that fits
-- as it is, and 0 for one that does not. The own count stays at home and may be of any size.
theorem wide_counts_fail_their_senders (counts : Fin n → Fin n → Nat) (tag : UInt16) :
    ∃ results, Network.Settles (fun me => ((Seat.member me).exchangeCounts (List.ofFn (counts me)) tag).run) results ∧
      ∀ me, ((∃ fault, results me = refuse (.wire fault)) ↔ ∃ other, other ≠ me ∧ UInt32.size ≤ counts me other) ∧
        (∀ other, IsLeast {other | other ≠ me ∧ UInt32.size ≤ counts me other} other →
          results me = refuse (.wire (.wideCount (counts me other)))) ∧
        ((∀ other, other ≠ me → counts me other < UInt32.size) → results me = .ok (List.ofFn fun source =>
          if source = me then counts me me else if counts source me < UInt32.size then counts source me else 0)) := by
  have steps := exchange_counts_lockstep counts tag
  refine ⟨toldCounts counts, settles_of_lockstep _ _ (fun _ => Seat.exchange_counts_orderly _ _ _) steps, fun me => ?_⟩
  refine ⟨told_counts_wide_iff counts me, fun other least => ?_, fun fits => ?_⟩
  · rw [toldCounts, first_wide_least counts me other least]
  · rw [told_counts_narrow counts me fits]
    refine congrArg (fun sizes => Except.ok (List.ofFn sizes)) (funext fun source => ?_)
    rw [Function.update_apply]
    rfl

theorem first_of_three_fails_alone :
    let counts : Fin 3 → Fin 3 → Nat := ![![1, 4294967296, 1], ![2, 4294967296, 2], ![3, 3, 3]]
    ∃ results, Network.Settles (fun me => ((Seat.member me).exchangeCounts (List.ofFn (counts me)) 0x2100).run) results ∧
      results 0 = refuse (.wire (.wideCount 4294967296)) ∧ results 1 = .ok [0, 4294967296, 3] ∧ results 2 = .ok [1, 2, 3] := by
  intro counts
  obtain ⟨results, settles, each⟩ := wide_counts_fail_their_senders counts 0x2100
  have lowest : ∀ other : Fin 3, other ≠ 0 ∧ UInt32.size ≤ counts 0 other → 1 ≤ other := by decide
  refine ⟨results, settles, (each 0).2.1 1 ⟨by decide, fun other wide => lowest other wide⟩, ?_, ?_⟩
  · exact ((each 1).2.2 (by decide)).trans (by decide)
  · exact ((each 2).2.2 (by decide)).trans (by decide)

def sizeFault : Option Bytes → LinkFault
  | none => .sizeNothing
  | some data => .sizeLength 4 data.length

def payloadFault (announced : Nat) : Option Bytes → LinkFault
  | none => .payloadNothing
  | some data => .payloadLength announced data.length

-- A message that does not come is as long as an empty one, which is the right length only where nothing was announced.
theorem check_size_eq (peer : Nat) (message : Option Bytes) : Seat.checkSize peer message =
    if (message.getD []).length = 4 then .ok (Wire.ofLittleEndian (message.getD []))
    else refuse (.link peer (sizeFault message)) := by
  cases message with
  | none => rfl
  | some data =>
      by_cases whole : data.length = 4
      · have all : data.take 4 = data := List.take_of_length_le (Nat.le_of_eq whole)
        simp [Seat.checkSize, Wire.count, whole, all]
      · simp [Seat.checkSize, Wire.count, whole, sizeFault]

theorem check_payload_eq (peer announced : Nat) (message : Option Bytes) : Seat.checkPayload peer announced message =
    if (message.getD []).length = announced then .ok (message.getD [])
    else refuse (.link peer (payloadFault announced message)) := by
  cases message with
  | none =>
      by_cases nothing : announced = 0
      · simp [Seat.checkPayload, nothing]
      · simp [Seat.checkPayload, nothing, Ne.symm nothing, payloadFault]
  | some data => simp [Seat.checkPayload, payloadFault]

def posted (me : Fin n) (tag : UInt16) (length : Fin n → Nat) (data : Fin n → Bytes) : List Program.Call :=
  (peers me).map (fun other => .receive other.val tag (length other)) ++
    (peers me).map fun other => .send other.val tag (data other)

theorem calls_posted (me : Fin n) (tag : UInt16) (length : Fin n → Nat) (data : Fin n → Bytes) :
    calls tag ((peers me).map fun other : Fin n => (⟨other.val, length other, data other⟩ : Leg)) =
      posted me tag length data := by
  rw [calls, List.map_map, List.map_map]
  rfl

theorem heard_by_posted (me : Fin n) (tag : UInt16) (length : Fin n → Nat) (data : Fin n → Bytes) :
    heardBy (posted me tag length data) = n - 1 := by
  rw [← calls_posted, Program.heard_by_calls, List.length_map, peers_length]

section Script

variable (me : Fin n) (buffers : Fin n → Bytes) (tag : UInt16) (script : List (Option Bytes))

def announcing : List Program.Call :=
  posted me tag (fun _ => 4) fun other => Wire.littleEndian 4 (capped (buffers other)).length

def announced (other : Fin n) : Nat := Wire.ofLittleEndian ((heard script me 0 other).getD [])

def paying : List Program.Call :=
  posted me (tag + 1) (announced me script) fun other => capped (buffers other)

def sizesTold : Result (List Nat) :=
  checked me (fun other => ((heard script me 0 other).getD []).length = 4) (announced me script)
    fun other => .link other.val (sizeFault (heard script me 0 other))

def payloadsBrought : Result (List Bytes) :=
  checked me (fun other => ((heard script me 1 other).getD []).length = announced me script other)
    (fun other => (heard script me 1 other).getD [])
    fun other => .link other.val (payloadFault (announced me script other) (heard script me 1 other))

theorem counts_scripted (several : n ≠ 1) :
    ((Seat.member me).exchangeCounts (List.ofFn fun other => (capped (buffers other)).length) tag).run.scripted script =
      ((sizesTold me script).map ((Seat.member me).place (capped (buffers me)).length), announcing me buffers tag) := by
  have narrow := (no_wide_count_iff me fun other => (capped (buffers other)).length).mpr fun other _ => capped_length _
  have told : ∀ other, Seat.announced (capped (buffers other)).length = (capped (buffers other)).length :=
    fun other => if_pos (capped_length _)
  have sizes : (peers me).mapM (fun other => Seat.checkSize other.val (heard script me 0 other)) = sizesTold me script :=
    map_m_congr _ _ _ fun other _ => check_size_eq other.val _
  rw [exchange_counts_round me _ tag several, scripted_round, read_counts_answers, narrow, sizes]
  simp only [told, calls_posted, Program.scripted_done, List.append_nil]
  rfl

theorem exchange_stops (several : n ≠ 1) (e : Failure) (fails : sizesTold me script = .error e) :
    ((Seat.member me).exchangeBytes (List.ofFn buffers) tag).run.scripted script = (.error e, announcing me buffers tag) := by
  rw [exchange_bytes_run, Program.scripted_bind _ _ _ (Seat.exchange_counts_orderly _ _ _), counts_scripted me buffers tag script several, fails]
  simp only [Except.map, proceed, Program.scripted_done, List.append_nil]

theorem exchange_goes_on (several : n ≠ 1) (sizes : sizesTold me script = .ok ((peers me).map (announced me script))) :
    ((Seat.member me).exchangeBytes (List.ofFn buffers) tag).run.scripted script =
      (match Seat.firstWide (List.ofFn fun other => (buffers other).length) with
        | some wide => refuse (.wire (.wideCount wide))
        | none => (payloadsBrought me script).map ((Seat.member me).place (capped (buffers me))),
       announcing me buffers tag ++ paying me buffers tag script) := by
  let known := Function.update (announced me script) me (capped (buffers me)).length
  have same : ∀ other ∈ peers me, known other = announced me script other := fun other member =>
    Function.update_of_ne ((mem_peers me other).mp member) ..
  have legs : ((peers me).map fun other : Fin n => (⟨other.val, known other, capped (buffers other)⟩ : Leg)) =
      (peers me).map fun other : Fin n => (⟨other.val, announced me script other, capped (buffers other)⟩ : Leg) :=
    List.map_congr_left fun other member => by rw [same other member]
  have brought : (peers me).mapM (fun other => Seat.checkPayload other.val (known other) (heard script me 1 other)) =
      payloadsBrought me script :=
    map_m_congr _ _ _ fun other member => by rw [same other member, check_payload_eq]
  have later : heard (script.drop (n - 1)) me 0 = heard script me 1 := by
    have moved := heard_later script me 1 0
    rwa [Nat.one_mul] at moved
  rw [exchange_bytes_run, Program.scripted_bind _ _ _ (Seat.exchange_counts_orderly _ _ _), counts_scripted me buffers tag script several, sizes]
  simp only [Except.map, proceed, place_peers, announcing, heard_by_posted]
  rw [payloads_round me buffers tag known several, scripted_round, later, read_payloads_answers, brought, legs, calls_posted]
  simp only [Program.scripted_done, List.append_nil]
  rfl

theorem exchange_taken (received : List Bytes)
    (ok : (((Seat.member me).exchangeBytes (List.ofFn buffers) tag).run.scripted script).1 = .ok received) :
    received = List.ofFn (Function.update (fun other => (heard script me 1 other).getD []) me (buffers me)) ∧
      heardBy (((Seat.member me).exchangeBytes (List.ofFn buffers) tag).run.scripted script).2 = 2 * (n - 1) := by
  have own (narrow : Seat.firstWide (List.ofFn fun other => (buffers other).length) = none) : capped (buffers me) = buffers me := by
    have light : ∀ other, (buffers other).length < UInt32.size := by simpa [Seat.firstWide] using narrow
    exact capped_light _ (light me)
  by_cases alone : n = 1
  · rw [exchange_bytes_alone me buffers tag alone] at ok ⊢
    simp only [Program.scripted_done, readPayloads, alone_no_peers me alone] at ok ⊢
    cases narrow : Seat.firstWide (List.ofFn fun other => (buffers other).length) with
    | some wide => simp [narrow, refuse] at ok
    | none =>
        have placed := place_peers me (buffers me) fun other => (heard script me 1 other).getD []
        rw [alone_no_peers me alone, List.map_nil] at placed
        rw [narrow, own narrow] at ok
        exact ⟨(Except.ok.inj ok).symm.trans placed, by rw [alone]; rfl⟩
  · cases sizes : sizesTold me script with
    | error e =>
        rw [exchange_stops me buffers tag script alone e sizes] at ok
        cases ok
    | ok told =>
        obtain ⟨all, rfl⟩ := (checked_ok_iff me _ _ _ _).mp sizes
        rw [exchange_goes_on me buffers tag script alone sizes] at ok ⊢
        cases narrow : Seat.firstWide (List.ofFn fun other => (buffers other).length) with
        | some wide => simp [narrow, refuse] at ok
        | none =>
            cases brought : payloadsBrought me script with
            | error e => simp [narrow, brought, Except.map] at ok
            | ok payloads =>
                obtain ⟨_, rfl⟩ := (checked_ok_iff me _ _ _ _).mp brought
                rw [narrow, brought, own narrow] at ok
                refine ⟨(Except.ok.inj ok).symm.trans (place_peers me (buffers me) _), ?_⟩
                have first := heard_by_posted me tag (fun _ => 4) fun other => Wire.littleEndian 4 (capped (buffers other)).length
                have second := heard_by_posted me (tag + 1) (announced me script) fun other => capped (buffers other)
                rw [heardBy, List.countP_append]
                exact (congrArg₂ (· + ·) first second).trans (Nat.two_mul _).symm

end Script

section Gathering

variable (me : Fin n) (script : List (Option Bytes))

def Brings (length : Nat) (other : Fin n) : Prop := (heard script me 0 other).map List.length = some length

instance (length : Nat) : DecidablePred (Brings me script length) := fun _ => inferInstanceAs (Decidable (_ = _))

theorem brought_length (length : Nat) (other : Fin n) (brings : Brings me script length other) :
    ((heard script me 0 other).getD []).length = length := by
  unfold Brings at brings
  cases answer : heard script me 0 other with
  | none => simp [answer] at brings
  | some data => simpa [answer] using brings

def gatherFault (length : Nat) : Option Bytes → LinkFault
  | none => .gatherNothing
  | some data => .gatherLength length data.length

def rowsBrought (length : Nat) : Result (List Bytes) :=
  checked me (Brings me script length) (fun other => (heard script me 0 other).getD [])
    fun other => .link other.val (gatherFault length (heard script me 0 other))

theorem check_gathered_eq (length : Nat) (other : Fin n) : Seat.checkGathered length other.val (heard script me 0 other) =
    if Brings me script length other then .ok ((heard script me 0 other).getD [])
    else refuse (.link other.val (gatherFault length (heard script me 0 other))) := by
  cases answer : heard script me 0 other with
  | none =>
      have missing : ¬ Brings me script length other := by simp [Brings, answer]
      rw [if_neg missing]
      rfl
  | some data =>
      have whole : Brings me script length other ↔ data.length = length := by simp [Brings, answer]
      simp only [whole]
      rfl

theorem gather_into_scripted (data : Bytes) (length : Nat) (room : length = data.length * n) :
    ((Seat.member me).gatherInto data length).run.scripted script =
      ((rowsBrought me script data.length).map fun others => ((Seat.member me).place data others).flatten,
        posted me Seat.gatherTag (fun _ => data.length) fun _ => data) := by
  have rows : (peers me).mapM (fun other => Seat.checkGathered data.length other.val (heard script me 0 other)) =
      rowsBrought me script data.length :=
    map_m_congr _ _ _ fun other _ => check_gathered_eq me script data.length other
  rw [gather_into_round me data length room, scripted_round, filled_answers, rows, calls_posted]
  simp only [Program.scripted_done, List.append_nil]

end Gathering

def readWords (buffer : Bytes) : Result (List UInt64) := (Wire.exactChunks 8 buffer).map (List.map Wire.ofWord)

theorem gather_word_run (s : Seat) (value : UInt64) : (s.gatherWord value).run =
    (s.gatherInto (Wire.word value) (8 * s.ranks)).run.bind fun result => .done (result >>= readWords) := by
  rw [Seat.gatherWord, run_then]
  congr 1
  funext result
  cases result with
  | error e => rfl
  | ok buffer => exact Collective.run_result_map _ _

theorem read_words_rows (rows : List Bytes) (even : ∀ row ∈ rows, row.length = 8) :
    readWords rows.flatten = .ok (rows.map Wire.ofWord) := by
  rw [readWords, exact_chunks_flatten 8 rows (by decide) even]
  rfl

theorem gather_word_taken (me : Fin n) (value : UInt64) (script : List (Option Bytes)) (numbers : List UInt64)
    (ok : (((Seat.member me).gatherWord value).run.scripted script).1 = .ok numbers) :
    numbers = List.ofFn (Function.update (fun other => Wire.ofWord ((heard script me 0 other).getD [])) me value) ∧
      heardBy (((Seat.member me).gatherWord value).run.scripted script).2 = n - 1 := by
  have width : (Wire.word value).length = 8 := Wire.word_length value
  have room : 8 * (Seat.member me).ranks = (Wire.word value).length * n := by rw [member_ranks, width]
  rw [gather_word_run, Program.scripted_finish, gather_into_scripted me script _ _ room] at ok ⊢
  refine ⟨?_, heard_by_posted me Seat.gatherTag _ _⟩
  cases brought : rowsBrought me script (Wire.word value).length with
  | error e =>
      rw [brought] at ok
      cases ok
  | ok rows =>
      obtain ⟨all, rfl⟩ := (checked_ok_iff me _ _ _ _).mp brought
      rw [brought] at ok
      have even : ∀ row ∈ List.ofFn (Function.update (fun other => (heard script me 0 other).getD []) me (Wire.word value)),
          row.length = 8 := by
        intro row member
        obtain ⟨other, rfl⟩ := List.mem_ofFn.mp member
        by_cases own : other = me
        · rw [own, Function.update_self, width]
        · rw [Function.update_of_ne own]
          exact brought_length me script _ other (width ▸ all other own)
      have read : readWords ((Seat.member me).place (Wire.word value) ((peers me).map fun other =>
          (heard script me 0 other).getD [])).flatten = .ok (List.ofFn (Function.update
            (fun other => Wire.ofWord ((heard script me 0 other).getD [])) me value)) := by
        rw [place_peers, read_words_rows _ even, List.map_ofFn, Function.comp_update, Wire.of_word_word]
        rfl
      exact (Except.ok.inj (read.symm.trans ok)).symm

-- One rank of at least two runs an exchange against any script. It asks every peer for four bytes and tells every peer how
-- much is coming; a peer that does not answer with four bytes ends the exchange, the lowest one by name. Otherwise it
-- asks for exactly what was announced and sends every buffer, and takes what came if all of it is as long as announced.
theorem exchange_follows_protocol (me : Fin n) (several : 2 ≤ n) (buffers : Fin n → Bytes)
    (light : ∀ other, (buffers other).length < UInt32.size) (tag : UInt16) (script : List (Option Bytes)) :
    let run := ((Seat.member me).exchangeBytes (List.ofFn buffers) tag).run.scripted script
    let size (peer : Fin n) := (heard script me 0 peer).getD []
    let payload (peer : Fin n) := (heard script me 1 peer).getD []
    let told (peer : Fin n) := Wire.ofLittleEndian (size peer)
    let first := posted me tag (fun _ => 4) fun peer => Wire.littleEndian 4 (buffers peer).length
    let second := posted me (tag + 1) told buffers
    (∀ peer, IsLeast {peer | peer ≠ me ∧ (size peer).length ≠ 4} peer →
      run = (refuse (.link peer.val (sizeFault (heard script me 0 peer))), first)) ∧
    ((∀ peer, peer ≠ me → (size peer).length = 4) →
      run.2 = first ++ second ∧
      (∀ received, run.1 = .ok received ↔
        (∀ peer, peer ≠ me → (payload peer).length = told peer) ∧
          received = List.ofFn (Function.update payload me (buffers me))) ∧
      ∀ peer, IsLeast {peer | peer ≠ me ∧ (payload peer).length ≠ told peer} peer →
        run.1 = refuse (.link peer.val (payloadFault (told peer) (heard script me 1 peer)))) := by
  intro run size payload told first second
  have alone : n ≠ 1 := by omega
  have whole : ∀ other, capped (buffers other) = buffers other := fun other => capped_light _ (light other)
  have opening : announcing me buffers tag = first := by simp only [announcing, whole, first]
  have closing : paying me buffers tag script = second := by simp only [paying, whole, second]; rfl
  refine ⟨fun peer least => ?_, fun answered => ?_⟩
  · have fails : sizesTold me script = _ := checked_least me _ _ _ peer least
    rw [← opening]
    exact exchange_stops me buffers tag script alone _ fails
  · have sizes : sizesTold me script = .ok ((peers me).map (announced me script)) :=
      (checked_ok_iff me _ _ _ _).mpr ⟨answered, rfl⟩
    have narrow : Seat.firstWide (List.ofFn fun other => (buffers other).length) = none := by
      simpa [Seat.firstWide] using light
    have ran : run = ((payloadsBrought me script).map ((Seat.member me).place (buffers me)), first ++ second) := by
      have goes := exchange_goes_on me buffers tag script alone sizes
      rwa [narrow, whole, opening, closing] at goes
    rw [ran]
    refine ⟨rfl, fun received => ?_, fun peer least => ?_⟩
    · rw [← place_peers]
      constructor
      · intro ok
        cases brought : payloadsBrought me script with
        | error e => simp [brought, Except.map] at ok
        | ok payloads =>
            obtain ⟨all, rfl⟩ := (checked_ok_iff me _ _ _ _).mp brought
            rw [brought] at ok
            exact ⟨all, (Except.ok.inj ok).symm⟩
      · rintro ⟨all, rfl⟩
        have brought : payloadsBrought me script = _ := (checked_ok_iff me _ _ _ _).mpr ⟨all, rfl⟩
        rw [brought]
        rfl
    · have fails : payloadsBrought me script = _ := checked_least me _ _ _ peer least
      rw [fails]
      rfl

theorem silent_peer_counts_as_empty :
    let buffers : Fin 3 → Bytes := ![[1], [2], [3, 3]]
    let script := [some [2, 0, 0, 0], some [0, 0, 0, 0], some [9, 9], none]
    2 ≤ 3 ∧ (∀ other, (buffers other).length < UInt32.size) ∧
      ((Seat.member (1 : Fin 3)).exchangeBytes (List.ofFn buffers) 65535).run.scripted script =
        (.ok [[9, 9], [2], []],
         [.receive 0 65535 4, .receive 2 65535 4, .send 0 65535 [1, 0, 0, 0], .send 2 65535 [2, 0, 0, 0],
          .receive 0 0 2, .receive 2 0 0, .send 0 0 [1], .send 2 0 [3, 3]]) := by
  intro buffers script
  have light : ∀ other, (buffers other).length < UInt32.size := by decide
  obtain ⟨_, answered⟩ := exchange_follows_protocol (1 : Fin 3) (by decide) buffers light 65535 script
  obtain ⟨made, taken, _⟩ := answered (by decide)
  refine ⟨by decide, light, Prod.ext ?_ ?_⟩
  · exact (taken _).mpr ⟨by decide, by decide⟩
  · exact made.trans (by decide)

end Seam.Group
