import Ethersex.GuardedRuns
import Ethersex.TftpServer

/-!
# Downloads from the TFTP server

A client requests a file and acknowledges the blocks it receives.  The server
answers every acknowledgement on its own, so a client may send any block number at
any time: the acknowledgement of the last block sent, an old one again, or one of a
block that was never sent.
-/

namespace Ethersex.Tftp

open GuardedRuns

/-- A packet of the client, the read request or the acknowledgement of a block, with
the answer to it. -/
abbrev Exchange := Option UInt16 × Option Reply

structure Session where
  server : Server
  log : List Exchange

def beginDownload (server : Server) (raw : List UInt8) : Option Session :=
  (handleReadRequest server raw).map fun handled => ⟨handled.1, [(none, handled.2)]⟩

def acknowledge (session : Session) (block : UInt16) : Option Session :=
  (handleAck session.server block).map fun handled =>
    ⟨handled.1, session.log ++ [(some block, handled.2)]⟩

/-- The log of a correct download. -/
structure Serves (file : Content) (log : List Exchange) : Prop where
  /-- Every block sent holds the bytes of its number. -/
  exactBytes : ∀ request block bytes, (request, some (.data block bytes)) ∈ log →
    1 ≤ block.toNat ∧ bytes = blockOf file block.toNat
  /-- No block is skipped. -/
  inOrder : ∀ before after request block bytes,
    log = before ++ (request, some (.data block bytes)) :: after → 2 ≤ block.toNat →
      ∃ earlier previous, (earlier, some (.data (block - 1) previous)) ∈ before
  /-- A repeated acknowledgement gets the same block again. -/
  repeated : ∀ before after block bytes reply,
    log = before ++ (some block, some (.data (block + 1) bytes)) :: (some block, reply) :: after →
      ∃ again, reply = some (.data (block + 1) again)

/-- The acknowledgements the server handles correctly: not the one before the last block
sent, again; not the one after it while the file is not finished; and after the
connection was closed by an error none that it accepts. -/
def Acknowledgeable (session : Session) (block : UInt16) : Prop :=
  let state := session.server.state
  ¬ (state.fh ≠ none ∧ 1 ≤ block.toNat ∧ block.toNat + 1 = state.transfered.toNat) ∧
  ¬ (state.finished = false ∧ block.toNat = state.transfered.toNat + 1) ∧
  ¬ (state.fh = none ∧ state.finished = false ∧ block = state.transfered ∧ block.toNat < 65535)

instance (session : Session) (block : UInt16) : Decidable (Acknowledgeable session block) :=
  inferInstanceAs (Decidable (_ ∧ _ ∧ _))

theorem eq_snoc_cases {Entry : Type*} {log before after : List Entry} {last entry : Entry}
    (split : log ++ [last] = before ++ entry :: after) :
    (after = [] ∧ log = before ∧ last = entry) ∨
      ∃ rest, after = rest ++ [last] ∧ log = before ++ entry :: rest := by
  rcases List.eq_nil_or_concat after with rfl | ⟨rest, other, rfl⟩
  · left
    simpa using List.append_inj' split rfl
  · right
    rw [List.concat_eq_append, ← List.cons_append, ← List.append_assoc] at split
    obtain ⟨front, back⟩ := List.append_inj' split rfl
    exact ⟨rest, by simpa using back.symm, front⟩

/-- The first block answers the read request. -/
theorem Serves.first (file : Content) : Serves file [(none, some (.data 1 (blockOf file 1)))] where
  exactBytes request block bytes member := by
    simp only [List.mem_singleton, Prod.mk.injEq, Option.some.injEq, Reply.data.injEq] at member
    obtain ⟨-, rfl, rfl⟩ := member
    exact ⟨le_rfl, rfl⟩
  inOrder before after request block bytes split second := by
    have member : (request, some (Reply.data block bytes)) ∈
        [((none : Option UInt16), some (Reply.data 1 (blockOf file 1)))] := by
      rw [split]
      simp
    simp only [List.mem_singleton, Prod.mk.injEq, Option.some.injEq, Reply.data.injEq] at member
    rw [member.2.1] at second
    exact absurd second (by decide)
  repeated before after block bytes reply split := by
    have length := congrArg List.length split
    simp only [List.length_append, List.length_cons, List.length_nil] at length
    omega

/-- A correct log extended by an exchange whose acknowledgement was not a repeated one. -/
theorem Serves.snoc {file : Content} {log : List Exchange} (serves : Serves file log)
    {block : UInt16} {reply : Option Reply}
    (exactBytes : ∀ number bytes, reply = some (.data number bytes) →
      1 ≤ number.toNat ∧ bytes = blockOf file number.toNat)
    (inOrder : ∀ number bytes, reply = some (.data number bytes) → 2 ≤ number.toNat →
      ∃ earlier previous, (earlier, some (.data (number - 1) previous)) ∈ log)
    (fresh : ∀ bytes, log.getLast? ≠ some (some block, some (.data (block + 1) bytes))) :
    Serves file (log ++ [(some block, reply)]) where
  exactBytes request number bytes member := by
    rcases List.mem_append.1 member with old | new
    · exact serves.exactBytes request number bytes old
    · simp only [List.mem_singleton, Prod.mk.injEq] at new
      exact exactBytes number bytes new.2.symm
  inOrder before after request number bytes split second := by
    rcases eq_snoc_cases split with ⟨-, rfl, last⟩ | ⟨rest, -, front⟩
    · simp only [Prod.mk.injEq] at last
      exact inOrder number bytes last.2 second
    · exact serves.inOrder before rest request number bytes front second
  repeated before after number bytes answer split := by
    rcases eq_snoc_cases split with ⟨impossible, -⟩ | ⟨rest, tail, front⟩
    · cases impossible
    · cases rest with
      | nil =>
          simp only [List.nil_append, List.cons.injEq, Prod.mk.injEq, Option.some.injEq] at tail
          obtain ⟨⟨rfl, -⟩, -⟩ := tail
          exact absurd (by simp [front]) (fresh bytes)
      | cons entry rest =>
          simp only [List.cons_append, List.cons.injEq] at tail
          rw [← tail.1] at front
          exact serves.repeated before rest number bytes answer front

theorem toNat_succ {block : UInt16} (positive : 1 ≤ (block + 1).toNat) :
    (block + 1).toNat = block.toNat + 1 := by
  have bound := block.toNat_lt
  rw [UInt16.toNat_add] at positive ⊢
  simp only [UInt16.reduceToNat] at positive ⊢
  omega

/-- The block of an open file that is sent after the last one. -/
def nextBlock (file : Content) (state : ConnectionState) : Content :=
  (file.drop (state.transfered.toNat * 512)).take 512

theorem sendData_open {server : Server} {fh : FileHandle} {file : Content}
    (isOpen : server.state.fh = some fh) (unfinished : server.state.finished = false)
    (stored : server.files fh.name = some file) :
    sendData server =
      some (⟨server.files, { server.state with
          fh := some ⟨fh.name, server.state.transfered.toNat * 512 +
            (nextBlock file server.state).length⟩
          finished := decide ((nextBlock file server.state).length < 512)
          transfered := server.state.transfered + 1 }⟩,
        some (.data (server.state.transfered + 1) (nextBlock file server.state))) := by
  simp only [sendData, unfinished, Bool.false_eq_true, if_false, isOpen, vfsFseek, vfsRead, stored,
    Option.map_some, nextBlock]
  rfl

/-- What holds of a session between two acknowledgements. -/
structure Downloading (name : Filename) (file : Content) (session : Session) : Prop where
  stored : session.server.files name = some file
  downloading : session.server.state.download = true
  serves : Serves file session.log
  /-- The answer to the last acknowledgement was a block while the file is open. -/
  last : match session.server.state.fh with
    | some fh => fh.name = name ∧ 1 ≤ session.server.state.transfered.toNat ∧
        ∃ bytes, session.log.getLast? =
          some (if session.server.state.transfered = 1 then none
            else some (session.server.state.transfered - 1),
            some (.data session.server.state.transfered bytes))
    | none => ∀ request block bytes,
        session.log.getLast? ≠ some (request, some (.data block bytes))

namespace Downloading

variable {name : Filename} {file : Content} {session : Session}

/-- An acknowledgeable block is not acknowledged a second time. -/
theorem fresh (downloading : Downloading name file session) {block : UInt16}
    (allowed : Acknowledgeable session block) (bytes : Content) :
    session.log.getLast? ≠ some (some block, some (.data (block + 1) bytes)) := by
  intro again
  have last := downloading.last
  split at last
  · rename_i fh isOpen
    obtain ⟨-, positive, sent, logged⟩ := last
    rw [again] at logged
    simp only [Option.some.injEq, Prod.mk.injEq, Reply.data.injEq] at logged
    obtain ⟨request, number, -⟩ := logged
    rw [← number] at request positive
    have next := toNat_succ positive
    have first : block ≠ 0 := by
      rintro rfl
      simp at request
    refine allowed.1 ⟨by simp [isOpen], ?_, by rw [← number, next]⟩
    exact Nat.one_le_iff_ne_zero.2 fun zero => first (UInt16.toNat_inj.1 zero)
  · exact last _ _ _ again

/-- An error closes the connection. -/
theorem errorOut (downloading : Downloading name file session) {block : UInt16}
    (allowed : Acknowledgeable session block) :
    Downloading name file
      ⟨closeConnection session.server, session.log ++ [(some block, some .error)]⟩ where
  stored := downloading.stored
  downloading := downloading.downloading
  serves := downloading.serves.snoc (by simp) (by simp) (downloading.fresh allowed)
  last := by simp [closeConnection]

/-- The acknowledgement of a finished file closes the connection. -/
theorem close (downloading : Downloading name file session) {block : UInt16}
    (allowed : Acknowledgeable session block) :
    Downloading name file
      ⟨closeConnection { session.server with state :=
        { session.server.state with transfered := block } },
        session.log ++ [(some block, none)]⟩ where
  stored := downloading.stored
  downloading := downloading.downloading
  serves := downloading.serves.snoc (by simp) (by simp) (downloading.fresh allowed)
  last := by simp [closeConnection]

/-- The block after the last one. -/
theorem sendData_next (downloading : Downloading name file session) {fh : FileHandle}
    (isOpen : session.server.state.fh = some fh)
    (unfinished : session.server.state.finished = false)
    (room : session.server.state.transfered.toNat < 65535)
    (allowed : Acknowledgeable session session.server.state.transfered) :
    ∃ next reply, sendData session.server = some (next, reply) ∧
      Downloading name file
        ⟨next, session.log ++ [(some session.server.state.transfered, reply)]⟩ := by
  have last := downloading.last
  rw [isOpen] at last
  obtain ⟨rfl, positive, sent, logged⟩ := last
  have fresh := downloading.fresh allowed
  generalize sentBefore : session.server.state.transfered = number at *
  have following : (number + 1).toNat = number.toNat + 1 := by
    simp only [UInt16.toNat_add, UInt16.reduceToNat]
    omega
  have notFirst : number + 1 ≠ 1 := by
    rw [ne_eq, ← UInt16.toNat_inj, following]
    simp only [UInt16.reduceToNat]
    omega
  have content : nextBlock file session.server.state = blockOf file (number + 1).toNat := by
    rw [blockOf, following, Nat.add_sub_cancel, nextBlock, sentBefore, mul_comm]
  refine ⟨_, _, sendData_open isOpen unfinished downloading.stored,
    downloading.stored, downloading.downloading, ?_, ?_⟩
  · rw [sentBefore, content]
    refine downloading.serves.snoc ?_ ?_ fresh
    · intro block bytes isData
      cases isData
      exact ⟨by omega, rfl⟩
    · intro block bytes isData second
      cases isData
      rw [UInt16.add_sub_cancel]
      exact ⟨_, sent, List.mem_of_getLast? logged⟩
  · refine ⟨rfl, by simp only [sentBefore]; omega, nextBlock file session.server.state, ?_⟩
    simp [sentBefore, notFirst]

end Downloading

/-- The two ways `tftp_handle_packet` takes an acknowledgement of a download. -/
theorem handleAck_cases (server : Server) (block : UInt16)
    (downloading : server.state.download = true) :
    handleAck server block = errorOut server ∨
      server.state.transfered.toNat ≤ block.toNat ∧
        block.toNat ≤ server.state.transfered.toNat + 1 ∧
        server.state.transfered.toNat < 65535 ∧
        handleAck server block =
          sendData { server with state := { server.state with transfered := block } } := by
  simp only [handleAck, downloading, Bool.true_eq_false, if_false]
  split
  · exact Or.inl rfl
  · rename_i accepted
    simp only [not_or, gt_iff_lt, UInt16.lt_iff_toNat_lt, UInt16.toNat_add, UInt16.reduceToNat]
      at accepted
    have bound := block.toNat_lt
    have sentBound := server.state.transfered.toNat_lt
    refine Or.inr ⟨by omega, by omega, by omega, ?_⟩
    rw [← downloading]

/-- Every allowed acknowledgement is handled correctly. -/
theorem Downloading.acknowledge {name : Filename} {file : Content} {session : Session}
    (downloading : Downloading name file session) {block : UInt16}
    (allowed : Acknowledgeable session block) :
    ∃ next, acknowledge session block = some next ∧ Downloading name file next := by
  rcases handleAck_cases session.server block downloading.downloading with
    refused | ⟨lower, upper, room, accepted⟩
  · refine ⟨_, ?_, downloading.errorOut allowed⟩
    rw [Tftp.acknowledge, refused]
    rfl
  · cases ended : session.server.state.finished with
    | true =>
        refine ⟨_, ?_, downloading.close allowed⟩
        rw [Tftp.acknowledge, accepted, sendData, if_pos ended]
        rfl
    | false =>
        have notLater := allowed.2.1
        have notClosed := allowed.2.2
        have same : block = session.server.state.transfered := by
          rw [← UInt16.toNat_inj]
          simp only [ended, true_and] at notLater
          omega
        subst same
        cases isOpen : session.server.state.fh with
        | none => exact absurd ⟨isOpen, ended, rfl, room⟩ notClosed
        | some fh =>
            obtain ⟨next, reply, sent, downloadingNext⟩ :=
              downloading.sendData_next isOpen ended room allowed
            refine ⟨_, ?_, downloadingNext⟩
            rw [Tftp.acknowledge, accepted, sent]
            rfl

theorem beginDownload_downloading (server : Server) (raw : List UInt8) (file : Content)
    (stored : server.files (filename raw) = some file) :
    ∃ start, beginDownload server raw = some start ∧ Downloading (filename raw) file start := by
  have opened : vfsOpen server.files (filename raw) = some ⟨filename raw, 0⟩ := by
    simp [vfsOpen, stored]
  have sent := @sendData_open ⟨server.files, ⟨some ⟨filename raw, 0⟩, true, false, 0⟩⟩
    ⟨filename raw, 0⟩ file rfl rfl stored
  have content : nextBlock file ⟨some ⟨filename raw, 0⟩, true, false, 0⟩ = blockOf file 1 := by
    simp [nextBlock, blockOf]
  simp only [content] at sent
  refine ⟨_, by simp [beginDownload, handleReadRequest, opened, sent]; rfl, stored, rfl, ?_, ?_⟩
  · exact Serves.first file
  · exact ⟨rfl, le_of_eq rfl, blockOf file 1, rfl⟩

/-- In a download without repeated acknowledgements, acknowledgements of unsent blocks and
acknowledgements after an error, every answer is right. -/
theorem serves_of_guarded_run (server : Server) (raw : List UInt8) (file : Content)
    (stored : server.files (filename raw) = some file) (blocks : List UInt16) :
    ∃ start, beginDownload server raw = some start ∧
      (Guarded acknowledge Acknowledgeable start blocks →
        ∃ final, run acknowledge start blocks = some final ∧ Serves file final.log) := by
  obtain ⟨start, began, downloading⟩ := beginDownload_downloading server raw file stored
  refine ⟨start, began, fun guarded => ?_⟩
  obtain ⟨final, reached, downloadingFinal⟩ :=
    guarded.exists_run (fun _ _ downloading allowed => downloading.acknowledge allowed) downloading
  exact ⟨final, reached, downloadingFinal.serves⟩

/-- A server that stores one file of 600 bytes. -/
def serverOf600 : Server :=
  ⟨fun name => if name = [102] then some (List.replicate 600 65) else none,
    ⟨none, false, false, 0⟩⟩

theorem serverOf600_stored :
    serverOf600.files (filename [102, 0]) = some (List.replicate 600 65) := by
  have name : filename [102, 0] = [102] := by decide
  simp only [serverOf600, name, if_true]

/-- Both blocks are acknowledged once, in their order. -/
theorem serves_two_blocks :
    ∃ start final, beginDownload serverOf600 [102, 0] = some start ∧
      run acknowledge start [1, 2] = some final ∧ Serves (List.replicate 600 65) final.log := by
  obtain ⟨start, began, served⟩ :=
    serves_of_guarded_run serverOf600 [102, 0] (List.replicate 600 65) serverOf600_stored [1, 2]
  have guarded : ∀ start ∈ beginDownload serverOf600 [102, 0],
      Guarded acknowledge Acknowledgeable start [1, 2] := by
    decide +kernel
  obtain ⟨final, reached, serves⟩ := served (guarded start began)
  exact ⟨start, final, began, reached, serves⟩

/-- The acknowledgement of block 1, repeated because block 2 was lost, gets an error. -/
theorem repeated_ack_not_serves :
    ¬ ∀ server raw file, server.files (filename raw) = some file → ∀ blocks : List UInt16,
      ∃ start final, beginDownload server raw = some start ∧
        run acknowledge start blocks = some final ∧ Serves file final.log := by
  intro always
  obtain ⟨start, final, began, reached, serves⟩ :=
    always serverOf600 [102, 0] (List.replicate 600 65) serverOf600_stored [1, 1]
  have logged : ((beginDownload serverOf600 [102, 0]).bind fun start =>
      run acknowledge start [1, 1]).map Session.log =
        some [(none, some (.data 1 (List.replicate 512 65))),
          (some 1, some (.data 2 (List.replicate 88 65))), (some 1, some .error)] := by
    decide +kernel
  simp only [began, Option.bind_some, reached, Option.map_some, Option.some.injEq] at logged
  obtain ⟨again, answered⟩ := serves.repeated
    [(none, some (.data 1 (List.replicate 512 65)))] [] 1 (List.replicate 88 65)
      (some .error) logged
  cases answered

end Ethersex.Tftp
