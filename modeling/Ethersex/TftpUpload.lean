import Ethersex.TftpServer

/-!
# Uploads to the TFTP server

A client announces a file with a write request and sends it in blocks of 512
bytes, of which the last one is shorter, possibly empty.  Any block but the last may
arrive again, any number of times, before the next one.
-/

namespace Ethersex.Tftp

/-- The number of full blocks of a file. -/
def fullBlocks (file : Content) : Nat :=
  file.length / 512

/-- The first blocks of the file, each one sent again as often as `repeats` says. -/
def deliveries (file : Content) (repeats : Nat → Nat) : Nat → List Packet
  | 0 => []
  | sent + 1 =>
      deliveries file repeats sent ++
        List.replicate (1 + repeats (sent + 1))
          (.data (UInt16.ofNat (sent + 1)) (blockOf file (sent + 1)))

/-- The acknowledgements of `deliveries`. -/
def acknowledgements (repeats : Nat → Nat) : Nat → List (Option Reply)
  | 0 => []
  | sent + 1 =>
      acknowledgements repeats sent ++
        List.replicate (1 + repeats (sent + 1)) (some (.ack (UInt16.ofNat (sent + 1))))

/-- All packets of an upload: the request, the full blocks and the final short block. -/
def uploadPackets (raw : List UInt8) (file : Content) (repeats : Nat → Nat) : List Packet :=
  .writeRequest raw ::
    (deliveries file repeats (fullBlocks file) ++
      [.data (UInt16.ofNat (fullBlocks file + 1)) (blockOf file (fullBlocks file + 1))])

def uploadAcknowledgements (file : Content) (repeats : Nat → Nat) : List (Option Reply) :=
  some (.ack 0) ::
    (acknowledgements repeats (fullBlocks file) ++
      [some (.ack (UInt16.ofNat (fullBlocks file + 1)))])

/-- Every packet of the upload is acknowledged and the file is stored. -/
def Uploads (server : Server) (raw : List UInt8) (file : Content) (repeats : Nat → Nat) : Prop :=
  ∃ final, handlePackets server (uploadPackets raw file repeats) =
      some (final, uploadAcknowledgements file repeats) ∧
    final.files (filename raw) = some file

/-- The first blocks of the file have been received and stored. -/
structure Receiving (name : Filename) (file : Content) (received : Nat) (server : Server) :
    Prop where
  uploading : server.state.download = false
  unfinished : server.state.finished = false
  transfered : server.state.transfered = UInt16.ofNat received
  handle : ∃ pos, server.state.fh = some ⟨name, pos⟩
  stored : server.files name = some (file.take (512 * received))

/-- A write request leaves an empty file open. -/
theorem handleWriteRequest_eq (server : Server) (raw : List UInt8) :
    handleWriteRequest server raw =
      some (⟨Function.update server.files (filename raw) (some []),
        ⟨some ⟨filename raw, 0⟩, false, false, 0⟩⟩, some (.ack 0)) := by
  cases existing : server.files (filename raw) <;>
    simp [handleWriteRequest, vfsOpenOrCreat, vfsOpen, existing, vfsCreate, vfsTruncate, sendAck]

theorem receiving_writeRequest (files : Files) (name : Filename) (file : Content) :
    Receiving name file 0
      ⟨Function.update files name (some []), ⟨some ⟨name, 0⟩, false, false, 0⟩⟩ where
  uploading := rfl
  unfinished := rfl
  transfered := rfl
  handle := ⟨0, rfl⟩
  stored := by simp

theorem overwrite_blockOf {file : Content} {received : Nat}
    (available : received ≤ fullBlocks file) :
    overwrite (file.take (512 * received)) (512 * received) (blockOf file (received + 1)) =
      file.take (512 * (received + 1)) := by
  have enough : 512 * received ≤ file.length := by
    unfold fullBlocks at available
    omega
  have pieces := List.take_add (l := file) (i := 512 * received) (j := 512)
  simp [overwrite, blockOf, enough, pieces, mul_add, List.drop_eq_nil_of_le]

theorem blockOf_length (file : Content) {received : Nat} (available : received ≤ fullBlocks file) :
    (blockOf file (received + 1)).length =
      if received < fullBlocks file then 512 else file.length % 512 := by
  unfold fullBlocks at *
  simp only [blockOf, Nat.add_sub_cancel, List.length_take, List.length_drop]
  split <;> omega

namespace Receiving

variable {name : Filename} {file : Content} {received : Nat} {server : Server}

/-- The block received last is acknowledged again. -/
theorem again (receiving : Receiving name file received server) (content : Content) :
    handleData server (UInt16.ofNat received) content =
      some (server, some (.ack (UInt16.ofNat received))) := by
  simp [handleData, receiving.uploading, receiving.transfered, sendAck, receiving.unfinished]

/-- The next block is refused when it is empty, else stored and acknowledged. -/
theorem next (receiving : Receiving name file received server)
    (available : received ≤ fullBlocks file) (bounded : received + 1 < 2 ^ 16) :
    ∃ pos, handleData server (UInt16.ofNat (received + 1)) (blockOf file (received + 1)) =
      let files := Function.update server.files name (some (file.take (512 * (received + 1))))
      if blockOf file (received + 1) = [] then
        errorOut ⟨files, ⟨some ⟨name, pos⟩, false, false, UInt16.ofNat received⟩⟩
      else
        sendAck ⟨files, ⟨some ⟨name, pos⟩, false,
            decide ((blockOf file (received + 1)).length < 512), UInt16.ofNat (received + 1)⟩⟩
          (UInt16.ofNat (received + 1)) := by
  obtain ⟨pos, handle⟩ := receiving.handle
  have current : (UInt16.ofNat received).toNat = received :=
    UInt16.toNat_ofNat_of_lt' (Nat.lt_of_succ_lt bounded)
  have following : (UInt16.ofNat (received + 1)).toNat = received + 1 :=
    UInt16.toNat_ofNat_of_lt' bounded
  have notEarly : ¬ UInt16.ofNat (received + 1) < UInt16.ofNat received := by
    rw [UInt16.lt_iff_toNat_lt, current, following]
    omega
  have notAgain : UInt16.ofNat (received + 1) ≠ UInt16.ofNat received := by
    rw [ne_eq, ← UInt16.toNat_inj, current, following]
    omega
  have notLate : ¬ UInt16.ofNat (received + 1) > UInt16.ofNat received + 1 := by
    simp
  refine ⟨512 * received + (blockOf file (received + 1)).length, ?_⟩
  generalize UInt16.ofNat (received + 1) = block at *
  simp [handleData, receiving.uploading, receiving.transfered, receiving.unfinished, handle,
    notEarly, notAgain, notLate, following, vfsWrite, vfsFseek, receiving.stored,
    mul_comm received 512, overwrite_blockOf available]

theorem again_run (receiving : Receiving name file received server) (content : Content)
    (times : Nat) :
    handlePackets server (List.replicate times (.data (UInt16.ofNat received) content)) =
      some (server, List.replicate times (some (.ack (UInt16.ofNat received)))) := by
  induction times with
  | zero => rfl
  | succ times ih =>
      simp [List.replicate_succ, handlePackets, tftpHandlePacket, receiving.again, ih]

/-- A full block is acknowledged and the upload goes on. -/
theorem full (receiving : Receiving name file received server)
    (available : received < fullBlocks file) (bounded : received + 1 < 2 ^ 16) :
    ∃ next, handleData server (UInt16.ofNat (received + 1)) (blockOf file (received + 1)) =
        some (next, some (.ack (UInt16.ofNat (received + 1)))) ∧
      Receiving name file (received + 1) next := by
  obtain ⟨pos, handled⟩ := receiving.next available.le bounded
  have length := blockOf_length file available.le
  rw [if_pos available] at length
  have nonempty : blockOf file (received + 1) ≠ [] := by
    intro empty
    simp [empty] at length
  simp only [nonempty, length, if_false, sendAck, lt_self_iff_false, decide_false,
    Bool.false_eq_true] at handled
  exact ⟨_, handled, rfl, rfl, rfl, ⟨pos, rfl⟩, by simp⟩

/-- The full blocks of a file are received and acknowledged, however often they are sent. -/
theorem deliveries_run (receiving : Receiving name file 0 server) (repeats : Nat → Nat)
    (bounded : fullBlocks file < 2 ^ 16) {sent : Nat} (available : sent ≤ fullBlocks file) :
    ∃ middle, handlePackets server (deliveries file repeats sent) =
        some (middle, acknowledgements repeats sent) ∧
      Receiving name file sent middle := by
  induction sent with
  | zero => exact ⟨server, rfl, receiving⟩
  | succ sent ih =>
      obtain ⟨middle, handled, receivingMiddle⟩ := ih (by omega)
      obtain ⟨next, stepped, receivingNext⟩ := receivingMiddle.full (by omega) (by omega)
      have again := receivingNext.again_run (blockOf file (sent + 1)) (repeats (sent + 1))
      refine ⟨next, ?_, receivingNext⟩
      rw [deliveries, handlePackets_append handled, add_comm 1, List.replicate_succ]
      simp only [handlePackets, tftpHandlePacket, stepped, again, acknowledgements,
        Option.bind_eq_bind, Option.bind_some, Option.pure_def, Option.map_some]
      rw [add_comm 1, List.replicate_succ]

/-- The final block ends the upload: it is stored when it holds a byte, and refused
when it is empty. -/
theorem final (receiving : Receiving name file (fullBlocks file) server)
    (bounded : fullBlocks file + 1 < 2 ^ 16) :
    ∃ last, last.files name = some file ∧
      handleData server (UInt16.ofNat (fullBlocks file + 1)) (blockOf file (fullBlocks file + 1)) =
        some (last, some (if file.length % 512 = 0 then .error
          else .ack (UInt16.ofNat (fullBlocks file + 1)))) := by
  obtain ⟨pos, handled⟩ := receiving.next le_rfl bounded
  have length := blockOf_length file le_rfl
  rw [if_neg (lt_irrefl _)] at length
  have whole : file.take (512 * (fullBlocks file + 1)) = file := by
    unfold fullBlocks
    exact List.take_of_length_le (by omega)
  have short : file.length % 512 < 512 := Nat.mod_lt _ (by decide)
  rw [whole] at handled
  by_cases empty : file.length % 512 = 0
  · have noBytes : blockOf file (fullBlocks file + 1) = [] :=
      List.eq_nil_of_length_eq_zero (length.trans empty)
    simp only [noBytes, if_true, errorOut] at handled ⊢
    refine ⟨_, ?_, by rw [handled, if_pos empty]⟩
    simp [closeConnection]
  · have someBytes : blockOf file (fullBlocks file + 1) ≠ [] := by
      intro noBytes
      simp [noBytes] at length
      omega
    simp only [someBytes, length, short, if_false, sendAck, decide_true, if_true] at handled ⊢
    refine ⟨_, ?_, by rw [handled, if_neg empty]⟩
    simp [closeConnection]

end Receiving

/-- An upload succeeds exactly when its last block is not empty. -/
theorem uploads_iff (server : Server) (raw : List UInt8) (file : Content) (repeats : Nat → Nat)
    (bounded : file.length < 65535 * 512) :
    Uploads server raw file repeats ↔ file.length % 512 ≠ 0 := by
  have blocks : fullBlocks file + 1 < 2 ^ 16 := by
    unfold fullBlocks
    omega
  obtain ⟨middle, handled, receiving⟩ :=
    (receiving_writeRequest server.files (filename raw) file).deliveries_run repeats
      (by omega) le_rfl
  obtain ⟨last, stored, ended⟩ := receiving.final blocks
  have upload : handlePackets server (uploadPackets raw file repeats) =
      some (last, some (.ack 0) :: (acknowledgements repeats (fullBlocks file) ++
        [some (if file.length % 512 = 0 then .error
          else .ack (UInt16.ofNat (fullBlocks file + 1)))])) := by
    simp only [uploadPackets, handlePackets, tftpHandlePacket, handleWriteRequest_eq,
      handlePackets_append handled, ended, Option.bind_eq_bind, Option.bind_some, Option.pure_def,
      Option.map_some]
  rw [Uploads, upload]
  by_cases empty : file.length % 512 = 0
  · simp [uploadAcknowledgements, empty]
  · simp [uploadAcknowledgements, empty, stored]

/-- A server without files and without a connection. -/
def idleServer : Server :=
  ⟨fun _ => none, ⟨none, false, false, 0⟩⟩

theorem uploads_two_blocks :
    Uploads idleServer [102, 0] (List.replicate 600 65) (fun _ => 3) :=
  (uploads_iff idleServer [102, 0] (List.replicate 600 65) (fun _ => 3)
    (by rw [List.length_replicate]; decide)).2 (by rw [List.length_replicate]; decide)

/-- The single block of an empty file is answered with an error. -/
theorem empty_file_not_uploads :
    ¬ ∀ server raw file repeats, file.length < 65535 * 512 →
      Uploads server raw file repeats := by
  intro always
  obtain ⟨final, handled, -⟩ := always idleServer [102, 0] [] (fun _ => 0) (by decide)
  have refused : (handlePackets idleServer (uploadPackets [102, 0] [] fun _ => 0)).map Prod.snd ≠
      some (uploadAcknowledgements [] fun _ => 0) := by
    decide +kernel
  exact refused (congrArg (Option.map Prod.snd) handled)

end Ethersex.Tftp
