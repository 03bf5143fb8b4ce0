import Mathlib.Data.List.Basic
import Mathlib.Data.UInt

/-!
# The TFTP server

`services/tftp/tftp-vfs.c` serves files of the virtual file system over TFTP.  One
UDP connection carries one transfer; its state is the direction, the number of
the last block transferred, whether the last block was a short one, and the file
handle.  This file embeds `tftp_handle_packet`.

The virtual file system is an ideal back end: it stores bytes exactly, has room
for every file and reports the number of bytes read and written.  Block numbers
are 16 bits wide, and so is the target's `int`.  Using the handle of a closed
connection, a null pointer, has no result.
-/

namespace Ethersex.Tftp

abbrev Content := List UInt8

abbrev Filename := List UInt8

/-- The files of the virtual file system. -/
abbrev Files := Filename → Option Content

/-- A file handle: the file and the position in it. -/
structure FileHandle where
  name : Filename
  pos : Nat
  deriving DecidableEq, Repr

def vfsOpen (files : Files) (name : Filename) : Option FileHandle :=
  (files name).map fun _ => ⟨name, 0⟩

def vfsCreate (files : Files) (name : Filename) : Files × Option FileHandle :=
  (Function.update files name (some []), some ⟨name, 0⟩)

def vfsOpenOrCreat (files : Files) (name : Filename) : Files × Option FileHandle :=
  match vfsOpen files name with
  | some fh => (files, some fh)
  | none => vfsCreate files name

/-- Seek from the start of the file. -/
def vfsFseek (fh : FileHandle) (offset : Nat) : FileHandle :=
  { fh with pos := offset }

/-- Truncate the file; the result is zero on success. -/
def vfsTruncate (files : Files) (fh : FileHandle) (length : Nat) : Files × Nat :=
  match files fh.name with
  | some content => (Function.update files fh.name (some (content.take length)), 0)
  | none => (files, 1)

/-- The bytes read, or an error. -/
def vfsRead (files : Files) (fh : FileHandle) (length : Nat) : Option (Content × FileHandle) :=
  (files fh.name).map fun content =>
    let bytes := (content.drop fh.pos).take length
    (bytes, { fh with pos := fh.pos + bytes.length })

/-- Overwrite a content from a position on, extending it where it is too short. -/
def overwrite (content : Content) (pos : Nat) (bytes : Content) : Content :=
  content.take pos ++ List.replicate (pos - content.length) 0 ++ bytes ++
    content.drop (pos + bytes.length)

/-- The number of bytes written. -/
def vfsWrite (files : Files) (fh : FileHandle) (bytes : Content) :
    Files × FileHandle × Nat :=
  match files fh.name with
  | some content =>
      (Function.update files fh.name (some (overwrite content fh.pos bytes)),
        { fh with pos := fh.pos + bytes.length }, bytes.length)
  | none => (files, fh, 0)

/-- The received packets.  A request carries its file name and mode as a raw string. -/
inductive Packet where
  | readRequest (raw : List UInt8)
  | writeRequest (raw : List UInt8)
  | data (block : UInt16) (content : Content)
  | ack (block : UInt16)
  | error
  | unknown (type : UInt16)

/-- The packets sent. -/
inductive Reply where
  | data (block : UInt16) (content : Content)
  | ack (block : UInt16)
  | error
  deriving DecidableEq, Repr

/-- `struct tftp_connection_state_t`. -/
structure ConnectionState where
  fh : Option FileHandle
  download : Bool
  finished : Bool
  transfered : UInt16

structure Server where
  files : Files
  state : ConnectionState

/-- The file name of a request ends at its first zero byte. -/
def filename (raw : List UInt8) : Filename :=
  raw.takeWhile (· ≠ 0)

/-- The label `close_connection`. -/
def closeConnection (server : Server) : Server :=
  { server with state := { server.state with fh := none } }

/-- The label `error_out`. -/
def errorOut (server : Server) : Option (Server × Option Reply) :=
  some (closeConnection server, some .error)

/-- The label `send_data`. -/
def sendData (server : Server) : Option (Server × Option Reply) :=
  let state := server.state
  if state.finished then some (closeConnection server, none)
  else
    match state.fh with
    | none => none
    | some fh =>
        let fh := vfsFseek fh (state.transfered.toNat * 512)
        match vfsRead server.files fh 512 with
        | none => errorOut { server with state := { state with fh := some fh } }
        | some (bytes, fh) =>
            some ({ server with state :=
                { state with
                  fh := some fh
                  finished := decide (bytes.length < 512)
                  transfered := state.transfered + 1 } },
              some (.data (state.transfered + 1) bytes))

/-- The label `send_ack`, for the block number left in the packet. -/
def sendAck (server : Server) (block : UInt16) : Option (Server × Option Reply) :=
  if server.state.finished then some (closeConnection server, some (.ack block))
  else some (server, some (.ack block))

def handleReadRequest (server : Server) (raw : List UInt8) : Option (Server × Option Reply) :=
  let fh := vfsOpen server.files (filename raw)
  let server := { server with state := ⟨fh, true, false, 0⟩ }
  if fh = none then errorOut server else sendData server

def handleAck (server : Server) (block : UInt16) : Option (Server × Option Reply) :=
  let state := server.state
  if state.download = false then errorOut server
  else if block < state.transfered ∨ block > state.transfered + 1 then errorOut server
  else sendData { server with state := { state with transfered := block } }

def handleWriteRequest (server : Server) (raw : List UInt8) : Option (Server × Option Reply) :=
  let opened := vfsOpenOrCreat server.files (filename raw)
  match opened.2 with
  | none => errorOut ⟨opened.1, ⟨none, false, false, 0⟩⟩
  | some fh =>
      let truncated := vfsTruncate opened.1 fh 0
      let server := ⟨truncated.1, ⟨some fh, false, false, 0⟩⟩
      if truncated.2 ≠ 0 then errorOut server else sendAck server 0

def handleData (server : Server) (block : UInt16) (content : Content) :
    Option (Server × Option Reply) :=
  let state := server.state
  if state.download = true then errorOut server
  else if block < state.transfered then errorOut server
  else if block = state.transfered then sendAck server block
  else if block > state.transfered + 1 then errorOut server
  else
    match state.fh with
    | none => none
    | some fh =>
        let fh := vfsFseek fh ((block.toNat - 1) * 512)
        let (files, fh, written) := vfsWrite server.files fh content
        if written = 0 then errorOut ⟨files, { state with fh := some fh }⟩
        else
          sendAck ⟨files, { state with
            fh := some fh
            finished := state.finished || decide (content.length < 512)
            transfered := block }⟩ block

/-- `tftp_handle_packet`: the server and the packet sent, if any. -/
def tftpHandlePacket (server : Server) : Packet → Option (Server × Option Reply)
  | .readRequest raw => handleReadRequest server raw
  | .ack block => handleAck server block
  | .writeRequest raw => handleWriteRequest server raw
  | .data block content => handleData server block content
  | .error => errorOut server
  | .unknown _ => errorOut server

/-- Handle packets one after the other, collecting the packets sent. -/
def handlePackets (server : Server) : List Packet → Option (Server × List (Option Reply))
  | [] => some (server, [])
  | packet :: packets => do
      let (next, reply) ← tftpHandlePacket server packet
      let (final, replies) ← handlePackets next packets
      return (final, reply :: replies)

theorem handlePackets_append {server middle : Server} {first : List Packet}
    {replies : List (Option Reply)} (handled : handlePackets server first = some (middle, replies))
    (second : List Packet) :
    handlePackets server (first ++ second) =
      (handlePackets middle second).map fun final => (final.1, replies ++ final.2) := by
  induction first generalizing server replies with
  | nil =>
      simp only [handlePackets, Option.some.injEq, Prod.mk.injEq] at handled
      simp [← handled.1, ← handled.2]
  | cons packet first ih =>
      simp only [handlePackets, Option.bind_eq_bind, Option.bind_eq_some_iff] at handled
      obtain ⟨⟨next, reply⟩, stepped, ⟨last, more⟩, rest, result⟩ := handled
      cases result
      simp only [List.cons_append, handlePackets, stepped, ih rest, Option.bind_eq_bind,
        Option.bind_some]
      cases handlePackets last second <;> rfl

/-- The bytes of a block of a file, counted from one. -/
def blockOf (file : Content) (block : Nat) : Content :=
  (file.drop (512 * (block - 1))).take 512

end Ethersex.Tftp
