import Mathlib.Data.List.Basic

/-!
# Return codes, poll bits and packets of the server thread

The server thread code of `libgearman/server_thread.c` passes three kinds of values between
its callers and callees: `gearman_return_t` codes, the `POLLIN` / `POLLOUT` bits of a
connection's `events` and `revents`, and packets. Only the values the file tests by name are
given their own constructor; every other code a callee may report is `other`.

A `Failure` is a code that is neither `GEARMAN_SUCCESS` nor `GEARMAN_IO_WAIT`. The socket
callees of the file report one of these three kinds of outcome, so their scripted outcomes
carry a `Failure` and cannot be built with a code that would be read as progress.
-/

namespace Gearman

/-- The `gearman_return_t` values named in `server_thread.c`. -/
inductive GearmanReturn where
  | success
  | ioWait
  | shutdown
  | shutdownGraceful
  | memoryAllocationFailure
  | pthread
  | other (code : Nat)
  deriving DecidableEq, Repr

/-- A code that stops a loop of the server thread: neither progress nor a blocked socket. -/
structure Failure where
  code : GearmanReturn
  not_success : code ≠ .success
  not_ioWait : code ≠ .ioWait
  deriving DecidableEq, Repr

namespace Failure

def memory : Failure := ⟨.memoryAllocationFailure, nofun, nofun⟩

def other (n : Nat) : Failure := ⟨.other n, nofun, nofun⟩

end Failure

/-- The `POLLIN` and `POLLOUT` bits of a `short` poll mask. -/
structure Events where
  pollin : Bool
  pollout : Bool
  deriving DecidableEq, Repr

/-- `POLLIN` alone, the mask `_thread_packet_flush` restores once the queue is drained. -/
def Events.pollinOnly : Events := ⟨true, false⟩

/-- `events &= ~revents`: the bits a poll reported leave the mask it watches. -/
def Events.clear (events revents : Events) : Events :=
  ⟨events.pollin && !revents.pollin, events.pollout && !revents.pollout⟩

/-- `GEARMAN_COMMAND_NOOP` in the numbering of `gearman_command_t`. -/
def commandNoop : Nat := 6

/-- An outbound `gearman_packet_st`: its command and its arguments. -/
structure Packet where
  command : Nat
  args : List Nat
  deriving DecidableEq, Repr

/-- The packet `NOOP` a sleeping worker is woken with. -/
def Packet.noop : Packet := ⟨commandNoop, []⟩

end Gearman
