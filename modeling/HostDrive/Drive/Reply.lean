import HostDrive.Guest.Basic

/-!
# Replies

What a driver routine answers, as data. Everything that the guest notices is in a reply:

- the **status** goes to register A, and the carry flag tells whether it is a failure;
- only a success can write memory, and then one run of bytes;
- `deliver` turns a reply into changes of the guest.
-/

namespace HostDrive

/-! ## Status -/

/-- Outcome of a call as the guest sees it. -/
inductive Status where
  | ok
  /-- The directory does not exist. -/
  | noDirectory
  /-- No entry, or no further one. -/
  | noFile
  deriving DecidableEq, Repr

namespace Status

def all : List Status := [ok, noDirectory, noFile]

def code : Status → UInt8
  | ok => 0x00
  | noDirectory => 0xD6
  | noFile => 0xD7

def ofCode? (b : UInt8) : Option Status := all.find? fun status => status.code == b

end Status

/-! ## Replies -/

/-- The answer of a driver routine. -/
inductive Reply where
  /-- Success, with bytes for the guest's memory. -/
  | store (address : UInt16) (bytes : List UInt8)
  /-- Success, with nothing to hand over. -/
  | accept
  /-- Success, with the registers that say that there is room. -/
  | grant
  /-- Failure: the directory does not exist. -/
  | noDirectory
  /-- Failure: no entry, or no further one. -/
  | noFile
  deriving DecidableEq, Repr

namespace Reply

/-- The outcome that a reply stands for. -/
def status : Reply → Status
  | store _ _ => .ok
  | accept => .ok
  | grant => .ok
  | noDirectory => .noDirectory
  | noFile => .noFile

def updateRegisters (reply : Reply) (r : CallRegisters) : CallRegisters :=
  let r := match reply with
    | grant => { r with hl := 0, de := 0, c := 1 }
    | _ => r
  { r with a := reply.status.code, carry := reply.status != .ok }

/-- The guest after the bytes of a reply were written. -/
def writeMemory {γ : Type} [Guest γ] (reply : Reply) (guest : γ) : γ :=
  match reply with
  | store address bytes => Guest.store guest address bytes
  | _ => guest

def deliver {γ : Type} [Guest γ] (reply : Reply) (guest : γ) : γ :=
  let registers := reply.updateRegisters (Guest.registers guest)
  Guest.setRegisters (reply.writeMemory guest) registers

end Reply

end HostDrive
