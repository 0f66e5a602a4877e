import HostDrive.Drive.Basic

/-!
# The Guard

The driver's routines are never run by the guest's processor: before each instruction the guard
looks whether one is being entered, and if so the drive answers in its place.

An address alone is not enough, as every device of the machine can show in that page. So the guard
asks for two more things:

1. the page shows memory with the driver's **signature**, once, when a routine is first entered;
   what shows there then is the driver's **token**;
2. the page shows what the token says, each time.

If one is missing, the guest's own code runs.
-/

namespace HostDrive

/-! ## The driver module -/

/-- The page that the driver module lives in. -/
def driverPage : Page := 1

def signatureAddress : UInt16 := 0x4000

/-- The text that marks the driver module. -/
def signatureText : String := "FileSysDriver"

/-- The signature in memory, with its zero byte. -/
def signature : List UInt8 := Guest.rawText signatureText

/-! ## Tokens -/

/-- What shows in the driver's page while the driver module does. -/
structure Token where
  device : DeviceId
  block : UInt8
  deriving DecidableEq, Repr

namespace Token

/-- What shows in the driver's page right now, if it is memory in blocks. -/
def shown? {γ : Type} [Slots γ] (guest : γ) : Option Token :=
  match Slots.deviceInPage guest driverPage with
  | none => none
  | some device => (Slots.blockInPage guest device driverPage).map fun block => ⟨device, block⟩

/-- The token of a driver module that shows right now. -/
def capture? {γ : Type} [Guest γ] [Slots γ] (guest : γ) : Option Token :=
  match shown? guest with
  | none => none
  | some token =>
    if Guest.readBlock (Guest.peek guest) signatureAddress signature.length = signature then
      some token
    else none

/-- Whether the page shows what a token says. -/
def isActive {γ : Type} [Slots γ] (token : Token) (guest : γ) : Bool :=
  shown? guest == some token

end Token

/-! ## Fetches -/

/-- What the guard did before an instruction. -/
inductive Fetch where
  /-- The address is no entry point. -/
  | notHooked
  /-- The address is an entry point, but the driver module does not show. -/
  | passthrough
  /-- The drive answered in place of the routine. -/
  | serviced (entry : EntryPoint) (status : Status)
  deriving DecidableEq, Repr

/-- A drive, and the token of its driver module as soon as that is known. -/
structure Guard where
  drive : Drive
  token : Option Token := none

namespace Guard

/-- The guard with the token of a driver module that shows, unless it knows one already. -/
def identify {γ : Type} [Guest γ] [Slots γ] (guard : Guard) (guest : γ) : Guard :=
  match guard.token with
  | some _ => guard
  | none => { guard with token := Token.capture? guest }

/-- Whether the page shows what the known token says. -/
def seesDriver {γ : Type} [Slots γ] (guard : Guard) (guest : γ) : Bool :=
  guard.token.any fun token => token.isActive guest

/-- Looks at the guest before its next instruction. -/
def beforeFetch {γ : Type} [Guest γ] [Slots γ] (host : Host) (guard : Guard) (guest : γ) :
    Guard × Fetch × γ :=
  match EntryPoint.ofAddress? (Guest.pc guest) with
  | none => (guard, .notHooked, guest)
  | some entry =>
    -- a token that is captured here is kept, also if the drive does not answer
    let guard := guard.identify guest
    if guard.seesDriver guest then
      let { drive, token } := guard
      let (drive, status, guest) := drive.call host entry guest
      ({ drive, token }, .serviced entry status, Guest.forceReturn guest)
    else (guard, .passthrough, guest)

end Guard

end HostDrive
